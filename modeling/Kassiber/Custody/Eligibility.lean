import Kassiber.Custody.Canonical
import Kassiber.Custody.Conservation

/-!
Every unresolved issue sets a barrier in the exposure pools it touches; a finalized slice is eligible before its
pool's barrier, or at the barrier's own event.
-/

namespace Kassiber.Custody
open Lib.Outcome Lib.Dict Lib.Sorting List

inductive IssueType where
  | canonicalEventRejected
  | unresolvedQuantity
  | custodyComponentEvidenceDrift
  | componentClaimCompileFailed
  | custodyGapHoldCompileFailed
  | custodyGapReviewHold
  | nativeAuditEvidenceInvalid
  | quantityClaimBundleInvalid
  | custodyInterpreterBlocked
  deriving DecidableEq

structure QuantityIssue where
  issueId : String
  issueType : IssueType
  state : QuantityState
  asset : Option String
  amountMsat : Option Int
  occurredAt : String
  transactionIds : List String
  reason : String
  gapId : Option String := none

structure TaxExposurePool where
  profileId : String
  network : String
  exposure : String
  unit : String
  deriving DecidableEq

namespace TaxExposurePool

def fromObservation (o : QuantityObservation) : TaxExposurePool :=
  let domain := QuantityDomain.fromObservation o
  { profileId := o.profileId, network := domain.network, exposure := domain.exposure, unit := domain.unit }

def order (p : TaxExposurePool) : String ×ₗ String ×ₗ String ×ₗ String :=
  toLex (p.profileId, toLex (p.network, toLex (p.exposure, p.unit)))

end TaxExposurePool

abbrev EventOrder := String ×ₗ String ×ₗ String ×ₗ String ×ₗ String

def EventOrder.make (occurredAt : String) (identity : String ×ₗ String ×ₗ String ×ₗ String) : EventOrder :=
  toLex (occurredAt, identity)

def EventOrder.at (order : EventOrder) : String := (ofLex order).1

def CanonicalQuantityEvent.order (event : CanonicalQuantityEvent) : EventOrder :=
  EventOrder.make ((event.legs.map (·.occurredAt)).min?.getD "") event.eventKey.order

namespace CanonicalQuantityInput

def eventOrderByHash (canonical : CanonicalQuantityInput) (hash : String) : Option EventOrder :=
  lookup (canonical.events.flatMap fun event => event.legs.map fun leg => (leg.quantityHash, event.order)) hash

def poolByHash (canonical : CanonicalQuantityInput) (hash : String) : Option TaxExposurePool :=
  lookup (canonical.observations.map fun leg => (leg.quantityHash, TaxExposurePool.fromObservation leg)) hash

end CanonicalQuantityInput

def rowPool (row : LedgerRow) : Option TaxExposurePool :=
  match resolveProtocolScope row with
  | .error _ => none
  | .ok scope =>
    let asset := row.asset.toUpper
    if asset = "" then none
    else some
      { profileId := row.profileId, network := QuantityDomain.ownerNetwork scope.network
        exposure := QuantityDomain.assetExposure asset, unit := "msat" }

/-- What an issue registers for a pool: an event order and the transactions to resolve. -/
structure Contribution where
  pool : TaxExposurePool
  barrier : EventOrder
  roots : List String

/-- Issues that name the very quantity whose custody evidence failed. -/
def directlyBlocking (issue : QuantityIssue) : Prop :=
  issue.issueType = .nativeAuditEvidenceInvalid ∨ issue.issueType = .custodyGapReviewHold ∨
    issue.issueType = .custodyGapHoldCompileFailed

instance (issue : QuantityIssue) : Decidable (directlyBlocking issue) := inferInstanceAs (Decidable (_ ∨ _ ∨ _))

def directlyBlockedHashes (canonical : CanonicalQuantityInput) (issues : List QuantityIssue) : List String :=
  (issues.filter fun issue => directlyBlocking issue).flatMap fun issue =>
    issue.transactionIds.filterMap canonical.transactionToHash

def knownEvents (canonical : CanonicalQuantityInput) (issue : QuantityIssue) :
    List (TaxExposurePool × EventOrder × String) :=
  issue.transactionIds.filterMap fun transactionId => do
    let hash ← canonical.transactionToHash transactionId
    let order ← canonical.eventOrderByHash hash
    let pool ← canonical.poolByHash hash
    pure (pool, order, transactionId)

def knownContributions (known : List (TaxExposurePool × EventOrder × String)) : List Contribution :=
  (groupBy Prod.fst known).filterMap fun group =>
    (group.2.map fun entry => entry.2.1).min?.map fun barrier =>
      { pool := group.1, barrier
        roots := (group.2.filter fun entry => entry.2.1 = barrier).map fun entry => entry.2.2 }

/-- The pools of an issue that names no observed event: those of its rows, else of its asset, else all. -/
def rejectedPools (canonical : CanonicalQuantityInput) (projection : QuantityProjection)
    (rowsById : List (String × LedgerRow)) (issue : QuantityIssue) : Except PyError (List TaxExposurePool) := do
  let ofRows := issue.transactionIds.filterMap fun transactionId => (lookup rowsById transactionId).bind rowPool
  let ofAsset ←
    if ofRows = [] ∧ (issue.asset.getD "") ≠ "" then
      (projection.observations.filter fun o => some o.asset = issue.asset).mapM fun o =>
        match canonical.poolByHash o.quantityHash with
        | none => .error (.keyError o.quantityHash)
        | some pool => .ok pool
    else pure ofRows
  let everywhere := canonical.observations.filterMap fun leg => canonical.poolByHash leg.quantityHash
  pure (if ofAsset = [] then everywhere else ofAsset).dedup

def contributions (canonical : CanonicalQuantityInput) (projection : QuantityProjection)
    (rowsById : List (String × LedgerRow)) (issue : QuantityIssue) : Except PyError (List Contribution) :=
  if knownEvents canonical issue ≠ [] then .ok (knownContributions (knownEvents canonical issue))
  else if issue.occurredAt = "" then .ok []
  else do
    let pools ← rejectedPools canonical projection rowsById issue
    pure (pools.map fun pool =>
      { pool, barrier := EventOrder.make issue.occurredAt (toLex ("", toLex ("", toLex ("", ""))))
        roots := issue.transactionIds })

abbrev Barriers := List (TaxExposurePool × EventOrder × List String)

def register (barriers : Barriers) (c : Contribution) : Barriers :=
  match barriers with
  | [] => [(c.pool, c.barrier, c.roots)]
  | entry :: rest =>
    if entry.1 = c.pool then
      if c.barrier < entry.2.1 then (c.pool, c.barrier, c.roots) :: rest
      else if c.barrier = entry.2.1 then (entry.1, entry.2.1, entry.2.2 ++ c.roots) :: rest
      else entry :: rest
    else entry :: register rest c

def barrierOf (barriers : Barriers) (pool : TaxExposurePool) : Option EventOrder :=
  (barriers.find? fun entry => entry.1 = pool).map fun entry => entry.2.1

structure QuantityTaxEligibility where
  eligibleDecisions : List ArbitratedSlice
  ineligibleSlices : List QuantitySlice
  blockedFrom : Option String
  barrierEventKey : Option EventOrder
  poolBarriers : List (TaxExposurePool × EventOrder)
  poolBarrierRoots : List (TaxExposurePool × List String)

namespace QuantityTaxEligibility

def barrierFor (e : QuantityTaxEligibility) (o : QuantityObservation) : Option EventOrder :=
  (e.poolBarriers.find? fun entry => entry.1 = TaxExposurePool.fromObservation o).map Prod.snd

def barrierRootsFor (e : QuantityTaxEligibility) (o : QuantityObservation) : List String :=
  ((e.poolBarrierRoots.find? fun entry => entry.1 = TaxExposurePool.fromObservation o).map Prod.snd).getD []

end QuantityTaxEligibility

/-- Only the timestamp is temporal evidence: an event passes before the barrier, or when it is the barrier event. -/
def passes (order : EventOrder) (barrier : Option EventOrder) : Prop := ∀ b ∈ barrier, order.at < b.at ∨ order = b

instance (order : EventOrder) (barrier : Option EventOrder) : Decidable (passes order barrier) :=
  match barrier with
  | none => .isTrue (by simp [passes])
  | some b => decidable_of_iff (order.at < b.at ∨ order = b) (by simp [passes])

def eligibleDecision (canonical : CanonicalQuantityInput) (blocked : List String) (barriers : Barriers)
    (d : ArbitratedSlice) : Except PyError Bool :=
  if d.finalized = false then .ok false
  else if d.source.observationHash ∈ blocked then .ok false
  else match canonical.poolByHash d.source.observationHash, canonical.eventOrderByHash d.source.observationHash with
    | some pool, some order => .ok (decide (passes order (barrierOf barriers pool)))
    | _, _ => .error (.keyError d.source.observationHash)

def judge (canonical : CanonicalQuantityInput) (blocked : List String) (barriers : Barriers) (d : ArbitratedSlice) :
    Except PyError (ArbitratedSlice × Bool) := do
  let eligible ← eligibleDecision canonical blocked barriers d
  pure (d, eligible)

def QuantitySlice.place (s : QuantitySlice) : String ×ₗ Int ×ₗ Int := toLex (s.observationHash, toLex s.range)

def taxEligibility (canonical : CanonicalQuantityInput) (projection : QuantityProjection) (issues : List QuantityIssue)
    (rowsById : List (String × LedgerRow)) : Except PyError QuantityTaxEligibility := do
  let registered ← issues.mapM (contributions canonical projection rowsById)
  let barriers := registered.flatten.foldl register []
  let judged ← projection.decisions.mapM (judge canonical (directlyBlockedHashes canonical issues) barriers)
  let eligible := (judged.filter fun entry => entry.2).map Prod.fst
  let first := (barriers.map fun entry => entry.2.1).min?
  pure
    { eligibleDecisions := eligible
      ineligibleSlices := sortedBy QuantitySlice.place
        ((projection.decisions.map (·.source)).filter fun s => s ∉ eligible.map (·.source))
      blockedFrom := first.map EventOrder.at
      barrierEventKey := first
      poolBarriers := sortedBy (fun entry => toLex (entry.1.order, entry.2))
        (barriers.map fun entry => (entry.1, entry.2.1))
      poolBarrierRoots := sortedBy (fun entry => entry.1.order)
        (barriers.map fun entry => (entry.1, sortedSet entry.2.2)) }

/-- `barrier` is the least order registered for the pool. -/
def LeastOf (registered : Contribution → Prop) (pool : TaxExposurePool) : Option EventOrder → Prop
  | none => ∀ c, registered c → c.pool ≠ pool
  | some barrier => (∃ c, registered c ∧ c.pool = pool ∧ c.barrier = barrier) ∧
      ∀ c, registered c → c.pool = pool → barrier ≤ c.barrier

abbrev Least (registered : List Contribution) : TaxExposurePool → Option EventOrder → Prop := LeastOf (· ∈ registered)

variable {pool : TaxExposurePool}

theorem leastOf_unique {registered : Contribution → Prop} {a b : Option EventOrder}
    (first : LeastOf registered pool a) (second : LeastOf registered pool b) : a = b := by
  cases a with
  | none =>
    cases b with
    | none => rfl
    | some y =>
      obtain ⟨⟨c, held, own, -⟩, -⟩ := second
      exact absurd own (first c held)
  | some x =>
    obtain ⟨⟨c, held, own, value⟩, bound⟩ := first
    cases b with
    | none => exact absurd own (second c held)
    | some y =>
      obtain ⟨⟨d, held', own', value'⟩, bound'⟩ := second
      have below : x ≤ y := value' ▸ bound d held' own'
      have above : y ≤ x := value ▸ bound' c held own
      rw [le_antisymm below above]

theorem barrierOf_register_same (barriers : Barriers) (c : Contribution) :
    barrierOf (register barriers c) c.pool =
      some (match barrierOf barriers c.pool with
        | none => c.barrier
        | some b => min c.barrier b) := by
  induction barriers with
  | nil => simp [register, barrierOf]
  | cons entry rest ih =>
    unfold register
    by_cases same : entry.1 = c.pool
    · rw [if_pos same]
      split
      · rename_i less
        simp [barrierOf, same, min_eq_left (le_of_lt less)]
      · rename_i notLess
        have kept : min c.barrier entry.2.1 = entry.2.1 := min_eq_right (not_lt.1 notLess)
        split <;> simp [barrierOf, same, kept]
    · rw [if_neg same]
      simpa [barrierOf, same] using ih

theorem barrierOf_register_other (barriers : Barriers) {c : Contribution}
    (other : c.pool ≠ pool) : barrierOf (register barriers c) pool = barrierOf barriers pool := by
  induction barriers with
  | nil => simp [register, barrierOf, other]
  | cons entry rest ih =>
    unfold register
    by_cases same : entry.1 = c.pool
    · rw [if_pos same]
      have skipped : entry.1 ≠ pool := fun equal => other (same.symm.trans equal)
      split
      · simp [barrierOf, other, skipped]
      · split <;> simp [barrierOf, skipped]
    · rw [if_neg same]
      by_cases found : entry.1 = pool
      · simp [barrierOf, found]
      · simpa [barrierOf, found] using ih

theorem least_register {registered : List Contribution} {barriers : Barriers}
    (least : Least registered pool (barrierOf barriers pool)) (c : Contribution) :
    Least (registered ++ [c]) pool (barrierOf (register barriers c) pool) := by
  by_cases own : c.pool = pool
  · subst own
    rw [barrierOf_register_same]
    cases current : barrierOf barriers c.pool with
    | none =>
      rw [current] at least
      refine ⟨⟨c, by simp, rfl, rfl⟩, ?_⟩
      intro d member same
      rcases mem_append.1 member with old | new
      · exact absurd same (least d old)
      · rw [mem_singleton.1 new]
    | some b =>
      rw [current] at least
      obtain ⟨⟨witness, held, poolSame, value⟩, bound⟩ := least
      refine ⟨?_, ?_⟩
      · rcases le_total c.barrier b with small | large
        · exact ⟨c, by simp, rfl, (min_eq_left small).symm⟩
        · exact ⟨witness, by simp [held], poolSame, value.trans (min_eq_right large).symm⟩
      · intro d member same
        rcases mem_append.1 member with old | new
        · exact le_trans (min_le_right _ _) (bound d old same)
        · rw [mem_singleton.1 new]
          exact min_le_left _ _
  · rw [barrierOf_register_other barriers own]
    cases current : barrierOf barriers pool with
    | none =>
      rw [current] at least
      intro d member
      rcases mem_append.1 member with old | new
      · exact least d old
      · rw [mem_singleton.1 new]
        exact own
    | some b =>
      rw [current] at least
      obtain ⟨⟨witness, held, poolSame, value⟩, bound⟩ := least
      refine ⟨⟨witness, by simp [held], poolSame, value⟩, ?_⟩
      intro d member same
      rcases mem_append.1 member with old | new
      · exact bound d old same
      · rw [mem_singleton.1 new] at same
        exact absurd same own

theorem barriers_least (registered : List Contribution) (pool : TaxExposurePool) :
    Least registered pool (barrierOf (registered.foldl register []) pool) := by
  have run : ∀ (later done : List Contribution) (barriers : Barriers), Least done pool (barrierOf barriers pool) →
      Least (done ++ later) pool (barrierOf (later.foldl register barriers) pool) := by
    intro later
    induction later with
    | nil =>
      intro done barriers least
      simpa using least
    | cons c rest ih =>
      intro done barriers least
      have next := ih (done ++ [c]) (register barriers c) (least_register least c)
      simpa using next
  have initial : Least [] pool (barrierOf ([] : Barriers) pool) := by simp [LeastOf, barrierOf]
  simpa using run registered [] [] initial

theorem EventOrder.at_le {a b : EventOrder} (le : a ≤ b) : a.at ≤ b.at := by
  rcases Prod.Lex.le_iff.1 le with less | ⟨same, -⟩
  · exact le_of_lt less
  · exact le_of_eq same

section
variable (canonical : CanonicalQuantityInput) (projection : QuantityProjection) (rowsById : List (String × LedgerRow))

def Registers (issues : List QuantityIssue) (c : Contribution) : Prop :=
  ∃ issue ∈ issues, ∃ cs, contributions canonical projection rowsById issue = .ok cs ∧ c ∈ cs

variable {canonical projection rowsById}
variable {issues : List QuantityIssue} {e : QuantityTaxEligibility}

theorem leastOf_registered {registered : List (List Contribution)}
    (registering : issues.mapM (contributions canonical projection rowsById) = .ok registered)
    (pool : TaxExposurePool) : LeastOf (Registers canonical projection rowsById issues) pool
      (barrierOf (registered.flatten.foldl register []) pool) := by
  have listed : ∀ c, c ∈ registered.flatten ↔ Registers canonical projection rowsById issues c := by
    intro c
    rw [mem_flatten]
    constructor
    · rintro ⟨cs, present, member⟩
      obtain ⟨issue, named, step⟩ := mapM_outputs registering present
      exact ⟨issue, named, cs, step, member⟩
    · rintro ⟨issue, named, cs, step, member⟩
      obtain ⟨cs', present, step'⟩ := mapM_inputs registering named
      rw [step] at step'
      cases step'
      exact ⟨cs, present, member⟩
  have least := barriers_least registered.flatten pool
  have same : (· ∈ registered.flatten) = Registers canonical projection rowsById issues :=
    funext fun c => propext (listed c)
  rwa [Least, same] at least

theorem leastOf_exists (run : taxEligibility canonical projection issues rowsById = .ok e) (pool : TaxExposurePool) :
    ∃ barrier, LeastOf (Registers canonical projection rowsById issues) pool barrier := by
  obtain ⟨registered, registering, -⟩ := bind_ok.1 run
  exact ⟨_, leastOf_registered registering pool⟩

theorem mem_eligibleDecisions (run : taxEligibility canonical projection issues rowsById = .ok e)
    {d : ArbitratedSlice} : d ∈ e.eligibleDecisions ↔
      d ∈ projection.decisions ∧ d.finalized = true ∧
        d.source.observationHash ∉ directlyBlockedHashes canonical issues ∧
        ∃ pool order barrier, canonical.poolByHash d.source.observationHash = some pool ∧
          canonical.eventOrderByHash d.source.observationHash = some order ∧
          LeastOf (Registers canonical projection rowsById issues) pool barrier ∧ passes order barrier := by
  obtain ⟨registered, registering, run⟩ := bind_ok.1 run
  obtain ⟨judged, judging, same⟩ := bind_ok.1 run
  cases same
  have least := leastOf_registered registering
  have verdict : d ∈ (judged.filter fun entry => entry.2).map Prod.fst ↔
      d ∈ projection.decisions ∧ eligibleDecision canonical (directlyBlockedHashes canonical issues)
        (registered.flatten.foldl register []) d = .ok true := by
    constructor
    · intro member
      obtain ⟨⟨d', eligible⟩, kept, rfl⟩ := mem_map.1 member
      obtain ⟨present, holds⟩ := mem_filter.1 kept
      obtain ⟨f, listed, step⟩ := mapM_outputs judging present
      obtain ⟨answer, judgement, same⟩ := bind_ok.1 step
      cases same
      exact ⟨listed, by rw [judgement]; exact congrArg Except.ok holds⟩
    · rintro ⟨listed, judgement⟩
      obtain ⟨entry, present, step⟩ := mapM_inputs judging listed
      obtain ⟨answer, judgement', same⟩ := bind_ok.1 step
      cases same
      rw [judgement] at judgement'
      cases judgement'
      exact mem_map.2 ⟨_, mem_filter.2 ⟨present, rfl⟩, rfl⟩
  rw [verdict]
  refine and_congr_right fun _ => ?_
  unfold eligibleDecision
  constructor
  · intro judgement
    split at judgement
    · cases judgement
    · rename_i final
      split at judgement
      · cases judgement
      · rename_i free
        split at judgement
        · rename_i pool order pooled ordered
          refine ⟨by simpa using final, free, pool, order, _, pooled, ordered, least pool, ?_⟩
          exact of_decide_eq_true (Except.ok.inj judgement)
        · cases judgement
  · rintro ⟨final, free, pool, order, barrier, pooled, ordered, leastBarrier, pass⟩
    have same := leastOf_unique (least pool) leastBarrier
    rw [if_neg (by simp [final]), if_neg free, pooled, ordered]
    simp [same, pass]

/-- The further issue pulls a pool's barrier, within one timestamp, down to the event of a finalized decision that
no issue blocks directly. -/
def Releases (canonical : CanonicalQuantityInput) (projection : QuantityProjection)
    (rowsById : List (String × LedgerRow)) (issues : List QuantityIssue) (further : QuantityIssue)
    (d : ArbitratedSlice) : Prop :=
  d.finalized = true ∧ d.source.observationHash ∉ directlyBlockedHashes canonical (further :: issues) ∧
    ∃ pool order, canonical.poolByHash d.source.observationHash = some pool ∧
      canonical.eventOrderByHash d.source.observationHash = some order ∧
      LeastOf (Registers canonical projection rowsById [further]) pool (some order) ∧
      (∃ c, Registers canonical projection rowsById issues c ∧ c.pool = pool ∧ c.barrier.at = order.at) ∧
      ∀ c, Registers canonical projection rowsById issues c → c.pool = pool → order < c.barrier

variable {further : QuantityIssue}

theorem registers_perm {extended : List QuantityIssue}
    (perm : extended.Perm (further :: issues)) {c : Contribution} :
    Registers canonical projection rowsById extended c ↔
      Registers canonical projection rowsById [further] c ∨ Registers canonical projection rowsById issues c := by
  simp only [Registers, perm.mem_iff, mem_cons, not_mem_nil, or_false]
  constructor
  · rintro ⟨issue, rfl | old, facts⟩
    · exact .inl ⟨issue, rfl, facts⟩
    · exact .inr ⟨issue, old, facts⟩
  · rintro (⟨issue, rfl, facts⟩ | ⟨issue, old, facts⟩)
    · exact ⟨issue, .inl rfl, facts⟩
    · exact ⟨issue, .inr old, facts⟩

theorem directlyBlocked_perm {others extended : List QuantityIssue} (perm : extended.Perm others) {hash : String} :
    hash ∈ directlyBlockedHashes canonical extended ↔ hash ∈ directlyBlockedHashes canonical others :=
  ((perm.filter _).flatMap_right _).mem_iff

theorem directlyBlocked_mono {hash : String}
    (blocked : hash ∈ directlyBlockedHashes canonical issues) :
    hash ∈ directlyBlockedHashes canonical (further :: issues) := by
  obtain ⟨issue, member, named⟩ := mem_flatMap.1 blocked
  obtain ⟨present, blocking⟩ := mem_filter.1 member
  exact mem_flatMap.2 ⟨issue, mem_filter.2 ⟨.tail _ present, blocking⟩, named⟩

/-- A further issue only removes eligible decisions exactly when it releases none. -/
theorem taxEligibility_antitone_iff {extended : List QuantityIssue}
    {e' : QuantityTaxEligibility} (perm : extended.Perm (further :: issues))
    (run : taxEligibility canonical projection issues rowsById = .ok e)
    (run' : taxEligibility canonical projection extended rowsById = .ok e') :
    (∀ d ∈ e'.eligibleDecisions, d ∈ e.eligibleDecisions) ↔
      ∀ d ∈ projection.decisions, ¬Releases canonical projection rowsById issues further d := by
  constructor
  · rintro antitone d member ⟨final, free, pool, order, pooled, ordered, least, ⟨c, held, own, sameTime⟩, above⟩
    obtain ⟨⟨x, registeredX, ownX, valueX⟩, boundX⟩ := least
    have extendedLeast : LeastOf (Registers canonical projection rowsById extended) pool (some order) := by
      refine ⟨⟨x, (registers_perm perm).2 (Or.inl registeredX), ownX, valueX⟩, ?_⟩
      intro y registeredY ownY
      rcases (registers_perm perm).1 registeredY with new | old
      · exact boundX y new ownY
      · exact le_of_lt (above y old ownY)
    have gained : d ∈ e'.eligibleDecisions := by
      refine (mem_eligibleDecisions run').2 ⟨member, final, ?_, pool, order, some order, pooled, ordered,
        extendedLeast, ?_⟩
      · rwa [directlyBlocked_perm perm]
      · intro b same
        exact Or.inr (Option.some.inj same)
    obtain ⟨-, -, -, pool', order', barrier, pooled', ordered', least', pass⟩ :=
      (mem_eligibleDecisions run).1 (antitone d gained)
    rw [pooled] at pooled'
    rw [ordered] at ordered'
    cases pooled'
    cases ordered'
    cases barrier with
    | none => exact least' c held own
    | some b =>
      obtain ⟨⟨y, registeredY, ownY, valueY⟩, boundY⟩ := least'
      have beyond : order < b := valueY ▸ above y registeredY ownY
      rcases pass b rfl with earlier | equal
      · have late : b.at ≤ order.at := sameTime ▸ EventOrder.at_le (boundY c held own)
        exact absurd earlier (not_lt.2 late)
      · exact absurd equal (ne_of_lt beyond)
  · intro none d gained
    obtain ⟨member, final, free, pool, order, barrier', pooled, ordered, least', pass'⟩ :=
      (mem_eligibleDecisions run').1 gained
    have freeBefore : d.source.observationHash ∉ directlyBlockedHashes canonical issues := fun blocked =>
      free ((directlyBlocked_perm perm).2 (directlyBlocked_mono blocked))
    obtain ⟨barrier, least⟩ := leastOf_exists run pool
    refine (mem_eligibleDecisions run).2 ⟨member, final, freeBefore, pool, order, barrier, pooled, ordered, least, ?_⟩
    intro b same
    cases same
    obtain ⟨⟨c, held, own, rfl⟩, bound⟩ := least
    cases barrier' with
    | none => exact absurd own (least' c ((registers_perm perm).2 (Or.inr held)))
    | some b' =>
      obtain ⟨⟨x, heldX, ownX, rfl⟩, bound'⟩ := least'
      have lower : x.barrier ≤ c.barrier := bound' c ((registers_perm perm).2 (Or.inr held)) own
      rcases pass' x.barrier rfl with earlier | rfl
      · exact Or.inl (lt_of_lt_of_le earlier (EventOrder.at_le lower))
      · by_contra stuck
        obtain ⟨notEarlier, different⟩ := not_or.1 stuck
        have below : x.barrier < c.barrier := lt_of_le_of_ne lower different
        have sameTime : c.barrier.at = x.barrier.at :=
          le_antisymm (not_lt.1 notEarlier) (EventOrder.at_le lower)
        have above : ∀ y, Registers canonical projection rowsById issues y → y.pool = pool → x.barrier < y.barrier :=
          fun y heldY ownY => lt_of_lt_of_le below (bound y heldY ownY)
        have new : Registers canonical projection rowsById [further] x := by
          rcases (registers_perm perm).1 heldX with new | old
          · exact new
          · exact absurd (above x old ownX) (lt_irrefl _)
        have leastNew : LeastOf (Registers canonical projection rowsById [further]) pool (some x.barrier) :=
          ⟨⟨x, new, ownX, rfl⟩, fun y heldY ownY => bound' y ((registers_perm perm).2 (Or.inl heldY)) ownY⟩
        refine none d member ⟨final, ?_, pool, x.barrier, pooled, ordered, leastNew, ⟨c, held, own, sameTime⟩, above⟩
        rwa [← directlyBlocked_perm perm]

end

/-! Two payments of one pool at one timestamp: `tx1` is in conflict on its first 400 msat only, `tx2` throughout. -/

def sampleTwin : QuantityObservation :=
  { sampleSent with
    transactionId := "twin", anchorTransactionId := "twin", quantityHash := sampleHash 'b'
    eventKey := sampleEvent "tx2" (by decide) }

def samplePair : CanonicalQuantityInput :=
  { events :=
      [{ eventKey := sampleEvent "tx1" sampleEvent_named, legs := [sampleSent], evidenceSnapshots := []
         sourceTransactionIds := ["sent"], observationAliases := [("sent", sampleHash 'a')] },
       { eventKey := sampleEvent "tx2" (by decide), legs := [sampleTwin], evidenceSnapshots := []
         sourceTransactionIds := ["twin"], observationAliases := [("twin", sampleHash 'b')] }]
    rejectedEvents := []
    distinct := by decide +kernel }

def samplePresumed : ArbitratedSlice :=
  { source := sampleSlice 'a' 400 1000 (by decide), state := .externalPresumed, reason := "unmatched_outbound_default" }

def samplePairProjection : QuantityProjection :=
  { observations := [sampleSent, sampleTwin]
    decisions :=
      [{ source := sampleSlice 'a' 0 400 (by decide), state := .conflicting, reason := "incompatible_reviewed_claims" },
       samplePresumed,
       { source := sampleSlice 'b' 0 1000 sample_whole, state := .conflicting
         reason := "incompatible_reviewed_claims" }]
    postings := [] }

def sampleUnresolved (transactionId : String) (amountMsat : Int) : QuantityIssue :=
  { issueId := "quantity:" ++ transactionId, issueType := .unresolvedQuantity, state := .conflicting
    asset := some "BTC", amountMsat := some amountMsat, occurredAt := "2024-01-01T00:00:00Z"
    transactionIds := [transactionId], reason := "incompatible_reviewed_claims" }

def samplePairEligible (issues : List QuantityIssue) : Option (List ArbitratedSlice) :=
  (taxEligibility samplePair samplePairProjection issues []).toOption.map (·.eligibleDecisions)

theorem samplePairEligible_run {issues : List QuantityIssue} {eligible : List ArbitratedSlice}
    (evaluated : samplePairEligible issues = some eligible) :
    ∃ e, taxEligibility samplePair samplePairProjection issues [] = .ok e ∧ e.eligibleDecisions = eligible :=
  ok_of_toOption_map evaluated

/-- Naming the twin besides `tx1` releases nothing: the barrier stays at `tx1`. -/
theorem taxEligibility_antitone_twin :
    ∃ e e', taxEligibility samplePair samplePairProjection [sampleUnresolved "sent" 400] [] = .ok e ∧
      taxEligibility samplePair samplePairProjection [sampleUnresolved "twin" 1000, sampleUnresolved "sent" 400] [] =
        .ok e' ∧
      ∀ d ∈ samplePairProjection.decisions, ¬Releases samplePair samplePairProjection []
        [sampleUnresolved "sent" 400] (sampleUnresolved "twin" 1000) d := by
  obtain ⟨e, run, eligible⟩ := samplePairEligible_run
    (show samplePairEligible [sampleUnresolved "sent" 400] = some [samplePresumed] by decide +kernel)
  obtain ⟨e', run', eligible'⟩ := samplePairEligible_run
    (show samplePairEligible [sampleUnresolved "twin" 1000, sampleUnresolved "sent" 400] = some [samplePresumed] by
      decide +kernel)
  refine ⟨e, e', run, run', (taxEligibility_antitone_iff (List.Perm.refl _) run run').1 ?_⟩
  rw [eligible, eligible']
  exact fun d member => member

/-- Naming `tx1` besides the twin makes its presumed payment eligible. -/
theorem taxEligibility_not_antitone :
    ∃ e e', taxEligibility samplePair samplePairProjection [sampleUnresolved "twin" 1000] [] = .ok e ∧
      taxEligibility samplePair samplePairProjection [sampleUnresolved "sent" 400, sampleUnresolved "twin" 1000] [] =
        .ok e' ∧
      samplePresumed ∈ e'.eligibleDecisions ∧ samplePresumed ∉ e.eligibleDecisions := by
  obtain ⟨e, run, eligible⟩ := samplePairEligible_run
    (show samplePairEligible [sampleUnresolved "twin" 1000] = some [] by decide +kernel)
  obtain ⟨e', run', eligible'⟩ := samplePairEligible_run
    (show samplePairEligible [sampleUnresolved "sent" 400, sampleUnresolved "twin" 1000] = some [samplePresumed] by
      decide +kernel)
  refine ⟨e, e', run, run', ?_, ?_⟩
  · rw [eligible']
    exact mem_singleton.2 rfl
  · rw [eligible]
    exact not_mem_nil

end Kassiber.Custody
