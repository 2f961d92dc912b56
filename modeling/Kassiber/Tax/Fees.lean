import Kassiber.Tax.Traces

/-!
Outbound conservation of the tax input: what leaves in projected rows is what was observed to leave, less
what stays in custody, the raw fees that a reviewed component restates and the fees behind the barrier.
-/

namespace Kassiber.Tax
open Custody Lib.Outcome Lib.Dict Lib.Sorting Lib.Tiling Lib.Sums List

def outboundTotal (row : TaxRow) : Int := if row.direction = .outbound then row.amount + row.fee else 0

/-- Every decision is eligible and the caller blocks, silences and settles nothing. -/
structure Plain (args : TaxArguments) (s : CanonicalQuantityState) : Prop where
  unblocked : args.blockedTransactionIds = []
  events : args.nonEventTransactionIds = []
  payouts : args.directPayoutRecords = []
  eligible : ∀ d ∈ s.projection.decisions, d ∈ s.taxEligibility.eligibleDecisions

/-- A slice that books a principal, and with it the observed fee of its source. -/
def Draws (d : Located) : Prop := d.move ≠ none ∨ (Leaves d.decision ∧ d.decision.destinationKind ≠ some .fee)

def Bundled (d e : Located) : Prop := pairBundle d.decision ≠ none ∧ pairBundle d.decision = pairBundle e.decision

/-- Fee slices come after the first move of their bundle, and a source with fee slices of its own books a
principal too, unless it has no observed fee. -/
structure FeesFollow (s : CanonicalQuantityState) : Prop where
  afterMove : ∀ d m, Locates s d → Locates s m → d.decision.destinationKind = some .fee → m.move ≠ none → Bundled m d →
    ∃ e, Locates s e ∧ e.move ≠ none ∧ Bundled e d ∧ e.order < d.order
  besidePrincipal : ∀ d, Locates s d → d.decision.destinationKind = some .fee →
    (∀ m, Locates s m → m.move ≠ none → ¬Bundled m d) → d.source.feeMsat ≠ 0 → ∃ e, Locates s e ∧ e.source = d.source ∧ Draws e

instance (d : Located) : Decidable (Draws d) := inferInstanceAs (Decidable (d.move ≠ none ∨ ((_ ∨ _) ∧ _)))

instance (d e : Located) : Decidable (Bundled d e) := inferInstanceAs (Decidable (_ ∧ _))

/-- The first slice of its source and the first move of its bundle belongs to a component that restates the fee. -/
def Restates (ds : List Located) (d : Located) : Prop :=
  d.move ≠ none ∧ bundleFee ds (pairBundle d.decision) ≠ 0 ∧ replacesFee d.decision ∧
    (∀ e ∈ ds, e.order < d.order → Draws e → e.source.quantityHash ≠ d.source.quantityHash) ∧
    ∀ e ∈ ds, e.order < d.order → e.move ≠ none → ¬Bundled e d

instance (ds : List Located) (d : Located) : Decidable (Restates ds d) := inferInstanceAs (Decidable (_ ∧ _ ∧ _ ∧ _ ∧ _))

def HeldFee (ctx : TaxContext) (o : QuantityObservation) : Prop :=
  ctx.barred o = true ∧ ¬∃ d ∈ ctx.decisions, Draws d ∧ d.source.quantityHash = o.quantityHash

instance (ctx : TaxContext) (o : QuantityObservation) : Decidable (HeldFee ctx o) := inferInstanceAs (Decidable (_ ∧ ¬_))

section
variable {args : TaxArguments} {s : CanonicalQuantityState} (coherent : Coherent s) {ds : List Located} (line : Line s ds)
  (plain : Plain args s)
include coherent line plain

variable {d : Located}

theorem plain_branch (member : d ∈ ds) :
    (∃ slice target, branch (contextOf args s ds) d = .move slice target ∧ d.move = some (slice, target)) ∨
    (d.move = none ∧ Leaves d.decision ∧ d.decision.destinationKind ≠ some .fee ∧
      branch (contextOf args s ds) d = .external) ∨
    (d.move = none ∧ Leaves d.decision ∧ d.decision.destinationKind = some .fee ∧ branch (contextOf args s ds) d = .fee) ∨
    (d.move = none ∧ ¬Leaves d.decision ∧ d.decision.destinationKind = some .retainedCustody ∧
      branch (contextOf args s ds) d = .retained) := by
  have passes : Passes args s d := by
    have open_ : ∀ id, ¬PathBlocked args s id := by
      rintro id ⟨root, rooted, -⟩
      unfold TaxArguments.explicitlyBlocked at rooted
      rw [plain.unblocked] at rooted
      cases rooted
    exact ⟨line.locates member, open_ _, fun _ _ => open_ _, _, plain.eligible _ (line.locates member).decided, rfl⟩
  obtain ⟨clear, eligible⟩ := (passes_iff args coherent line member).1 passes
  have takes := branch_takes (contextOf args s ds) d
  generalize at_ : branch (contextOf args s ds) d = b at takes
  have unpaid : carryingPayout args d.source = none := by
    unfold carryingPayout TaxArguments.payoutsBySource
    rw [plain.payouts]
    rfl
  cases takes with
  | blocked broken => exact absurd clear broken
  | held _ ineligible => exact absurd eligible ineligible
  | move _ _ moved => exact .inl ⟨_, _, rfl, moved⟩
  | nonEvent _ _ _ silent =>
    change _ ∈ args.nonEvents at silent
    unfold TaxArguments.nonEvents at silent
    rw [plain.events] at silent
    cases silent
  | fee due leaves fee => exact .inr (.inr (.inl ⟨due.still, leaves, fee, rfl⟩))
  | unpriced _ _ _ carried => cases unpaid.symm.trans carried
  | payout _ _ _ carried => cases unpaid.symm.trans carried
  | external due leaves principal => exact .inr (.inl ⟨due.still, leaves, principal, rfl⟩)
  | retained due kept =>
    exact .inr (.inr (.inr ⟨due.still, kept, retained_kind coherent line member passes due.still kept, rfl⟩))

theorem draws_iff (member : d ∈ ds) : (branch (contextOf args s ds) d).draws ↔ Draws d := by
  unfold Draws
  rcases plain_branch coherent line plain member with ⟨_, _, at_, moved⟩ | ⟨still, leaves, principal, at_⟩ |
    ⟨still, leaves, fee, at_⟩ | ⟨still, kept, -, at_⟩
  · simp [at_, moved, Branch.draws]
  · simp [at_, still, leaves, principal, Branch.draws]
  · simp [at_, still, fee, Branch.draws]
  · simp [at_, still, kept, Branch.draws]

theorem moves_iff (member : d ∈ ds) : (branch (contextOf args s ds) d).moves ↔ d.move ≠ none := by
  rcases plain_branch coherent line plain member with ⟨_, _, at_, moved⟩ | ⟨still, -, -, at_⟩ | ⟨still, -, -, at_⟩ |
    ⟨still, -, -, at_⟩
  · simp [at_, moved, Branch.moves]
  · simp [at_, still, Branch.moves]
  · simp [at_, still, Branch.moves]
  · simp [at_, still, Branch.moves]

theorem drawn_iff : Drawn (contextOf args s ds) d ↔
    ∃ e ∈ ds, e.order < d.order ∧ Draws e ∧ e.source.quantityHash = d.source.quantityHash := by
  refine exists_congr fun e => and_congr_right fun member => ?_
  rw [draws_iff coherent line plain member]

theorem folded_plain : Folded (contextOf args s ds) d ↔
    ∃ e ∈ ds, e.order < d.order ∧ e.move ≠ none ∧ Bundled e d := by
  refine exists_congr fun e => and_congr_right fun member => ?_
  rw [moves_iff coherent line plain member]
  rfl

omit plain in
theorem sum_at_source (member : d ∈ ds) (m : Int) :
    ((s.canonicalInput.observations.filter fun o => o.direction = .outbound).map fun o =>
      if d.source.quantityHash = o.quantityHash then m else 0).sum = m := by
  have placed := line.placed d member
  have nodup := hashes_nodup coherent.settled fun o => decide (o.direction = .outbound)
  have listed : d.source.quantityHash ∈ (s.canonicalInput.observations.filter fun o =>
      decide (o.direction = .outbound)).map QuantityObservation.quantityHash :=
    mem_map_of_mem (mem_filter.2 ⟨placed.source, decide_eq_true placed.outbound⟩)
  have total := sum_indicator nodup listed m
  rw [map_map] at total
  exact total

theorem own_fees : (ds.map fun d => if Draws d then ownFee (contextOf args s ds) d else 0).sum =
    ((s.canonicalInput.observations.filter fun o => o.direction = .outbound).map fun o =>
      if ∃ d ∈ ds, Draws d ∧ d.source.quantityHash = o.quantityHash then o.feeMsat else 0).sum := by
  have spread : ∀ d ∈ ds, (if Draws d then ownFee (contextOf args s ds) d else 0) =
      ((s.canonicalInput.observations.filter fun o => o.direction = .outbound).map fun o =>
        if (Draws d ∧ d.source.quantityHash = o.quantityHash) ∧
          ∀ e ∈ ds, e.order < d.order → ¬(Draws e ∧ e.source.quantityHash = o.quantityHash) then o.feeMsat else 0).sum := by
    intro d member
    rw [← sum_at_source coherent line member (if Draws d then ownFee (contextOf args s ds) d else 0)]
    refine congrArg List.sum (map_congr_left ?_)
    intro o listed
    by_cases hash : d.source.quantityHash = o.quantityHash
    · have same : d.source = o :=
        coherent.settled.good.eq_of_hash (line.placed d member).source (mem_filter.1 listed).1 hash
      subst same
      by_cases draws : Draws d
      · have first : (∀ e ∈ ds, e.order < d.order → ¬(Draws e ∧ e.source.quantityHash = d.source.quantityHash)) ↔
            ¬Drawn (contextOf args s ds) d := by
          rw [drawn_iff coherent line plain]
          simp only [not_exists, not_and]
        simp only [draws, first, true_and, if_true, ownFee]
        by_cases drawn : Drawn (contextOf args s ds) d <;> simp [drawn]
      · simp [draws]
    · simp [hash]
  rw [map_congr_left spread, sum_swap]
  refine congrArg List.sum (map_congr_left ?_)
  intro o _
  exact sum_first line.ordered (fun d => Draws d ∧ d.source.quantityHash = o.quantityHash) o.feeMsat

theorem folded_fees (follow : FeesFollow s) :
    (ds.map fun d => if d.move ≠ none then foldedFee (contextOf args s ds) d else 0).sum =
      (ds.map fun d => if d.decision.destinationKind = some .fee ∧ Folded (contextOf args s ds) d then
        d.decision.source.amountMsat else 0).sum := by
  have spread : ∀ m ∈ ds, (if m.move ≠ none then foldedFee (contextOf args s ds) m else 0) =
      (ds.map fun f => if (m.move ≠ none ∧ Bundled m f) ∧ ∀ e ∈ ds, e.order < m.order → ¬(e.move ≠ none ∧ Bundled e f) then
        (if f.decision.destinationKind = some .fee then f.decision.source.amountMsat else 0) else 0).sum := by
    intro m member
    by_cases moved : m.move = none
    · simp [moved]
    · cases own : pairBundle m.decision with
      | none =>
        have unbundled : ∀ f, ¬Bundled m f := fun f both => both.1 own
        have zero : bundleFee ds (pairBundle m.decision) = 0 := by rw [own]; rfl
        have nothing : foldedFee (contextOf args s ds) m = 0 := by
          unfold foldedFee
          rw [show (contextOf args s ds).decisions = ds from rfl, zero]
          split <;> rfl
        simp [unbundled, nothing]
      | some bundle =>
        have term : ∀ f, ((m.move ≠ none ∧ Bundled m f) ∧ ∀ e ∈ ds, e.order < m.order → ¬(e.move ≠ none ∧ Bundled e f)) ↔
            pairBundle f.decision = some bundle ∧ ¬Folded (contextOf args s ds) m := by
          intro f
          rw [folded_plain coherent line plain]
          unfold Bundled
          rw [own]
          constructor
          · rintro ⟨⟨-, -, same⟩, first⟩
            refine ⟨same.symm, ?_⟩
            rintro ⟨e, listed, less, moves, bundled, equal⟩
            exact first e listed less ⟨moves, bundled, by rw [equal, same]⟩
          · rintro ⟨same, first⟩
            refine ⟨⟨moved, by simp, same.symm⟩, ?_⟩
            rintro e listed less ⟨moves, bundled, equal⟩
            exact first ⟨e, listed, less, moves, bundled, by rw [equal, same]⟩
        rw [if_pos moved]
        unfold foldedFee
        simp only [term]
        by_cases folded : Folded (contextOf args s ds) m
        · simp [folded]
        · rw [if_neg folded, show (contextOf args s ds).decisions = ds from rfl, own]
          unfold bundleFee
          dsimp only
          rw [sum_filter fun d : Located => d.decision.destinationKind = some .fee ∧ pairBundle d.decision = some bundle]
          refine congrArg List.sum (map_congr_left ?_)
          intro f _
          by_cases fee : f.decision.destinationKind = some .fee <;> simp [fee, folded]
  rw [map_congr_left spread, sum_swap]
  refine congrArg List.sum (map_congr_left ?_)
  intro f member
  rw [sum_first line.ordered (fun m => m.move ≠ none ∧ Bundled m f)]
  by_cases fee : f.decision.destinationKind = some .fee
  · have reached : (∃ m ∈ ds, m.move ≠ none ∧ Bundled m f) ↔ Folded (contextOf args s ds) f := by
      rw [folded_plain coherent line plain]
      constructor
      · rintro ⟨m, listed, moves, bundled⟩
        obtain ⟨e, locates, moves', bundled', less⟩ :=
          follow.afterMove f m (line.locates member) (line.locates listed) fee moves bundled
        exact ⟨e, (line.mem_iff coherent).2 locates, less, moves', bundled'⟩
      · rintro ⟨e, listed, -, moves, bundled⟩
        exact ⟨e, listed, moves, bundled⟩
    simp only [reached, fee, true_and, if_true]
  · simp [fee]

theorem restates_iff : Restates ds d ↔ d.move ≠ none ∧ foldedFee (contextOf args s ds) d ≠ 0 ∧
    replacesFee d.decision ∧ ¬Drawn (contextOf args s ds) d := by
  have some_ : foldedFee (contextOf args s ds) d ≠ 0 ↔
      bundleFee ds (pairBundle d.decision) ≠ 0 ∧ ¬Folded (contextOf args s ds) d := by
    unfold foldedFee
    rw [show (contextOf args s ds).decisions = ds from rfl]
    by_cases folded : Folded (contextOf args s ds) d <;> simp [folded]
  rw [some_, drawn_iff coherent line plain, folded_plain coherent line plain]
  unfold Restates
  simp only [not_exists, not_and]
  tauto

theorem emitted_total (member : d ∈ ds) :
    ((emitted (contextOf args s ds) d).map outboundTotal).sum +
      (if d.decision.destinationKind = some .retainedCustody then d.decision.source.amountMsat else 0) +
      (if Restates ds d then d.source.feeMsat else 0) +
      (if d.decision.destinationKind = some .fee ∧ Folded (contextOf args s ds) d then d.decision.source.amountMsat else 0) =
    d.decision.source.amountMsat + (if Draws d then ownFee (contextOf args s ds) d else 0) +
      (if d.move ≠ none then foldedFee (contextOf args s ds) d else 0) := by
  have placed := line.placed d member
  have outbound := placed.outbound
  have restates := restates_iff (d := d) coherent line plain
  unfold emitted
  rcases plain_branch coherent line plain member with ⟨slice, target, at_, moved⟩ | ⟨still, leaves, principal, at_⟩ |
    ⟨still, leaves, fee, at_⟩ | ⟨still, kept, kind, at_⟩
  · have internal := Located.move_iff.1 moved
    have inbound := (placed.target slice target internal.2).2.2.2
    have aimed := (placed.target slice target internal.2).1
    have kept : d.decision.destinationKind ≠ some .retainedCustody := by
      intro retained
      rw [(placed.shaped.retained retained).2] at aimed
      cases aimed
    have principal : d.decision.destinationKind ≠ some .fee := by
      intro fee
      have state := internal.1
      rw [placed.shaped.fee fee] at state
      simp [QuantityState.targetStates] at state
    have draws : Draws d := .inl (by rw [moved]; simp)
    have moves : d.move ≠ none := by rw [moved]; simp
    have apart : ¬(d.decision.destinationKind = some .fee ∧ Folded (contextOf args s ds) d) := fun both => principal both.1
    simp only [at_]
    rw [if_neg kept, if_neg apart, if_pos draws, if_pos moves]
    simp only [restates, moves, ne_eq, not_false_eq_true, true_and, map_cons, map_nil, sum_cons,
      sum_nil, outboundTotal, moveOut, moveIn, projectedSliceRow, baseRow, outbound, inbound, moveFee, ownFee,
      reduceCtorEq, if_true, if_false]
    by_cases folds : foldedFee (contextOf args s ds) d = 0
    · simp [folds]
    · by_cases replaces : replacesFee d.decision
      · by_cases drawn : Drawn (contextOf args s ds) d
        · simp [folds, replaces, drawn]
        · simp [folds, replaces, drawn]
          omega
      · simp [folds, replaces]
        omega
  · have draws : Draws d := .inr ⟨leaves, principal⟩
    have kept : d.decision.destinationKind ≠ some .retainedCustody := by
      intro retained
      have state := (placed.shaped.retained retained).1
      unfold Leaves at leaves
      rw [state] at leaves
      simp at leaves
    have total : ∀ fee, outboundTotal (externalRow (contextOf args s ds) d fee) = d.decision.source.amountMsat + fee := by
      intro fee
      unfold externalRow
      split <;> simp [outboundTotal, projectedSliceRow, baseRow, outbound]
    have apart : ¬(d.decision.destinationKind = some .fee ∧ Folded (contextOf args s ds) d) := fun both => principal both.1
    simp only [at_]
    rw [if_neg kept, if_neg apart, if_pos draws]
    simp [restates, still, total]
  · have silent : ¬Draws d := by
      rintro (moved | ⟨-, principal⟩)
      · exact moved still
      · exact principal fee
    have total : ∀ msat, outboundTotal (projectedFeeRow (contextOf args s ds).rowsById d.source "reviewed-fee" msat) = msat := by
      intro msat
      simp [outboundTotal, projectedFeeRow, baseRow, outbound]
    simp only [at_]
    rw [if_neg silent]
    by_cases folded : Folded (contextOf args s ds) d
    · simp [restates, still, fee, folded]
    · simp [restates, still, fee, folded, total]
  · have silent : ¬Draws d := by
      rintro (moved | ⟨leaves, -⟩)
      · exact moved still
      · exact kept leaves
    simp only [at_]
    rw [if_neg silent]
    simp [restates, still, kind]

theorem booked_hash {o : QuantityObservation} (observed : o ∈ s.canonicalInput.observations)
    (outbound : o.direction = .outbound) {inbound : List TaxRow}
    (receipts_ : ∀ row ∈ inbound, ∃ r ∈ s.canonicalInput.observations, r.direction = .inbound ∧
      row.custodyQuantityHash = r.quantityHash) :
    o.quantityHash ∈ ((ds.flatMap (emitted (contextOf args s ds))) ++ inbound).map (·.custodyQuantityHash) ↔
      ∃ d ∈ ds, d.source.quantityHash = o.quantityHash ∧ (Draws d ∨
        (d.decision.destinationKind = some .fee ∧ ¬Folded (contextOf args s ds) d)) := by
  have foreign : ∀ r ∈ s.canonicalInput.observations, r.direction = .inbound → r.quantityHash ≠ o.quantityHash := by
    intro r stored received same
    have equal := coherent.settled.good.eq_of_hash stored observed same
    rw [equal, outbound] at received
    cases received
  rw [mem_map]
  constructor
  · rintro ⟨row, member, hash⟩
    rcases mem_append.1 member with walked | received
    · obtain ⟨d, listed, emits⟩ := mem_flatMap.1 walked
      refine ⟨d, listed, ?_⟩
      unfold emitted at emits
      rcases plain_branch coherent line plain listed with ⟨slice, target, at_, moved⟩ | ⟨still, leaves, principal, at_⟩ |
        ⟨still, leaves, fee, at_⟩ | ⟨still, kept, kind, at_⟩ <;> simp only [at_] at emits
      · simp only [mem_cons, not_mem_nil, or_false] at emits
        rcases emits with rfl | rfl
        · exact ⟨hash, .inl (.inl (by rw [moved]; simp))⟩
        · have aimed := (Located.move_iff.1 moved).2
          obtain ⟨-, stored, -, received⟩ := (line.placed d listed).target slice target aimed
          exact absurd hash (foreign target stored received)
      · cases mem_singleton.1 emits
        refine ⟨?_, .inl (.inr ⟨leaves, principal⟩)⟩
        rw [← hash]
        unfold externalRow
        split <;> rfl
      · split at emits
        · cases emits
        · rename_i unfolded
          cases mem_singleton.1 emits
          exact ⟨hash, .inr ⟨fee, unfolded⟩⟩
      · cases emits
    · obtain ⟨r, stored, direction, same⟩ := receipts_ row received
      exact absurd (same.symm.trans hash) (foreign r stored direction)
  · rintro ⟨d, listed, hash, books⟩
    have row : ∃ row ∈ emitted (contextOf args s ds) d, row.custodyQuantityHash = d.source.quantityHash := by
      unfold emitted
      rcases plain_branch coherent line plain listed with ⟨slice, target, at_, moved⟩ | ⟨still, leaves, principal, at_⟩ |
        ⟨still, leaves, fee, at_⟩ | ⟨still, kept, kind, at_⟩ <;> simp only [at_]
      · exact ⟨_, .head _, rfl⟩
      · refine ⟨_, .head _, ?_⟩
        unfold externalRow
        split <;> rfl
      · rcases books with (moves | ⟨-, principal⟩) | ⟨-, unfolded⟩
        · exact absurd still moves
        · exact absurd fee principal
        · rw [if_neg unfolded]
          exact ⟨_, .head _, rfl⟩
      · rcases books with (moves | ⟨leaves, -⟩) | ⟨fee, -⟩
        · exact absurd still moves
        · exact absurd leaves kept
        · rw [kind] at fee
          cases fee
    obtain ⟨row, emits, same⟩ := row
    exact ⟨row, mem_append_left _ (mem_flatMap.2 ⟨d, listed, emits⟩), same.trans hash⟩

theorem fee_accounted (follow : FeesFollow s) {o : QuantityObservation} (observed : o ∈ s.canonicalInput.observations)
    (outbound : o.direction = .outbound) {inbound : List TaxRow}
    (receipts_ : ∀ row ∈ inbound, ∃ r ∈ s.canonicalInput.observations, r.direction = .inbound ∧
      row.custodyQuantityHash = r.quantityHash) :
    (if ∃ d ∈ ds, Draws d ∧ d.source.quantityHash = o.quantityHash then o.feeMsat else 0) +
      (if feeOnly (contextOf args s ds) ((ds.flatMap (emitted (contextOf args s ds))) ++ inbound) o then o.feeMsat else 0) +
      (if HeldFee (contextOf args s ds) o then o.feeMsat else 0) = o.feeMsat := by
  have booked := booked_hash coherent line plain observed outbound receipts_
  have nonneg := (coherent.settled.good.sound observed).fee_nonneg
  by_cases drawn : ∃ d ∈ ds, Draws d ∧ d.source.quantityHash = o.quantityHash
  · have present := booked.2 (by obtain ⟨d, listed, draws, hash⟩ := drawn; exact ⟨d, listed, hash, .inl draws⟩)
    have busy : ¬feeOnly (contextOf args s ds) ((ds.flatMap (emitted (contextOf args s ds))) ++ inbound) o :=
      fun only => only.2.2.1 present
    have open_ : ¬HeldFee (contextOf args s ds) o := fun held => held.2 drawn
    rw [if_pos drawn, if_neg busy, if_neg open_]
    omega
  · rw [if_neg drawn]
    cases barred : (contextOf args s ds).barred o with
    | true =>
      have quiet : ¬feeOnly (contextOf args s ds) ((ds.flatMap (emitted (contextOf args s ds))) ++ inbound) o := by
        intro only
        have free := only.2.2.2.2.2
        rw [barred] at free
        cases free
      rw [if_neg quiet, if_pos ⟨barred, drawn⟩]
      omega
    | false =>
      have open_ : ¬HeldFee (contextOf args s ds) o := by
        rintro ⟨held, -⟩
        rw [barred] at held
        cases held
      rw [if_neg open_]
      by_cases zero : o.feeMsat = 0
      · simp [zero]
      · have unbooked : o.quantityHash ∉
            ((ds.flatMap (emitted (contextOf args s ds))) ++ inbound).map (·.custodyQuantityHash) := by
          intro present
          obtain ⟨d, listed, hash, draws | ⟨fee, unfolded⟩⟩ := booked.1 present
          · exact drawn ⟨d, listed, draws, hash⟩
          · have same := coherent.settled.good.eq_of_hash (line.placed d listed).source observed hash
            have alone : ∀ m, Locates s m → m.move ≠ none → ¬Bundled m d := by
              intro m locates moves bundled
              obtain ⟨e, locates', moves', bundled', less⟩ :=
                follow.afterMove d m (line.locates listed) locates fee moves bundled
              exact unfolded ((folded_plain coherent line plain).2
                ⟨e, (line.mem_iff coherent).2 locates', less, moves', bundled'⟩)
            obtain ⟨e, locates, source, draws⟩ := follow.besidePrincipal d (line.locates listed) fee alone
              (by rw [same]; exact zero)
            exact drawn ⟨e, (line.mem_iff coherent).2 locates, draws, by rw [source, hash]⟩
        have only : feeOnly (contextOf args s ds) ((ds.flatMap (emitted (contextOf args s ds))) ++ inbound) o := by
          refine ⟨outbound, by omega, unbooked, ?_, ?_, barred⟩
          · intro blocked
            obtain ⟨root, rooted, -⟩ := (blocked_iff coherent line args).1 blocked
            unfold TaxArguments.explicitlyBlocked at rooted
            rw [plain.unblocked] at rooted
            cases rooted
          · show _ ∉ args.nonEvents
            unfold TaxArguments.nonEvents
            rw [plain.events]
            simp
        rw [if_pos only]
        omega

omit line plain in
theorem principals_sum : (s.projection.decisions.map fun d => d.source.amountMsat).sum =
    ((s.canonicalInput.observations.filter fun o => o.direction = .outbound).map fun o => o.principalMsat).sum := by
  rw [sum_fibers (fun d : ArbitratedSlice => d.source.observationHash)
    (hashes_nodup coherent.settled fun o => o.direction = .outbound)]
  · rw [map_map]
    refine congrArg List.sum (map_congr_left ?_)
    intro o member
    obtain ⟨observed, outbound⟩ := mem_filter.1 member
    have sum := tiles_sum (coherent.settled.tiles o observed (of_decide_eq_true outbound))
    rw [map_map, sub_zero] at sum
    exact sum
  · intro d member
    obtain ⟨o, observed, outbound, hash⟩ := coherent.settled.sources d member
    exact mem_map.2 ⟨o, mem_filter.2 ⟨observed, decide_eq_true outbound⟩, hash⟩

end

/-- What leaves in projected rows is what was observed to leave: principals and fees, less retained custody, the fees that
a reviewed component restates and the fees held behind the barrier. -/
theorem outbound_conserved {host : Host} {input : RuntimeInput} {s : CanonicalQuantityState}
    (built : buildCanonicalQuantityState host input = .ok s) {args : TaxArguments} (plain : Plain args s)
    (follow : FeesFollow s) {p : FinalizedTaxProjection} (run : compileFinalizedTaxProjection args s = .ok p) :
    ∃ ds, locatedDecisions s = .ok ds ∧ (p.rows.map outboundTotal).sum =
      ((s.canonicalInput.observations.filter fun o => o.direction = .outbound).map fun o =>
        o.principalMsat + o.feeMsat).sum -
      ((s.projection.decisions.filter fun d => d.destinationKind = some .retainedCustody).map fun d =>
        d.source.amountMsat).sum -
      ((ds.filter fun d => Restates ds d).map fun d => d.source.feeMsat).sum -
      ((s.canonicalInput.observations.filter fun o =>
        o.direction = .outbound ∧ HeldFee (contextOf args s ds) o).map fun o => o.feeMsat).sum := by
  have coherent := build_coherent built
  obtain ⟨ds, found, line⟩ := locatedDecisions_line coherent
  refine ⟨ds, found, ?_⟩
  obtain ⟨rows, projected, rfl, -⟩ := (compile_run args found).1 run
  obtain ⟨slicesOf, booked, gathered, listed, owned⟩ := projectedRows_spec args coherent line
    (ds.foldl (loopStep (contextOf args s ds)) (initialLoop (contextOf args s ds)))
  cases projected.symm.trans listed
  rw [(walk_final args line).rows] at gathered
  generalize received : (receipts (contextOf args s ds)).flatMap (fun o =>
    (slicesOf o).map fun slice => projectedSliceRow args.rowsById o slice "inbound" 0) = inbound at gathered
  have receipts_ : ∀ row ∈ inbound, ∃ r ∈ s.canonicalInput.observations, r.direction = .inbound ∧
      row.custodyQuantityHash = r.quantityHash ∧ row.direction = .inbound := by
    intro row member
    rw [← received] at member
    obtain ⟨o, receipt, inside⟩ := mem_flatMap.1 member
    obtain ⟨slice, -, rfl⟩ := mem_map.1 inside
    obtain ⟨stored, kept⟩ := mem_filter.1 receipt
    have directed := (of_decide_eq_true kept).1
    have observed : o ∈ s.projection.observations := mem_sortedBy.1 stored
    rw [coherent.observed, mem_sortedBy] at observed
    exact ⟨o, observed, directed, rfl, directed⟩
  have walked : ((ds.flatMap (emitted (contextOf args s ds))).map outboundTotal).sum +
      ((s.projection.decisions.filter fun d => d.destinationKind = some .retainedCustody).map fun d =>
        d.source.amountMsat).sum +
      ((ds.filter fun d => Restates ds d).map fun d => d.source.feeMsat).sum =
      ((s.canonicalInput.observations.filter fun o => o.direction = .outbound).map fun o => o.principalMsat).sum +
      ((s.canonicalInput.observations.filter fun o => o.direction = .outbound).map fun o =>
        if ∃ d ∈ ds, Draws d ∧ d.source.quantityHash = o.quantityHash then o.feeMsat else 0).sum := by
    have each := congrArg List.sum (map_congr_left fun d member => emitted_total coherent line plain member)
    simp only [sum_map_add] at each
    rw [own_fees coherent line plain, folded_fees coherent line plain follow, add_left_inj] at each
    rw [sum_flatMap, sum_filter fun d : ArbitratedSlice => d.destinationKind = some .retainedCustody,
      sum_filter fun d : Located => Restates ds d, ← principals_sum coherent,
      ← (line.perm.map fun d : ArbitratedSlice => d.source.amountMsat).sum_eq,
      ← (line.perm.map fun d : ArbitratedSlice =>
        if d.destinationKind = some .retainedCustody then d.source.amountMsat else 0).sum_eq, map_map, map_map]
    exact each
  have silent : (inbound.map outboundTotal).sum = 0 := by
    refine sum_eq_zero ?_
    intro total member
    obtain ⟨row, inside, rfl⟩ := mem_map.1 member
    obtain ⟨-, -, -, -, directed⟩ := receipts_ row inside
    simp [outboundTotal, directed]
  have alone : ((feeOnlyRows (contextOf args s ds) booked).map outboundTotal).sum =
      ((s.canonicalInput.observations.filter fun o => o.direction = .outbound).map fun o =>
        if feeOnly (contextOf args s ds) booked o then o.feeMsat else 0).sum := by
    have each : ∀ o ∈ (contextOf args s ds).state.projection.observations.filter fun o =>
        feeOnly (contextOf args s ds) booked o,
        (outboundTotal ∘ fun o => projectedFeeRow (contextOf args s ds).rowsById o "fee-only" o.feeMsat) o = o.feeMsat := by
      intro o member
      have outbound := (of_decide_eq_true (mem_filter.1 member).2).1
      simp [outboundTotal, projectedFeeRow, baseRow, outbound]
    unfold feeOnlyRows
    rw [map_map, map_congr_left each, sum_filter fun o => feeOnly (contextOf args s ds) booked o,
      sum_filter fun o : QuantityObservation => o.direction = .outbound]
    rw [show (contextOf args s ds).state.projection.observations = s.projection.observations from rfl, coherent.observed,
      ((sortedBy_perm QuantityObservation.quantityHash s.canonicalInput.observations).map _).sum_eq]
    refine congrArg List.sum (map_congr_left ?_)
    intro o _
    by_cases only : feeOnly (contextOf args s ds) booked o
    · rw [if_pos only, if_pos only.1]
    · rw [if_neg only, ite_self]
  have accounted : ((s.canonicalInput.observations.filter fun o => o.direction = .outbound).map fun o => o.feeMsat).sum =
      ((s.canonicalInput.observations.filter fun o => o.direction = .outbound).map fun o =>
        if ∃ d ∈ ds, Draws d ∧ d.source.quantityHash = o.quantityHash then o.feeMsat else 0).sum +
      ((s.canonicalInput.observations.filter fun o => o.direction = .outbound).map fun o =>
        if feeOnly (contextOf args s ds) booked o then o.feeMsat else 0).sum +
      ((s.canonicalInput.observations.filter fun o => o.direction = .outbound).map fun o =>
        if HeldFee (contextOf args s ds) o then o.feeMsat else 0).sum := by
    rw [← sum_map_add, ← sum_map_add]
    refine congrArg List.sum (map_congr_left ?_)
    intro o member
    obtain ⟨observed, outbound⟩ := mem_filter.1 member
    rw [gathered]
    refine (fee_accounted coherent line plain follow observed (of_decide_eq_true outbound) ?_).symm
    intro row inside
    obtain ⟨r, stored, directed, hash, -⟩ := receipts_ row inside
    exact ⟨r, stored, directed, hash⟩
  have heldFees : ((s.canonicalInput.observations.filter fun o =>
      o.direction = .outbound ∧ HeldFee (contextOf args s ds) o).map fun o => o.feeMsat).sum =
      ((s.canonicalInput.observations.filter fun o => o.direction = .outbound).map fun o =>
        if HeldFee (contextOf args s ds) o then o.feeMsat else 0).sum := by
    rw [sum_filter fun o : QuantityObservation => o.direction = .outbound ∧ HeldFee (contextOf args s ds) o,
      sum_filter fun o : QuantityObservation => o.direction = .outbound]
    refine congrArg List.sum (map_congr_left ?_)
    intro o _
    rw [ite_and]
  have total : ((assemble (contextOf args s ds) (ds.foldl (loopStep (contextOf args s ds))
      (initialLoop (contextOf args s ds))) (booked ++ feeOnlyRows (contextOf args s ds) booked)).rows.map outboundTotal).sum =
      ((booked ++ feeOnlyRows (contextOf args s ds) booked).map outboundTotal).sum :=
    ((sortedBy_perm _ _).map _).sum_eq
  have bookedTotal : (booked.map outboundTotal).sum =
      ((ds.flatMap (emitted (contextOf args s ds))).map outboundTotal).sum := by
    rw [gathered, map_append, sum_append, silent, add_zero]
  rw [total, map_append, sum_append, alone, heldFees, sum_map_add, accounted, bookedTotal]
  linarith [walked]

theorem carried_kinds {s : CanonicalQuantityState} (coherent : Coherent s)
    (observed : s.canonicalInput.observations = carriedInput.observations)
    (decided : s.projection.decisions.map (fun d => (d.source.observationHash, d.destinationKind)) =
      [(sampleHash 'a', none), (sampleHash 'c', some .fee)]) {d : Located} (locates : Locates s d) :
    (d.source = sampleSent ∧ d.decision.source.observationHash = sampleHash 'a' ∧ d.decision.destinationKind = none) ∨
      (d.source = feeSent ∧ d.decision.source.observationHash = sampleHash 'c' ∧
        d.decision.destinationKind = some .fee) := by
  have listed := mem_map_of_mem (f := fun d : ArbitratedSlice => (d.source.observationHash, d.destinationKind))
    locates.decided
  have sent : sampleSent ∈ s.canonicalInput.observations := by
    rw [observed]
    exact .head _
  have fee : feeSent ∈ s.canonicalInput.observations := by
    rw [observed]
    simp [CanonicalQuantityInput.observations, carriedInput]
  rw [decided] at listed
  simp only [mem_cons, Prod.mk.injEq, not_mem_nil, or_false] at listed
  rcases listed with ⟨hash, kind⟩ | ⟨hash, kind⟩
  · exact .inl ⟨coherent.settled.good.eq_of_hash locates.source sent (locates.hash.trans hash), hash, kind⟩
  · exact .inr ⟨coherent.settled.good.eq_of_hash locates.source fee (locates.hash.trans hash), hash, kind⟩

theorem carried_plain {s : CanonicalQuantityState} (coherent : Coherent s)
    (eligible : ∀ d ∈ s.projection.decisions, d.source ∈ s.taxEligibility.eligibleDecisions.map fun e => e.source) :
    Plain carriedArguments s := by
  refine ⟨rfl, rfl, rfl, ?_⟩
  intro d member
  obtain ⟨rowsById, judged⟩ := coherent.judged
  obtain ⟨e, listed, same⟩ := mem_map.1 (eligible d member)
  obtain ⟨decided, -⟩ := (mem_eligibleDecisions judged).1 listed
  have equal : e = d := inj_on_of_nodup_map (starts_distinct coherent) decided member (by rw [same])
  exact equal ▸ listed

theorem outbound_conserved_component : ∃ s p ds, buildCanonicalQuantityState sampleHost carriedRuntime = .ok s ∧
    compileFinalizedTaxProjection carriedArguments s = .ok p ∧ locatedDecisions s = .ok ds ∧
    (p.rows.map outboundTotal).sum = 1015 -
      ((s.projection.decisions.filter fun d => d.destinationKind = some .retainedCustody).map fun d =>
        d.source.amountMsat).sum -
      ((ds.filter fun d => Restates ds d).map fun d => d.source.feeMsat).sum -
      ((carriedInput.observations.filter fun o =>
        o.direction = .outbound ∧ HeldFee (contextOf carriedArguments s ds) o).map fun o => o.feeMsat).sum := by
  obtain ⟨s, p, built, compiled, observed, -, eligible, decided, -⟩ := carried_compiled
  have coherent := build_coherent built
  have kinds := fun {d} => @carried_kinds s coherent observed decided d
  have follow : FeesFollow s := by
    refine ⟨?_, ?_⟩
    · intro d m located located' fee moves bundled
      refine ⟨m, located', moves, bundled, ?_⟩
      obtain ⟨-, -, kind⟩ | ⟨source, hash, -⟩ := kinds located
      · rw [kind] at fee
        cases fee
      · obtain ⟨source', hash', -⟩ | ⟨-, -, kind'⟩ := kinds located'
        · unfold Located.order decisionOrder
          rw [source, source', hash, hash']
          have less : sampleHash 'a' < sampleHash 'c' := by decide +kernel
          exact Prod.Lex.toLex_lt_toLex.2 (Or.inr ⟨rfl, Prod.Lex.toLex_lt_toLex.2 (Or.inl less)⟩)
        · have state := (coherent.shaped _ located'.decided).fee kind'
          unfold Located.move at moves
          rw [state] at moves
          exact absurd rfl moves
    · intro d located fee alone costly
      obtain ⟨-, -, kind⟩ | ⟨source, -, -⟩ := kinds located
      · rw [kind] at fee
        cases fee
      · rw [source] at costly
        exact absurd rfl costly
  obtain ⟨ds, found, total⟩ := outbound_conserved built (carried_plain coherent eligible) follow compiled
  refine ⟨s, p, ds, built, compiled, found, ?_⟩
  rw [observed] at total
  exact total

theorem outbound_not_conserved :
    ¬∀ host input s args p, buildCanonicalQuantityState host input = .ok s → Plain args s →
      compileFinalizedTaxProjection args s = .ok p →
      (p.rows.map outboundTotal).sum =
        ((s.canonicalInput.observations.filter fun o => o.direction = .outbound).map fun o =>
          o.principalMsat + o.feeMsat).sum -
        ((s.projection.decisions.filter fun d => d.destinationKind = some .retainedCustody).map fun d =>
          d.source.amountMsat).sum := by
  intro kept
  obtain ⟨s, p, built, compiled, observed, -, eligible, decided, rows, -⟩ := carried_compiled
  have total := kept sampleHost carriedRuntime s carriedArguments p built (carried_plain (build_coherent built) eligible)
    compiled
  have booked : (p.rows.map outboundTotal).sum = 1005 := by
    have read : p.rows.map outboundTotal = (p.rows.map fun row =>
        (row.journalTransactionId, row.direction, row.amount, row.fee)).map fun entry =>
          if entry.2.1 = Direction.outbound then entry.2.2.1 + entry.2.2.2 else 0 := by
      rw [map_map]
      rfl
    rw [read, rows]
    decide
  have kept : s.projection.decisions.filter (fun d => d.destinationKind = some .retainedCustody) = [] := by
    refine filter_eq_nil_iff.2 ?_
    intro d member retained
    have listed := mem_map_of_mem (f := fun d : ArbitratedSlice => (d.source.observationHash, d.destinationKind)) member
    rw [decided, of_decide_eq_true retained] at listed
    simp at listed
  rw [booked, kept, observed] at total
  exact absurd total (by decide)

end Kassiber.Tax
