import Kassiber.Lib.Text
import Kassiber.Custody.NativeAudit

/-!
Rejection spreads over legs that share a source or a slot until it is closed, and every slot that stays gets one
inbound of exactly the amount its legs bring.
-/

namespace Kassiber.Custody
open Lib.Outcome Lib.Dict Lib.Sorting Lib.Text
open List hiding lookup lookup_append
open Prod (fst snd)

section
variable {sha256 : String → String}

structure LegOf (canonical : CanonicalQuantityInput) (leg : NativeLeg) : Prop where
  observed : leg.source ∈ canonical.observations
  positive : 0 < leg.receivedMsat
  upper : leg.asset.toUpper = leg.asset

variable {canonical : CanonicalQuantityInput}

theorem observed_of_lookup {byTransaction : List (String × QuantityObservation)}
    (indexed : canonical.observationsByTransaction = .ok byTransaction) {id : String} {o : QuantityObservation}
    (found : lookup byTransaction id = some o) : o ∈ canonical.observations := by
  obtain ⟨entry, -, read⟩ := mapM_outputs indexed (mem_of_lookup found)
  split at read
  · cases read
  · rename_i stored hit
    cases read
    obtain ⟨other, member, same⟩ := mem_map.1 (mem_of_lookup hit)
    have equal : other = o := congrArg snd same
    exact equal ▸ member

theorem parseLeg_leg {byTransaction : List (String × QuantityObservation)}
    (indexed : canonical.observationsByTransaction = .ok byTransaction) {audit : NativeAuditRow} {leg : NativeLeg}
    (parsed : parseLeg sha256 byTransaction audit = .ok leg) : LegOf canonical leg := by
  unfold parseLeg at parsed
  dsimp only at parsed
  split at parsed
  · cases parsed
  rename_i source found
  split at parsed
  · cases parsed
  split at parsed
  · cases parsed
  split at parsed
  · cases parsed
  rename_i received fee sent amounts
  cases parsed
  have positive : 0 < received := by
    unfold legAmounts at amounts
    obtain ⟨r, -, amounts⟩ := Option.bind_eq_some_iff.1 amounts
    obtain ⟨f, -, amounts⟩ := Option.bind_eq_some_iff.1 amounts
    obtain ⟨s, -, amounts⟩ := Option.bind_eq_some_iff.1 amounts
    split at amounts
    · rename_i fits
      cases amounts
      exact fits.2.2.2.2.2.1
    · cases amounts
  exact ⟨observed_of_lookup indexed (Option.filter_eq_some_iff.1 found).1, positive, toUpper_toUpper _⟩

theorem parseLegs_legs {audits : List NativeAuditRow} {ids : List String}
    {parsed : List NativeLeg} {issues : List NativeAuditIssue}
    (run : parseLegs sha256 canonical audits ids = .ok (parsed, issues)) {leg : NativeLeg} (member : leg ∈ parsed) :
    LegOf canonical leg := by
  obtain ⟨byTransaction, indexed, run⟩ := bind_ok.1 run
  cases run
  obtain ⟨outcome, listed, kept⟩ := mem_filterMap.1 member
  obtain ⟨audit, -, rfl⟩ := mem_map.1 listed
  cases parsed : parseLeg sha256 byTransaction audit with
  | error issue =>
    rw [parsed] at kept
    cases kept
  | ok leg =>
    rw [parsed] at kept
    cases kept
    exact parseLeg_leg indexed parsed

end

section
variable {sha256 : String → String}

theorem mem_sourceGroups {legs : List NativeLeg} {hash : String} {members : List NativeLeg} :
    (hash, members) ∈ sourceGroups legs ↔
      members = byEvidence (legs.filter fun leg => leg.source.quantityHash = hash) ∧
        hash ∈ legs.map fun leg => leg.source.quantityHash := by
  unfold sourceGroups
  rw [mem_map]
  constructor
  · rintro ⟨⟨key, group⟩, listed, same⟩
    obtain ⟨rfl, rfl⟩ := Prod.mk.inj same
    obtain ⟨rfl, present⟩ := mem_groupBy.1 (mem_sortedBy.1 listed)
    exact ⟨rfl, present⟩
  · rintro ⟨rfl, present⟩
    exact ⟨_, mem_sortedBy.2 (mem_groupBy.2 ⟨rfl, present⟩), rfl⟩

theorem sourceGroups_keys_nodup (legs : List NativeLeg) : ((sourceGroups legs).map fst).Nodup := by
  unfold sourceGroups
  rw [map_map]
  exact ((sortedBy_perm _ _).map _).nodup_iff.2 (groupBy_keys_nodup _ legs)

theorem sourceGroups_flatten (legs : List NativeLeg) : ((sourceGroups legs).flatMap snd).Perm legs := by
  unfold sourceGroups
  rw [flatMap_map]
  refine List.Perm.trans ?_ (groupBy_flatten (fun leg : NativeLeg => leg.source.quantityHash) legs)
  refine List.Perm.trans ?_ ((sortedBy_perm fst _).flatMap_right snd)
  exact List.Perm.flatMap_left _ fun group _ => sortedBy_perm _ group.2

theorem validatedGroup_ok {reserved : List (String × Int)} {group : String × List NativeLeg} {kept : List NativeLeg}
    (passed : validatedGroup sha256 reserved group = .ok kept) : kept = group.2 := by
  unfold validatedGroup at passed
  split at passed
  · rename_i empty
    cases passed
    exact empty.symm
  · dsimp only at passed
    split at passed <;> cases passed
    rfl

theorem mem_validated {parsed : List NativeLeg} {reserved : List (String × Int)} {leg : NativeLeg} :
    leg ∈ (validatedSourceGroups sha256 parsed reserved).1 ↔
      leg ∈ parsed ∧ ∃ kept, validatedGroup sha256 reserved (leg.source.quantityHash,
        byEvidence (parsed.filter fun other => other.source.quantityHash = leg.source.quantityHash)) = .ok kept := by
  unfold validatedSourceGroups
  dsimp only
  rw [mem_flatten]
  constructor
  · rintro ⟨kept, listed, member⟩
    obtain ⟨outcome, mapped, ok⟩ := mem_filterMap.1 listed
    obtain ⟨⟨hash, members⟩, group, rfl⟩ := mem_map.1 mapped
    cases passed : validatedGroup sha256 reserved (hash, members) with
    | error issue =>
      rw [passed] at ok
      cases ok
    | ok result =>
      rw [passed] at ok
      cases ok
      obtain ⟨rfl, -⟩ := mem_sourceGroups.1 group
      rw [validatedGroup_ok passed] at member
      have inside := mem_filter.1 (mem_sortedBy.1 member)
      have same : leg.source.quantityHash = hash := of_decide_eq_true inside.2
      subst same
      exact ⟨inside.1, _, passed⟩
  · rintro ⟨member, kept, passed⟩
    have group : (leg.source.quantityHash, _) ∈ sourceGroups parsed :=
      mem_sourceGroups.2 ⟨rfl, mem_map.2 ⟨leg, member, rfl⟩⟩
    refine ⟨kept, mem_filterMap.2 ⟨_, mem_map_of_mem group, ?_⟩, ?_⟩
    · rw [passed]
      rfl
    · rw [validatedGroup_ok passed]
      exact mem_sortedBy.2 (mem_filter.2 ⟨member, decide_eq_true rfl⟩)

end

section
variable {slots : List (TargetSlot × List NativeLeg)}

theorem mem_slotItems {legs : List NativeLeg} {slot : TargetSlot} {members : List NativeLeg} :
    (slot, members) ∈ slotItems legs ↔
      members = byEvidence (legs.filter fun leg => slotOf leg = slot) ∧ slot ∈ legs.map slotOf := by
  unfold slotItems
  rw [mem_map]
  constructor
  · rintro ⟨⟨key, group⟩, listed, same⟩
    obtain ⟨rfl, rfl⟩ := Prod.mk.inj same
    obtain ⟨rfl, present⟩ := mem_groupBy.1 (mem_sortedBy.1 listed)
    exact ⟨rfl, present⟩
  · rintro ⟨rfl, present⟩
    exact ⟨_, mem_sortedBy.2 (mem_groupBy.2 ⟨rfl, present⟩), rfl⟩

theorem slotItems_keys_nodup (legs : List NativeLeg) : ((slotItems legs).map fst).Nodup := by
  unfold slotItems
  rw [map_map]
  exact ((sortedBy_perm _ _).map _).nodup_iff.2 (groupBy_keys_nodup _ legs)

structure Recorded (slots : List (TargetSlot × List NativeLeg)) (state : List TargetSlot × List String) : Prop where
  recorded : ∀ entry ∈ slots, entry.1 ∈ state.1 → ∀ leg ∈ entry.2, leg.source.quantityHash ∈ state.2

variable {state : List TargetSlot × List String}

theorem spread_recorded {entry : TargetSlot × List NativeLeg}
    (distinct : (slots.map fst).Nodup) (member : entry ∈ slots) (known : Recorded slots state) :
    Recorded slots (spreadInvalid state entry) := by
  unfold spreadInvalid
  split
  · exact known
  split
  · constructor
    intro other listed rejected leg inside
    rcases mem_cons.1 rejected with same | before
    · have equal := inj_on_of_nodup_map distinct listed member same
      subst equal
      exact mem_append_right _ (mem_map_of_mem inside)
    · exact mem_append_left _ (known.recorded other listed before leg inside)
  · exact known

theorem spread_keeps (state : List TargetSlot × List String) (entry : TargetSlot × List NativeLeg) {slot : TargetSlot}
    (rejected : slot ∈ state.1) : slot ∈ (spreadInvalid state entry).1 := by
  unfold spreadInvalid
  split
  · exact rejected
  split
  · exact .tail _ rejected
  · exact rejected

def pendingSlots (slots : List (TargetSlot × List NativeLeg)) (rejected : List TargetSlot) :
    List (TargetSlot × List NativeLeg) :=
  slots.filter fun entry => entry.1 ∉ rejected

theorem spread_progress (state : List TargetSlot × List String) {entry : TargetSlot × List NativeLeg}
    (member : entry ∈ slots) : spreadInvalid state entry = state ∨
      (pendingSlots slots (spreadInvalid state entry).1).length < (pendingSlots slots state.1).length ∧
        state.1.length < (spreadInvalid state entry).1.length := by
  unfold spreadInvalid
  split
  · exact .inl rfl
  rename_i fresh
  split
  · right
    have same : pendingSlots slots (entry.1 :: state.1) =
        (pendingSlots slots state.1).filter fun other => other.1 ≠ entry.1 := by
      unfold pendingSlots
      rw [filter_filter]
      refine filter_congr fun other _ => ?_
      simp [not_or]
    dsimp only
    rw [same]
    refine ⟨length_filter_lt_length_iff_exists.2 ⟨entry, ?_, by simp⟩, Nat.lt_succ_self _⟩
    exact mem_filter.2 ⟨member, decide_eq_true fresh⟩
  · exact .inl rfl

theorem pass_progress (entries : List (TargetSlot × List NativeLeg)) (listed : ∀ entry ∈ entries, entry ∈ slots)
    (state : List TargetSlot × List String) :
    (entries.foldl spreadInvalid state = state ∧ ∀ entry ∈ entries, spreadInvalid state entry = state) ∨
      (pendingSlots slots (entries.foldl spreadInvalid state).1).length < (pendingSlots slots state.1).length ∧
        state.1.length < (entries.foldl spreadInvalid state).1.length := by
  induction entries generalizing state with
  | nil => exact .inl ⟨rfl, by simp⟩
  | cons entry rest ih =>
    rw [foldl_cons]
    have inner := fun other inside => listed other (.tail _ inside)
    rcases spread_progress state (listed entry (.head _)) with quiet | step
    · rw [quiet]
      rcases ih inner state with ⟨same, still⟩ | later
      · refine .inl ⟨same, ?_⟩
        intro other inside
        rcases mem_cons.1 inside with rfl | old
        · exact quiet
        · exact still other old
      · exact .inr later
    · rcases ih inner (spreadInvalid state entry) with ⟨same, -⟩ | later
      · rw [same]
        exact .inr step
      · exact .inr ⟨later.1.trans step.1, step.2.trans later.2⟩

theorem closeInvalid_closed (slots : List (TargetSlot × List NativeLeg)) {fuel : Nat}
    (room : (pendingSlots slots state.1).length < fuel) :
    ∀ entry ∈ slots, spreadInvalid (closeInvalid slots fuel state) entry = closeInvalid slots fuel state := by
  induction fuel generalizing state with
  | zero => exact absurd room (Nat.not_lt_zero _)
  | succ fuel ih =>
    unfold closeInvalid
    dsimp only
    rcases pass_progress slots (fun _ member => member) state with ⟨same, quiet⟩ | ⟨fewer, longer⟩
    · rw [same, if_pos rfl]
      exact quiet
    · rw [if_neg longer.ne']
      exact ih (by omega)

theorem closeInvalid_invariant (slots : List (TargetSlot × List NativeLeg)) (fuel : Nat)
    (inv : List TargetSlot × List String → Prop)
    (step : ∀ state, ∀ entry ∈ slots, inv state → inv (spreadInvalid state entry)) (initial : inv state) :
    inv (closeInvalid slots fuel state) := by
  induction fuel generalizing state with
  | zero => exact initial
  | succ fuel ih =>
    have pass : inv (slots.foldl spreadInvalid state) := by
      refine foldlRecOn slots spreadInvalid initial ?_
      intro before held entry member
      exact step before entry member held
    unfold closeInvalid
    dsimp only
    split
    · exact pass
    · exact ih pass

theorem closed_apart {closed : List TargetSlot × List String}
    (fixed : ∀ entry ∈ slots, spreadInvalid closed entry = closed) (known : Recorded slots closed)
    {kept lost : TargetSlot × List NativeLeg} (keptIn : kept ∈ slots) (lostIn : lost ∈ slots) (stays : kept.1 ∉ closed.1)
    (rejected : lost.1 ∈ closed.1) {leg other : NativeLeg} (inside : leg ∈ kept.2) (outside : other ∈ lost.2) :
    leg.source.quantityHash ≠ other.source.quantityHash := by
  intro same
  have quiet := fixed kept keptIn
  unfold spreadInvalid at quiet
  have listed := known.recorded lost lostIn rejected other outside
  rw [if_neg stays, if_pos ⟨leg, inside, same ▸ listed⟩] at quiet
  exact absurd (congrArg (fun state => state.1.length) quiet) (Nat.succ_ne_self _)

end

def LegAt (canonical : CanonicalQuantityInput) (key : CanonicalEventKey) (o : QuantityObservation) : Prop :=
  ∃ event ∈ canonical.events, event.eventKey = key ∧ o ∈ event.legs

section
variable {canonical : CanonicalQuantityInput} {key : CanonicalEventKey} {event : CanonicalQuantityEvent}

theorem legAt_iff (found : canonical.event key = .ok event) (o : QuantityObservation) :
    LegAt canonical key o ↔ o ∈ event.legs := by
  obtain ⟨present, named⟩ := event_ok found
  constructor
  · rintro ⟨other, listed, same, inside⟩
    have equal := inj_on_of_nodup_map canonical.distinct listed present (same.trans named.symm)
    exact equal ▸ inside
  · intro inside
    exact ⟨event, present, named, inside⟩

variable {o : QuantityObservation}

theorem mem_observations_iff : o ∈ canonical.observations ↔ ∃ key, LegAt canonical key o := by
  rw [mem_observations]
  constructor
  · rintro ⟨event, listed, inside⟩
    exact ⟨_, event, listed, rfl, inside⟩
  · rintro ⟨key, event, listed, -, inside⟩
    exact ⟨event, listed, inside⟩

theorem legAt_inKeyOrder : LegAt canonical.inKeyOrder key o ↔ LegAt canonical key o := by
  constructor
  · rintro ⟨event, listed, named, inside⟩
    exact ⟨event, mem_sortedBy.1 listed, named, inside⟩
  · rintro ⟨event, listed, named, inside⟩
    exact ⟨event, mem_sortedBy.2 listed, named, inside⟩

theorem legAt_replace (found : canonical.event key = .ok event) (added : QuantityObservation) (ids : List String)
    {other : CanonicalEventKey} :
    LegAt (canonical.replaceEvent (event.extend added ids)) other o ↔
      LegAt canonical other o ∨ other = key ∧ o = added := by
  obtain ⟨present, named⟩ := event_ok found
  have extended : (event.extend added ids).eventKey = key := named
  have legs : ∀ leg, leg ∈ (event.extend added ids).legs ↔ leg ∈ event.legs ∨ leg = added := by
    intro leg
    simp [CanonicalQuantityEvent.extend]
  constructor
  · rintro ⟨stored, listed, keyed, inside⟩
    obtain ⟨old, before, rfl⟩ := mem_map.1 listed
    by_cases same : old.eventKey = (event.extend added ids).eventKey
    · rw [if_pos same] at keyed inside
      have equal := inj_on_of_nodup_map canonical.distinct before present same
      subst equal
      rcases (legs o).1 inside with old_ | new
      · exact .inl ⟨old, before, keyed, old_⟩
      · exact .inr ⟨keyed.symm.trans extended, new⟩
    · rw [if_neg same] at keyed inside
      exact .inl ⟨old, before, keyed, inside⟩
  · rintro (⟨old, before, keyed, inside⟩ | ⟨rfl, rfl⟩)
    · refine ⟨_, mem_map.2 ⟨old, before, rfl⟩, ?_⟩
      by_cases same : old.eventKey = (event.extend added ids).eventKey
      · have equal := inj_on_of_nodup_map canonical.distinct before present same
        subst equal
        rw [if_pos same]
        exact ⟨keyed, (legs o).2 (.inl inside)⟩
      · rw [if_neg same]
        exact ⟨keyed, inside⟩
    · refine ⟨_, mem_map.2 ⟨event, present, rfl⟩, ?_⟩
      rw [if_pos (named.trans extended.symm)]
      exact ⟨extended, (legs o).2 (.inr rfl)⟩

theorem legAt_unique (distinct : (canonical.observations.map (·.quantityHash)).Nodup)
    {other : CanonicalEventKey} {o p : QuantityObservation} (first : LegAt canonical key o)
    (second : LegAt canonical other p) (same : o.quantityHash = p.quantityHash) : key = other ∧ o = p := by
  have memberO := mem_observations_iff.2 ⟨key, first⟩
  have memberP := mem_observations_iff.2 ⟨other, second⟩
  have equal := inj_on_of_nodup_map distinct memberO memberP same
  subst equal
  refine ⟨?_, rfl⟩
  obtain ⟨e, listedE, rfl, insideE⟩ := first
  obtain ⟨f, listedF, rfl, insideF⟩ := second
  have once := List.Nodup.of_map _ distinct
  by_contra apart
  have different : e ≠ f := fun same => apart (same ▸ rfl)
  have symmetric : Std.Symm (Function.onFun List.Disjoint fun event : CanonicalQuantityEvent => event.legs) :=
    ⟨fun _ _ disjoint => disjoint.symm⟩
  exact (nodup_flatMap.1 once).2.forall listedE listedF different insideE insideF

end

section
variable {sha256 : String → String} {canonical : CanonicalQuantityInput}

def receivedBy (members : List NativeLeg) : Int := (members.map (·.receivedMsat)).sum

def InSlot (slot : TargetSlot) (o : QuantityObservation) : Prop :=
  o.direction = .inbound ∧ o.walletId = slot.walletId ∧ o.asset = slot.asset

theorem mem_existingTargets {event : CanonicalQuantityEvent} {slot : TargetSlot} {o : QuantityObservation} :
    o ∈ existingTargets event slot ↔ o ∈ event.legs ∧ InSlot slot o := by
  unfold existingTargets InSlot
  rw [mem_filter, decide_eq_true_eq]

def SlotFits (canonical : CanonicalQuantityInput) (entry : TargetSlot × List NativeLeg) : Prop :=
  ∀ o, LegAt canonical entry.1.eventKey o → InSlot entry.1 o → o.principalMsat = receivedBy entry.2

theorem checkSlot_step {state next : SlotState} {entry : TargetSlot × List NativeLeg}
    (step : checkSlot sha256 canonical state entry = .ok next) :
    (∀ slot ∈ state.invalid, slot ∈ next.invalid) ∧ (entry.1 ∈ next.invalid ∨ SlotFits canonical entry) := by
  obtain ⟨slot, members⟩ := entry
  unfold checkSlot at step
  obtain ⟨event, found, step⟩ := bind_ok.1 step
  dsimp only at step
  split at step
  · rename_i only single
    split at step
    · rename_i equal
      cases step
      refine ⟨fun _ rejected => rejected, .inr fun o placed inside => ?_⟩
      have listed := mem_existingTargets.2 ⟨(legAt_iff found o).1 placed, inside⟩
      rw [single, mem_singleton] at listed
      rw [listed]
      exact equal
    · cases step
      exact ⟨fun _ rejected => mem_cons_of_mem _ rejected, .inl (.head _)⟩
  · cases step
    exact ⟨fun _ rejected => mem_cons_of_mem _ rejected, .inl (.head _)⟩
  · rename_i empty
    split at step
    · cases step
      exact ⟨fun _ rejected => mem_cons_of_mem _ (mem_append_right _ rejected), .inl (.head _)⟩
    · cases step
      refine ⟨fun _ rejected => rejected, .inr fun o placed inside => ?_⟩
      have listed := mem_existingTargets.2 ⟨(legAt_iff found o).1 placed, inside⟩
      rw [empty] at listed
      cases listed

theorem checkSlots_fit {slots : List (TargetSlot × List NativeLeg)} {state final : SlotState}
    (run : slots.foldlM (checkSlot sha256 canonical) state = .ok final) :
    (∀ slot ∈ state.invalid, slot ∈ final.invalid) ∧
      ∀ entry ∈ slots, entry.1 ∉ final.invalid → SlotFits canonical entry := by
  induction slots generalizing state with
  | nil =>
    cases run
    exact ⟨fun _ rejected => rejected, by simp⟩
  | cons entry rest ih =>
    rw [foldlM_cons, bind_ok] at run
    obtain ⟨next, first, later⟩ := run
    obtain ⟨grows, verdict⟩ := checkSlot_step first
    obtain ⟨kept, fits⟩ := ih later
    refine ⟨fun slot rejected => kept slot (grows slot rejected), ?_⟩
    intro other listed stays
    rcases mem_cons.1 listed with rfl | inside
    · rcases verdict with rejected | good
      · exact absurd (kept _ rejected) stays
      · exact good
    · exact fits other inside stays

end

section
variable {sha256 : String → String}

theorem fromTransaction_ok {row : SyntheticRow} {key : CanonicalEventKey} {o : QuantityObservation}
    (built : QuantityObservation.fromTransaction sha256 row key = .ok o) :
    o.direction = row.direction ∧ o.walletId = row.walletId ∧ o.asset = row.asset.toUpper ∧
      o.principalMsat = row.amount ∧ o.feeMsat = row.fee ∧ o.feeAttribution = .unknown ∧ o.eventKey = key ∧
      o.authoritativeChainObservation = false ∧ o.Valid := by
  obtain ⟨_, valid, same⟩ := bind_ok.1 built
  cases same
  refine ⟨rfl, rfl, rfl, ?_, rfl, rfl, rfl, rfl, valid⟩
  simp [QuantityObservation.principalMsat, QuantityObservation.boundaryAmounts, normalizeBoundaryAmounts]

structure SlotTarget (state : TargetState) (entry : TargetSlot × List NativeLeg) (o : QuantityObservation) : Prop where
  placed : LegAt state.canonical entry.1.eventKey o
  slotted : InSlot entry.1 o
  amount : o.principalMsat = receivedBy entry.2
  assigned : ∀ leg ∈ entry.2, lookup state.targetByEvidence leg.evidenceId = some o.quantityHash

/-- After some slots: what was there is still there, and what is new is the target of a slot. -/
structure TargetsOf (before : CanonicalQuantityInput) (done : List (TargetSlot × List NativeLeg)) (state : TargetState) :
    Prop where
  kept : ∀ k o, LegAt before k o → LegAt state.canonical k o
  fresh : ∀ k o, LegAt state.canonical k o → LegAt before k o ∨ ∃ entry ∈ done, entry.1.eventKey = k ∧
    SlotTarget state entry o
  targets : ∀ entry ∈ done, ∃ o, SlotTarget state entry o

theorem lookup_const {members : List NativeLeg} {leg : NativeLeg} (member : leg ∈ members) (hash : String) :
    lookup (members.map fun other => (other.evidenceId, hash)) leg.evidenceId = some hash := by
  have present : (lookup (members.map fun other => (other.evidenceId, hash)) leg.evidenceId).isSome = true :=
    lookup_isSome.2 (by simpa using ⟨leg, member, rfl⟩)
  obtain ⟨value, found⟩ := Option.isSome_iff_exists.1 present
  obtain ⟨other, -, same⟩ := mem_map.1 (mem_of_lookup found)
  rw [found]
  exact congrArg some (Prod.mk.inj same).2.symm

/-- The entry's legs share no evidence with the legs of the slots before it. -/
def EvidenceApart (done : List (TargetSlot × List NativeLeg)) (entry : TargetSlot × List NativeLeg) : Prop :=
  ∀ other ∈ done, ∀ leg ∈ other.2, ∀ own ∈ entry.2, leg.evidenceId ≠ own.evidenceId

variable {state next : TargetState}

theorem SlotTarget.later {entry : TargetSlot × List NativeLeg} {o : QuantityObservation}
    {members : List NativeLeg} {hash : String} (target : SlotTarget state entry o)
    (grown : ∀ k p, LegAt state.canonical k p → LegAt next.canonical k p)
    (assigned : next.targetByEvidence = state.targetByEvidence ++ members.map fun leg => (leg.evidenceId, hash))
    (apart : ∀ leg ∈ entry.2, ∀ own ∈ members, leg.evidenceId ≠ own.evidenceId) : SlotTarget next entry o := by
  refine ⟨grown _ _ target.placed, target.slotted, target.amount, ?_⟩
  intro leg member
  have none : lookup (members.map fun own => (own.evidenceId, hash)) leg.evidenceId = none := by
    rw [lookup_eq_none]
    rintro listed
    obtain ⟨entry, pair, same⟩ := mem_map.1 listed
    obtain ⟨own, inside, rfl⟩ := mem_map.1 pair
    exact apart leg member own inside same.symm
  rw [assigned, lookup_append, none, Option.none_or]
  exact target.assigned leg member

theorem materializeSlot_step {before : CanonicalQuantityInput} {done : List (TargetSlot × List NativeLeg)}
    {entry : TargetSlot × List NativeLeg} (held : TargetsOf before done state)
    (new : entry.1 ∉ done.map fst) (fits : SlotFits before entry) (upper : entry.1.asset.toUpper = entry.1.asset)
    (apart : EvidenceApart done entry) (nonempty : entry.2 ≠ [])
    (step : materializeSlot sha256 state entry = .ok next) : TargetsOf before (done ++ [entry]) next := by
  -- one way to finish for both branches: the new state assigns one observation of the slot to all its legs
  have finish : ∀ o : QuantityObservation, InSlot entry.1 o → o.principalMsat = receivedBy entry.2 →
      LegAt next.canonical entry.1.eventKey o →
      (∀ k p, LegAt state.canonical k p → LegAt next.canonical k p) →
      (∀ k p, LegAt next.canonical k p → LegAt state.canonical k p ∨ k = entry.1.eventKey ∧ p = o) →
      next.targetByEvidence = state.targetByEvidence ++ entry.2.map (fun leg => (leg.evidenceId, o.quantityHash)) →
      TargetsOf before (done ++ [entry]) next := by
    intro o slotted amount placed grown origin assigned
    have own : SlotTarget next entry o := by
      refine ⟨placed, slotted, amount, ?_⟩
      intro leg member
      rw [assigned, lookup_append, lookup_const member, Option.some_or]
    have older : ∀ other ∈ done, ∀ p, SlotTarget state other p → SlotTarget next other p := by
      intro other listed p target
      exact target.later grown assigned fun leg member own inside => apart other listed leg member own inside
    refine ⟨fun k p there => grown k p (held.kept k p there), ?_, ?_⟩
    · intro k p there
      rcases origin k p there with old | ⟨rfl, rfl⟩
      · rcases held.fresh k p old with start | ⟨other, listed, keyed, target⟩
        · exact .inl start
        · exact .inr ⟨other, mem_append_left _ listed, keyed, older other listed p target⟩
      · exact .inr ⟨entry, by simp, rfl, own⟩
    · intro other listed
      rcases mem_append.1 listed with old | last
      · obtain ⟨p, target⟩ := held.targets other old
        exact ⟨p, older other old p target⟩
      · rw [mem_singleton.1 last]
        exact ⟨o, own⟩
  unfold materializeSlot at step
  split at step
  · rename_i empty
    exact absurd empty nonempty
  obtain ⟨event, found, step⟩ := bind_ok.1 step
  split at step
  · rename_i target rest existing
    cases step
    have listed : target ∈ existingTargets event entry.1 := by rw [existing]; exact mem_cons_self
    obtain ⟨inside, slotted⟩ := mem_existingTargets.1 listed
    have placed := (legAt_iff found target).2 inside
    -- a target of another slot lies in that slot, so what is found here was there before
    have amount : target.principalMsat = receivedBy entry.2 := by
      rcases held.fresh _ target placed with start | ⟨other, listed, keyed, theirs⟩
      · exact fits target start slotted
      · have wallet := theirs.slotted.2.1.symm.trans slotted.2.1
        have asset := theirs.slotted.2.2.symm.trans slotted.2.2
        have same : other.1 = entry.1 := by
          cases h : other.1
          cases h' : entry.1
          simp_all
        exact absurd (same ▸ mem_map_of_mem listed) new
    exact finish target slotted amount placed (fun _ _ there => there) (fun _ _ there => .inl there) rfl
  · obtain ⟨target, built, step⟩ := bind_ok.1 step
    cases step
    obtain ⟨direction, wallet, asset, principal, -⟩ := fromTransaction_ok built
    refine finish target ⟨direction, wallet, asset.trans upper⟩ principal ?_ ?_ ?_ rfl
    · exact (legAt_replace found target _).2 (.inr ⟨rfl, rfl⟩)
    · exact fun k p there => (legAt_replace found target _).2 (.inl there)
    · exact fun k p there => (legAt_replace found target _).1 there

theorem materializeSlots_targets {before : CanonicalQuantityInput} {done slots : List (TargetSlot × List NativeLeg)}
    {final : TargetState} (held : TargetsOf before done state)
    (distinct : ((done ++ slots).map fst).Nodup)
    (fits : ∀ entry ∈ slots, SlotFits before entry) (upper : ∀ entry ∈ slots, entry.1.asset.toUpper = entry.1.asset)
    (apart : ∀ entry ∈ done ++ slots, ∀ other ∈ done ++ slots, entry.1 ≠ other.1 →
      ∀ leg ∈ entry.2, ∀ own ∈ other.2, leg.evidenceId ≠ own.evidenceId)
    (nonempty : ∀ entry ∈ slots, entry.2 ≠ []) (run : slots.foldlM (materializeSlot sha256) state = .ok final) :
    TargetsOf before (done ++ slots) final := by
  induction slots generalizing done state with
  | nil =>
    cases run
    simpa using held
  | cons entry rest ih =>
    rw [foldlM_cons, bind_ok] at run
    obtain ⟨next, first, later⟩ := run
    have grouped : done ++ entry :: rest = (done ++ [entry]) ++ rest := by simp
    have new : entry.1 ∉ done.map fst := by
      intro listed
      rw [map_append, map_cons] at distinct
      exact (nodup_append.1 distinct).2.2 _ listed _ (.head _) rfl
    have step : TargetsOf before (done ++ [entry]) next := by
      refine materializeSlot_step held new (fits entry (.head _)) (upper entry (.head _)) ?_
        (nonempty entry (.head _)) first
      intro other listed
      refine apart other (mem_append_left _ listed) entry (by simp) ?_
      exact fun same => new (same ▸ mem_map_of_mem listed)
    rw [grouped] at distinct apart ⊢
    exact ih step distinct (fun other inside => fits other (.tail _ inside))
      (fun other inside => upper other (.tail _ inside)) apart
      (fun other inside => nonempty other (.tail _ inside)) later

end

section
variable (sha256 : String → String)

/-- The slots that the preflight rejects, with all that rejection spreads to. -/
def rejectedSlots (canonical : CanonicalQuantityInput) (legs : List NativeLeg) : Except PyError (List TargetSlot) := do
  let checked ← (slotItems legs).foldlM (checkSlot sha256 canonical)
    { invalid := [], owners := initialOwners canonical, issues := [] }
  pure (closeInvalid (slotItems legs) ((slotItems legs).length + 1)
    (checked.invalid, slotSources checked.invalid (slotItems legs))).1

def EvidenceDistinct (legs : List NativeLeg) : Prop :=
  ∀ leg ∈ legs, ∀ other ∈ legs, leg.evidenceId = other.evidenceId →
    leg.source.quantityHash = other.source.quantityHash ∧ slotOf leg = slotOf other

def legsIn (legs : List NativeLeg) (slot : TargetSlot) : List NativeLeg := legs.filter fun leg => slotOf leg = slot

/-- How the legs end: those of a rejected slot are dropped and share no source with the others, and the legs of
every other slot are assigned to one inbound that they fill. -/
structure Augments (canonical : CanonicalQuantityInput) (legs : List NativeLeg) (augmented : TargetAugmentation)
    (rejected : List TargetSlot) : Prop where
  dropped : ∀ leg ∈ legs, leg.evidenceId ∈ augmented.invalidEvidence ↔ slotOf leg ∈ rejected
  apart : ∀ leg ∈ legs, ∀ other ∈ legs, slotOf leg ∉ rejected → slotOf other ∈ rejected →
    leg.source.quantityHash ≠ other.source.quantityHash
  kept : ∀ k o, LegAt canonical k o → LegAt augmented.canonical k o
  fresh : ∀ k o, LegAt augmented.canonical k o → LegAt canonical k o ∨ ∃ leg ∈ legs, slotOf leg ∉ rejected ∧
    InSlot (slotOf leg) o ∧ lookup augmented.targetByEvidence leg.evidenceId = some o.quantityHash
  targets : ∀ leg ∈ legs, slotOf leg ∉ rejected → ∃ o, LegAt augmented.canonical (slotOf leg).eventKey o ∧
    InSlot (slotOf leg) o ∧ o.principalMsat = receivedBy (legsIn legs (slotOf leg)) ∧
    ∀ other ∈ legs, slotOf other = slotOf leg → lookup augmented.targetByEvidence other.evidenceId = some o.quantityHash

variable {sha256} {legs : List NativeLeg} {leg : NativeLeg}

theorem slotEntry (member : leg ∈ legs) : (slotOf leg, byEvidence (legsIn legs (slotOf leg))) ∈ slotItems legs :=
  mem_slotItems.2 ⟨rfl, mem_map_of_mem member⟩

theorem mem_byEvidence {slot : TargetSlot} :
    leg ∈ byEvidence (legsIn legs slot) ↔ leg ∈ legs ∧ slotOf leg = slot := by
  unfold byEvidence legsIn
  rw [mem_sortedBy, mem_filter, decide_eq_true_eq]

theorem mem_entry {entry : TargetSlot × List NativeLeg}
    (listed : entry ∈ slotItems legs) : leg ∈ entry.2 ↔ leg ∈ legs ∧ slotOf leg = entry.1 := by
  obtain ⟨members, -⟩ := mem_slotItems.1 listed
  rw [members]
  exact mem_byEvidence

theorem augmentTargets_augments {canonical : CanonicalQuantityInput}
    {augmented : TargetAugmentation} (legsOf : ∀ leg ∈ legs, LegOf canonical leg) (evidence : EvidenceDistinct legs)
    (run : augmentTargets sha256 canonical legs = .ok augmented) :
    ∃ rejected, rejectedSlots sha256 canonical legs = .ok rejected ∧ Augments canonical legs augmented rejected := by
  unfold augmentTargets at run
  dsimp only at run
  obtain ⟨checked, preflight, run⟩ := bind_ok.1 run
  obtain ⟨done, loop, same⟩ := bind_ok.1 run
  cases same
  have keys := slotItems_keys_nodup legs
  have recorded : Recorded (slotItems legs) (checked.invalid, slotSources checked.invalid (slotItems legs)) := by
    constructor
    intro entry listed rejected leg inside
    exact mem_flatMap.2 ⟨entry, mem_filter.2 ⟨listed, decide_eq_true rejected⟩, mem_map_of_mem inside⟩
  have closedRecorded := closeInvalid_invariant (slotItems legs) ((slotItems legs).length + 1) (Recorded (slotItems legs))
    (fun _ _ listed known => spread_recorded keys listed known) recorded
  have closedGrown : ∀ slot ∈ checked.invalid, slot ∈ (closeInvalid (slotItems legs) ((slotItems legs).length + 1)
      (checked.invalid, slotSources checked.invalid (slotItems legs))).1 := by
    refine closeInvalid_invariant (slotItems legs) _ (fun state => ∀ slot ∈ checked.invalid, slot ∈ state.1) ?_
      fun _ rejected => rejected
    intro state entry _ grown slot rejected
    exact spread_keeps state entry (grown slot rejected)
  have fixed := @closeInvalid_closed (checked.invalid, slotSources checked.invalid (slotItems legs)) (slotItems legs)
    ((slotItems legs).length + 1) (Nat.lt_succ_of_le (length_filter_le _ _))
  have named : rejectedSlots sha256 canonical legs = .ok (closeInvalid (slotItems legs) ((slotItems legs).length + 1)
      (checked.invalid, slotSources checked.invalid (slotItems legs))).1 := by
    unfold rejectedSlots
    rw [preflight]
    rfl
  generalize closeInvalid (slotItems legs) ((slotItems legs).length + 1)
    (checked.invalid, slotSources checked.invalid (slotItems legs)) = closed at *
  refine ⟨closed.1, named, ?_⟩
  have fits := (checkSlots_fit preflight).2
  have filled : TargetsOf canonical ((slotItems legs).filter fun entry => entry.1 ∉ closed.1) done := by
    have started : TargetsOf canonical [] { canonical, targetByEvidence := [] } :=
      ⟨fun _ _ there => there, fun _ _ there => .inl there, by simp⟩
    refine materializeSlots_targets started ?_ ?_ ?_ ?_ ?_ loop
    · exact keys.sublist (List.Sublist.map _ filter_sublist)
    · intro entry listed
      obtain ⟨inside, stays⟩ := mem_filter.1 listed
      exact fits entry inside fun rejected => of_decide_eq_true stays (closedGrown _ rejected)
    · intro entry listed
      obtain ⟨-, slotted⟩ := mem_slotItems.1 (mem_filter.1 listed).1
      obtain ⟨leg, member, same⟩ := mem_map.1 slotted
      rw [← same]
      exact (legsOf leg member).upper
    · intro entry listed other listed' different leg member own inside same
      obtain ⟨first, slotted⟩ := (mem_entry (mem_filter.1 listed).1).1 member
      obtain ⟨second, slotted'⟩ := (mem_entry (mem_filter.1 listed').1).1 inside
      exact different (slotted.symm.trans ((evidence leg first own second same).2.trans slotted'))
    · intro entry listed empty
      obtain ⟨members, slotted⟩ := mem_slotItems.1 (mem_filter.1 listed).1
      obtain ⟨leg, member, same⟩ := mem_map.1 slotted
      have inside := (mem_entry (mem_filter.1 listed).1).2 ⟨member, same⟩
      rw [empty] at inside
      cases inside
  have keptEntry : ∀ leg ∈ legs, slotOf leg ∉ closed.1 →
      (slotOf leg, byEvidence (legsIn legs (slotOf leg))) ∈ (slotItems legs).filter fun entry => entry.1 ∉ closed.1 :=
    fun leg member stays => mem_filter.2 ⟨slotEntry member, decide_eq_true stays⟩
  refine ⟨?_, ?_, ?_, ?_, ?_⟩
  · intro leg member
    constructor
    · intro dropped
      obtain ⟨entry, listed, inside⟩ := mem_flatMap.1 dropped
      obtain ⟨entryIn, rejected⟩ := mem_filter.1 listed
      obtain ⟨other, otherIn, same⟩ := mem_map.1 inside
      obtain ⟨first, slotted⟩ := (mem_entry entryIn).1 otherIn
      have equal := (evidence other first leg member same).2
      rw [← equal, slotted]
      exact of_decide_eq_true rejected
    · intro rejected
      refine mem_flatMap.2 ⟨_, mem_filter.2 ⟨slotEntry member, decide_eq_true rejected⟩, ?_⟩
      exact mem_map_of_mem (mem_byEvidence.2 ⟨member, rfl⟩)
  · intro leg member other member' stays rejected
    exact closed_apart fixed closedRecorded (slotEntry member) (slotEntry member') stays rejected
      (mem_byEvidence.2 ⟨member, rfl⟩) (mem_byEvidence.2 ⟨member', rfl⟩)
  · intro k o there
    exact legAt_inKeyOrder.2 (filled.kept k o there)
  · intro k o there
    rcases filled.fresh k o (legAt_inKeyOrder.1 there) with start | ⟨entry, listed, -, target⟩
    · exact .inl start
    · obtain ⟨entryIn, stays⟩ := mem_filter.1 listed
      obtain ⟨-, slotted⟩ := mem_slotItems.1 entryIn
      obtain ⟨leg, member, same⟩ := mem_map.1 slotted
      refine .inr ⟨leg, member, same ▸ of_decide_eq_true stays, same ▸ target.slotted, ?_⟩
      exact target.assigned leg ((mem_entry entryIn).2 ⟨member, same⟩)
  · intro leg member stays
    obtain ⟨o, target⟩ := filled.targets _ (keptEntry leg member stays)
    refine ⟨o, legAt_inKeyOrder.2 target.placed, target.slotted, ?_, ?_⟩
    · rw [target.amount]
      exact ((sortedBy_perm _ _).map _).sum_eq
    · intro other member' same
      exact target.assigned other (mem_byEvidence.2 ⟨member', same⟩)

end

end Kassiber.Custody
