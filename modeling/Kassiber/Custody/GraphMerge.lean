import Kassiber.Lib.PartialJoin
import Kassiber.Custody.FeePasses

/-!
What merging the observations of one transaction keeps.
-/

namespace Kassiber.Custody
open Lib.Dict Lib.Sorting Lib.Semilattice Function
open Option (bind_some bind_none map_some some.inj)
open List hiding lookup lookup_append lookup_singleton
open Prod (fst)

abbrev LegFacts := String × Option Int × String × String × String

def OwnershipLeg.facts (leg : OwnershipLeg) : LegFacts :=
  (leg.script, leg.valueSats, leg.assetId, leg.asset, leg.role)

namespace GraphMerge

def Refines (x y : String) : Prop := (x = "external" ∧ y = "owned") ∨ (x = "owned" ∧ y = "external")

instance (x y : String) : Decidable (Refines x y) := inferInstanceAs (Decidable (_ ∨ _))

def joinRoles (x y : String) : Option String :=
  if x = "" then some y
  else if y = "" then some x
  else if x = y then some x
  else if Refines x y then some "owned" else none

variable {x y known : String} {items : List OwnershipTx}

theorem refines_comm : Refines x y ↔ Refines y x := by
  unfold Refines
  rw [or_comm, and_comm, and_comm (a := x = "external")]

theorem joinRoles_comm (x y : String) : joinRoles x y = joinRoles y x := by
  unfold joinRoles
  by_cases left : x = ""
  · by_cases right : y = "" <;> simp [left, right]
  · by_cases right : y = ""
    · simp [left, right]
    · by_cases same : x = y
      · simp [same]
      · simp only [left, right, same, Ne.symm same, refines_comm (x := y), if_false]

theorem joinRoles_empty_left (x : String) : joinRoles "" x = some x := rfl

@[simp] theorem joinRoles_empty_right (x : String) : joinRoles x "" = some x := by
  rw [joinRoles_comm, joinRoles_empty_left]

def OwnershipRole (x : String) : Prop := x = "external" ∨ x = "owned"

theorem joinRoles_inside (left : OwnershipRole x) (right : OwnershipRole y) :
    ∃ joined, joinRoles x y = some joined ∧ OwnershipRole joined := by
  rcases left with rfl | rfl <;> rcases right with rfl | rfl
  · exact ⟨_, rfl, .inl rfl⟩
  all_goals exact ⟨_, rfl, .inr rfl⟩

theorem joinRoles_outside (left : x ≠ "") (right : y ≠ "") (outside : ¬ OwnershipRole x) :
    joinRoles x y = if x = y then some x else none := by
  have apart : ¬ Refines x y := by
    rintro (⟨role, -⟩ | ⟨role, -⟩)
    · exact outside (.inl role)
    · exact outside (.inr role)
  unfold joinRoles
  rw [if_neg left, if_neg right, if_neg apart]

theorem joinRoles_idem (x : String) : joinRoles x x = some x := by
  unfold joinRoles
  split
  · rfl
  · rw [if_pos rfl]

theorem joinRoles_some {joined : String} (left : x ≠ "") (right : y ≠ "") (joins : joinRoles x y = some joined) :
    joined = x ∨ joined = "owned" := by
  unfold joinRoles at joins
  rw [if_neg left, if_neg right] at joins
  split at joins
  · exact .inl (some.inj joins).symm
  · split at joins
    · exact .inr (some.inj joins).symm
    · exact absurd joins (by simp)

theorem joinRoles_assoc (x y z : String) :
    ((joinRoles x y).bind fun xy => joinRoles xy z) = (joinRoles y z).bind fun yz => joinRoles x yz := by
  by_cases first : x = ""
  · subst first
    cases joins : joinRoles y z <;> simp [joinRoles_empty_left, joins]
  by_cases second : y = ""
  · subst second
    simp [joinRoles_empty_left]
  by_cases third : z = ""
  · subst third
    simp
  by_cases left : OwnershipRole x
  · by_cases middle : OwnershipRole y
    · by_cases right : OwnershipRole z
      · rcases left with rfl | rfl <;> rcases middle with rfl | rfl <;> rcases right with rfl | rfl <;> rfl
      · -- the last role contradicts the other two
        obtain ⟨joined, joins, role⟩ := joinRoles_inside left middle
        have nonempty : joined ≠ "" := by
          rcases role with rfl | rfl <;> decide
        have apart : z ≠ joined := fun same => right (same ▸ role)
        have other : z ≠ y := fun same => right (same ▸ middle)
        rw [joins, bind_some, joinRoles_comm, joinRoles_outside third nonempty right, if_neg apart,
          joinRoles_comm y, joinRoles_outside third second right, if_neg other, bind_none]
    · have apart : y ≠ x := fun same => middle (same ▸ left)
      rw [joinRoles_comm x, joinRoles_outside second first middle, if_neg apart, bind_none,
        joinRoles_outside second third middle]
      by_cases same : y = z
      · rw [if_pos same, bind_some, joinRoles_comm, joinRoles_outside second first middle, if_neg apart]
      · rw [if_neg same, bind_none]
  · rw [joinRoles_outside first second left]
    by_cases same : x = y
    · subst same
      rw [if_pos rfl, bind_some, joinRoles_outside first third left]
      by_cases last : x = z
      · rw [if_pos last, bind_some, joinRoles_idem]
      · rw [if_neg last, bind_none]
    · rw [if_neg same, bind_none]
      symm
      rw [Option.bind_eq_none_iff]
      intro joined joins
      rcases joinRoles_some second third joins with rfl | rfl
      · rw [joinRoles_outside first second left, if_neg same]
      · rw [joinRoles_outside first (by decide) left, if_neg fun owned => left (.inr owned)]

def roleJoin : PartialJoin String where
  unit := ""
  join := joinRoles
  unit_join _ := rfl
  idem := joinRoles_idem
  comm := joinRoles_comm
  assoc := joinRoles_assoc

def legJoin : PartialJoin LegFacts :=
  (PartialJoin.flat "").prod ((PartialJoin.flat none).prod ((PartialJoin.flat "").prod
    ((PartialJoin.flat "").prod roleJoin)))

def settled {α : Type} (joined : Option α) (current : α) (conflict : String) : α × List String :=
  (joined.getD current, if joined.isSome then [] else [conflict])

theorem mergeValue_eq {α : Type} [DecidableEq α] (missing current value : α) (conflict : String) :
    mergeValue missing current value conflict =
      settled ((PartialJoin.flat missing).join current value) current conflict := by
  unfold mergeValue settled PartialJoin.flat
  by_cases left : current = missing <;> by_cases right : value = missing <;> by_cases same : current = value
  all_goals simp_all

theorem mergeRole_eq (current value conflict : String) :
    mergeRole current value conflict = settled (roleJoin.join current value) current conflict := by
  unfold mergeRole settled roleJoin joinRoles
  by_cases left : current = ""
  · by_cases right : value = "" <;> simp [left, right]
  · by_cases right : value = ""
    · simp [left, right]
    · by_cases same : current = value
      · simp [right, same]
      · by_cases refines : Refines current value
        · simp only [left, right, same, false_and, if_false, ne_eq, not_false_eq_true, and_self, if_true,
            if_pos refines]
          exact if_pos refines
        · simp only [left, right, same, false_and, if_false, ne_eq, not_false_eq_true, and_self, if_true,
            if_neg refines]
          exact if_neg refines

section
variable (target incoming : OwnershipLeg) (label : String)

theorem mergeLeg_join :
    (∀ facts, legJoin.join target.facts incoming.facts = some facts →
        (mergeLeg target incoming label).1.facts = facts) ∧
      ((mergeLeg target incoming label).2 = [] ↔ (legJoin.join target.facts incoming.facts).isSome) := by
  simp only [mergeLeg, mergeValue_eq, mergeRole_eq, OwnershipLeg.facts, legJoin, PartialJoin.prod]
  generalize (PartialJoin.flat "").join target.script incoming.script = script
  generalize (PartialJoin.flat none).join target.valueSats incoming.valueSats = value
  generalize (PartialJoin.flat "").join target.assetId incoming.assetId = assetId
  generalize (PartialJoin.flat "").join target.asset incoming.asset = asset
  generalize roleJoin.join target.role incoming.role = role
  cases script <;> cases value <;> cases assetId <;> cases asset <;> cases role <;> simp [settled]

end

theorem keys_dropped {κ β : Type} {legs : List (κ × β)} (distinct : (legs.map fst).Nodup) (p : κ × β → Bool) :
    ((legs.filter p).map fst).Nodup := distinct.sublist ((filter_sublist).map _)

section
variable {κ β : Type} [DecidableEq κ]

theorem lookup_dropped (legs : List (κ × β)) (dropped key : κ) :
    lookup (legs.filter fun entry => entry.1 ≠ dropped) key = if key = dropped then none else lookup legs key := by
  split
  case isTrue same =>
    rw [lookup_eq_none]
    rintro stored
    obtain ⟨entry, member, rfl⟩ := mem_map.1 stored
    exact of_decide_eq_true (mem_filter.1 member).2 same
  case isFalse other =>
    unfold lookup
    rw [← filter_reverse, find?_filter]
    congr 2
    funext entry
    by_cases same : entry.1 = key <;> simp [same, other]

theorem lookup_assign (legs : List (κ × β)) (assigned key : κ) (leg : β) :
    lookup (assign legs assigned leg) key = if key = assigned then some leg else lookup legs key := by
  unfold assign
  rw [lookup_append, lookup_singleton, lookup_dropped]
  by_cases same : key = assigned
  · rw [if_pos same.symm, if_pos same, if_pos same, Option.some_or]
  · rw [if_neg (Ne.symm same), if_neg same, Option.none_or, if_neg same]

theorem keys_assign {legs : List (κ × β)} (distinct : (legs.map fst).Nodup) (key : κ) (leg : β) :
    ((assign legs key leg).map fst).Nodup := by
  unfold assign
  rw [map_append, map_singleton]
  refine List.Nodup.append (keys_dropped distinct _) (nodup_singleton _) ?_
  rintro other stored assigned
  obtain ⟨entry, member, rfl⟩ := mem_map.1 stored
  exact of_decide_eq_true (mem_filter.1 member).2 (mem_singleton.1 assigned)

def Agree (facts : κ → List LegFacts) : Prop := ∀ key, (legJoin.joinAll (facts key)).isSome

/-- One leg is stored for every observed key, with the facts observed under it. -/
structure Stored (facts : κ → List LegFacts) (legs : List (κ × OwnershipLeg)) : Prop where
  distinct : (legs.map fst).Nodup
  known : ∀ key, lookup legs key = none ↔ facts key = []
  records : ∀ key leg, lookup legs key = some leg → legJoin.Records (facts key) leg.facts

theorem stored_nil : Stored (fun _ => []) ([] : List (κ × OwnershipLeg)) where
  distinct := nodup_nil
  known _ := ⟨fun _ => rfl, fun _ => rfl⟩
  records key leg found := absurd found (by simp [lookup])

omit [DecidableEq κ] in
theorem agree_nil : Agree (fun _ : κ => []) := fun _ => rfl

variable {facts others : κ → List LegFacts} {legs : List (κ × OwnershipLeg)}

omit [DecidableEq κ] in
theorem agree_perm (perm : ∀ key, (facts key).Perm (others key)) : Agree facts ↔ Agree others := by
  unfold Agree
  refine forall_congr' fun key => ?_
  rw [legJoin.joinAll_perm (perm key)]

theorem Stored.perm (stored : Stored facts legs) (perm : ∀ key, (facts key).Perm (others key)) :
    Stored others legs where
  distinct := stored.distinct
  known key := by
    rw [stored.known, ← length_eq_zero_iff, (perm key).length_eq, length_eq_zero_iff]
  records key leg found := (stored.records key leg found).perm (perm key)

def absorbed (legs : List (κ × OwnershipLeg)) (key : κ) (incoming : OwnershipLeg) (label : String) :
    OwnershipLeg × List String :=
  match lookup legs key with
  | none => (incoming, [])
  | some target => mergeLeg target incoming label

variable {incoming leg : OwnershipLeg}

theorem Stored.absorbed_records (stored : Stored facts legs) {more : List LegFacts}
    (last : legJoin.Records more incoming.facts) (key : κ) (label : String) :
    legJoin.Records (facts key ++ more) (absorbed legs key incoming label).1.facts ∧
      ((legJoin.joinAll (facts key ++ more)).isSome ↔
        (legJoin.joinAll (facts key)).isSome ∧ (legJoin.joinAll more).isSome ∧
          (absorbed legs key incoming label).2 = []) := by
  unfold absorbed
  cases found : lookup legs key with
  | none =>
    rw [(stored.known key).1 found, nil_append]
    exact ⟨last, by simp⟩
  | some target =>
    have first := stored.records key target found
    obtain ⟨joins, clean⟩ := mergeLeg_join target incoming label
    refine ⟨first.append last joins, ?_⟩
    rw [first.isSome_append last, clean]

def added (facts : κ → List LegFacts) (key : κ) (more : List LegFacts) (other : κ) : List LegFacts :=
  if other = key then facts key ++ more else facts other

theorem Stored.absorb (stored : Stored facts legs) {key : κ} {label : String}
    (same : leg.facts = (absorbed legs key incoming label).1.facts) :
    Stored (added facts key [incoming.facts]) (assign legs key leg) ∧
      (Agree (added facts key [incoming.facts]) ↔ Agree facts ∧ (absorbed legs key incoming label).2 = []) := by
  obtain ⟨records, agrees⟩ := stored.absorbed_records (PartialJoin.records_singleton incoming.facts) key label
  rw [PartialJoin.joinAll_singleton] at agrees
  refine ⟨⟨keys_assign stored.distinct key leg, fun other => ?_, fun other stored_leg found => ?_⟩, ?_⟩
  · rw [lookup_assign, added]
    split
    · simp
    · exact stored.known other
  · rw [lookup_assign] at found
    rw [added]
    split at found
    case isTrue this =>
      rw [if_pos this, ← some.inj found, same]
      exact records
    case isFalse this =>
      rw [if_neg this]
      exact stored.records other stored_leg found
  · constructor
    · intro agree
      have now := agree key
      rw [added, if_pos rfl] at now
      refine ⟨fun other => ?_, (agrees.1 now).2.2⟩
      have whole := agree other
      rw [added] at whole
      split at whole
      case isTrue this => exact this ▸ (agrees.1 whole).1
      case isFalse => exact whole
    · rintro ⟨agree, clean⟩ other
      rw [added]
      split
      · exact agrees.2 ⟨agree key, rfl, clean⟩
      · exact agree other

/-! ### A key that becomes another -/

def moved (legs : List (κ × OwnershipLeg)) (known key : κ) (label : String) : List (κ × OwnershipLeg) × List String :=
  match lookup legs known with
  | none => (legs, [])
  | some leg =>
    let merged := absorbed legs key leg label
    (assign (legs.filter fun entry => entry.1 ≠ known) key merged.1, merged.2)

theorem lookup_moved_other {known key other : κ} {label : String} (elsewhere : other ≠ key)
    (found : lookup (moved legs known key label).1 other = some leg) : lookup legs other = some leg := by
  unfold moved at found
  cases old : lookup legs known with
  | none =>
    rw [old] at found
    exact found
  | some source =>
    simp only [old] at found
    rw [lookup_assign, if_neg elsewhere, lookup_dropped] at found
    split at found
    · exact absurd found (by simp)
    · exact found

def rekeyed (facts : κ → List LegFacts) (known key other : κ) : List LegFacts :=
  if other = known then [] else added facts key (facts known) other

theorem Stored.move (stored : Stored facts legs) {known key : κ} (apart : key ≠ known) (label : String) :
    Stored (rekeyed facts known key) (moved legs known key label).1 ∧
      (Agree (rekeyed facts known key) ↔ Agree facts ∧ (moved legs known key label).2 = []) := by
  unfold moved
  cases old : lookup legs known with
  | none =>
    have nothing := (stored.known known).1 old
    have same : rekeyed facts known key = facts := by
      funext other
      unfold rekeyed added
      rw [nothing, append_nil]
      split
      case isTrue this => rw [this, nothing]
      case isFalse => split <;> simp_all
    rw [same]
    exact ⟨stored, by simp⟩
  | some leg =>
    obtain ⟨records, agrees⟩ := stored.absorbed_records (stored.records known leg old) key label
    refine ⟨⟨keys_assign (keys_dropped stored.distinct _) key _, fun other => ?_, fun other stored_leg found => ?_⟩, ?_⟩
    · have some : facts known ≠ [] := fun nothing => by
        rw [(stored.known known).2 nothing] at old
        exact absurd old (by simp)
      rw [lookup_assign, lookup_dropped, rekeyed, added]
      by_cases first : other = known
      · rw [if_pos first, if_pos first, if_neg (first ▸ Ne.symm apart)]
        simp
      · rw [if_neg first, if_neg first]
        split
        · simp [some]
        · exact stored.known other
    · rw [lookup_assign, lookup_dropped] at found
      rw [rekeyed, added]
      by_cases first : other = known
      · rw [if_pos first, if_neg (first ▸ Ne.symm apart)] at found
        exact absurd found (by simp)
      · rw [if_neg first] at found ⊢
        split at found
        case isTrue this =>
          rw [if_pos this, ← some.inj found]
          exact records
        case isFalse this =>
          rw [if_neg this]
          exact stored.records other stored_leg found
    · constructor
      · intro agree
        have now := agree key
        rw [rekeyed, if_neg apart, added, if_pos rfl] at now
        obtain ⟨target, source, clean⟩ := agrees.1 now
        refine ⟨fun other => ?_, clean⟩
        by_cases first : other = known
        · exact first ▸ source
        · by_cases second : other = key
          · exact second ▸ target
          · have whole := agree other
            rw [rekeyed, if_neg first, added, if_neg second] at whole
            exact whole
      · rintro ⟨agree, clean⟩ other
        rw [rekeyed, added]
        split
        · rfl
        · split
          · exact agrees.2 ⟨agree key, agree known, clean⟩
          · exact agree other

end

def positionName (position : Nat) : String := "position:" ++ toString position

/-- What the inputs at a position are known by: an outpoint observed there, or the position. -/
def keyAt (seen : List (OwnershipLeg × Nat)) (position : Nat) : String :=
  ((seen.filter fun entry => entry.2 = position ∧ entry.1.outpoint ≠ "").map (·.1.outpoint)).head?.getD
    (positionName position)

def isHexadecimal (c : Char) : Bool := decide (('0' ≤ c ∧ c ≤ '9') ∨ ('a' ≤ c ∧ c ≤ 'f'))

/-- A transaction id in hexadecimal and an output index, or nothing. -/
def ParsedOutpoint (outpoint : String) : Prop :=
  outpoint = "" ∨ ∃ (txid : String) (vout : Nat), txid ≠ "" ∧ (∀ c ∈ txid.toList, isHexadecimal c) ∧
    outpoint = txid ++ ":" ++ toString vout

def Aligned (seen : List (OwnershipLeg × Nat)) : Prop :=
  ∀ a ∈ seen, ∀ b ∈ seen, a.2 = b.2 → a.1.outpoint ≠ "" → b.1.outpoint ≠ "" → a.1.outpoint = b.1.outpoint

def Parsed (seen : List (OwnershipLeg × Nat)) : Prop := ∀ entry ∈ seen, ParsedOutpoint entry.1.outpoint

theorem strip_bounded {text : String} (first last : Char) (middle : List Char)
    (chars : text.toList = first :: (middle ++ [last])) (start : isSpace first = false) (stop : isSpace last = false) :
    strip text = text := by
  apply String.toList_injective
  unfold strip
  rw [String.toList_ofList, chars, dropWhile_cons_of_neg (by simp [start]), reverse_cons, reverse_append,
    reverse_singleton, singleton_append, cons_append, dropWhile_cons_of_neg (by simp [stop])]
  simp

theorem not_space_of_visible {c : Char} (low : 48 ≤ c.toNat) (high : c.toNat ≤ 126) : isSpace c = false := by
  simp only [isSpace, decide_eq_false_iff_not, mem_cons, not_mem_nil, or_false]
  omega

theorem not_space_of_isDigit {c : Char} (digit : c.isDigit = true) : isSpace c = false := by
  simp only [Char.isDigit, Bool.and_eq_true, decide_eq_true_eq, ge_iff_le, UInt32.le_iff_toNat_le] at digit
  exact not_space_of_visible digit.1 (digit.2.trans (by decide))

variable {outpoint : String}

theorem ParsedOutpoint.stripped (parsed : ParsedOutpoint outpoint) : strip outpoint = outpoint := by
  rcases parsed with rfl | ⟨txid, vout, nonempty, hex, rfl⟩
  · rfl
  obtain ⟨first, others, chars⟩ := exists_cons_of_ne_nil fun empty => nonempty (String.toList_injective empty)
  obtain ⟨digits, last, number⟩ := (Nat.toDigits 10 vout).eq_nil_or_concat.resolve_left (Nat.toDigits_ne_nil)
  have digit : last.isDigit = true := Nat.isDigit_of_mem_toDigits (by decide) (by decide)
    (show last ∈ Nat.toDigits 10 vout by simp [number])
  refine strip_bounded first last (others ++ ':' :: digits) ?_ ?_ (not_space_of_isDigit digit)
  · have shown : (toString vout).toList = digits ++ [last] := by simpa [toString, Nat.repr] using number
    rw [String.toList_append, String.toList_append, chars, shown]
    simp
  · have inside := hex first (by rw [chars]; exact mem_cons_self)
    rcases of_decide_eq_true inside with ⟨low, high⟩ | ⟨low, high⟩
    · exact not_space_of_visible low (Nat.le_trans high (by decide))
    · exact not_space_of_visible (Nat.le_trans (by decide) low) (Nat.le_trans high (by decide))

theorem hexadecimal_start {txid : String} (nonempty : txid ≠ "") (hex : ∀ c ∈ txid.toList, isHexadecimal c)
    (rest : List Char) (more : String) : "position:".toList ++ rest ≠ (txid ++ more).toList := by
  intro same
  obtain ⟨first, others, chars⟩ := exists_cons_of_ne_nil fun empty => nonempty (String.toList_injective empty)
  rw [String.toList_append, chars] at same
  have head : 'p' = first := (List.cons.inj same).1
  have inside := hex first (by rw [chars]; exact mem_cons_self)
  rw [← head] at inside
  exact absurd inside (by decide)

theorem ParsedOutpoint.not_position (parsed : ParsedOutpoint outpoint) (position : Nat) :
    outpoint ≠ positionName position := by
  intro same
  rcases parsed with rfl | ⟨txid, vout, nonempty, hex, rfl⟩
  · exact absurd same.symm (Lib.Text.append_ne_empty (by decide))
  have starts := congrArg String.toList same
  rw [String.append_assoc, positionName, String.toList_append (s := "position:")] at starts
  exact hexadecimal_start nonempty hex _ _ starts.symm

theorem positionName_inj {p q : Nat} (same : positionName p = positionName q) : p = q :=
  Nat.repr_injective (Lib.Text.append_left_cancel same)

theorem keyAt_cases (seen : List (OwnershipLeg × Nat)) (position : Nat) :
    (∃ entry ∈ seen, entry.2 = position ∧ entry.1.outpoint ≠ "" ∧ keyAt seen position = entry.1.outpoint) ∨
      ((∀ entry ∈ seen, entry.2 = position → entry.1.outpoint = "") ∧ keyAt seen position = positionName position) := by
  unfold keyAt
  cases named : seen.filter fun entry => entry.2 = position ∧ entry.1.outpoint ≠ "" with
  | nil =>
    refine .inr ⟨fun entry member here => ?_, rfl⟩
    by_contra outpoint
    have all := filter_eq_nil_iff.1 named entry member
    exact all (decide_eq_true ⟨here, outpoint⟩)
  | cons entry rest =>
    have member : entry ∈ seen.filter fun entry => entry.2 = position ∧ entry.1.outpoint ≠ "" := by
      rw [named]
      exact .head _
    obtain ⟨inside, holds⟩ := mem_filter.1 member
    obtain ⟨here, outpoint⟩ := of_decide_eq_true holds
    exact .inl ⟨entry, inside, here, outpoint, rfl⟩

variable {seen others : List (OwnershipLeg × Nat)} {state other : MergedLegs}

theorem keyAt_snoc {leg : OwnershipLeg} {position : Nat}
    (aligned : Aligned (seen ++ [(leg, position)])) (other : Nat) :
    keyAt (seen ++ [(leg, position)]) other =
      if other = position ∧ leg.outpoint ≠ "" then leg.outpoint else keyAt seen other := by
  rcases keyAt_cases (seen ++ [(leg, position)]) other with ⟨entry, member, here, outpoint, named⟩ | ⟨blank, named⟩
  · rw [named]
    split
    case isTrue this =>
      exact aligned entry member _ (mem_append_right _ (.head _)) (here.trans this.1) outpoint this.2
    case isFalse this =>
      rcases mem_append.1 member with before | last
      · rcases keyAt_cases seen other with ⟨first, earlier, there, named_first, found⟩ | ⟨blank, -⟩
        · rw [found]
          exact aligned entry member first (mem_append_left _ earlier) (here.trans there.symm) outpoint named_first
        · exact absurd (blank entry before here) outpoint
      · obtain rfl := mem_singleton.1 last
        exact absurd ⟨here.symm, outpoint⟩ this
  · rw [named, if_neg fun this => this.2 (blank _ (mem_append_right _ mem_cons_self) this.1.symm)]
    rcases keyAt_cases seen other with ⟨first, earlier, there, named_first, -⟩ | ⟨-, found⟩
    · exact absurd (blank first (mem_append_left _ earlier) there) named_first
    · exact found.symm

def factsUnder (seen : List (OwnershipLeg × Nat)) (key : String) : List LegFacts :=
  (seen.filter fun entry => keyAt seen entry.2 = key).map fun entry => entry.1.facts

section
variable {seen : List (OwnershipLeg × Nat)} {leg : OwnershipLeg} {position : Nat}

theorem keyAt_ne_empty (other : Nat) : keyAt seen other ≠ "" := by
  rcases keyAt_cases seen other with ⟨entry, -, -, outpoint, named⟩ | ⟨-, named⟩
  · rw [named]
    exact outpoint
  · rw [named]
    exact Lib.Text.append_ne_empty (by decide)

theorem keyAt_eq_position (parsed : Parsed seen) {other : Nat} (named : keyAt seen other = positionName position) :
    other = position := by
  rcases keyAt_cases seen other with ⟨entry, member, -, -, outpoint⟩ | ⟨-, own⟩
  · exact absurd (outpoint.symm.trans named) ((parsed entry member).not_position position)
  · exact positionName_inj (own.symm.trans named)

theorem factsUnder_ne_nil {key : String} : factsUnder seen key ≠ [] ↔ ∃ entry ∈ seen, keyAt seen entry.2 = key := by
  unfold factsUnder
  rw [Ne, map_eq_nil_iff, filter_eq_nil_iff]
  push Not
  simp only [decide_eq_true_eq]

theorem factsUnder_same (aligned : Aligned (seen ++ [(leg, position)]))
    (same : leg.outpoint = "" ∨ leg.outpoint = keyAt seen position) (key : String) :
    factsUnder (seen ++ [(leg, position)]) key = added (factsUnder seen) (keyAt seen position) [leg.facts] key := by
  have keys : keyAt (seen ++ [(leg, position)]) = keyAt seen := by
    funext other
    rw [keyAt_snoc aligned]
    split
    case isTrue this => rw [this.1, same.resolve_left this.2]
    case isFalse => rfl
  unfold factsUnder added
  rw [keys, filter_append, map_append, filter_singleton]
  by_cases here : key = keyAt seen position
  · simp [here]
  · simp [here, Ne.symm here]

theorem factsUnder_named (aligned : Aligned (seen ++ [(leg, position)])) (parsed : Parsed (seen ++ [(leg, position)]))
    (outpoint : leg.outpoint ≠ "") (new : keyAt seen position ≠ leg.outpoint) (key : String) :
    (factsUnder (seen ++ [(leg, position)]) key).Perm
      (added (rekeyed (factsUnder seen) (keyAt seen position) leg.outpoint) leg.outpoint [leg.facts] key) := by
  have blank : keyAt seen position = positionName position := by
    rcases keyAt_cases seen position with ⟨entry, member, here, named, found⟩ | ⟨-, own⟩
    · refine absurd (found.trans ?_) new
      exact aligned entry (mem_append_left _ member) _ (mem_append_right _ (.head _)) here named outpoint
    · exact own
  have before : Parsed seen := fun entry member => parsed entry (mem_append_left _ member)
  have only (other : Nat) : keyAt seen other = keyAt seen position ↔ other = position := by
    refine ⟨fun same => keyAt_eq_position before (same.trans blank), fun same => by rw [same]⟩
  have keys (other : Nat) : keyAt (seen ++ [(leg, position)]) other =
      if keyAt seen other = keyAt seen position then leg.outpoint else keyAt seen other := by
    rw [keyAt_snoc aligned]
    simp only [outpoint, ne_eq, not_false_eq_true, and_true, only]
  have last : keyAt (seen ++ [(leg, position)]) position = leg.outpoint := by rw [keys, if_pos rfl]
  unfold factsUnder
  rw [filter_append, map_append, filter_singleton]
  simp only [last, keys]
  unfold added rekeyed
  by_cases first : key = leg.outpoint
  · subst first
    have new_leg : (bif decide (leg.outpoint = leg.outpoint) then [(leg, position)] else []) = [(leg, position)] := by
      simp
    rw [new_leg, map_singleton, if_pos rfl, if_neg (Ne.symm new), added, if_pos rfl, ← map_append]
    refine List.Perm.append_right _ (List.Perm.map _ ?_)
    have parts := filter_append_perm (fun entry : OwnershipLeg × Nat => decide (keyAt seen entry.2 = leg.outpoint))
      (seen.filter fun entry =>
        (if keyAt seen entry.2 = keyAt seen position then leg.outpoint else keyAt seen entry.2) = leg.outpoint)
    rw [filter_filter, filter_filter] at parts
    refine parts.symm.trans (List.Perm.of_eq (congrArg₂ _ ?_ ?_))
    · refine filter_congr fun entry _ => ?_
      by_cases here : keyAt seen entry.2 = leg.outpoint <;> simp [here]
    · refine filter_congr fun entry _ => ?_
      by_cases here : keyAt seen entry.2 = keyAt seen position <;> simp [here, new]
  · rw [if_neg first, added, if_neg first]
    have elsewhere : (bif decide (leg.outpoint = key) then [(leg, position)] else []) = [] := by simp [Ne.symm first]
    rw [elsewhere, map_nil, append_nil]
    by_cases second : key = keyAt seen position
    · rw [if_pos second]
      refine List.Perm.of_eq (map_eq_nil_iff.2 (filter_eq_nil_iff.2 fun entry _ => ?_))
      by_cases here : keyAt seen entry.2 = keyAt seen position
      · simp [here, Ne.symm first]
      · simp [here, second]
    · rw [if_neg second]
      refine List.Perm.of_eq (congrArg _ (filter_congr fun entry _ => ?_))
      by_cases here : keyAt seen entry.2 = keyAt seen position
      · simp [here, Ne.symm first, Ne.symm second]
      · simp [here]

end

/-- The outpoint of the leg stored under a key: a position names none. -/
def outpointOf (key : String) : String := if "position:".toList <+: key.toList then "" else key

theorem outpointOf_position (position : Nat) : outpointOf (positionName position) = "" := by
  unfold outpointOf positionName
  rw [String.toList_append, if_pos (prefix_append _ _)]

theorem ParsedOutpoint.outpointOf_self (parsed : ParsedOutpoint outpoint) : outpointOf outpoint = outpoint := by
  unfold outpointOf
  split
  case isFalse => rfl
  case isTrue position =>
    rcases parsed with rfl | ⟨txid, vout, nonempty, hex, rfl⟩
    · rfl
    obtain ⟨rest, position⟩ := position
    rw [String.append_assoc] at position
    exact absurd position (hexadecimal_start nonempty hex rest _)

structure Merges (seen : List (OwnershipLeg × Nat)) (state : MergedLegs) : Prop where
  positions : ∀ position, lookup state.inputKeyByPosition position =
    if position ∈ seen.map Prod.snd then some (keyAt seen position) else none
  stored : Stored (factsUnder seen) state.inputsByKey
  outpoints : ∀ key leg, lookup state.inputsByKey key = some leg → leg.outpoint = outpointOf key

def observe (state : MergedLegs) (incoming : OwnershipLeg) (position : Nat) (key : String) : MergedLegs :=
  let outpoint := strip incoming.outpoint
  let merged := absorbed state.inputsByKey key incoming ("input:" ++ key)
  { state with
    inputsByKey := assign state.inputsByKey key (if outpoint ≠ "" then { merged.1 with outpoint } else merged.1)
    inputKeyByPosition := assign state.inputKeyByPosition position key
    conflicts := state.conflicts ++ merged.2 }

def move (state : MergedLegs) (known outpoint : String) : MergedLegs :=
  let merged := moved state.inputsByKey known outpoint ("input:" ++ outpoint)
  { state with inputsByKey := merged.1, conflicts := state.conflicts ++ merged.2 }

/-- The state once the leg a position was known by is known by the outpoint observed there. -/
def reconcile (state : MergedLegs) (outpoint : String) (positional : Option String) : MergedLegs :=
  match positional with
  | some known =>
    if outpoint ≠ "" ∧ known ≠ "" ∧ known ≠ outpoint then
      match lookup state.inputsByKey known with
      | none => state
      | some leg =>
        let others := state.inputsByKey.filter fun (stored : String × OwnershipLeg) => stored.1 ≠ known
        match lookup others outpoint with
        | none => { state with inputsByKey := assign others outpoint leg }
        | some target =>
          let merged := mergeLeg target leg ("input:" ++ outpoint)
          { state with inputsByKey := assign others outpoint merged.1, conflicts := state.conflicts ++ merged.2 }
    else state
  | none => state

theorem mergeInput_eq (state : MergedLegs) (incoming : OwnershipLeg) (position : Nat) :
    mergeInput state (incoming, position) =
      observe (reconcile state (strip incoming.outpoint) (lookup state.inputKeyByPosition position)) incoming position
        (firstNonempty [strip incoming.outpoint, (lookup state.inputKeyByPosition position).getD "",
          positionName position]) := by
  unfold mergeInput reconcile observe absorbed positionName
  rfl

theorem reconcile_none (state : MergedLegs) (outpoint : String) : reconcile state outpoint none = state := rfl

theorem reconcile_same {outpoint : String} (same : outpoint = "" ∨ known = outpoint) :
    reconcile state outpoint (some known) = state := by
  unfold reconcile
  refine if_neg ?_
  rintro ⟨named, -, apart⟩
  exact same.elim named apart

theorem reconcile_moved {outpoint : String} (named : outpoint ≠ "") (keyed : known ≠ "")
    (apart : outpoint ≠ known) : reconcile state outpoint (some known) = move state known outpoint := by
  have dropped := lookup_dropped state.inputsByKey known outpoint
  rw [if_neg apart] at dropped
  unfold reconcile move moved absorbed
  simp only [if_pos (And.intro named (And.intro keyed (Ne.symm apart))), dropped]
  cases lookup state.inputsByKey known with
  | none => simp only [append_nil]
  | some leg =>
    cases lookup state.inputsByKey outpoint with
    | none => simp only [append_nil]
    | some other => rfl

section
variable {seen : List (OwnershipLeg × Nat)} {leg : OwnershipLeg} {position : Nat}

theorem firstNonempty_of_ne {text : String} (nonempty : text ≠ "") (texts : List String) :
    firstNonempty (text :: texts) = text := by
  simp [firstNonempty, nonempty]

theorem firstNonempty_empty (texts : List String) : firstNonempty ("" :: texts) = firstNonempty texts := rfl

theorem keyAt_unseen (unseen : position ∉ seen.map Prod.snd) : keyAt seen position = positionName position := by
  rcases keyAt_cases seen position with ⟨entry, member, here, -, -⟩ | ⟨-, own⟩
  · exact absurd (mem_map.2 ⟨entry, member, here⟩) unseen
  · exact own

variable {state : MergedLegs}

theorem observe_stored {facts : String → List LegFacts} (stored : Stored facts state.inputsByKey)
    (incoming : OwnershipLeg) (position : Nat) (key : String) :
    Stored (added facts key [incoming.facts]) (observe state incoming position key).inputsByKey ∧
      ∃ conflicts, (observe state incoming position key).conflicts = state.conflicts ++ conflicts ∧
        (Agree (added facts key [incoming.facts]) ↔ Agree facts ∧ conflicts = []) := by
  have same : (if strip incoming.outpoint ≠ "" then
      { (absorbed state.inputsByKey key incoming ("input:" ++ key)).1 with outpoint := strip incoming.outpoint }
      else (absorbed state.inputsByKey key incoming ("input:" ++ key)).1).facts =
      (absorbed state.inputsByKey key incoming ("input:" ++ key)).1.facts := by
    split <;> rfl
  obtain ⟨after, agree⟩ := stored.absorb same
  exact ⟨after, _, rfl, agree⟩

theorem observe_outpoints {incoming : OwnershipLeg} {key : String}
    (parsed : ParsedOutpoint incoming.outpoint) (here : incoming.outpoint ≠ "" → key = incoming.outpoint)
    (unnamed : incoming.outpoint = "" → lookup state.inputsByKey key = none → outpointOf key = "")
    (outpoints : ∀ other leg, incoming.outpoint = "" ∨ other ≠ key → lookup state.inputsByKey other = some leg →
      leg.outpoint = outpointOf other)
    (position : Nat) (other : String) (leg : OwnershipLeg)
    (found : lookup (observe state incoming position key).inputsByKey other = some leg) :
    leg.outpoint = outpointOf other := by
  unfold observe at found
  rw [lookup_assign] at found
  split at found
  case isFalse elsewhere => exact outpoints other leg (.inr elsewhere) found
  case isTrue same =>
    subst same
    rw [parsed.stripped] at found
    by_cases named : incoming.outpoint = ""
    · rw [if_neg (not_not_intro named)] at found
      rw [← some.inj found]
      unfold absorbed
      cases stored : lookup state.inputsByKey other with
      | none => exact named.trans (unnamed named stored).symm
      | some target => exact outpoints other target (.inl named) stored
    · rw [if_pos named] at found
      rw [← some.inj found, here named, parsed.outpointOf_self]

structure Step (seen : List (OwnershipLeg × Nat)) (entry : OwnershipLeg × Nat) (before after : MergedLegs) : Prop where
  merges : Merges (seen ++ [entry]) after
  conflicts : ∃ conflicts, after.conflicts = before.conflicts ++ conflicts ∧
    (Agree (factsUnder (seen ++ [entry])) ↔ Agree (factsUnder seen) ∧ conflicts = [])

theorem positions_observe (merges : Merges seen state)
    {between : MergedLegs} (table : between.inputKeyByPosition = state.inputKeyByPosition)
    (aligned : Aligned (seen ++ [(leg, position)])) {key : String}
    (keyed : key = if leg.outpoint ≠ "" then leg.outpoint else keyAt seen position) (other : Nat) :
    lookup (observe between leg position key).inputKeyByPosition other =
      if other ∈ (seen ++ [(leg, position)]).map Prod.snd then some (keyAt (seen ++ [(leg, position)]) other)
      else none := by
  unfold observe
  rw [lookup_assign, table, keyAt_snoc aligned, merges.positions]
  simp only [map_append, mem_append, map_cons, map_nil, mem_singleton]
  by_cases here : other = position
  · simp only [here, true_and, if_true, or_true, keyed]
  · simp only [here, false_and, if_false, or_false]

theorem Merges.step_same (merges : Merges seen state)
    (parsed : Parsed (seen ++ [(leg, position)])) (aligned : Aligned (seen ++ [(leg, position)]))
    (same : leg.outpoint = "" ∨ leg.outpoint = keyAt seen position) :
    Step seen (leg, position) state (mergeInput state (leg, position)) := by
  have own : ParsedOutpoint leg.outpoint := parsed _ (mem_append_right _ (.head _))
  have positional := merges.positions position
  have key : firstNonempty [leg.outpoint, (lookup state.inputKeyByPosition position).getD "", positionName position] =
      keyAt seen position := by
    by_cases named : leg.outpoint = ""
    · rw [named, firstNonempty_empty, positional]
      split
      case isTrue => exact firstNonempty_of_ne (keyAt_ne_empty position) _
      case isFalse unseen =>
        rw [Option.getD_none, firstNonempty_empty, keyAt_unseen unseen]
        exact firstNonempty_of_ne (Lib.Text.append_ne_empty (by decide)) _
    · rw [firstNonempty_of_ne named, same.resolve_left named]
  have untouched : reconcile state leg.outpoint (lookup state.inputKeyByPosition position) = state := by
    rw [positional]
    split
    · exact reconcile_same (same.imp_right Eq.symm)
    · exact reconcile_none state _
  rw [mergeInput_eq, own.stripped, key, untouched]
  obtain ⟨stored, conflicts, appended, agree⟩ := observe_stored merges.stored leg position (keyAt seen position)
  have facts (other : String) := factsUnder_same aligned same other
  have perm (other : String) := List.Perm.of_eq (facts other).symm
  refine ⟨⟨positions_observe merges rfl aligned ?_, stored.perm perm, ?_⟩, conflicts, appended,
    (agree_perm perm).symm.trans agree⟩
  · split
    case isTrue named => exact (same.resolve_left named).symm
    case isFalse => rfl
  · refine observe_outpoints own (fun named => (same.resolve_left named).symm) (fun blank missing => ?_)
      (fun other stored_leg _ found => merges.outpoints other stored_leg found) position
    -- a leg without an outpoint is new at a position that was not observed before
    have nothing := (merges.stored.known _).1 missing
    rcases keyAt_cases seen position with ⟨entry, member, here, -, -⟩ | ⟨-, unnamed⟩
    · exact absurd nothing (factsUnder_ne_nil.2 ⟨entry, member, by rw [here]⟩)
    · rw [unnamed, outpointOf_position]

theorem Merges.step_named (merges : Merges seen state)
    (parsed : Parsed (seen ++ [(leg, position)])) (aligned : Aligned (seen ++ [(leg, position)]))
    (named : leg.outpoint ≠ "") (apart : keyAt seen position ≠ leg.outpoint) :
    Step seen (leg, position) state (mergeInput state (leg, position)) := by
  have own : ParsedOutpoint leg.outpoint := parsed _ (mem_append_right _ (.head _))
  have before : Parsed seen := fun entry member => parsed entry (mem_append_left _ member)
  have reconciled : reconcile state leg.outpoint (lookup state.inputKeyByPosition position) =
      move state (keyAt seen position) leg.outpoint := by
    rw [merges.positions]
    split
    case isTrue => exact reconcile_moved named (keyAt_ne_empty position) (Ne.symm apart)
    case isFalse unseen =>
      -- nothing is stored under the name of a position that was not observed
      have nothing : factsUnder seen (keyAt seen position) = [] := by
        by_contra stored
        obtain ⟨entry, member, here⟩ := factsUnder_ne_nil.1 stored
        rw [keyAt_unseen unseen] at here
        exact unseen (mem_map.2 ⟨entry, member, keyAt_eq_position before here⟩)
      rw [reconcile_none]
      unfold move moved
      simp only [(merges.stored.known _).2 nothing, append_nil]
  rw [mergeInput_eq, own.stripped, firstNonempty_of_ne named, reconciled]
  obtain ⟨moved, still⟩ := merges.stored.move (Ne.symm apart) ("input:" ++ leg.outpoint)
  have movedState : Stored _ (move state (keyAt seen position) leg.outpoint).inputsByKey := moved
  obtain ⟨stored, conflicts, appended, agree⟩ := observe_stored movedState leg position leg.outpoint
  have perm (other : String) := (factsUnder_named aligned parsed named (Ne.symm apart).symm other).symm
  refine ⟨⟨positions_observe merges rfl aligned (if_pos named).symm, stored.perm perm, ?_⟩,
    _, (appended.trans (List.append_assoc _ _ _)), ?_⟩
  · refine observe_outpoints own (fun _ => rfl) (fun blank => absurd blank named)
      (fun other stored_leg elsewhere found => ?_) position
    exact merges.outpoints other stored_leg (lookup_moved_other (elsewhere.resolve_left named) found)
  · rw [← agree_perm perm, agree, still, append_eq_nil_iff, and_assoc]

theorem Merges.step (merges : Merges seen state) (parsed : Parsed (seen ++ [(leg, position)]))
    (aligned : Aligned (seen ++ [(leg, position)])) :
    Step seen (leg, position) state (mergeInput state (leg, position)) := by
  by_cases named : leg.outpoint = ""
  · exact merges.step_same parsed aligned (.inl named)
  · by_cases same : leg.outpoint = keyAt seen position
    · exact merges.step_same parsed aligned (.inr same)
    · exact merges.step_named parsed aligned named (Ne.symm same)

end

def factsAt (outputs : List OwnershipLeg) (n : Int) : List LegFacts :=
  (outputs.filter fun leg => leg.n = n).map fun leg => leg.facts

theorem factsAt_snoc (outputs : List OwnershipLeg) (leg : OwnershipLeg) (n : Int) :
    factsAt (outputs ++ [leg]) n = added (factsAt outputs) leg.n [leg.facts] n := by
  unfold factsAt added
  rw [filter_append, map_append, filter_singleton]
  by_cases here : n = leg.n
  · simp [here]
  · simp [here, Ne.symm here]

structure OutputsMerged (outputs : List OwnershipLeg) (state : MergedLegs) : Prop where
  stored : Stored (factsAt outputs) state.outputsByN
  numbered : ∀ n leg, lookup state.outputsByN n = some leg → leg.n = n

theorem mergeOutput_eq (state : MergedLegs) (incoming : OwnershipLeg) :
    mergeOutput state incoming =
      { state with
        outputsByN := assign state.outputsByN incoming.n
          (absorbed state.outputsByN incoming.n incoming ("output:" ++ toString incoming.n)).1
        conflicts := state.conflicts ++
          (absorbed state.outputsByN incoming.n incoming ("output:" ++ toString incoming.n)).2 } := by
  unfold mergeOutput absorbed
  cases lookup state.outputsByN incoming.n with
  | none => simp only [append_nil]
  | some target => rfl

theorem OutputsMerged.step {outputs : List OwnershipLeg} (merged : OutputsMerged outputs state)
    (incoming : OwnershipLeg) :
    OutputsMerged (outputs ++ [incoming]) (mergeOutput state incoming) ∧
      ∃ conflicts, (mergeOutput state incoming).conflicts = state.conflicts ++ conflicts ∧
        (Agree (factsAt (outputs ++ [incoming])) ↔ Agree (factsAt outputs) ∧ conflicts = []) := by
  rw [mergeOutput_eq]
  have perm (n : Int) := List.Perm.of_eq (factsAt_snoc outputs incoming n).symm
  obtain ⟨stored, agree⟩ := merged.stored.absorb
    (show (absorbed state.outputsByN incoming.n incoming ("output:" ++ toString incoming.n)).1.facts = _ from rfl)
  refine ⟨⟨stored.perm perm, fun n leg found => ?_⟩, _, rfl, (agree_perm perm).symm.trans agree⟩
  rw [lookup_assign] at found
  split at found
  case isFalse => exact merged.numbered n leg found
  case isTrue here =>
    rw [← some.inj found, here]
    unfold absorbed
    cases known : lookup state.outputsByN incoming.n with
    | none => rfl
    | some target => exact merged.numbered incoming.n target known

theorem mergeInput_outputs (state : MergedLegs) (entry : OwnershipLeg × Nat) :
    (mergeInput state entry).outputsByN = state.outputsByN := by
  obtain ⟨incoming, position⟩ := entry
  rw [mergeInput_eq]
  unfold observe reconcile
  split
  · split
    · split
      · rfl
      · dsimp only
        split <;> rfl
    · rfl
  · rfl

theorem mergeInputs_outputs (entries : List (OwnershipLeg × Nat)) (state : MergedLegs) :
    (entries.foldl mergeInput state).outputsByN = state.outputsByN := by
  induction entries generalizing state with
  | nil => rfl
  | cons entry rest ih => rw [foldl_cons, ih, mergeInput_outputs]

theorem Merges.congr (merges : Merges seen state)
    (legs : other.inputsByKey = state.inputsByKey) (table : other.inputKeyByPosition = state.inputKeyByPosition) :
    Merges seen other where
  positions position := by
    rw [table]
    exact merges.positions position
  stored := legs ▸ merges.stored
  outpoints key leg found := merges.outpoints key leg (legs ▸ found)

theorem OutputsMerged.congr {outputs : List OwnershipLeg}
    (merged : OutputsMerged outputs state) (legs : other.outputsByN = state.outputsByN) :
    OutputsMerged outputs other where
  stored := legs ▸ merged.stored
  numbered n leg found := merged.numbered n leg (legs ▸ found)

theorem Merges.output (merges : Merges seen state)
    (incoming : OwnershipLeg) : Merges seen (mergeOutput state incoming) := by
  rw [mergeOutput_eq]
  exact merges.congr rfl rfl

/-- The legs merged from these observations, and whether they agree. -/
structure Observed (inputs : List (OwnershipLeg × Nat)) (outputs : List OwnershipLeg) (state : MergedLegs) : Prop where
  merges : Merges inputs state
  merged : OutputsMerged outputs state
  conflicts : state.conflicts = [] ↔ Agree (factsUnder inputs) ∧ Agree (factsAt outputs)

theorem Observed.inputs {inputs : List (OwnershipLeg × Nat)} {outputs : List OwnershipLeg}
    (observed : Observed inputs outputs state) {entries : List (OwnershipLeg × Nat)}
    (parsed : Parsed (inputs ++ entries)) (aligned : Aligned (inputs ++ entries)) :
    Observed (inputs ++ entries) outputs (entries.foldl mergeInput state) := by
  induction entries generalizing inputs state with
  | nil =>
    rw [append_nil]
    exact observed
  | cons entry rest ih =>
    obtain ⟨leg, position⟩ := entry
    have assoc : inputs ++ (leg, position) :: rest = (inputs ++ [(leg, position)]) ++ rest := by simp
    rw [assoc] at parsed aligned ⊢
    obtain ⟨merges, conflicts, appended, agree⟩ := observed.merges.step
      (fun entry member => parsed entry (mem_append_left _ member))
      (fun a first b second => aligned a (mem_append_left _ first) b (mem_append_left _ second))
    refine ih ⟨merges, observed.merged.congr (mergeInput_outputs state _), ?_⟩ parsed aligned
    rw [appended, append_eq_nil_iff, observed.conflicts, agree, and_right_comm]

theorem Observed.outputs {inputs : List (OwnershipLeg × Nat)} {outputs : List OwnershipLeg}
    (observed : Observed inputs outputs state) (legs : List OwnershipLeg) :
    Observed inputs (outputs ++ legs) (legs.foldl mergeOutput state) := by
  induction legs generalizing outputs state with
  | nil =>
    rw [append_nil]
    exact observed
  | cons leg rest ih =>
    obtain ⟨merged, conflicts, appended, agree⟩ := observed.merged.step leg
    have next : Observed inputs (outputs ++ [leg]) (mergeOutput state leg) := by
      refine ⟨observed.merges.output leg, merged, ?_⟩
      rw [appended, append_eq_nil_iff, observed.conflicts, agree, and_assoc]
    have after := ih next
    rw [List.append_assoc] at after
    exact after

theorem OutputsMerged.run {outputs : List OwnershipLeg} (merged : OutputsMerged outputs state)
    (legs : List OwnershipLeg) : OutputsMerged (outputs ++ legs) (legs.foldl mergeOutput state) := by
  induction legs generalizing outputs state with
  | nil =>
    rw [append_nil]
    exact merged
  | cons leg rest ih =>
    have after := ih (merged.step leg).1
    rw [List.append_assoc] at after
    exact after

def observedInputs (items : List OwnershipTx) : List (OwnershipLeg × Nat) :=
  items.flatMap fun item => item.inputs.zipIdx

def observedOutputs (items : List OwnershipTx) : List OwnershipLeg := items.flatMap fun item => item.outputs

def mergeItem (state : MergedLegs) (item : OwnershipTx) : MergedLegs :=
  item.outputs.foldl mergeOutput (item.inputs.zipIdx.foldl mergeInput state)

theorem observed_items {inputs : List (OwnershipLeg × Nat)} {outputs : List OwnershipLeg}
    (observed : Observed inputs outputs state) (parsed : Parsed (inputs ++ observedInputs items))
    (aligned : Aligned (inputs ++ observedInputs items)) :
    Observed (inputs ++ observedInputs items) (outputs ++ observedOutputs items) (items.foldl mergeItem state) := by
  induction items generalizing inputs outputs state with
  | nil =>
    rw [observedInputs, observedOutputs, flatMap_nil, flatMap_nil, append_nil, append_nil]
    exact observed
  | cons item rest ih =>
    have inputsSplit : inputs ++ observedInputs (item :: rest) =
        (inputs ++ item.inputs.zipIdx) ++ observedInputs rest := by simp [observedInputs]
    have outputsSplit : outputs ++ observedOutputs (item :: rest) =
        (outputs ++ item.outputs) ++ observedOutputs rest := by simp [observedOutputs]
    rw [inputsSplit] at parsed aligned ⊢
    rw [outputsSplit]
    refine ih ((observed.inputs ?_ ?_).outputs item.outputs) parsed aligned
    · exact fun entry member => parsed entry (mem_append_left _ member)
    · exact fun a first b second => aligned a (mem_append_left _ first) b (mem_append_left _ second)

theorem outputs_items {outputs : List OwnershipLeg}
    (merged : OutputsMerged outputs state) :
    OutputsMerged (outputs ++ observedOutputs items) (items.foldl mergeItem state) := by
  induction items generalizing outputs state with
  | nil =>
    rw [observedOutputs, flatMap_nil, append_nil]
    exact merged
  | cons item rest ih =>
    have split : outputs ++ observedOutputs (item :: rest) = (outputs ++ item.outputs) ++ observedOutputs rest := by
      simp [observedOutputs]
    rw [split]
    exact ih ((merged.congr (mergeInputs_outputs _ state)).run item.outputs)

def textsOf (item : OwnershipTx) : String × String × String := (item.txid, item.chain, item.network)

def textJoin : PartialJoin (String × String × String) :=
  (PartialJoin.flat "").prod ((PartialJoin.flat "").prod (PartialJoin.flat ""))

def mergeTexts (state : (String × String × String) × List String) (item : OwnershipTx) :
    (String × String × String) × List String :=
  let txid := mergeValue "" state.1.1 item.txid "txid"
  let chain := mergeValue "" state.1.2.1 item.chain "chain"
  let network := mergeValue "" state.1.2.2 item.network "network"
  ((txid.1, chain.1, network.1), state.2 ++ txid.2 ++ chain.2 ++ network.2)

theorem mergeTexts_join (state : (String × String × String) × List String) (item : OwnershipTx) :
    (∀ texts, textJoin.join state.1 (textsOf item) = some texts → (mergeTexts state item).1 = texts) ∧
      ((mergeTexts state item).2 = [] ↔ state.2 = [] ∧ (textJoin.join state.1 (textsOf item)).isSome) := by
  simp only [mergeTexts, mergeValue_eq, textsOf, textJoin, PartialJoin.prod]
  generalize (PartialJoin.flat "").join state.1.1 item.txid = txid
  generalize (PartialJoin.flat "").join state.1.2.1 item.chain = chain
  generalize (PartialJoin.flat "").join state.1.2.2 item.network = network
  cases txid <;> cases chain <;> cases network <;> simp [settled]

theorem mergeTexts_run (items : List OwnershipTx) {done : List (String × String × String)} {own : List String}
    {state : (String × String × String) × List String} (records : textJoin.Records done state.1)
    (conflicts : state.2 = [] ↔ own = [] ∧ (textJoin.joinAll done).isSome) :
    textJoin.Records (done ++ items.map textsOf) (items.foldl mergeTexts state).1 ∧
      ((items.foldl mergeTexts state).2 = [] ↔ own = [] ∧ (textJoin.joinAll (done ++ items.map textsOf)).isSome) := by
  induction items generalizing done state with
  | nil =>
    rw [map_nil, append_nil]
    exact ⟨records, conflicts⟩
  | cons item rest ih =>
    obtain ⟨joins, clean⟩ := mergeTexts_join state item
    have last := PartialJoin.records_singleton (J := textJoin) (textsOf item)
    have after := ih (records.append last joins) (by
      rw [clean, conflicts, records.isSome_append last, PartialJoin.joinAll_singleton]
      simp [and_assoc])
    rw [List.append_assoc] at after
    exact after

theorem mergeTexts_all (first : OwnershipTx) (rest : List OwnershipTx) :
    textJoin.Records ((first :: rest).map textsOf)
        ((first :: rest).foldl mergeTexts (textsOf first, first.evidenceConflicts)).1 ∧
      (((first :: rest).foldl mergeTexts (textsOf first, first.evidenceConflicts)).2 = [] ↔
        first.evidenceConflicts = [] ∧ (textJoin.joinAll ((first :: rest).map textsOf)).isSome) := by
  have alone : textJoin.Records [textsOf first] (textsOf first, first.evidenceConflicts).1 :=
    PartialJoin.records_singleton (textsOf first)
  have run := mergeTexts_run (first :: rest) alone
    (show first.evidenceConflicts = [] ↔ first.evidenceConflicts = [] ∧ _ by rw [PartialJoin.joinAll_singleton]; simp)
  have again : textJoin.joinAll ([textsOf first] ++ (first :: rest).map textsOf) =
      textJoin.joinAll ((first :: rest).map textsOf) :=
    textJoin.joinAll_cons_of_mem (.head _)
  unfold PartialJoin.Records at run
  rw [again] at run
  exact run

def mergedTexts (first : OwnershipTx) (items : List OwnershipTx) : (String × String × String) × List String :=
  items.foldl mergeTexts (textsOf first, first.evidenceConflicts)

def mergedLegs (items : List OwnershipTx) : MergedLegs := items.foldl mergeItem {}

def mergedGraph (texts : (String × String × String) × List String) (legs : MergedLegs) : OwnershipTx where
  txid := texts.1.1
  chain := texts.1.2.1
  network := texts.1.2.2
  inputs := (sortedBy fst legs.inputsByKey).map fun entry => legOn texts.1.2.1 entry.2
  outputs := (sortedBy fst legs.outputsByN).map fun entry => legOn texts.1.2.1 entry.2
  evidenceConflicts := sortedSet (texts.2 ++ legs.conflicts)

theorem mergeOwnershipTxs_eq (first : OwnershipTx) (rest : List OwnershipTx) :
    mergeOwnershipTxs (first :: rest) =
      some (mergedGraph (mergedTexts first (first :: rest)) (mergedLegs (first :: rest))) := rfl

theorem observed_nil : Observed [] [] {} where
  merges :=
    { positions := fun _ => rfl
      stored := stored_nil
      outpoints := fun key leg found => absurd found (by simp [lookup]) }
  merged :=
    { stored := stored_nil
      numbered := fun n leg found => absurd found (by simp [lookup]) }
  conflicts := ⟨fun _ => ⟨agree_nil, agree_nil⟩, fun _ => rfl⟩

theorem mergedLegs_observed (parsed : Parsed (observedInputs items))
    (aligned : Aligned (observedInputs items)) :
    Observed (observedInputs items) (observedOutputs items) (mergedLegs items) :=
  observed_items observed_nil parsed aligned

theorem mergedLegs_outputs (items : List OwnershipTx) : OutputsMerged (observedOutputs items) (mergedLegs items) :=
  outputs_items observed_nil.merged

/-! ### The order of the observations -/

section
variable {κ γ : Type} [LinearOrder κ]

theorem mem_rows {legs : List (κ × OwnershipLeg)} (distinct : (legs.map fst).Nodup) (view : OwnershipLeg → γ)
    {row : κ × γ} :
    row ∈ legs.map (fun entry => (entry.1, view entry.2)) ↔ (lookup legs row.1).map view = some row.2 := by
  obtain ⟨key, shown⟩ := row
  rw [mem_map, Option.map_eq_some_iff]
  constructor
  · rintro ⟨entry, member, same⟩
    obtain ⟨rfl, rfl⟩ := Prod.mk.inj same
    exact ⟨entry.2, lookup_of_mem distinct member, rfl⟩
  · rintro ⟨leg, found, rfl⟩
    exact ⟨(key, leg), mem_of_lookup found, rfl⟩

theorem sortedRows_eq {legs others : List (κ × OwnershipLeg)} (distinct : (legs.map fst).Nodup)
    (otherDistinct : (others.map fst).Nodup) (view : OwnershipLeg → γ)
    (same : ∀ key, (lookup legs key).map view = (lookup others key).map view) :
    (sortedBy fst legs).map (fun entry => (entry.1, view entry.2)) =
      (sortedBy fst others).map fun entry => (entry.1, view entry.2) := by
  have rowsDistinct {some : List (κ × OwnershipLeg)} (keys : (some.map fst).Nodup) :
      (some.map fun entry => (entry.1, view entry.2)).Nodup := by
    refine List.Nodup.of_map fst ?_
    rw [map_map]
    exact keys
  have perm : (legs.map fun entry => (entry.1, view entry.2)).Perm
      (others.map fun entry => (entry.1, view entry.2)) := by
    rw [perm_ext_iff_of_nodup (rowsDistinct distinct) (rowsDistinct otherDistinct)]
    intro row
    rw [mem_rows distinct, mem_rows otherDistinct, same]
  refine eq_of_perm_of_strict fst ?_ ?_ ?_
  · exact ((sortedBy_perm _ legs).map _).trans (perm.trans ((sortedBy_perm _ others).map _).symm)
  · rw [pairwise_map]
    exact sortedBy_pairwise fst legs
  · rw [pairwise_map]
    exact sortedBy_strict otherDistinct

variable {facts others : κ → List LegFacts} {legs more : List (κ × OwnershipLeg)}

theorem Stored.map_eq (stored : Stored facts legs) (other : Stored others more)
    (perm : ∀ key, (facts key).Perm (others key)) {view : OwnershipLeg → γ} {key : κ}
    (same : ∀ leg leg', lookup legs key = some leg → lookup more key = some leg' → view leg = view leg') :
    (lookup legs key).map view = (lookup more key).map view := by
  have alike : lookup legs key = none ↔ lookup more key = none := by
    rw [stored.known, (other.perm fun k => (perm k).symm).known]
  cases found : lookup legs key with
  | none => rw [alike.1 found]
  | some leg =>
    cases there : lookup more key with
    | none =>
      rw [alike.2 there] at found
      exact absurd found (by simp)
    | some leg' => rw [map_some, map_some, same leg leg' found there]

theorem Stored.same_keys (stored : Stored facts legs) (other : Stored others more)
    (perm : ∀ key, (facts key).Perm (others key)) :
    (sortedBy fst legs).map fst = (sortedBy fst more).map fst := by
  have rows := congrArg (map fst) (sortedRows_eq stored.distinct other.distinct (fun _ => ())
    fun key => stored.map_eq other perm fun _ _ _ _ => rfl)
  simp only [map_map] at rows
  exact rows

theorem Stored.same_facts (stored : Stored facts legs) (other : Stored others more)
    (perm : ∀ key, (facts key).Perm (others key)) (agree : Agree facts) {key : κ} {leg leg' : OwnershipLeg}
    (found : lookup legs key = some leg) (there : lookup more key = some leg') : leg.facts = leg'.facts := by
  obtain ⟨joined, agreed⟩ := Option.isSome_iff_exists.1 (agree key)
  rw [stored.records key leg found joined agreed,
    (other.perm fun k => (perm k).symm).records key leg' there joined agreed]

theorem Stored.same_rows (stored : Stored facts legs) (other : Stored others more)
    (perm : ∀ key, (facts key).Perm (others key)) (agree : Agree facts) :
    (sortedBy fst legs).map (fun entry => (entry.1, entry.2.facts)) =
      (sortedBy fst more).map fun entry => (entry.1, entry.2.facts) :=
  sortedRows_eq stored.distinct other.distinct OwnershipLeg.facts fun _ =>
    stored.map_eq other perm fun _ _ found there => stored.same_facts other perm agree found there

end

theorem keyAt_perm (perm : seen.Perm others) (aligned : Aligned seen)
    (position : Nat) : keyAt seen position = keyAt others position := by
  rcases keyAt_cases seen position with ⟨entry, member, here, named, found⟩ | ⟨blank, found⟩ <;>
    rcases keyAt_cases others position with ⟨entry', member', here', named', found'⟩ | ⟨blank', found'⟩
  · rw [found, found']
    exact aligned entry member entry' (perm.mem_iff.2 member') (here.trans here'.symm) named named'
  · exact absurd (blank' entry (perm.mem_iff.1 member) here) named
  · exact absurd (blank entry' (perm.mem_iff.2 member') here') named'
  · rw [found, found']

theorem factsUnder_perm (perm : seen.Perm others) (aligned : Aligned seen)
    (key : String) : (factsUnder seen key).Perm (factsUnder others key) := by
  unfold factsUnder
  rw [funext (keyAt_perm perm aligned)]
  exact (perm.filter _).map _

theorem factsAt_perm {outputs others : List OwnershipLeg} (perm : outputs.Perm others) (n : Int) :
    (factsAt outputs n).Perm (factsAt others n) := (perm.filter _).map _

/-! ### What the merged graph says -/

/-- The facts of a leg on a chain: a Bitcoin transaction moves bitcoin. -/
def factsOn (chain : String) (facts : LegFacts) : LegFacts :=
  if chain.toLower = "bitcoin" then
    (facts.1, facts.2.1, if facts.2.2.1 = "" then "BTC" else facts.2.2.1,
      if facts.2.2.2.1 = "" then "BTC" else facts.2.2.2.1, facts.2.2.2.2)
  else facts

theorem legOn_facts (chain : String) (leg : OwnershipLeg) : (legOn chain leg).facts = factsOn chain leg.facts := by
  unfold legOn factsOn
  split <;> rfl

theorem legOn_outpoint (chain : String) (leg : OwnershipLeg) : (legOn chain leg).outpoint = leg.outpoint := by
  unfold legOn
  split <;> rfl

theorem legOn_n (chain : String) (leg : OwnershipLeg) : (legOn chain leg).n = leg.n := by
  unfold legOn
  split <;> rfl

def inputRow (leg : OwnershipLeg) : String × LegFacts := (leg.outpoint, leg.facts)

def outputRow (leg : OwnershipLeg) : Int × LegFacts := (leg.n, leg.facts)

section
variable {seen : List (OwnershipLeg × Nat)} {outputs : List OwnershipLeg} {state : MergedLegs}
  (texts : (String × String × String) × List String)

theorem Merges.input_rows (merges : Merges seen state) :
    (mergedGraph texts state).inputs.map inputRow =
      ((sortedBy fst state.inputsByKey).map fun entry => (entry.1, entry.2.facts)).map
        fun row => (outpointOf row.1, factsOn texts.1.2.1 row.2) := by
  unfold mergedGraph
  rw [map_map, map_map]
  refine map_congr_left fun entry member => ?_
  have found := lookup_of_mem merges.stored.distinct (mem_sortedBy.1 member)
  simp only [comp, inputRow, legOn_facts, legOn_outpoint, merges.outpoints entry.1 entry.2 found]

theorem Merges.input_outpoints (merges : Merges seen state) :
    (mergedGraph texts state).inputs.map (·.outpoint) =
      ((sortedBy fst state.inputsByKey).map fst).map outpointOf := by
  have rows := congrArg (map fst) (merges.input_rows texts)
  simp only [map_map] at rows ⊢
  exact rows

theorem OutputsMerged.output_rows (merged : OutputsMerged outputs state) :
    (mergedGraph texts state).outputs.map outputRow =
      ((sortedBy fst state.outputsByN).map fun entry => (entry.1, entry.2.facts)).map
        fun row => (row.1, factsOn texts.1.2.1 row.2) := by
  unfold mergedGraph
  rw [map_map, map_map]
  refine map_congr_left fun entry member => ?_
  have found := lookup_of_mem merged.stored.distinct (mem_sortedBy.1 member)
  simp only [comp, outputRow, legOn_facts, legOn_n, merged.numbered entry.1 entry.2 found]

theorem OutputsMerged.output_indices (merged : OutputsMerged outputs state) :
    (mergedGraph texts state).outputs.map (·.n) = (sortedBy fst state.outputsByN).map fst := by
  have rows := congrArg (map fst) (merged.output_rows texts)
  simp only [map_map] at rows ⊢
  exact rows

theorem OutputsMerged.count_index (merged : OutputsMerged outputs state) {leg : OwnershipLeg} (member : leg ∈ outputs) :
    ((mergedGraph texts state).outputs.map (·.n)).count leg.n = 1 := by
  rw [merged.output_indices]
  refine count_eq_one_of_mem (((sortedBy_perm _ _).map _).nodup_iff.2 merged.stored.distinct) ?_
  refine ((sortedBy_perm _ _).map _).mem_iff.2 (lookup_isSome.1 ?_)
  rw [← Option.ne_none_iff_isSome, Ne, merged.stored.known]
  intro nothing
  unfold factsAt at nothing
  have all := filter_eq_nil_iff.1 (map_eq_nil_iff.1 nothing) leg member
  exact all (decide_eq_true rfl)

theorem Merges.count_outpoint (merges : Merges seen state) (parsed : Parsed seen) (aligned : Aligned seen)
    {entry : OwnershipLeg × Nat} (member : entry ∈ seen) (named : entry.1.outpoint ≠ "") :
    ((mergedGraph texts state).inputs.map (·.outpoint)).count entry.1.outpoint = 1 := by
  have keyed : keyAt seen entry.2 = entry.1.outpoint := by
    rcases keyAt_cases seen entry.2 with ⟨first, before, here, outpoint, found⟩ | ⟨blank, -⟩
    · exact found.trans (aligned first before entry member here outpoint named)
    · exact absurd (blank entry member rfl) named
  have known : entry.1.outpoint ∈ state.inputsByKey.map fst := by
    refine lookup_isSome.1 ?_
    rw [← Option.ne_none_iff_isSome, Ne, merges.stored.known]
    exact factsUnder_ne_nil.2 ⟨entry, member, keyed⟩
  have only (key : String) : outpointOf key = entry.1.outpoint ↔ key = entry.1.outpoint := by
    constructor
    · intro same
      unfold outpointOf at same
      split at same
      · exact absurd same.symm named
      · exact same
    · rintro rfl
      exact (parsed entry member).outpointOf_self
  rw [merges.input_outpoints, List.count, countP_map]
  have counted : ((sortedBy fst state.inputsByKey).map fst).countP ((· == entry.1.outpoint) ∘ outpointOf) =
      ((sortedBy fst state.inputsByKey).map fst).count entry.1.outpoint := by
    refine countP_congr fun key _ => ?_
    simp only [comp, beq_iff_eq, only]
  rw [counted]
  exact count_eq_one_of_mem (((sortedBy_perm _ _).map _).nodup_iff.2 merges.stored.distinct)
    (((sortedBy_perm _ _).map _).mem_iff.2 known)

end

/-- The conflicts the observations carry themselves: none of them does, or all do. -/
def ConflictsAlike (items : List OwnershipTx) : Prop :=
  (∀ item ∈ items, item.evidenceConflicts = []) ∨ ∀ item ∈ items, item.evidenceConflicts ≠ []

theorem mergedGraph_agrees (texts : (String × String × String) × List String) (legs : MergedLegs) :
    (mergedGraph texts legs).evidenceConflicts = [] ↔ texts.2 = [] ∧ legs.conflicts = [] := by
  unfold mergedGraph
  rw [← append_eq_nil_iff, eq_nil_iff_forall_not_mem, eq_nil_iff_forall_not_mem]
  simp only [mem_sortedSet]

section
variable {items reordered : List OwnershipTx}

theorem Parsed.perm {seen others : List (OwnershipLeg × Nat)} (parsed : Parsed seen) (perm : seen.Perm others) :
    Parsed others := fun entry member => parsed entry (perm.mem_iff.2 member)

theorem Aligned.perm {seen others : List (OwnershipLeg × Nat)} (aligned : Aligned seen) (perm : seen.Perm others) :
    Aligned others := fun a first b second => aligned a (perm.mem_iff.2 first) b (perm.mem_iff.2 second)

theorem evidenceConflicts_iff {first : OwnershipTx} {rest : List OwnershipTx}
    (parsed : Parsed (observedInputs (first :: rest))) (aligned : Aligned (observedInputs (first :: rest))) :
    (mergedGraph (mergedTexts first (first :: rest)) (mergedLegs (first :: rest))).evidenceConflicts = [] ↔
      (first.evidenceConflicts = [] ∧ (textJoin.joinAll ((first :: rest).map textsOf)).isSome) ∧
        Agree (factsUnder (observedInputs (first :: rest))) ∧ Agree (factsAt (observedOutputs (first :: rest))) := by
  rw [mergedGraph_agrees, (mergedLegs_observed parsed aligned).conflicts, mergedTexts, (mergeTexts_all first rest).2]

/-- The merge keeps every observed outpoint and output index. Its outpoints, its indices and whether it has
conflicts do not depend on the order of the observations, nor do its legs when it has none. -/
theorem merge_ownership_txs_keeps_inputs (nonempty : items ≠ []) (parsed : Parsed (observedInputs items)) :
    ∃ merged, mergeOwnershipTxs items = some merged ∧
      (∀ leg ∈ observedOutputs items, (merged.outputs.map (·.n)).count leg.n = 1) ∧
      (Aligned (observedInputs items) →
        (∀ entry ∈ observedInputs items, entry.1.outpoint ≠ "" →
          (merged.inputs.map (·.outpoint)).count entry.1.outpoint = 1) ∧
        ∀ reordered, reordered.Perm items → ∃ other, mergeOwnershipTxs reordered = some other ∧
          other.inputs.map (·.outpoint) = merged.inputs.map (·.outpoint) ∧
          other.outputs.map (·.n) = merged.outputs.map (·.n) ∧
          (ConflictsAlike items → (other.evidenceConflicts = [] ↔ merged.evidenceConflicts = [])) ∧
          (merged.evidenceConflicts = [] →
            other.inputs.map inputRow = merged.inputs.map inputRow ∧
              other.outputs.map outputRow = merged.outputs.map outputRow)) := by
  obtain ⟨first, rest, rfl⟩ := exists_cons_of_ne_nil nonempty
  refine ⟨_, mergeOwnershipTxs_eq first rest, fun leg member => (mergedLegs_outputs _).count_index _ member,
    fun aligned => ⟨fun entry member named => ?_, fun reordered perm => ?_⟩⟩
  · exact (mergedLegs_observed parsed aligned).merges.count_outpoint _ parsed aligned member named
  obtain ⟨first', rest', rfl⟩ := exists_cons_of_ne_nil fun empty : reordered = [] => by
    rw [empty] at perm
    exact absurd perm.symm.eq_nil (by simp)
  have inputsPerm : (observedInputs (first :: rest)).Perm (observedInputs (first' :: rest')) :=
    perm.symm.flatMap_right _
  have outputsPerm : (observedOutputs (first :: rest)).Perm (observedOutputs (first' :: rest')) :=
    perm.symm.flatMap_right _
  have observed := mergedLegs_observed parsed aligned
  have observed' := mergedLegs_observed (parsed.perm inputsPerm) (aligned.perm inputsPerm)
  have inputFacts := factsUnder_perm inputsPerm aligned
  have outputFacts := factsAt_perm outputsPerm
  have texts : textJoin.joinAll ((first' :: rest').map textsOf) = textJoin.joinAll ((first :: rest).map textsOf) :=
    textJoin.joinAll_perm (perm.map textsOf)
  refine ⟨_, mergeOwnershipTxs_eq first' rest', ?_, ?_, ?_, ?_⟩
  · rw [observed'.merges.input_outpoints, observed.merges.input_outpoints,
      observed.merges.stored.same_keys observed'.merges.stored inputFacts]
  · rw [observed'.merged.output_indices, observed.merged.output_indices,
      observed.merged.stored.same_keys observed'.merged.stored outputFacts]
  · intro alike
    have own : first'.evidenceConflicts = [] ↔ first.evidenceConflicts = [] := by
      have inside : first' ∈ first :: rest := perm.mem_iff.1 (.head _)
      rcases alike with clean | conflicting
      · exact iff_of_true (clean first' inside) (clean first (.head _))
      · exact iff_of_false (conflicting first' inside) (conflicting first (.head _))
    rw [evidenceConflicts_iff (parsed.perm inputsPerm) (aligned.perm inputsPerm), evidenceConflicts_iff parsed aligned,
      texts, own, agree_perm inputFacts, agree_perm outputFacts]
  · intro clean
    obtain ⟨⟨-, textsAgree⟩, inputsAgree, outputsAgree⟩ := (evidenceConflicts_iff parsed aligned).1 clean
    obtain ⟨joined, agreed⟩ := Option.isSome_iff_exists.1 textsAgree
    have mine : (mergedTexts first (first :: rest)).1 = joined := (mergeTexts_all first rest).1 joined agreed
    have theirs : (mergedTexts first' (first' :: rest')).1 = joined :=
      (mergeTexts_all first' rest').1 joined (texts.trans agreed)
    rw [observed'.merges.input_rows, observed.merges.input_rows, observed'.merged.output_rows,
      observed.merged.output_rows, mine, theirs,
      observed.merges.stored.same_rows observed'.merges.stored inputFacts inputsAgree,
      observed.merged.stored.same_rows observed'.merged.stored outputFacts outputsAgree]
    exact ⟨rfl, rfl⟩

/-- An input known by its position, and by its outpoint. -/
theorem merge_ownership_txs_keeps_inputs_position :
    let unnamed : OwnershipTx := { inputs := [{ script := "0014aa" }] }
    let named : OwnershipTx := { inputs := [{ outpoint := "aa:1" }] }
    ∃ merged, mergeOwnershipTxs [unnamed, named] = some merged ∧ (merged.inputs.map (·.outpoint)).count "aa:1" = 1 := by
  intro unnamed named
  have parsed : Parsed (observedInputs [unnamed, named]) := by
    intro entry member
    rcases mem_cons.1 member with rfl | member
    · exact .inl rfl
    · obtain rfl := mem_singleton.1 member
      exact .inr ⟨"aa", 1, by decide, by simp [isHexadecimal], rfl⟩
  have aligned : Aligned (observedInputs [unnamed, named]) := by
    unfold Aligned
    decide +kernel
  obtain ⟨merged, found, -, keeps⟩ := merge_ownership_txs_keeps_inputs (by simp) parsed
  exact ⟨merged, found, (keeps aligned).1 ({ outpoint := "aa:1" }, 0) (by simp [observedInputs, named]) (by decide)⟩

/-- Contradictory values keep the first one and are a conflict. An input listed where another was is merged into it,
and the conflicts a later observation brings are dropped. -/
theorem merge_ownership_txs_counterexample :
    let listing (value : Int) : OwnershipTx := { inputs := [{ outpoint := "a:0", valueSats := some value }] }
    let both : OwnershipTx := { inputs := [{ outpoint := "a:0" }, { outpoint := "b:0" }] }
    let second : OwnershipTx := { inputs := [{ outpoint := "b:0" }] }
    let conflicting : OwnershipTx := { second with evidenceConflicts := ["txid"] }
    let values (items : List OwnershipTx) := (mergeOwnershipTxs items).map fun merged => merged.inputs.map (·.valueSats)
    values [listing 100, listing 200] = some [some 100] ∧ values [listing 200, listing 100] = some [some 200] ∧
      (mergeOwnershipTxs [listing 100, listing 200]).map (·.evidenceConflicts) = some ["input:a:0.value_sats"] ∧
      (mergeOwnershipTxs [both, second]).map (fun merged => merged.inputs.map (·.outpoint)) = some ["b:0"] ∧
      (mergeOwnershipTxs [second, conflicting]).map (·.evidenceConflicts) = some [] := by
  decide +kernel

end

end GraphMerge

end Kassiber.Custody
