import Kassiber.Transfers.PairAllocation

/-!
The component builder that booking, regime inference and source-of-funds allocation share.
-/

namespace Kassiber.Transfers
open Lib.Sorting Function
open Option (some.inj)
open List hiding indexesOf
open Prod (fst snd)

section
variable {legs : List (String × String)}

def Shares (legs : List (String × String)) (i j : Nat) : Prop :=
  ∃ ids others, legs[i]? = some ids ∧ legs[j]? = some others ∧
    (others.1 = ids.1 ∨ others.2 = ids.1 ∨ others.1 = ids.2 ∨ others.2 = ids.2)

def Chained (legs : List (String × String)) : Nat → Nat → Prop := Relation.ReflTransGen (Shares legs)

variable {i j start bound : Nat}

theorem Shares.symm (shares : Shares legs i j) : Shares legs j i := by
  obtain ⟨ids, others, here, there, same⟩ := shares
  refine ⟨others, ids, there, here, ?_⟩
  rcases same with same | same | same | same
  · exact .inl same.symm
  · exact .inr (.inr (.inl same.symm))
  · exact .inr (.inl same.symm)
  · exact .inr (.inr (.inr same.symm))

theorem Shares.lt (shares : Shares legs i j) : i < legs.length ∧ j < legs.length := by
  obtain ⟨ids, others, here, there, -⟩ := shares
  exact ⟨(List.getElem?_eq_some_iff.1 here).1, (List.getElem?_eq_some_iff.1 there).1⟩

theorem Chained.symm (chained : Chained legs i j) : Chained legs j i := by
  induction chained with
  | refl => exact .refl
  | tail _ shares ih => exact (Relation.ReflTransGen.single shares.symm).trans ih

theorem Chained.lt (chained : Chained legs i j) (inside : i < legs.length) : j < legs.length := by
  induction chained with
  | refl => exact inside
  | tail _ shares _ => exact shares.lt.2

theorem mem_indexesOf {rowId : String} :
    j ∈ indexesOf legs rowId ↔ ∃ ids, legs[j]? = some ids ∧ (ids.1 = rowId ∨ ids.2 = rowId) := by
  unfold indexesOf
  rw [mem_flatMap]
  constructor
  · rintro ⟨⟨ids, index⟩, member, found⟩
    have here := mk_mem_zipIdx_iff_getElem?.1 member
    dsimp only at found
    rcases mem_append.1 found with first | second
    · split at first
      · rename_i same
        obtain rfl := mem_singleton.1 first
        exact ⟨ids, here, .inl same⟩
      · cases first
    · split at second
      · rename_i same
        obtain rfl := mem_singleton.1 second
        exact ⟨ids, here, .inr same⟩
      · cases second
  · rintro ⟨ids, here, same⟩
    refine ⟨(ids, j), mk_mem_zipIdx_iff_getElem?.2 here, ?_⟩
    rcases same with same | same
    · exact mem_append_left _ (by rw [if_pos same]; exact mem_singleton_self j)
    · exact mem_append_right _ (by rw [if_pos same]; exact mem_singleton_self j)

def linkedTo (legs : List (String × String)) (index : Nat) : List Nat :=
  indexesOf legs (legs.getD index ("", "")).1 ++ indexesOf legs (legs.getD index ("", "")).2

theorem mem_linkedTo (inside : i < legs.length) : j ∈ linkedTo legs i ↔ Shares legs i j := by
  have here : legs[i]? = some (legs.getD i ("", "")) := by
    rw [getD_eq_getElem?_getD, getElem?_eq_getElem inside, Option.getD_some]
  unfold linkedTo
  rw [mem_append, mem_indexesOf, mem_indexesOf]
  constructor
  · rintro (⟨ids, there, same⟩ | ⟨ids, there, same⟩)
    · exact ⟨_, ids, here, there, by tauto⟩
    · exact ⟨_, ids, here, there, by tauto⟩
  · rintro ⟨ids, others, own, there, same⟩
    obtain rfl := some.inj (here.symm.trans own)
    rcases same with same | same | same | same
    · exact .inl ⟨others, there, .inl same⟩
    · exact .inl ⟨others, there, .inr same⟩
    · exact .inr ⟨others, there, .inl same⟩
    · exact .inr ⟨others, there, .inr same⟩

def stackUnseen (state : List Nat × List Nat) (linked : Nat) : List Nat × List Nat :=
  if state.2.contains linked then state else (linked :: state.1, linked :: state.2)

theorem stackUnseen_spec (linked : List Nat) (state : List Nat × List Nat) :
    ∃ pushed, linked.foldl stackUnseen state = (pushed ++ state.1, pushed ++ state.2) ∧ pushed.Nodup ∧
      (∀ j ∈ pushed, j ∈ linked ∧ j ∉ state.2) ∧ ∀ j ∈ linked, j ∈ pushed ++ state.2 := by
  induction linked generalizing state with
  | nil => exact ⟨[], rfl, nodup_nil, by simp, by simp⟩
  | cons j rest ih =>
    rw [foldl_cons]
    by_cases seen : j ∈ state.2
    · have stays : stackUnseen state j = state := if_pos (contains_iff_mem.2 seen)
      obtain ⟨pushed, result, nodup, fresh, covers⟩ := ih state
      rw [stays]
      refine ⟨pushed, result, nodup, fun k member => ?_, fun k member => ?_⟩
      · exact ⟨.tail _ (fresh k member).1, (fresh k member).2⟩
      · rcases mem_cons.1 member with rfl | later
        · exact mem_append_right _ seen
        · exact covers k later
    · have grows : stackUnseen state j = (j :: state.1, j :: state.2) := if_neg (by rw [contains_iff_mem]; exact seen)
      obtain ⟨pushed, result, nodup, fresh, covers⟩ := ih (j :: state.1, j :: state.2)
      rw [grows]
      refine ⟨pushed ++ [j], ?_, ?_, fun k member => ?_, fun k member => ?_⟩
      · rw [result, List.append_assoc, List.append_assoc, singleton_append, singleton_append]
      · refine nodup_append.2 ⟨nodup, nodup_singleton j, ?_⟩
        rintro a member b single rfl
        exact (fresh a member).2 (mem_singleton.1 single ▸ mem_cons_self)
      · rcases mem_append.1 member with earlier | single
        · exact ⟨.tail _ (fresh k earlier).1, fun old => (fresh k earlier).2 (.tail _ old)⟩
        · obtain rfl := mem_singleton.1 single
          exact ⟨.head _, seen⟩
      · rw [List.append_assoc, singleton_append]
        rcases mem_cons.1 member with rfl | later
        · exact mem_append_right _ (.head _)
        · exact covers k later

theorem collect_cons (rounds index : Nat) (stack seen indexes : List Nat) :
    collect legs (rounds + 1) (index :: stack) seen indexes =
      collect legs rounds ((linkedTo legs index).foldl stackUnseen (stack, seen)).1
        ((linkedTo legs index).foldl stackUnseen (stack, seen)).2 (indexes ++ [index]) := rfl

/-- What holds between two rounds of a walk that started after the positions in `closed` were seen: the positions
taken and stacked are of the class of the start, and the neighbours of those taken are seen. -/
structure Walking (legs : List (String × String)) (closed : Nat → Prop) (start : Nat) (stack seen indexes : List Nat) :
    Prop where
  nodup : (indexes ++ stack).Nodup
  inside : ∀ i ∈ indexes ++ stack, Chained legs start i
  known : ∀ i, i ∈ seen ↔ closed i ∨ i ∈ indexes ++ stack
  expanded : ∀ i ∈ indexes, ∀ j, Shares legs i j → j ∈ seen
  started : start ∈ indexes ++ stack

variable {stack seen indexes : List Nat}

theorem Walking.step {closed : Nat → Prop} {index : Nat} (within : start < legs.length)
    (walking : Walking legs closed start (index :: stack) seen indexes) :
    Walking legs closed start ((linkedTo legs index).foldl stackUnseen (stack, seen)).1
      ((linkedTo legs index).foldl stackUnseen (stack, seen)).2 (indexes ++ [index]) := by
  obtain ⟨pushed, result, distinct, fresh, covers⟩ := stackUnseen_spec (linkedTo legs index) (stack, seen)
  rw [result]
  dsimp only at fresh covers ⊢
  have reached : Chained legs start index := walking.inside index (by simp)
  have bound := reached.lt within
  have taken : ∀ i, i ∈ indexes ++ [index] ++ (pushed ++ stack) ↔ i ∈ indexes ++ index :: stack ∨ i ∈ pushed := by
    intro i
    simp only [mem_append, mem_cons, not_mem_nil, or_false]
    tauto
  refine ⟨?_, fun i member => ?_, fun i => ?_, fun i member j shares => ?_, ?_⟩
  · have same : (indexes ++ [index] ++ (pushed ++ stack)).Perm (pushed ++ (indexes ++ index :: stack)) := by
      rw [List.append_assoc, singleton_append]
      refine (perm_append_left_iff indexes).2 (List.Perm.cons index perm_append_comm) |>.trans ?_
      rw [← cons_append, ← List.append_assoc]
      exact perm_append_comm
    rw [same.nodup_iff]
    refine nodup_append.2 ⟨distinct, walking.nodup, ?_⟩
    rintro a member b old rfl
    exact (fresh a member).2 ((walking.known a).2 (.inr old))
  · rcases (taken i).1 member with old | new
    · exact walking.inside i old
    · exact reached.tail ((mem_linkedTo bound).1 (fresh i new).1)
  · rw [taken, mem_append, walking.known]
    tauto
  · rcases mem_append.1 member with old | last
    · exact mem_append_right _ (walking.expanded i old j shares)
    · obtain rfl := mem_singleton.1 last
      exact covers j ((mem_linkedTo bound).2 shares)
  · exact (taken start).2 (.inl walking.started)

theorem collect_class {closed : Nat → Prop} (separate : ∀ i j, closed i → Shares legs i j → closed j)
    (within : start < legs.length) (unseen : ¬ closed start) {rounds : Nat}
    (walking : Walking legs closed start stack seen indexes) (enough : legs.length < rounds + indexes.length) :
    (collect legs rounds stack seen indexes).1.Nodup ∧
      (∀ i, i ∈ (collect legs rounds stack seen indexes).1 ↔ Chained legs start i) ∧
      ∀ i, i ∈ (collect legs rounds stack seen indexes).2 ↔ closed i ∨ Chained legs start i := by
  induction rounds generalizing stack seen indexes with
  | zero =>
    have bounded : indexes.length ≤ (List.range legs.length).length := by
      refine (subperm_of_subset walking.nodup.of_append_left fun i member => ?_).length_le
      exact mem_range.2 ((walking.inside i (mem_append_left _ member)).lt within)
    rw [length_range] at bounded
    omega
  | succ rounds ih =>
    cases stack with
    | cons index stack =>
      rw [collect_cons]
      refine ih (walking.step within) ?_
      rw [length_append, length_singleton]
      omega
    | nil =>
      have done : collect legs (rounds + 1) [] seen indexes = (indexes, seen) := rfl
      rw [done]
      have apart : ∀ i, Chained legs start i → ¬ closed i := by
        intro i chained held
        have back := chained.symm
        clear chained
        induction back using Relation.ReflTransGen.head_induction_on with
        | refl => exact unseen held
        | head shares _ ih => exact ih (separate _ _ held shares)
      have all : ∀ i, Chained legs start i → i ∈ indexes := by
        intro i chained
        induction chained with
        | refl => simpa using walking.started
        | tail chain shares ih =>
          have seen := walking.expanded _ ih _ shares
          rcases (walking.known _).1 seen with held | member
          · exact absurd held (apart _ (chain.tail shares))
          · simpa using member
      have class_iff : ∀ i, i ∈ indexes ↔ Chained legs start i := fun i =>
        ⟨fun member => walking.inside i (mem_append_left _ member), all i⟩
      refine ⟨walking.nodup.of_append_left, class_iff, fun i => ?_⟩
      rw [walking.known, append_nil, class_iff]

def collectFrom (legs : List (String × String)) (state : List (List Nat) × List Nat) (start : Nat) :
    List (List Nat) × List Nat :=
  if state.2.contains start then state
  else (state.1 ++ [sortedBy id (collect legs (legs.length + 1) [start] (start :: state.2) []).1],
    (collect legs (legs.length + 1) [start] (start :: state.2) []).2)

/-- After the starts below a bound, the components are the classes that have a position below it, each sorted, in the
order of their least positions. -/
structure Swept (legs : List (String × String)) (bound : Nat) (state : List (List Nat) × List Nat) : Prop where
  seen : ∀ i, i ∈ state.2 ↔ ∃ k < bound, Chained legs k i
  ascending : ∀ component ∈ state.1, component.Pairwise (· < ·)
  class_of : ∀ component ∈ state.1, ∃ first < bound, component.head? = some first ∧
    ∀ i, i ∈ component ↔ Chained legs first i
  ordered : state.1.Pairwise fun component later => ∀ i ∈ component.head?, ∀ j ∈ later.head?, i < j
  covers : ∀ k < bound, ∃ component ∈ state.1, k ∈ component

theorem Swept.step (within : bound < legs.length) {state : List (List Nat) × List Nat}
    (swept : Swept legs bound state) : Swept legs (bound + 1) (collectFrom legs state bound) := by
  unfold collectFrom
  by_cases seen : bound ∈ state.2
  · rw [if_pos (contains_iff_mem.2 seen)]
    obtain ⟨earlier, below, chained⟩ := (swept.seen bound).1 seen
    obtain ⟨component, member, inside⟩ := swept.covers earlier below
    refine ⟨fun i => ?_, swept.ascending, fun component member => ?_, swept.ordered, fun k less => ?_⟩
    · rw [swept.seen]
      constructor
      · rintro ⟨k, less, reach⟩
        exact ⟨k, by omega, reach⟩
      · rintro ⟨k, less, reach⟩
        rcases Nat.lt_succ_iff_lt_or_eq.1 less with less | rfl
        · exact ⟨k, less, reach⟩
        · exact ⟨earlier, below, chained.trans reach⟩
    · obtain ⟨first, less, head, same⟩ := swept.class_of component member
      exact ⟨first, by omega, head, same⟩
    · rcases Nat.lt_succ_iff_lt_or_eq.1 less with less | rfl
      · exact swept.covers k less
      · obtain ⟨first, -, -, same⟩ := swept.class_of component member
        exact ⟨component, member, (same k).2 (((same earlier).1 inside).trans chained)⟩
  · rw [if_neg (by rw [contains_iff_mem]; exact seen)]
    have separate : ∀ i j, i ∈ state.2 → Shares legs i j → j ∈ state.2 := by
      intro i j held shares
      obtain ⟨k, less, reach⟩ := (swept.seen i).1 held
      exact (swept.seen j).2 ⟨k, less, reach.tail shares⟩
    have walking : Walking legs (· ∈ state.2) bound [bound] (bound :: state.2) [] := by
      refine ⟨by simp, fun i member => ?_, fun i => ?_, by simp, by simp⟩
      · obtain rfl : i = bound := by simpa using member
        exact .refl
      · simp only [mem_cons, nil_append, not_mem_nil, or_false]
        tauto
    have enough : legs.length < legs.length + 1 + ([] : List Nat).length := by simp
    obtain ⟨distinct, class_iff, later⟩ := collect_class separate within seen walking enough
    generalize collect legs (legs.length + 1) [bound] (bound :: state.2) [] = result at distinct class_iff later
    have sorted_iff : ∀ i, i ∈ sortedBy id result.1 ↔ Chained legs bound i := fun i =>
      ((sortedBy_perm id result.1).mem_iff).trans (class_iff i)
    have ascending : (sortedBy id result.1).Pairwise (· < ·) := sortedBy_strict (by simpa using distinct)
    have least : ∀ i, Chained legs bound i → bound ≤ i := by
      intro i reach
      by_contra less
      exact seen ((swept.seen bound).2 ⟨i, not_le.1 less, reach.symm⟩)
    have head : (sortedBy id result.1).head? = some bound := by
      have own := (sorted_iff bound).2 .refl
      cases sorted : sortedBy id result.1 with
      | nil => rw [sorted] at own; cases own
      | cons first rest =>
        rw [sorted] at own sorted_iff ascending
        have low := least first ((sorted_iff first).1 (.head _))
        rcases mem_cons.1 own with same | tail
        · rw [head?_cons, same]
        · exact absurd ((pairwise_cons.1 ascending).1 bound tail) (not_lt.2 low)
    refine ⟨fun i => ?_, fun component member => ?_, fun component member => ?_, ?_, fun k less => ?_⟩
    · rw [later, swept.seen]
      constructor
      · rintro (⟨k, less, reach⟩ | reach)
        · exact ⟨k, by omega, reach⟩
        · exact ⟨bound, by omega, reach⟩
      · rintro ⟨k, less, reach⟩
        rcases Nat.lt_succ_iff_lt_or_eq.1 less with less | rfl
        · exact .inl ⟨k, less, reach⟩
        · exact .inr reach
    · rcases mem_append.1 member with old | new
      · exact swept.ascending component old
      · obtain rfl := mem_singleton.1 new
        exact ascending
    · rcases mem_append.1 member with old | new
      · obtain ⟨first, less, head, same⟩ := swept.class_of component old
        exact ⟨first, by omega, head, same⟩
      · obtain rfl := mem_singleton.1 new
        exact ⟨bound, by omega, head, sorted_iff⟩
    · refine pairwise_append.2 ⟨swept.ordered, pairwise_singleton _ _, ?_⟩
      intro component old added new i first j last
      obtain rfl := mem_singleton.1 new
      obtain ⟨start, less, starts, -⟩ := swept.class_of component old
      obtain rfl := some.inj (starts.symm.trans first)
      obtain rfl := some.inj (head.symm.trans last)
      exact less
    · rcases Nat.lt_succ_iff_lt_or_eq.1 less with less | rfl
      · obtain ⟨component, member, inside⟩ := swept.covers k less
        exact ⟨component, mem_append_left _ member, inside⟩
      · exact ⟨_, mem_append_right _ (mem_singleton_self _), (sorted_iff k).2 .refl⟩

theorem Swept.flatten_nodup {state : List (List Nat) × List Nat} (swept : Swept legs bound state) :
    state.1.flatten.Nodup := by
  refine nodup_flatten.2 ⟨fun component member => (swept.ascending component member).imp fun less => less.ne, ?_⟩
  refine swept.ordered.imp_of_mem fun {component later} member member' before => ?_
  obtain ⟨first, -, head, same⟩ := swept.class_of component member
  obtain ⟨start, -, head', same'⟩ := swept.class_of later member'
  have less := before first head start head'
  intro i left right
  have shared : first ∈ later := (same' first).2 (((same' i).1 right).trans ((same i).1 left).symm)
  have ascending := swept.ascending later member'
  cases later with
  | nil => cases right
  | cons a rest =>
    obtain rfl := some.inj head'
    rcases mem_cons.1 shared with equal | tail
    · exact less.ne equal
    · exact lt_asymm less ((pairwise_cons.1 ascending).1 first tail)

theorem componentIndexes_swept (legs : List (String × String)) :
    ∃ seen, Swept legs legs.length (componentIndexes legs, seen) := by
  have run : ∀ bound ≤ legs.length, Swept legs bound ((List.range bound).foldl (collectFrom legs) ([], [])) := by
    intro bound within
    induction bound with
    | zero => exact ⟨by simp, by simp, by simp, List.Pairwise.nil, by simp⟩
    | succ bound ih =>
      rw [range_succ, foldl_append, foldl_cons, foldl_nil]
      exact (ih (by omega)).step (by omega)
  exact ⟨_, run legs.length le_rfl⟩

end

section
variable {α : Type}

/-- Groups items into connected components over shared leg ids. Items without leg ids are dropped, and those that
`membership` rejects trail the components alone. -/
def connectedItemComponents (items : List α) (legIds : α → Option (String × String)) (membership : Option (α → Bool)) :
    List (List α) :=
  let kept := items.filter fun item => (legIds item).isSome
  let members := kept.filter fun item => membership.all fun accepts => accepts item
  let singletons := kept.filter fun item => !membership.all fun accepts => accepts item
  (componentIndexes (members.map fun item => (legIds item).getD ("", ""))).map
      (fun indexes => indexes.filterMap fun index => members[index]?) ++
    singletons.map fun item => [item]

def entries (items : List α) (test : α → Bool) : List (α × Nat) := items.zipIdx.filter fun entry => test entry.1

theorem entries_items (items : List α) (test : α → Bool) : (entries items test).map fst = items.filter test := by
  unfold entries
  conv_rhs => rw [← zipIdx_map_fst 0 items, filter_map]
  rfl

variable {i j p q : Nat}

theorem mem_entries {items : List α} {test : α → Bool} {item : α} :
    (item, i) ∈ entries items test ↔ items[i]? = some item ∧ test item = true := by
  unfold entries
  rw [mem_filter, mk_mem_zipIdx_iff_getElem?]

theorem entries_ascending (items : List α) (test : α → Bool) : ((entries items test).map snd).Pairwise (· < ·) := by
  unfold entries
  refine List.Pairwise.sublist (filter_sublist.map snd) ?_
  rw [zipIdx_map_snd, range'_eq_map_range]
  simpa using pairwise_lt_range

variable (items : List α) (legIds : α → Option (String × String)) (membership : Option (α → Bool))

def accepted (item : α) : Bool := (legIds item).isSome && membership.all fun accepts => accepts item

def rejected (item : α) : Bool := (legIds item).isSome && !membership.all fun accepts => accepts item

def HasLegs (i : Nat) : Prop := ∃ item, items[i]? = some item ∧ (legIds item).isSome

/-- The position holds an item with leg ids that may join a shared component. -/
def Member (i : Nat) : Prop := ∃ item, items[i]? = some item ∧ accepted legIds membership item

def Linked (i j : Nat) : Prop :=
  ∃ item other ids others, items[i]? = some item ∧ items[j]? = some other ∧ accepted legIds membership item ∧
    accepted legIds membership other ∧ legIds item = some ids ∧ legIds other = some others ∧
    (others.1 = ids.1 ∨ others.2 = ids.1 ∨ others.1 = ids.2 ∨ others.2 = ids.2)

def LinkedByChain : Nat → Nat → Prop := Relation.ReflTransGen (Linked items legIds membership)

def positionOf (index : Nat) : Option Nat := ((entries items (accepted legIds membership))[index]?).map snd

variable {items legIds membership}

theorem positionOf_lt (here : positionOf items legIds membership i = some p)
    (there : positionOf items legIds membership j = some q) (less : i < j) : p < q := by
  have ascending := entries_ascending items (accepted legIds membership)
  unfold positionOf at here there
  rw [← getElem?_map] at here there
  obtain ⟨inside, rfl⟩ := List.getElem?_eq_some_iff.1 here
  obtain ⟨inside', rfl⟩ := List.getElem?_eq_some_iff.1 there
  exact pairwise_iff_getElem.1 ascending i j inside inside' less

theorem positionOf_inj (here : positionOf items legIds membership i = some p)
    (there : positionOf items legIds membership j = some p) : i = j := by
  rcases lt_trichotomy i j with less | same | less
  · exact absurd (positionOf_lt here there less) (lt_irrefl p)
  · exact same
  · exact absurd (positionOf_lt there here less) (lt_irrefl p)

theorem mem_member : Member items legIds membership p ↔ ∃ i, positionOf items legIds membership i = some p := by
  constructor
  · rintro ⟨item, here, accepts⟩
    obtain ⟨i, found⟩ := getElem?_of_mem (mem_entries.2 ⟨here, accepts⟩)
    exact ⟨i, by rw [positionOf, found]; rfl⟩
  · rintro ⟨i, found⟩
    obtain ⟨⟨item, q⟩, entry, rfl⟩ := Option.map_eq_some_iff.1 found
    obtain ⟨here, accepts⟩ := mem_entries.1 (mem_of_getElem? entry)
    exact ⟨item, here, accepts⟩

variable (items legIds membership) in
def memberLegs : List (String × String) :=
  (entries items (accepted legIds membership)).map fun entry => (legIds entry.1).getD ("", "")

theorem memberLegs_length : i < (memberLegs items legIds membership).length ↔
    ∃ p, positionOf items legIds membership i = some p := by
  unfold memberLegs positionOf
  rw [length_map]
  constructor
  · intro less
    exact ⟨_, by rw [getElem?_eq_getElem less]; rfl⟩
  · rintro ⟨p, found⟩
    obtain ⟨entry, here, -⟩ := Option.map_eq_some_iff.1 found
    exact (List.getElem?_eq_some_iff.1 here).1

theorem memberLegs_getElem (found : positionOf items legIds membership i = some p) :
    ∃ item ids, items[p]? = some item ∧ accepted legIds membership item ∧ legIds item = some ids ∧
      (memberLegs items legIds membership)[i]? = some ids := by
  obtain ⟨⟨item, q⟩, entry, rfl⟩ := Option.map_eq_some_iff.1 found
  obtain ⟨here, accepts⟩ := mem_entries.1 (mem_of_getElem? entry)
  obtain ⟨ids, legs⟩ := Option.isSome_iff_exists.1 (Bool.and_eq_true_iff.1 accepts).1
  refine ⟨item, ids, here, accepts, legs, ?_⟩
  unfold memberLegs
  rw [getElem?_map, entry, Option.map_some, legs, Option.getD_some]

theorem shares_iff (here : positionOf items legIds membership i = some p)
    (there : positionOf items legIds membership j = some q) :
    Shares (memberLegs items legIds membership) i j ↔ Linked items legIds membership p q := by
  obtain ⟨item, ids, own, accepts, legs, atI⟩ := memberLegs_getElem here
  obtain ⟨other, others, own', accepts', legs', atJ⟩ := memberLegs_getElem there
  constructor
  · rintro ⟨a, b, left, right, same⟩
    obtain rfl := some.inj (atI.symm.trans left)
    obtain rfl := some.inj (atJ.symm.trans right)
    exact ⟨item, other, ids, others, own, own', accepts, accepts', legs, legs', same⟩
  · rintro ⟨item', other', a, b, left, right, -, -, named, named', same⟩
    obtain rfl := some.inj (own.symm.trans left)
    obtain rfl := some.inj (own'.symm.trans right)
    obtain rfl := some.inj (legs.symm.trans named)
    obtain rfl := some.inj (legs'.symm.trans named')
    exact ⟨ids, others, atI, atJ, same⟩

theorem chained_positions (here : positionOf items legIds membership i = some p)
    (chained : Chained (memberLegs items legIds membership) i j) :
    ∃ q, positionOf items legIds membership j = some q ∧ LinkedByChain items legIds membership p q := by
  induction chained with
  | refl => exact ⟨p, here, .refl⟩
  | tail _ shares ih =>
    obtain ⟨q, there, reach⟩ := ih
    obtain ⟨r, next⟩ := memberLegs_length.1 shares.lt.2
    exact ⟨r, next, reach.tail ((shares_iff there next).1 shares)⟩

theorem chained_of_linked (here : positionOf items legIds membership i = some p)
    (reach : LinkedByChain items legIds membership p q) :
    ∃ j, positionOf items legIds membership j = some q ∧ Chained (memberLegs items legIds membership) i j := by
  induction reach with
  | refl => exact ⟨i, here, .refl⟩
  | tail _ linked ih =>
    obtain ⟨j, there, chained⟩ := ih
    have arrives := linked
    obtain ⟨-, other, -, -, -, own, -, accepts, -⟩ := arrives
    obtain ⟨k, next⟩ := mem_member.1 ⟨other, own, accepts⟩
    exact ⟨k, next, chained.tail ((shares_iff there next).2 linked)⟩

variable (items legIds membership) in
def memberGroups : List (List Nat) :=
  (componentIndexes (memberLegs items legIds membership)).map fun indexes =>
    indexes.filterMap (positionOf items legIds membership)

variable (items legIds membership) in
def alonePositions : List Nat := (entries items (rejected legIds membership)).map snd

theorem connectedItemComponents_positions :
    connectedItemComponents items legIds membership =
      (memberGroups items legIds membership ++ (alonePositions items legIds membership).map fun i => [i]).map
        fun group => group.filterMap fun i => items[i]? := by
  have members : (items.filter fun item => (legIds item).isSome).filter
      (fun item => membership.all fun accepts => accepts item) =
        (entries items (accepted legIds membership)).map fst := by
    rw [filter_filter, entries_items]
    exact filter_congr fun item _ => Bool.and_comm _ _
  have singletons : (items.filter fun item => (legIds item).isSome).filter
      (fun item => !membership.all fun accepts => accepts item) =
        (entries items (rejected legIds membership)).map fst := by
    rw [filter_filter, entries_items]
    exact filter_congr fun item _ => Bool.and_comm _ _
  unfold connectedItemComponents memberGroups alonePositions
  dsimp only
  rw [members, singletons, map_append]
  simp only [map_map]
  congr 1
  · have legs : (entries items (accepted legIds membership)).map
        ((fun item => (legIds item).getD ("", "")) ∘ fst) = memberLegs items legIds membership := rfl
    rw [legs]
    refine map_congr_left fun indexes _ => ?_
    dsimp only [comp_apply]
    rw [filterMap_filterMap]
    refine filterMap_congr fun i _ => ?_
    rw [getElem?_map, positionOf]
    cases entry : (entries items (accepted legIds membership))[i]? with
    | none => rfl
    | some found => exact (mem_entries.1 (mem_of_getElem? entry)).1.symm
  · refine map_congr_left fun entry member => ?_
    dsimp only [comp_apply]
    rw [filterMap_cons, (mem_entries.1 member).1, filterMap_nil]

variable {component : List Nat}

theorem mem_group :
    p ∈ component.filterMap (positionOf items legIds membership) ↔
      ∃ i ∈ component, positionOf items legIds membership i = some p := mem_filterMap

theorem group_ascending (ascending : component.Pairwise (· < ·)) :
    (component.filterMap (positionOf items legIds membership)).Pairwise (· < ·) := by
  refine pairwise_filterMap.2 (ascending.imp fun {i j} less p here q there => ?_)
  exact positionOf_lt here there less

theorem group_head {first : Nat} (head : component.head? = some first)
    (here : positionOf items legIds membership first = some p) :
    (component.filterMap (positionOf items legIds membership)).head? = some p := by
  cases component with
  | nil => cases head
  | cons a rest =>
    obtain rfl := some.inj head
    rw [filterMap_cons, here, head?_cons]

/-- The groups of positions: they ascend inside and by their first positions, no position is in two of them, and two
members are in one of them exactly when a chain of members links them. -/
theorem memberGroups_spec :
    (memberGroups items legIds membership).flatten.Nodup ∧
      (∀ p, p ∈ (memberGroups items legIds membership).flatten ↔ Member items legIds membership p) ∧
      (∀ p q, Member items legIds membership p →
        ((∃ group ∈ memberGroups items legIds membership, p ∈ group ∧ q ∈ group) ↔
          LinkedByChain items legIds membership p q)) ∧
      (∀ group ∈ memberGroups items legIds membership, group ≠ [] ∧ group.Pairwise (· < ·)) ∧
      (memberGroups items legIds membership).Pairwise fun group later =>
        ∀ p ∈ group.head?, ∀ q ∈ later.head?, p < q := by
  obtain ⟨seen, swept⟩ := componentIndexes_swept (memberLegs items legIds membership)
  have flat : (memberGroups items legIds membership).flatten =
      (componentIndexes (memberLegs items legIds membership)).flatten.filterMap (positionOf items legIds membership) := by
    unfold memberGroups
    rw [filterMap_flatten]
  have heads : ∀ component ∈ componentIndexes (memberLegs items legIds membership), ∃ first p,
      component.head? = some first ∧ positionOf items legIds membership first = some p := by
    intro component member
    obtain ⟨first, less, head, -⟩ := swept.class_of component member
    obtain ⟨p, here⟩ := memberLegs_length.1 less
    exact ⟨first, p, head, here⟩
  refine ⟨?_, fun p => ?_, fun p q owned => ?_, fun group member => ?_, ?_⟩
  · rw [flat]
    refine List.Nodup.filterMap (fun i j p here there => ?_) swept.flatten_nodup
    exact positionOf_inj here there
  · rw [flat, mem_filterMap, mem_member]
    constructor
    · rintro ⟨i, -, found⟩
      exact ⟨i, found⟩
    · rintro ⟨i, found⟩
      obtain ⟨component, member, inside⟩ := swept.covers i (memberLegs_length.2 ⟨p, found⟩)
      exact ⟨i, mem_flatten.2 ⟨component, member, inside⟩, found⟩
  · constructor
    · rintro ⟨group, member, left, right⟩
      obtain ⟨component, source, rfl⟩ := mem_map.1 member
      obtain ⟨i, inside, here⟩ := mem_group.1 left
      obtain ⟨j, inside', there⟩ := mem_group.1 right
      obtain ⟨first, -, -, same⟩ := swept.class_of component source
      obtain ⟨r, found, reach⟩ := chained_positions here (((same i).1 inside).symm.trans ((same j).1 inside'))
      obtain rfl := some.inj (found.symm.trans there)
      exact reach
    · intro reach
      obtain ⟨i, here⟩ := mem_member.1 owned
      obtain ⟨j, there, chained⟩ := chained_of_linked here reach
      obtain ⟨component, member, inside⟩ := swept.covers i (memberLegs_length.2 ⟨p, here⟩)
      obtain ⟨first, -, -, same⟩ := swept.class_of component member
      refine ⟨_, mem_map_of_mem member, mem_group.2 ⟨i, inside, here⟩, mem_group.2 ⟨j, ?_, there⟩⟩
      exact (same j).2 (((same i).1 inside).trans chained)
  · obtain ⟨component, source, rfl⟩ := mem_map.1 member
    obtain ⟨first, p, head, here⟩ := heads component source
    refine ⟨fun empty => ?_, group_ascending (swept.ascending component source)⟩
    have starts := group_head head here
    rw [empty] at starts
    cases starts
  · refine pairwise_map.2 (swept.ordered.imp_of_mem fun {component later} member member' before => ?_)
    obtain ⟨first, p, head, here⟩ := heads component member
    obtain ⟨start, q, head', there⟩ := heads later member'
    rw [group_head head here, group_head head' there]
    intro r same s same'
    obtain rfl := some.inj same
    obtain rfl := some.inj same'
    exact positionOf_lt here there (before first head start head')

theorem mem_alone : p ∈ alonePositions items legIds membership ↔
    HasLegs items legIds p ∧ ¬ Member items legIds membership p := by
  unfold alonePositions
  rw [mem_map]
  constructor
  · rintro ⟨⟨item, q⟩, entry, rfl⟩
    obtain ⟨here, refuses⟩ := mem_entries.1 entry
    obtain ⟨legs, outside⟩ := Bool.and_eq_true_iff.1 refuses
    refine ⟨⟨item, here, legs⟩, ?_⟩
    rintro ⟨other, there, accepts⟩
    obtain rfl := some.inj (here.symm.trans there)
    rw [(Bool.and_eq_true_iff.1 accepts).2] at outside
    cases outside
  · rintro ⟨⟨item, here, legs⟩, outside⟩
    refine ⟨(item, p), mem_entries.2 ⟨here, Bool.and_eq_true_iff.2 ⟨legs, ?_⟩⟩, rfl⟩
    rw [Bool.not_eq_true']
    exact Bool.eq_false_iff.2 fun inside => outside ⟨item, here, Bool.and_eq_true_iff.2 ⟨legs, inside⟩⟩

variable (items legIds membership) in
/-- The components returned are exactly the connected components. Read as positions of the input, the members' groups
come first: two members are together exactly when a chain of members sharing leg ids links them. Every other item with
leg ids follows alone. No position is repeated, and groups and members keep the order of the input. -/
theorem connected_components_exact :
    ∃ groups : List (List Nat), ∃ alone : List Nat,
      connectedItemComponents items legIds membership =
        (groups ++ alone.map fun i => [i]).map (fun group => group.filterMap fun i => items[i]?) ∧
      (groups.flatten ++ alone).Nodup ∧ (∀ p, p ∈ groups.flatten ++ alone ↔ HasLegs items legIds p) ∧
      (∀ p, p ∈ groups.flatten ↔ Member items legIds membership p) ∧
      (∀ p q, Member items legIds membership p → Member items legIds membership q →
        ((∃ group ∈ groups, p ∈ group ∧ q ∈ group) ↔ LinkedByChain items legIds membership p q)) ∧
      (∀ group ∈ groups, group ≠ [] ∧ group.Pairwise (· < ·)) ∧
      (groups.Pairwise fun group later => ∀ p ∈ group.head?, ∀ q ∈ later.head?, p < q) ∧ alone.Pairwise (· < ·) := by
  obtain ⟨nodup, covers, linked, inner, outer⟩ := @memberGroups_spec α items legIds membership
  have ascending := entries_ascending items (rejected legIds membership)
  refine ⟨memberGroups items legIds membership, alonePositions items legIds membership,
    connectedItemComponents_positions, ?_, fun p => ?_, covers, fun p q owned _ => linked p q owned, inner, outer,
    ascending⟩
  · refine nodup_append.2 ⟨nodup, ascending.imp fun less => less.ne, ?_⟩
    rintro p left q right rfl
    exact (mem_alone.1 right).2 ((covers p).1 left)
  · rw [mem_append, covers, mem_alone]
    constructor
    · rintro (⟨item, here, accepts⟩ | ⟨legs, -⟩)
      · exact ⟨item, here, (Bool.and_eq_true_iff.1 accepts).1⟩
      · exact legs
    · intro legs
      by_cases owned : Member items legIds membership p
      · exact .inl owned
      · exact .inr ⟨legs, owned⟩

end

end Kassiber.Transfers
