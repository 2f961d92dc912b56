import Kassiber.Lib.Ranking
import Kassiber.Custody.GapSearch

/-!
What the groups of a gap search are made of: windows of sources, groups the beam finds, and wallet eras
are all drawn from the legs they were given, and the beam never loses a single return within bounds.
-/

namespace Kassiber.Custody.Gaps
open Lib.Dict Lib.Sorting Lib.Ranking List

variable {sha256 : String → String} {iso : Int → String} {limits : Limits}

theorem le_foldl_max (legs : List Leg) (start : Int) :
    start ≤ legs.foldl (fun moment other => max moment other.moment) start ∧
      ∀ leg ∈ legs, leg.moment ≤ legs.foldl (fun moment other => max moment other.moment) start := by
  induction legs generalizing start with
  | nil => exact ⟨le_refl _, by simp⟩
  | cons first rest ih =>
    obtain ⟨base, each⟩ := ih (max start first.moment)
    refine ⟨(le_max_left _ _).trans base, ?_⟩
    intro leg member
    rcases mem_cons.1 member with rfl | later
    · exact (le_max_right _ _).trans base
    · exact each leg later

variable {group : List Leg} {leg : Leg} {rows : List Leg} {target : Int} {returns : List Leg}

theorem moment_le_latest (member : leg ∈ group) : leg.moment ≤ latest group := by
  cases group with
  | nil => cases member
  | cons first rest =>
    obtain ⟨base, each⟩ := le_foldl_max rest first.moment
    rcases mem_cons.1 member with rfl | later
    · exact base
    · exact each leg later

variable {maxLegs : Nat} {era : List Leg} {boundary : Int}

theorem sourceWindows_sublist {rows group : List Leg} (window : group ∈ sourceWindows maxLegs rows) :
    group.Sublist (sortedBy Leg.sortKey rows) := by
  obtain ⟨last, -, inner⟩ := mem_flatMap.1 window
  obtain ⟨less, -, rfl⟩ := mem_map.1 inner
  exact (drop_sublist _ _).trans (take_sublist _ _)

theorem mem_of_window {rows group : List Leg} (window : group ∈ sourceWindows maxLegs rows)
    (member : leg ∈ group) : leg ∈ rows :=
  mem_sortedBy.1 ((sourceWindows_sublist window).subset member)

theorem single_window (some : 1 ≤ maxLegs) {source : Leg} (member : source ∈ rows) :
    [source] ∈ sourceWindows maxLegs rows := by
  obtain ⟨last, bound, same⟩ := getElem_of_mem ((mem_sortedBy : _ ∈ sortedBy Leg.sortKey _ ↔ _).2 member)
  refine mem_flatMap.2 ⟨last, mem_range.2 bound, mem_map.2 ⟨0, mem_range.2 ?_, ?_⟩⟩
  · exact Nat.lt_min.2 ⟨some, Nat.succ_pos last⟩
  · rw [Nat.sub_zero, take_succ_eq_append_getElem bound, drop_append_of_le_length, same]
    · simp
    · rw [length_take]
      omega

theorem single_of_ids {legs group : List Leg} (distinct : (legs.map (·.id)).Nodup) {row : Leg} (member : row ∈ legs)
    (ids : groupIds group = [row.id]) (inside : ∀ leg ∈ group, leg ∈ legs) : group = [row] := by
  have perm : (group.map (·.id)).Perm [row.id] := ids ▸ (sortedBy_perm id _).symm
  obtain ⟨leg, rfl⟩ : ∃ leg, group = [leg] := length_eq_one_iff.1 (by simpa using perm.length_eq)
  have same : leg.id = row.id := by simpa using perm
  rw [inj_on_of_nodup_map distinct (inside leg (mem_singleton_self leg)) member same]

theorem extend_some {row : Leg} {state next : List Leg × Int}
    (extended : extend limits target row state = some next) :
    next = (state.1 ++ [row], state.2 + row.principalMsat) ∧ state.1.length < limits.maxReturnLegs ∧
      state.2 + row.principalMsat ≤ limits.maxTotal target := by
  unfold extend at extended
  split at extended
  · cases extended
  · rename_i room
    split at extended
    · cases extended
    · rename_i within
      cases extended
      exact ⟨rfl, by omega, by omega⟩

/-- What the beam holds after it went over some rows: sublists of them with their totals, and the empty state. -/
structure Beam.Sound (limits : Limits) (target : Int) (rows : List Leg) (beam : Beam) : Prop where
  states : ∀ state ∈ beam.states, state.1.Sublist rows ∧ state.2 = total state.1
  empty : ([], 0) ∈ beam.states
  qualifying : ∀ entry ∈ beam.qualifying, entry.1 = groupIds entry.2 ∧ entry.2.Sublist rows ∧ entry.2 ≠ [] ∧
    limits.Accepts target (total entry.2) ∧ entry.2.length ≤ limits.maxReturnLegs
  singles : ∀ row ∈ rows, limits.Accepts target row.principalMsat → ([row.id], [row]) ∈ beam.qualifying

theorem total_snoc (group : List Leg) (row : Leg) : total (group ++ [row]) = total group + row.principalMsat := by
  simp [total]

@[simp] theorem total_single (row : Leg) : total [row] = row.principalMsat := by
  simp [total]

theorem mem_dedupeStates {states : List (List Leg × Int)} {state : List Leg × Int} (member : state ∈ dedupeStates states) :
    state ∈ states := by
  obtain ⟨entry, kept, rfl⟩ := mem_map.1 member
  obtain ⟨original, inside, rfl⟩ := mem_map.1 (mem_of_items kept)
  exact inside

theorem groupIds_eq_nil : groupIds group = [] ↔ group = [] := by
  constructor
  · intro same
    have lengths : group.length = (groupIds group).length := by
      rw [groupIds, (sortedBy_perm id _).length_eq, length_map]
    rw [same] at lengths
    exact length_eq_zero_iff.1 lengths
  · rintro rfl
    rfl

theorem empty_kept {states : List (List Leg × Int)} (wide : 1 ≤ limits.beamWidth)
    (empty : ([], 0) ∈ states) (totals : ∀ state ∈ states, state.2 = total state.1) :
    ([], 0) ∈ (sortedBy (beamKey target) (dedupeStates states)).take limits.beamWidth := by
  have listed : (([] : List String), (([] : List Leg), (0 : Int))) ∈ states.map fun state => (groupIds state.1, state) :=
    mem_map.2 ⟨_, empty, rfl⟩
  obtain ⟨state, kept, stated⟩ := items_of_key listed
  obtain ⟨original, inside, same⟩ := mem_map.1 stated
  obtain ⟨ids, rfl⟩ := Prod.mk.inj same
  have none : original.1 = [] := groupIds_eq_nil.1 ids
  have zero : original = ([], 0) := Prod.ext none ((totals original inside).trans (by rw [none]; rfl))
  have present : ([], 0) ∈ sortedBy (beamKey target) (dedupeStates states) :=
    mem_sortedBy.2 (mem_map.2 ⟨_, kept, zero⟩)
  have ordered := sortedBy_pairwise (beamKey target) (dedupeStates states)
  cases ranked : sortedBy (beamKey target) (dedupeStates states) with
  | nil => rw [ranked] at present; cases present
  | cons first rest =>
    rw [ranked] at present ordered
    obtain ⟨width, wider⟩ : ∃ width, limits.beamWidth = width + 1 := ⟨limits.beamWidth - 1, by omega⟩
    rw [wider, take_succ_cons]
    rcases mem_cons.1 present with same | later
    · rw [same]
      exact .head _
    · -- Nothing with a row stands before the empty state.
      have before := (pairwise_cons.1 ordered).1 _ later
      have bare : first.1 = [] := by
        by_contra some
        rw [beamKey, if_neg some, beamKey, if_pos rfl, Prod.Lex.toLex_le_toLex] at before
        rcases before with less | ⟨same, -⟩
        · exact absurd less (Nat.not_lt_zero 1)
        · exact absurd same Nat.one_ne_zero
      have inside : first ∈ states := mem_dedupeStates (mem_sortedBy.1 (ranked ▸ mem_cons_self))
      have same : first = ([], 0) := Prod.ext bare ((totals first inside).trans (by rw [bare]; rfl))
      rw [same]
      exact .head _

theorem Beam.start_sound (target : Int) : Beam.Sound limits target [] {} where
  states := by
    intro state member
    rw [mem_singleton.1 member]
    exact ⟨List.Sublist.slnil, rfl⟩
  empty := mem_singleton_self _
  qualifying := by simp
  singles := by simp

theorem Beam.Sound.step {beam : Beam} (row : Leg)
    (sound : Beam.Sound limits target rows beam) :
    Beam.Sound limits target (rows ++ [row]) (beam.step limits target row) := by
  have grown : ∀ next ∈ beam.states.filterMap (extend limits target row),
      next.1.Sublist (rows ++ [row]) ∧ next.2 = total next.1 ∧ next.1 ≠ [] ∧ next.2 ≤ limits.maxTotal target ∧
        next.1.length ≤ limits.maxReturnLegs := by
    intro next member
    obtain ⟨state, inside, extended⟩ := mem_filterMap.1 member
    obtain ⟨rfl, room, within⟩ := extend_some extended
    obtain ⟨sublist, stated⟩ := sound.states state inside
    exact ⟨sublist.append (List.Sublist.refl _), by rw [total_snoc, stated], by simp, within, by simpa using room⟩
  have all : ∀ state ∈ beam.states ++ beam.states.filterMap (extend limits target row),
      state.1.Sublist (rows ++ [row]) ∧ state.2 = total state.1 := by
    intro state member
    rcases mem_append.1 member with old | new
    · obtain ⟨sublist, stated⟩ := sound.states state old
      exact ⟨sublist.trans (sublist_append_left _ _), stated⟩
    · obtain ⟨sublist, stated, -⟩ := grown state new
      exact ⟨sublist, stated⟩
  refine ⟨?_, ?_, ?_, ?_⟩
  · intro state member
    exact all state (mem_dedupeStates (mem_sortedBy.1 (mem_of_mem_take member)))
  · exact empty_kept limits.beam (mem_append_left _ sound.empty) fun state member => (all state member).2
  · intro entry member
    rcases mem_append.1 member with old | new
    · obtain ⟨named, sublist, rest⟩ := sound.qualifying entry old
      exact ⟨named, sublist.trans (sublist_append_left _ _), rest⟩
    · obtain ⟨state, kept, rfl⟩ := mem_map.1 new
      obtain ⟨added, covered⟩ := mem_filter.1 kept
      obtain ⟨sublist, stated, some, within, size⟩ := grown state added
      refine ⟨rfl, sublist, some, ⟨?_, ?_⟩, size⟩
      · rw [← stated]
        exact of_decide_eq_true covered
      · rw [← stated]
        exact within
  · intro other member accepted
    rcases mem_append.1 member with old | new
    · exact mem_append_left _ (sound.singles other old accepted)
    · obtain rfl := mem_singleton.1 new
      -- The empty state is always there to start a group with the row.
      refine mem_append_right _ (mem_map.2 ⟨([other], other.principalMsat), ?_, rfl⟩)
      refine mem_filter.2 ⟨mem_filterMap.2 ⟨_, sound.empty, ?_⟩, decide_eq_true accepted.1⟩
      have room : ¬limits.maxReturnLegs ≤ ([] : List Leg).length := by
        have := limits.returnLegs
        simp only [length_nil]
        omega
      have within : ¬limits.maxTotal target < 0 + other.principalMsat := by
        have := accepted.2
        omega
      rw [extend, if_neg room, if_neg within]
      simp

theorem beam_sound (limits : Limits) (target : Int) (rows : List Leg) :
    Beam.Sound limits target rows (rows.foldl (Beam.step limits target) {}) := by
  induction rows using reverseRecOn with
  | nil => exact Beam.start_sound target
  | append_singleton rows row ih =>
    rw [foldl_append]
    exact ih.step row

theorem mem_beamGroups {rows group : List Leg} (found : group ∈ beamGroups limits target rows) :
    group.Sublist (sortedBy Leg.sortKey rows) ∧ group ≠ [] ∧ limits.Accepts target (total group) ∧
      group.length ≤ limits.maxReturnLegs := by
  obtain ⟨entry, kept, rfl⟩ := mem_map.1 (mem_sortedBy.1 found)
  obtain ⟨-, sublist, rest⟩ := (beam_sound limits target _).qualifying entry (mem_of_items kept)
  exact ⟨sublist, rest⟩

theorem single_beamGroup (distinct : (rows.map (·.id)).Nodup) {row : Leg} (member : row ∈ rows)
    (accepted : limits.Accepts target row.principalMsat) : [row] ∈ beamGroups limits target rows := by
  have sound := beam_sound limits target (sortedBy Leg.sortKey rows)
  obtain ⟨group, kept, stored⟩ := items_of_key (sound.singles row (mem_sortedBy.2 member) accepted)
  obtain ⟨named, sublist, -⟩ := sound.qualifying _ stored
  have alone : group = [row] :=
    single_of_ids distinct member named.symm fun leg held => mem_sortedBy.1 (sublist.subset held)
  exact mem_sortedBy.2 (mem_map.2 ⟨_, kept, alone⟩)

theorem beamGroups_nodup (target : Int) (rows : List Leg) : ((beamGroups limits target rows).map groupIds).Nodup := by
  have named : ((items ((sortedBy Leg.sortKey rows).foldl (Beam.step limits target) {}).qualifying).map
      Prod.snd).map groupIds =
      (items ((sortedBy Leg.sortKey rows).foldl (Beam.step limits target) {}).qualifying).map Prod.fst := by
    rw [map_map]
    refine map_congr_left fun entry kept => ?_
    exact ((beam_sound limits target _).qualifying entry (mem_of_items kept)).1.symm
  refine ((sortedBy_perm (groupKey target) _).map groupIds).nodup_iff.2 ?_
  rw [named]
  exact items_nodup _

theorem mem_walletEras {rows : List Leg} (member : era ∈ walletEras limits rows) :
    era ≠ [] ∧ ∃ wallet, era.Sublist (sortedBy Leg.sortKey (rows.filter fun leg => leg.walletId = wallet)) := by
  obtain ⟨⟨wallet, legs⟩, group, inner⟩ := mem_flatMap.1 member
  obtain ⟨rfl, -⟩ := mem_groupBy.1 (mem_sortedBy.1 group)
  refine ⟨ne_nil_of_mem_splitBy inner, wallet, ?_⟩
  have whole := flatten_splitBy (fun left right : Leg =>
    decide (wholeSeconds (right.moment - left.moment) ≤ limits.returnEraGapSeconds))
    (sortedBy Leg.sortKey (rows.filter fun leg => leg.walletId = wallet))
  exact whole ▸ sublist_flatten_of_mem inner

theorem mem_of_era {rows : List Leg} (member : era ∈ walletEras limits rows) (inside : leg ∈ era) :
    leg ∈ rows := by
  obtain ⟨-, wallet, sublist⟩ := mem_walletEras member
  exact mem_of_mem_filter (mem_sortedBy.1 (sublist.subset inside))

theorem era_after {rows : List Leg} (member : era ∈ walletEras limits rows)
    (starts : ∀ first ∈ era.head?, boundary < first.moment) (inside : leg ∈ era) : boundary < leg.moment := by
  obtain ⟨some, wallet, sublist⟩ := mem_walletEras member
  have ordered := (sortedBy_pairwise Leg.sortKey (rows.filter fun leg => leg.walletId = wallet)).sublist sublist
  cases era with
  | nil => cases inside
  | cons first rest =>
    have early := starts first rfl
    rcases mem_cons.1 inside with rfl | later
    · exact early
    · have le := (pairwise_cons.1 ordered).1 leg later
      rw [Leg.sortKey, Leg.sortKey, Prod.Lex.toLex_le_toLex] at le
      rcases le with less | ⟨same, -⟩
      · exact early.trans less
      · exact lt_of_lt_of_eq early same

theorem walletEras_flatten (rows : List Leg) : (walletEras limits rows).flatten.Perm rows := by
  unfold walletEras
  rw [flatMap_def, flatten_flatten, map_map, ← flatMap_def]
  have cut : ∀ entry ∈ sortedBy Prod.fst (groupBy (fun leg : Leg => leg.walletId) rows),
      (((sortedBy Leg.sortKey entry.2).splitBy fun left right =>
        decide (wholeSeconds (right.moment - left.moment) ≤ limits.returnEraGapSeconds)).flatten).Perm entry.2 := by
    intro entry _
    rw [flatten_splitBy]
    exact sortedBy_perm _ _
  exact (List.Perm.flatMap_left _ cut).trans
    (((sortedBy_perm Prod.fst _).flatMap_right Prod.snd).trans (groupBy_flatten (fun leg : Leg => leg.walletId) rows))

theorem parts_nodup {parts : List (List Leg)} (distinct : (parts.flatten.map (·.id)).Nodup) (some : ∀ part ∈ parts, part ≠ []) :
    (parts.map groupIds).Nodup := by
  induction parts with
  | nil => exact nodup_nil
  | cons first rest ih =>
    rw [flatten_cons, map_append, nodup_append] at distinct
    obtain ⟨-, later, apart⟩ := distinct
    rw [map_cons, nodup_cons]
    refine ⟨?_, ih later fun part member => some part (.tail _ member)⟩
    intro repeated
    obtain ⟨other, member, same⟩ := mem_map.1 repeated
    obtain ⟨leg, inside⟩ := exists_mem_of_ne_nil _ (some first (.head _))
    have named : leg.id ∈ groupIds first := mem_sortedBy.2 (mem_map_of_mem inside)
    obtain ⟨twin, found, equal⟩ := mem_map.1 (mem_sortedBy.1 (same ▸ named))
    exact apart _ (mem_map_of_mem inside) _ (mem_map_of_mem (mem_flatten.2 ⟨other, member, found⟩)) equal.symm

theorem walletEras_nodup (distinct : (rows.map (·.id)).Nodup) : ((walletEras limits rows).map groupIds).Nodup :=
  parts_nodup (((walletEras_flatten rows).map _).nodup_iff.2 distinct) fun _ member => (mem_walletEras member).1

theorem nearestReturns_after (boundary target : Int) (inspections wanted : Nat) (below above : List Leg) :
    ∀ leg ∈ nearestReturns boundary target inspections wanted below above,
      (leg ∈ below ∨ leg ∈ above) ∧ boundary < leg.moment := by
  -- The leg taken is the head of one side, and what remains are tails.
  have rests : ∀ {takeAbove : Bool} {below above : List Leg} {leg : Leg},
      leg ∈ (if takeAbove then below else below.tail) ∨ leg ∈ (if takeAbove then above.tail else above) →
        leg ∈ below ∨ leg ∈ above := by
    intro takeAbove below above leg member
    cases takeAbove with
    | true => exact member.imp id mem_of_mem_tail
    | false => exact member.imp mem_of_mem_tail id
  have heads : ∀ {takeAbove : Bool} {below above : List Leg} {leg : Leg},
      (if takeAbove then above.head? else below.head?) = some leg → leg ∈ below ∨ leg ∈ above := by
    intro takeAbove below above leg taken
    cases takeAbove with
    | true => exact .inr (mem_of_head? taken)
    | false => exact .inl (mem_of_head? taken)
  fun_induction nearestReturns boundary target inspections wanted below above with
  | case1 => simp
  | case2 => simp
  | case3 => simp
  | case4 => simp
  | case5 inspections wanted below above _ takeAbove next below' above' first taken after ih =>
    intro leg member
    rcases mem_cons.1 member with rfl | later
    · exact ⟨heads taken, after⟩
    · exact ⟨rests (ih leg later).1, (ih leg later).2⟩
  | case6 inspections wanted below above _ takeAbove next below' above' first taken after ih =>
    intro leg member
    exact ⟨rests (ih leg member).1, (ih leg member).2⟩

theorem mem_indexedReturnPool {target : Int}
    (member : leg ∈ indexedReturnPool limits boundary target returns) : leg ∈ returns ∧ boundary < leg.moment := by
  obtain ⟨side, after⟩ := nearestReturns_after _ _ _ _ _ _ leg (mem_sortedBy.1 member)
  refine ⟨?_, after⟩
  rcases side with below | above
  · exact mem_sortedBy.1 ((takeWhile_sublist _).subset (mem_reverse.1 below))
  · exact mem_sortedBy.1 ((dropWhile_sublist _).subset above)

theorem mem_boundedReturnPool (member : leg ∈ boundedReturnPool limits target rows) : leg ∈ rows := by
  unfold boundedReturnPool at member
  dsimp only at member
  split at member
  · exact mem_sortedBy.1 member
  · exact mem_sortedBy.1 (mem_sortedBy.1 (mem_of_mem_take (mem_sortedBy.1 member)))

theorem mem_matchingReturnEras {eras : List (List Leg)} {target : Int}
    (member : era ∈ (matchingReturnEras limits eras boundary target).1) :
    era ∈ eras ∧ ∀ first ∈ era.head?, boundary < first.moment := by
  unfold matchingReturnEras at member
  dsimp only at member
  split at member
  · cases member
  · obtain ⟨kept, starts⟩ := mem_filter.1 (mem_sortedBy.1 (mem_of_mem_take member))
    refine ⟨(dropWhile_sublist _).subset ((takeWhile_sublist _).subset (mem_of_mem_take kept)), ?_⟩
    simpa using starts

theorem mem_walletEraReturnGroups {rows : List Leg}
    (member : era ∈ (walletEraReturnGroups limits target rows).1) : era ∈ walletEras limits rows := by
  unfold walletEraReturnGroups at member
  dsimp only at member
  split at member
  · cases member
  · exact mem_of_mem_filter (mem_sortedBy.1 (mem_of_mem_take member))

theorem mem_dedupeGroups {groups : List (List Leg)} (member : group ∈ dedupeGroups groups) : group ∈ groups := by
  obtain ⟨entry, kept, rfl⟩ := mem_map.1 member
  obtain ⟨original, inside, rfl⟩ := mem_map.1 (mem_of_items (mem_sortedBy.1 kept))
  exact inside

theorem exists_dedupeGroups {groups : List (List Leg)} (member : group ∈ groups) :
    ∃ kept ∈ dedupeGroups groups, kept ∈ groups ∧ groupIds kept = groupIds group := by
  have listed : (groupIds group, group) ∈ groups.map fun group => (groupIds group, group) :=
    mem_map.2 ⟨group, member, rfl⟩
  obtain ⟨value, kept, stated⟩ := items_of_key listed
  obtain ⟨original, inside, same⟩ := mem_map.1 stated
  obtain ⟨ids, rfl⟩ := Prod.mk.inj same
  exact ⟨original, mem_map.2 ⟨_, mem_sortedBy.2 kept, rfl⟩, inside, ids⟩

theorem answers_sound {worklistLimited : Bool} {target : Int}
    (member : group ∈ (answers limits worklistLimited returns boundary target).1) :
    group ≠ [] ∧ ∀ leg ∈ group, leg ∈ returns ∧
      (boundary < leg.moment ∨ worklistLimited = false ∧ leg ∈ eligibleReturns returns boundary) := by
  unfold answers at member
  split at member
  · rcases mem_append.1 (mem_dedupeGroups member) with found | found
    · obtain ⟨sublist, some, -⟩ := mem_beamGroups (mem_of_mem_take found)
      refine ⟨some, fun leg inside => ?_⟩
      obtain ⟨listed, after⟩ := mem_indexedReturnPool (mem_sortedBy.1 (sublist.subset inside))
      exact ⟨listed, .inl after⟩
    · obtain ⟨stored, starts⟩ := mem_matchingReturnEras found
      have era := mem_sortedBy.1 stored
      exact ⟨(mem_walletEras era).1, fun leg inside => ⟨mem_of_era era inside, .inl (era_after era starts inside)⟩⟩
  · rename_i small
    have small : worklistLimited = false := by simpa using small
    have eligible : ∀ leg ∈ eligibleReturns returns boundary, leg ∈ returns := fun leg inside =>
      (dropWhile_sublist _).subset inside
    rcases mem_append.1 (mem_dedupeGroups member) with found | found
    · obtain ⟨sublist, some, -⟩ := mem_beamGroups (mem_of_mem_take found)
      refine ⟨some, fun leg inside => ?_⟩
      have listed := mem_boundedReturnPool (mem_sortedBy.1 (sublist.subset inside))
      exact ⟨eligible leg listed, .inr ⟨small, listed⟩⟩
    · have era := mem_walletEraReturnGroups found
      refine ⟨(mem_walletEras era).1, fun leg inside => ?_⟩
      have listed := mem_of_era era inside
      exact ⟨eligible leg listed, .inr ⟨small, listed⟩⟩

theorem mem_eligibleReturns (ordered : returns.Pairwise (Leg.sortKey · ≤ Leg.sortKey ·)) :
    leg ∈ eligibleReturns returns boundary ↔
      leg ∈ returns ∧ (boundary < leg.moment ∨ boundary = leg.moment ∧ "\uffff" < leg.id) := by
  have behind : toLex (boundary, "\uffff") < leg.sortKey ↔
      boundary < leg.moment ∨ boundary = leg.moment ∧ "\uffff" < leg.id := Prod.Lex.toLex_lt_toLex
  rw [← behind]
  unfold eligibleReturns
  induction returns with
  | nil => simp
  | cons first rest ih =>
    obtain ⟨below, later⟩ := pairwise_cons.1 ordered
    by_cases early : first.sortKey ≤ toLex (boundary, "\uffff")
    · rw [dropWhile_cons_of_pos (by simpa using early), mem_cons]
      refine (ih later).trans ?_
      constructor
      · exact fun ⟨inside, after⟩ => ⟨.inr inside, after⟩
      · rintro ⟨rfl | inside, after⟩
        · exact absurd early (not_le.2 after)
        · exact ⟨inside, after⟩
    · rw [dropWhile_cons_of_neg (by simpa using early)]
      constructor
      · intro inside
        refine ⟨inside, ?_⟩
        rcases mem_cons.1 inside with rfl | further
        · exact not_le.1 early
        · exact (not_le.1 early).trans_le (below leg further)
      · exact fun ⟨inside, _⟩ => inside

end Kassiber.Custody.Gaps
