import Kassiber.Custody.GapPromotion

/-!
What a complete gap search finds. Every ceiling but one marks the search incomplete: the number of return
groups kept for one source does not, so a single return is found exactly when it ranks within that number.
-/

namespace Kassiber.Custody.Gaps
open Lib.Dict Lib.Sorting Lib.Ranking List

variable {sha256 : String → String} {iso : Int → String} {limits : Limits}
  {progress : Progress} {returns : List Leg} {groups : List (List Leg)} {part : List Leg}

theorem record_capacity {limited : Bool} {finding : Finding}
    (ample : (progress.record limited finding).capacityLimitedSearch = false) :
    progress.capacityLimitedSearch = false ∧ finding.limited = false :=
  Bool.or_eq_false_iff.1 ample

theorem visitGroups_ample
    (ample : (visitGroups sha256 iso limits false false returns groups progress).capacityLimitedSearch = false) :
    progress.capacityLimitedSearch = false ∧
      (∀ entry ∈ progress.generated,
        entry ∈ (visitGroups sha256 iso limits false false returns groups progress).generated) ∧
      ∀ group ∈ groups, ∀ finding, findFor sha256 iso limits false returns group = some finding →
        finding.limited = false ∧ ∀ c ∈ finding.candidates,
          (c.gapId, c) ∈ (visitGroups sha256 iso limits false false returns groups progress).generated := by
  induction groups generalizing progress with
  | nil => exact ⟨ample, fun _ member => member, fun _ none => by cases none⟩
  | cons group rest ih =>
    cases found : findFor sha256 iso limits false returns group with
    | none =>
      have skipped : visitGroups sha256 iso limits false false returns (group :: rest) progress =
          visitGroups sha256 iso limits false false returns rest progress := by
        rw [visitGroups, found]
      rw [skipped] at ample ⊢
      obtain ⟨start, kept, each⟩ := ih ample
      refine ⟨start, kept, fun other listed finding other_found => ?_⟩
      rcases mem_cons.1 listed with rfl | later
      · rw [found] at other_found
        cases other_found
      · exact each other later finding other_found
    | some finding =>
      have recorded : visitGroups sha256 iso limits false false returns (group :: rest) progress =
          visitGroups sha256 iso limits false false returns rest (progress.record false finding) := by
        rw [visitGroups, found]
        simp
      rw [recorded] at ample ⊢
      obtain ⟨next, kept, each⟩ := ih ample
      obtain ⟨start, unlimited⟩ := record_capacity next
      refine ⟨start, fun entry member => kept entry (mem_append_left _ member), fun other listed other_finding other_found => ?_⟩
      rcases mem_cons.1 listed with rfl | later
      · rw [found] at other_found
        cases other_found
        exact ⟨unlimited, fun c member => kept _ (mem_append_right _ (mem_map.2 ⟨c, member, rfl⟩))⟩
      · exact each other later other_finding other_found

theorem visitGroups_flag {worklistLimited sourceLimited : Bool} (met : progress.capacityLimitedSearch = true) :
    (visitGroups sha256 iso limits worklistLimited sourceLimited returns groups progress).capacityLimitedSearch = true := by
  induction groups generalizing progress with
  | nil => exact met
  | cons group rest ih =>
    rw [visitGroups]
    split
    · exact ih met
    · rename_i finding found
      have next : (progress.record (worklistLimited || sourceLimited) finding).capacityLimitedSearch = true :=
        Bool.or_eq_true_iff.2 (.inl met)
      dsimp only
      split
      · exact next
      · exact ih next

theorem visitScope_ample
    (ample : (visitScope sha256 iso limits false progress part).capacityLimitedSearch = false) :
    progress.capacityLimitedSearch = false ∧
      (∀ entry ∈ progress.generated, entry ∈ (visitScope sha256 iso limits false progress part).generated) ∧
      ∀ group ∈ sourceWindows limits.maxSourceLegs (sourcesOf part), ∀ finding,
        findFor sha256 iso limits false (returnsOf part) group = some finding → returnsOf part ≠ [] →
        finding.limited = false ∧ ∀ c ∈ finding.candidates,
          (c.gapId, c) ∈ (visitScope sha256 iso limits false progress part).generated := by
  have unfolded : ∀ {next : Progress}, visitScope sha256 iso limits false progress part = next →
      next.capacityLimitedSearch = false →
      progress.capacityLimitedSearch = false ∧ (∀ entry ∈ progress.generated, entry ∈ next.generated) ∧
      ∀ group ∈ sourceWindows limits.maxSourceLegs (sourcesOf part), ∀ finding,
        findFor sha256 iso limits false (returnsOf part) group = some finding → returnsOf part ≠ [] →
        finding.limited = false ∧ ∀ c ∈ finding.candidates, (c.gapId, c) ∈ next.generated := by
    intro next visited ample
    unfold visitScope at visited
    dsimp only at visited
    split at visited
    · rename_i empty
      subst visited
      refine ⟨ample, fun _ member => member, fun group window finding found nonempty => ?_⟩
      have none : sourcesOf part = [] := empty.resolve_right nonempty
      rw [none] at window
      cases window
    · split at visited
      · rw [← visited, visitGroups_flag rfl] at ample
        cases ample
      · rename_i unlimited
        rw [Bool.false_or, Bool.not_eq_true] at unlimited
        rw [unlimited] at visited
        subst visited
        obtain ⟨start, kept, each⟩ := visitGroups_ample ample
        exact ⟨start, kept, fun group window finding found _ => each group window finding found⟩
  exact unfolded rfl ample

variable {legs group : List Leg}

theorem explore_ample (ample : (explore sha256 iso limits legs).capacityLimitedSearch = false) :
    legs.length ≤ limits.maxInputRows ∧
      ∀ part ∈ scopes legs, ∀ group ∈ sourceWindows limits.maxSourceLegs (sourcesOf part), ∀ finding,
        findFor sha256 iso limits false (returnsOf part) group = some finding → returnsOf part ≠ [] →
        finding.limited = false ∧ ∀ c ∈ finding.candidates, (c.gapId, c) ∈ (explore sha256 iso limits legs).generated := by
  -- The flag of the walk is that of its start unless a scope raises it.
  have flag : ∀ (limited : Bool) (parts : List (List Leg)) (start : Progress), start.capacityLimitedSearch = true →
      (parts.foldl (visitScope sha256 iso limits limited) start).capacityLimitedSearch = true := by
    intro limited parts
    induction parts with
    | nil => exact fun _ met => met
    | cons part rest ih =>
      intro start met
      refine ih _ ?_
      unfold visitScope
      dsimp only
      split
      · exact met
      · split
        · exact visitGroups_flag rfl
        · exact visitGroups_flag met
  have few : legs.length ≤ limits.maxInputRows := by
    by_contra many
    have limited : decide (limits.maxInputRows < legs.length) = true := decide_eq_true (not_le.1 many)
    unfold explore at ample
    dsimp only at ample
    rw [limited] at ample
    rw [flag true _ _ rfl] at ample
    cases ample
  refine ⟨few, ?_⟩
  have small : decide (limits.maxInputRows < legs.length) = false := decide_eq_false (not_lt.2 few)
  unfold explore at ample ⊢
  dsimp only at ample ⊢
  rw [small] at ample ⊢
  have run : ∀ (parts : List (List Leg)) (start : Progress),
      (parts.foldl (visitScope sha256 iso limits false) start).capacityLimitedSearch = false →
      (∀ entry ∈ start.generated, entry ∈ (parts.foldl (visitScope sha256 iso limits false) start).generated) ∧
      ∀ part ∈ parts, ∀ group ∈ sourceWindows limits.maxSourceLegs (sourcesOf part), ∀ finding,
        findFor sha256 iso limits false (returnsOf part) group = some finding → returnsOf part ≠ [] →
        finding.limited = false ∧ ∀ c ∈ finding.candidates,
          (c.gapId, c) ∈ (parts.foldl (visitScope sha256 iso limits false) start).generated := by
    intro parts
    induction parts with
    | nil => exact fun _ _ => ⟨fun _ member => member, fun _ none => by cases none⟩
    | cons part rest ih =>
      intro start ample
      obtain ⟨kept, each⟩ := ih _ ample
      have scope : (visitScope sha256 iso limits false start part).capacityLimitedSearch = false := by
        by_contra met
        rw [foldl_cons, flag false _ _ (by simpa using met)] at ample
        cases ample
      obtain ⟨-, held, own⟩ := visitScope_ample scope
      refine ⟨fun entry member => kept entry (held entry member), fun other listed group window finding found nonempty => ?_⟩
      rcases mem_cons.1 listed with rfl | later
      · obtain ⟨unlimited, stored⟩ := own group window finding found nonempty
        exact ⟨unlimited, fun c member => kept _ (stored c member)⟩
      · exact each other later group window finding found nonempty
  exact (run _ _ ample).2

theorem complete_ample {ignored : List String} {rows : List GapRow}
    (complete : (computeCustodyGapSearch sha256 iso limits ignored rows).searchComplete = true) :
    (explore sha256 iso limits (normalizedLegs iso ignored rows)).capacityLimitedSearch = false ∧
      (computeCustodyGapSearch sha256 iso limits ignored rows).candidates =
        stamp limits (explore sha256 iso limits (normalizedLegs iso ignored rows)) := by
  unfold computeCustodyGapSearch at complete ⊢
  dsimp only at complete ⊢
  split at complete
  · cases complete
  · rename_i within
    rw [if_neg within]
    split at complete
    · cases complete
    · rename_i ample
      rw [if_neg ample]
      simp only [not_or, Bool.not_eq_true] at ample
      exact ⟨ample.1, rfl⟩

theorem mem_stamp_of_generated {c : GapCandidate} (stored : (c.gapId, c) ∈ progress.generated) :
    ∃ shown ∈ stamp limits progress, ∃ base, (c.gapId, base) ∈ progress.generated ∧ shown.bare = base.bare := by
  obtain ⟨base, kept, listed⟩ := items_of_key stored
  have joined : ∃ m ∈ ranked progress, m.bare = base.bare := by
    refine ⟨_, mem_map_of_mem (mem_map_of_mem (mem_map.2 ⟨_, kept, rfl⟩)), ?_⟩
    rw [bare_markIncomplete]
    rfl
  obtain ⟨m, member, bare⟩ := joined
  refine ⟨_, mem_stamp.2 ⟨m, member, rfl⟩, base, listed, ?_⟩
  exact (bare_demote _ _).trans ((bare_promotion _ _ _).trans bare)

theorem groupKey_nodup (distinct : (groups.map groupIds).Nodup) (target : Int) :
    (groups.map (groupKey target)).Nodup := by
  refine List.Nodup.of_map (fun key : Int ×ₗ Nat ×ₗ List String => (ofLex (ofLex key).2).2) ?_
  rw [map_map]
  exact distinct

/-- Among the groups nearest to the target, few enough come before a group. -/
def RanksWithin (limits : Limits) (target : Int) (groups : List (List Leg)) (group : List Leg) : Prop :=
  group ∈ groups ∧ (groups.filter fun other => groupKey target other < groupKey target group).length <
    limits.maxReturnGroupsPerSource

variable {target boundary : Int}

theorem ranksWithin_iff (distinct : (groups.map groupIds).Nodup) :
    group ∈ (sortedBy (groupKey target) groups).take limits.maxReturnGroupsPerSource ↔
      RanksWithin limits target groups group := by
  constructor
  · intro taken
    have member := mem_sortedBy.1 (mem_of_mem_take taken)
    exact ⟨member, (mem_take_sortedBy (groupKey_nodup distinct target) member _).1 taken⟩
  · rintro ⟨member, few⟩
    exact (mem_take_sortedBy (groupKey_nodup distinct target) member _).2 few

/-- The returns of the source's scope that come after it. -/
def laterReturns (legs : List Leg) (source : Leg) : List Leg :=
  eligibleReturns (returnsOf (legs.filter fun leg => leg.scope = source.scope)) source.moment

/-- The return alone ranks within the limit, among the groups of the beam or among the wallet eras within bounds. -/
def WithinGroupLimit (limits : Limits) (legs : List Leg) (source back : Leg) : Prop :=
  let later := laterReturns legs source
  RanksWithin limits source.principalMsat (beamGroups limits source.principalMsat later) [back] ∨
    RanksWithin limits source.principalMsat
      ((walletEras limits later).filter fun era => limits.Accepts source.principalMsat (total era)) [back]

theorem answers_ample (ordered : returns.Pairwise (Leg.sortKey · ≤ Leg.sortKey ·))
    (distinct : (returns.map (·.id)).Nodup)
    (ample : (answers limits false returns boundary target).2 = false) {back : Leg} (member : back ∈ returns) :
    [back] ∈ (answers limits false returns boundary target).1 ↔
      RanksWithin limits target (beamGroups limits target (eligibleReturns returns boundary)) [back] ∨
        RanksWithin limits target ((walletEras limits (eligibleReturns returns boundary)).filter fun era =>
          limits.Accepts target (total era)) [back] := by
  have sublist : (eligibleReturns returns boundary).Sublist returns := dropWhile_sublist _
  have own : ((eligibleReturns returns boundary).map (·.id)).Nodup := distinct.sublist (sublist.map _)
  have sorted := ordered.sublist sublist
  rw [answers, if_neg Bool.false_ne_true] at ample ⊢
  obtain ⟨fits, short⟩ := Bool.or_eq_false_iff.1 ample
  have pool : boundedReturnPool limits target (eligibleReturns returns boundary) = eligibleReturns returns boundary := by
    unfold boundedReturnPool
    dsimp only
    rw [sortedBy_of_pairwise sorted, if_pos (not_lt.1 (of_decide_eq_false fits))]
  have found : ∀ group, group ∈ returnGroups limits target (eligibleReturns returns boundary) ↔
      RanksWithin limits target (beamGroups limits target (eligibleReturns returns boundary)) group := by
    intro group
    rw [← ranksWithin_iff (beamGroups_nodup target _)]
    have again : sortedBy (groupKey target) (beamGroups limits target (eligibleReturns returns boundary)) =
        beamGroups limits target (eligibleReturns returns boundary) :=
      sortedBy_of_pairwise (sortedBy_pairwise _ _)
    rw [again]
    rfl
  have eras : ∀ group, group ∈ (walletEraReturnGroups limits target (eligibleReturns returns boundary)).1 ↔
      RanksWithin limits target ((walletEras limits (eligibleReturns returns boundary)).filter fun era =>
        limits.Accepts target (total era)) group := by
    intro group
    rw [← ranksWithin_iff ((walletEras_nodup own).sublist ((filter_sublist).map _))]
    unfold walletEraReturnGroups at short ⊢
    dsimp only at short ⊢
    split at short
    · cases short
    · rename_i allowed
      rw [if_neg allowed]
  dsimp only
  rw [pool, ← found, ← eras, ← mem_append]
  constructor
  · exact mem_dedupeGroups
  · intro listed
    obtain ⟨kept, stays, inside, ids⟩ := exists_dedupeGroups listed
    have legs : ∀ leg ∈ kept, leg ∈ returns := by
      intro leg held
      rcases mem_append.1 inside with beam | era
      · have group := mem_of_mem_take beam
        exact sublist.subset (mem_sortedBy.1 ((mem_beamGroups group).1.subset held))
      · exact sublist.subset (mem_of_era (mem_walletEraReturnGroups era) held)
    have alone : kept = [back] := single_of_ids distinct member (by rw [ids]; rfl) legs
    exact alone ▸ stays

def Drawn (legs : List Leg) (direction : Direction) (group : List Leg) : Prop :=
  group ≠ [] ∧ group.Nodup ∧ ∀ leg ∈ group, leg ∈ legs ∧ leg.direction = direction

def DistinctGaps (sha256 : String → String) (legs : List Leg) : Prop :=
  ∀ (lead lead' : Leg) (others others' returns returns' : List Leg),
    Drawn legs .outbound (lead :: others) → Drawn legs .inbound returns →
    Drawn legs .outbound (lead' :: others') → Drawn legs .inbound returns' →
    gapIdOf sha256 lead.profileId lead.asset (groupIds (lead :: others)) (groupIds returns) =
      gapIdOf sha256 lead'.profileId lead'.asset (groupIds (lead' :: others')) (groupIds returns') →
    groupIds (lead :: others) = groupIds (lead' :: others') ∧ groupIds returns = groupIds returns'

/-- A later return of the scope that answers a source within bounds and with a plausible score. -/
structure Qualifies (sha256 : String → String) (iso : Int → String) (limits : Limits) (legs : List Leg) (source back : Leg) :
    Prop where
  outgoing : source ∈ legs ∧ source.direction = .outbound
  incoming : back ∈ legs ∧ back.direction = .inbound
  scope : back.scope = source.scope
  later : source.moment < back.moment
  bounds : limits.Accepts source.principalMsat back.principalMsat
  likely : 650 ≤ (buildCandidate sha256 iso source [] [back]).score

theorem mem_scopes {part : List Leg} :
    part ∈ scopes legs ↔ ∃ scope, part = legs.filter (fun leg => leg.scope = scope) ∧ scope ∈ legs.map Leg.scope := by
  unfold scopes
  rw [mem_map]
  constructor
  · rintro ⟨⟨scope, members⟩, listed, rfl⟩
    exact ⟨scope, mem_groupBy.1 (mem_sortedBy.1 listed)⟩
  · rintro ⟨scope, content⟩
    exact ⟨(scope, part), mem_sortedBy.2 (mem_groupBy.2 content), rfl⟩

theorem mem_sourcesOf {leg : Leg} : leg ∈ sourcesOf part ↔ leg ∈ part ∧ leg.direction = .outbound := by
  simp [sourcesOf]

theorem mem_returnsOf {leg : Leg} : leg ∈ returnsOf part ↔ leg ∈ part ∧ leg.direction = .inbound := by
  simp [returnsOf]

theorem sides_nodup (nodup : part.Nodup) : (sourcesOf part).Nodup ∧ (returnsOf part).Nodup := by
  have sorted := (sortedBy_perm Leg.sortKey part).nodup_iff.2 nodup
  exact ⟨sorted.sublist filter_sublist, sorted.sublist filter_sublist⟩

theorem answers_nodup {returns : List Leg} (nodup : returns.Nodup)
    (member : group ∈ (answers limits false returns boundary target).1) : group.Nodup := by
  have eligible : (eligibleReturns returns boundary).Nodup := nodup.sublist (dropWhile_sublist _)
  have sorts : ∀ {κ : Type} [LinearOrder κ] (key : Leg → κ) {rows : List Leg}, rows.Nodup → (sortedBy key rows).Nodup :=
    fun key rows unique => (sortedBy_perm key rows).nodup_iff.2 unique
  have pool : (boundedReturnPool limits target (eligibleReturns returns boundary)).Nodup := by
    unfold boundedReturnPool
    dsimp only
    split
    · exact sorts _ eligible
    · exact sorts _ ((sorts _ (sorts _ eligible)).sublist (take_sublist _ _))
  rw [answers, if_neg Bool.false_ne_true] at member
  rcases mem_append.1 (mem_dedupeGroups member) with beam | era
  · exact (sorts _ pool).sublist (mem_beamGroups (mem_of_mem_take beam)).1
  · obtain ⟨-, wallet, sublist⟩ := mem_walletEras (mem_walletEraReturnGroups era)
    exact (sorts _ (eligible.sublist filter_sublist)).sublist sublist

theorem generated_drawn (nodup : legs.Nodup) {c : GapCandidate}
    (origin : Generated sha256 iso limits false (scopes legs) c) :
    ∃ part ∈ scopes legs, ∃ lead others returns, Drawn legs .outbound (lead :: others) ∧ Drawn legs .inbound returns ∧
      (∀ leg ∈ lead :: others, leg ∈ sourcesOf part) ∧ (∀ leg ∈ returns, leg ∈ returnsOf part) ∧
      returns ∈ (answers limits false (returnsOf part) (latest (lead :: others)) (total (lead :: others))).1 ∧
      c = buildCandidate sha256 iso lead others returns := by
  obtain ⟨part, listed, lead, others, returns, width, window, answered, -, built⟩ := origin
  obtain ⟨scope, same, -⟩ := mem_scopes.1 listed
  have unique : part.Nodup := same ▸ nodup.sublist filter_sublist
  obtain ⟨sources, backs⟩ := sides_nodup unique
  have visited : (visitedSources limits false part).Nodup := by
    unfold visitedSources
    split
    · exact sources.sublist filter_sublist
    · exact sources
  have held : ∀ leg ∈ lead :: others, leg ∈ sourcesOf part := fun leg inside =>
    visitedSources_subset (mem_of_window window inside)
  obtain ⟨some, behind⟩ := answers_sound answered
  refine ⟨part, listed, lead, others, returns, ⟨cons_ne_nil _ _, ?_, ?_⟩, ⟨some, answers_nodup backs answered, ?_⟩,
    held, fun leg inside => (behind leg inside).1, answered, built⟩
  · exact ((sortedBy_perm Leg.sortKey _).nodup_iff.2 visited).sublist (sourceWindows_sublist window)
  · intro leg inside
    obtain ⟨member, outbound⟩ := mem_sourcesOf.1 (held leg inside)
    exact ⟨mem_part listed member, outbound⟩
  · intro leg inside
    obtain ⟨member, inbound⟩ := mem_returnsOf.1 (behind leg inside).1
    exact ⟨mem_part listed member, inbound⟩

theorem found_iff_within (ignored : List String) (rows : List GapRow) {source back : Leg}
    (distinct : ((normalizedLegs iso ignored rows).map (·.id)).Nodup)
    (collisionFree : DistinctGaps sha256 (normalizedLegs iso ignored rows))
    (complete : (computeCustodyGapSearch sha256 iso limits ignored rows).searchComplete = true)
    (qualifies : Qualifies sha256 iso limits (normalizedLegs iso ignored rows) source back) :
    (∃ c ∈ (computeCustodyGapSearch sha256 iso limits ignored rows).candidates,
        c.sourceIds = [source.id] ∧ c.returnIds = [back.id]) ↔
      WithinGroupLimit limits (normalizedLegs iso ignored rows) source back := by
  obtain ⟨ample, shown⟩ := complete_ample complete
  obtain ⟨few, found⟩ := explore_ample ample
  rw [shown]
  generalize legsAre : normalizedLegs iso ignored rows = legs at *
  have nodup : legs.Nodup := List.Nodup.of_map _ distinct
  have small : decide (limits.maxInputRows < legs.length) = false := decide_eq_false (not_lt.2 few)
  have origins : ∀ {entry : String × GapCandidate}, entry ∈ (explore sha256 iso limits legs).generated →
      entry.1 = entry.2.gapId ∧ Generated sha256 iso limits false (scopes legs) entry.2 := by
    intro entry stored
    have origin := mem_explore stored
    rwa [small] at origin
  -- The scope of the source and what the search does at the source alone.
  have listed : legs.filter (fun leg => leg.scope = source.scope) ∈ scopes legs :=
    mem_scopes.2 ⟨source.scope, rfl, mem_map_of_mem qualifies.outgoing.1⟩
  have sourceIn : source ∈ sourcesOf (legs.filter fun leg => leg.scope = source.scope) :=
    mem_sourcesOf.2 ⟨mem_filter.2 ⟨qualifies.outgoing.1, decide_eq_true rfl⟩, qualifies.outgoing.2⟩
  have backIn : back ∈ returnsOf (legs.filter fun leg => leg.scope = source.scope) :=
    mem_returnsOf.2 ⟨mem_filter.2 ⟨qualifies.incoming.1, decide_eq_true qualifies.scope⟩, qualifies.incoming.2⟩
  have ordered := returnsOf_pairwise (legs.filter fun leg => leg.scope = source.scope)
  have ids : ((returnsOf (legs.filter fun leg => leg.scope = source.scope)).map (·.id)).Nodup := by
    refine List.Nodup.sublist (List.Sublist.map _ filter_sublist) ?_
    refine ((sortedBy_perm Leg.sortKey _).map _).nodup_iff.2 ?_
    exact distinct.sublist (List.Sublist.map _ filter_sublist)
  have waiting : eligibleReturns (returnsOf (legs.filter fun leg => leg.scope = source.scope)) (latest [source]) ≠ [] :=
    ne_nil_of_mem ((mem_eligibleReturns ordered).2 ⟨backIn, .inl qualifies.later⟩)
  have visited := found _ listed [source] (single_window limits.sourceLegs sourceIn) _ (if_neg waiting)
    (ne_nil_of_mem backIn)
  have alone : _ ↔ _ := answers_ample ordered ids visited.1 backIn
  rw [total_single] at alone
  constructor
  · rintro ⟨c, member, sourceIds, returnIds⟩
    obtain ⟨key, base, stored, bare⟩ := stamped_base member
    obtain ⟨part, other, lead, others, returns, outgoing, incoming, inPart, -, answered, rfl⟩ :=
      generated_drawn nodup (origins stored).2
    have single : lead :: others = [source] :=
      single_of_ids distinct qualifies.outgoing.1 ((congrArg (fun c => c.sourceIds) bare).symm.trans sourceIds)
        fun leg inside => (outgoing.2.2 leg inside).1
    have answer : returns = [back] :=
      single_of_ids distinct qualifies.incoming.1 ((congrArg (fun c => c.returnIds) bare).symm.trans returnIds)
        fun leg inside => (incoming.2.2 leg inside).1
    obtain ⟨scope, rfl, -⟩ := mem_scopes.1 other
    have here : source ∈ sourcesOf (legs.filter fun leg => leg.scope = scope) :=
      inPart source (single ▸ mem_singleton_self source)
    obtain rfl : source.scope = scope :=
      of_decide_eq_true (mem_filter.1 (mem_sourcesOf.1 here).1).2
    rw [single, answer, total_single] at answered
    exact alone.1 answered
  · intro within
    have answered : [back] ∈ (answers limits false (returnsOf (legs.filter fun leg => leg.scope = source.scope))
        (latest [source]) (total [source])).1 := by
      rw [total_single]
      exact alone.2 within
    have built : buildCandidate sha256 iso source [] [back] ∈ (((answers limits false
        (returnsOf (legs.filter fun leg => leg.scope = source.scope)) (latest [source]) (total [source])).1.map
        (buildCandidate sha256 iso source [])).filter fun c => 650 ≤ c.score) :=
      mem_filter.2 ⟨mem_map_of_mem answered, decide_eq_true qualifies.likely⟩
    have stored := visited.2 _ built
    obtain ⟨c, member, base, kept, bare⟩ := mem_stamp_of_generated stored
    obtain ⟨part, -, lead, others, returns, outgoing, incoming, -, -, -, rfl⟩ := generated_drawn nodup (origins kept).2
    have lone : Drawn legs .outbound [source] := ⟨cons_ne_nil _ _, nodup_singleton _, by
      intro leg inside
      rw [mem_singleton.1 inside]
      exact qualifies.outgoing⟩
    have answer : Drawn legs .inbound [back] := ⟨cons_ne_nil _ _, nodup_singleton _, by
      intro leg inside
      rw [mem_singleton.1 inside]
      exact qualifies.incoming⟩
    obtain ⟨sources, returned⟩ := collisionFree source lead [] others [back] returns lone answer outgoing incoming
      (origins kept).1
    refine ⟨c, member, ?_, ?_⟩
    · exact (congrArg (fun c => c.sourceIds) bare).trans sources.symm
    · exact (congrArg (fun c => c.returnIds) bare).trans returned.symm

/-- Fewer groups of legs have the property than the limit. -/
def Fewer (limit : Nat) (property : List Leg → Prop) : Prop :=
  ∀ groups : List (List Leg), groups.Nodup → (∀ group ∈ groups, property group) → groups.length < limit

/-- Later returns of the source's scope that answer it together, within bounds and nearer than the return alone. -/
structure Nearer (limits : Limits) (legs : List Leg) (source back : Leg) (group : List Leg) : Prop where
  returns : ∀ leg ∈ group, leg ∈ legs ∧ leg.direction = .inbound ∧ leg.scope = source.scope ∧
    (source.moment < leg.moment ∨ source.moment = leg.moment ∧ "\uffff" < leg.id)
  ordered : group.Pairwise (Leg.sortKey · < Leg.sortKey ·)
  some : group ≠ []
  size : group.length ≤ limits.maxReturnLegs
  bounds : limits.Accepts source.principalMsat (total group)
  nearer : groupKey source.principalMsat group < groupKey source.principalMsat [back]

section
variable {legs : List Leg} {source back leg : Leg} (distinct : (legs.map (·.id)).Nodup)

theorem mem_laterReturns : leg ∈ laterReturns legs source ↔ leg ∈ legs ∧ leg.direction = .inbound ∧ leg.scope = source.scope ∧
    (source.moment < leg.moment ∨ source.moment = leg.moment ∧ "\uffff" < leg.id) := by
  unfold laterReturns
  rw [mem_eligibleReturns (returnsOf_pairwise _), mem_returnsOf, mem_filter, decide_eq_true_iff]
  tauto

include distinct

theorem laterReturns_ids : ((laterReturns legs source).map (·.id)).Nodup := by
  refine Nodup.sublist (((dropWhile_sublist _).trans filter_sublist).map _) ?_
  refine ((sortedBy_perm Leg.sortKey _).map _).nodup_iff.2 ?_
  exact distinct.sublist (filter_sublist.map _)

theorem nearer_of_beamGroup {group : List Leg}
    (found : group ∈ beamGroups limits source.principalMsat (laterReturns legs source))
    (nearer : groupKey source.principalMsat group < groupKey source.principalMsat [back]) :
    Nearer limits legs source back group := by
  obtain ⟨sublist, some, bounds, size⟩ := mem_beamGroups found
  refine ⟨fun leg held => mem_laterReturns.1 (mem_sortedBy.1 (sublist.subset held)), ?_, some, size, bounds, nearer⟩
  refine List.Pairwise.sublist sublist ?_
  have ids : ((laterReturns legs source).map (·.id)).Nodup := laterReturns_ids distinct
  have apart := ((sortedBy_perm Leg.sortKey _).map (·.id)).nodup_iff.2 ids
  refine ((sortedBy_pairwise Leg.sortKey _).and (pairwise_map.1 apart)).imp fun {left right} both => ?_
  exact lt_of_le_of_ne both.1 fun same => both.2 (congrArg (fun key => (ofLex key).2) same)

theorem beamGroup_of_nearer (nearer : Nearer limits legs source back [leg]) :
    [leg] ∈ beamGroups limits source.principalMsat (laterReturns legs source) := by
  have bounds := nearer.bounds
  rw [total_single] at bounds
  exact single_beamGroup (laterReturns_ids distinct) (mem_laterReturns.2 (nearer.returns leg (.head _))) bounds

theorem within_of_fewer (later : back ∈ laterReturns legs source) (bounds : limits.Accepts source.principalMsat back.principalMsat)
    (few : Fewer limits.maxReturnGroupsPerSource (Nearer limits legs source back)) :
    WithinGroupLimit limits legs source back := by
  refine .inl ⟨single_beamGroup (laterReturns_ids distinct) later bounds, few _ ?_ fun group kept => ?_⟩
  · exact (List.Nodup.of_map _ (beamGroups_nodup _ _)).sublist filter_sublist
  · obtain ⟨found, nearer⟩ := mem_filter.1 kept
    exact nearer_of_beamGroup distinct found (of_decide_eq_true nearer)

theorem fewer_of_within (within : WithinGroupLimit limits legs source back) :
    Fewer limits.maxReturnGroupsPerSource (fun group => Nearer limits legs source back group ∧ group.length = 1) ∨
      [back] ∈ walletEras limits (laterReturns legs source) := by
  refine within.imp (fun ⟨_, few⟩ groups apart singles => ?_) fun ⟨era, _⟩ => (mem_filter.1 era).1
  refine (List.Subperm.length_le (apart.subperm fun group member => ?_)).trans_lt few
  obtain ⟨nearer, one⟩ := singles group member
  obtain ⟨leg, rfl⟩ := length_eq_one_iff.1 one
  exact mem_filter.2 ⟨beamGroup_of_nearer distinct nearer, decide_eq_true nearer.nearer⟩

end

theorem distinctGaps_of_sublists (profileId asset : String)
    (single : ∀ leg ∈ legs, leg.profileId = profileId ∧ leg.asset = asset)
    (check : ∀ sources ∈ (legs.filter fun leg => leg.direction = .outbound).sublists,
      ∀ returns ∈ (legs.filter fun leg => leg.direction = .inbound).sublists,
      ∀ sources' ∈ (legs.filter fun leg => leg.direction = .outbound).sublists,
      ∀ returns' ∈ (legs.filter fun leg => leg.direction = .inbound).sublists,
      sources ≠ [] → returns ≠ [] → sources' ≠ [] → returns' ≠ [] →
      gapIdOf sha256 profileId asset (groupIds sources) (groupIds returns) =
        gapIdOf sha256 profileId asset (groupIds sources') (groupIds returns') →
      groupIds sources = groupIds sources' ∧ groupIds returns = groupIds returns') :
    DistinctGaps sha256 legs := by
  have listed : ∀ {direction : Direction} {group : List Leg}, Drawn legs direction group →
      ∃ ordered ∈ (legs.filter fun leg => leg.direction = direction).sublists,
        groupIds group = groupIds ordered ∧ ordered ≠ [] := by
    rintro direction group ⟨some, nodup, drawn⟩
    have inside : group ⊆ legs.filter fun leg => leg.direction = direction := fun leg member =>
      mem_filter.2 ⟨(drawn leg member).1, decide_eq_true (drawn leg member).2⟩
    obtain ⟨ordered, perm, sublist⟩ := nodup.subperm inside
    refine ⟨ordered, mem_sublists.2 sublist, ?_, ?_⟩
    · exact sortedBy_eq_of_perm (perm.symm.map _) fun _ _ _ _ same => same
    · rintro rfl
      exact some (nil_perm.1 perm)
  intro lead lead' others others' returns returns' outgoing incoming outgoing' incoming' same
  obtain ⟨profile, asset⟩ := single lead (outgoing.2.2 lead (.head _)).1
  obtain ⟨profile', asset'⟩ := single lead' (outgoing'.2.2 lead' (.head _)).1
  obtain ⟨sources, hs, names, some⟩ := listed outgoing
  obtain ⟨backs, hb, backNames, someBack⟩ := listed incoming
  obtain ⟨sources', hs', names', some'⟩ := listed outgoing'
  obtain ⟨backs', hb', backNames', someBack'⟩ := listed incoming'
  rw [profile, asset, profile', asset', names, names', backNames, backNames'] at same
  rw [names, names', backNames, backNames']
  exact check sources hs backs hb sources' hs' backs' hb' some someBack some' someBack' same

def pairDigests (text : String) : String :=
  if text = "p\x1fBTC\x1fa\x1f->\x1fb" then "e0f831e953eb6ed49187dc2d90dbddad9cc55fc3bc5eaf094a30da0b5f483a11"
  else if text = "p\x1fBTC\x1fa\x1f->\x1fc" then "412b2acd93577e888f94519a2846bc6053e41230110c895a86701d5a6e8bd1d7"
  else "04dc9b66d70f8a39c1e1094cc1e06218becc57af541d5ca36d49f8408a21bb10"

def narrow : Limits := { maxReturnGroupsPerSource := 1 }

def twinReturns : List GapRow :=
  [sampleSpend, sampleReturn "b" (sampleInstant + 86400000000),
    { sampleReturn "c" (sampleInstant + 172800000000) with walletId := "vault" }]

def twinLegs : List Leg := normalizedLegs sampleIso [] twinReturns

theorem twin_gaps_distinct : DistinctGaps pairDigests twinLegs :=
  distinctGaps_of_sublists "p" "BTC" (by decide +kernel) (by decide +kernel)

theorem twin_qualifies : ∀ id ∈ ["b", "c"], ∃ source ∈ twinLegs, ∃ back ∈ twinLegs, back.id = id ∧
    Qualifies pairDigests sampleIso narrow twinLegs source back := by
  have listed : ∀ id ∈ ["b", "c"], ∃ source ∈ twinLegs, ∃ back ∈ twinLegs, back.id = id ∧ source.direction = .outbound ∧
      back.direction = .inbound ∧ back.scope = source.scope ∧ source.moment < back.moment ∧
      narrow.Accepts source.principalMsat back.principalMsat ∧
      650 ≤ (buildCandidate pairDigests sampleIso source [] [back]).score := by decide +kernel
  intro id named
  obtain ⟨source, hs, back, hb, named, outgoing, incoming, scope, later, bounds, likely⟩ := listed id named
  exact ⟨source, hs, back, hb, named, ⟨hs, outgoing⟩, ⟨hb, incoming⟩, scope, later, bounds, likely⟩

end Kassiber.Custody.Gaps
