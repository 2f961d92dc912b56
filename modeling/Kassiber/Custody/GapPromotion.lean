import Kassiber.Custody.GapGroups

/-!
Promoted candidates never compete. Candidates that share a leg stand in one conflict set, and no two
members of a set can each lead the other by the required margin.
-/

namespace Kassiber.Custody.Gaps
open Lib.Dict Lib.Sorting Lib.Ranking Lib.UnionFind List
open Prod (fst snd)

variable {sha256 : String → String} {iso : Int → String} {limits : Limits}

def visitedSources (limits : Limits) (worklistLimited : Bool) (part : List Leg) : List Leg :=
  if worklistLimited || decide (limits.maxSourceGroups < sourceGroupCount limits (sourcesOf part)) then
    boundedSources limits (sourcesOf part)
  else sourcesOf part

/-- A candidate pairs a window of the visited sources of a scope with returns that answer it. -/
def Generated (sha256 : String → String) (iso : Int → String) (limits : Limits) (worklistLimited : Bool)
    (parts : List (List Leg)) (c : GapCandidate) : Prop :=
  ∃ part ∈ parts, ∃ lead others returns width,
    lead :: others ∈ sourceWindows width (visitedSources limits worklistLimited part) ∧
      returns ∈ (answers limits worklistLimited (returnsOf part) (latest (lead :: others)) (total (lead :: others))).1 ∧
      650 ≤ c.score ∧ c = buildCandidate sha256 iso lead others returns

variable {worklistLimited : Bool} {c : GapCandidate} {progress : Progress} {entry : String × GapCandidate}
  {candidates : List GapCandidate}

variable {returns part legs : List Leg}

theorem mem_finding {group : List Leg} {finding : Finding}
    (found : findFor sha256 iso limits worklistLimited returns group = some finding)
    (member : c ∈ finding.candidates) :
    ∃ lead others answer, group = lead :: others ∧
      answer ∈ (answers limits worklistLimited returns (latest (lead :: others)) (total (lead :: others))).1 ∧
      650 ≤ c.score ∧ c = buildCandidate sha256 iso lead others answer := by
  cases group with
  | nil => cases found
  | cons lead others =>
    unfold findFor at found
    dsimp only at found
    split at found
    · cases found
    · cases found
      obtain ⟨built, likely⟩ := mem_filter.1 member
      obtain ⟨answer, answered, rfl⟩ := mem_map.1 built
      exact ⟨lead, others, answer, rfl, answered, of_decide_eq_true likely, rfl⟩

theorem mem_record {limited : Bool} {finding : Finding}
    (member : entry ∈ (progress.record limited finding).generated) :
    entry ∈ progress.generated ∨ entry.1 = entry.2.gapId ∧ entry.2 ∈ finding.candidates := by
  rcases mem_append.1 member with old | new
  · exact .inl old
  · obtain ⟨c, found, rfl⟩ := mem_map.1 new
    exact .inr ⟨rfl, found⟩

theorem mem_visitGroups {worklistLimited sourceLimited : Bool} {groups : List (List Leg)}
    (member : entry ∈ (visitGroups sha256 iso limits worklistLimited sourceLimited returns groups progress).generated) :
    entry ∈ progress.generated ∨ entry.1 = entry.2.gapId ∧ ∃ group ∈ groups, ∃ finding,
      findFor sha256 iso limits worklistLimited returns group = some finding ∧ entry.2 ∈ finding.candidates := by
  induction groups generalizing progress with
  | nil => exact .inl member
  | cons group rest ih =>
    have later : ∀ {next : Progress},
        entry ∈ (visitGroups sha256 iso limits worklistLimited sourceLimited returns rest next).generated →
        entry ∈ next.generated ∨ entry.1 = entry.2.gapId ∧ ∃ other ∈ group :: rest, ∃ finding,
          findFor sha256 iso limits worklistLimited returns other = some finding ∧ entry.2 ∈ finding.candidates := by
      intro next inside
      refine (ih inside).imp id ?_
      rintro ⟨key, other, listed, rest⟩
      exact ⟨key, other, .tail _ listed, rest⟩
    rw [visitGroups] at member
    split at member
    · exact later member
    · rename_i finding found
      have recorded : entry ∈ (progress.record (worklistLimited || sourceLimited) finding).generated →
          entry ∈ progress.generated ∨ entry.1 = entry.2.gapId ∧ ∃ other ∈ group :: rest, ∃ finding,
            findFor sha256 iso limits worklistLimited returns other = some finding ∧ entry.2 ∈ finding.candidates :=
        fun inside => (mem_record inside).imp id fun ⟨key, new⟩ => ⟨key, group, .head _, finding, found, new⟩
      dsimp only at member
      split at member
      · exact recorded member
      · rcases later member with inside | new
        · exact recorded inside
        · exact .inr new

theorem mem_visitScope (member : entry ∈ (visitScope sha256 iso limits worklistLimited progress part).generated) :
    entry ∈ progress.generated ∨
      entry.1 = entry.2.gapId ∧ Generated sha256 iso limits worklistLimited [part] entry.2 := by
  unfold visitScope at member
  dsimp only at member
  split at member
  · exact .inl member
  · -- Both ways of visiting a scope form windows of its visited sources.
    have origin : ∀ {sources : List Leg} {width : Nat} {sourceLimited : Bool} {start : Progress},
        entry ∈ (visitGroups sha256 iso limits worklistLimited sourceLimited (returnsOf part)
          (sourceWindows width sources) start).generated →
        visitedSources limits worklistLimited part = sources → start.generated = progress.generated →
        entry ∈ progress.generated ∨
          entry.1 = entry.2.gapId ∧ Generated sha256 iso limits worklistLimited [part] entry.2 := by
      rintro sources width sourceLimited start inside rfl same
      rcases mem_visitGroups inside with old | ⟨key, group, window, finding, found, new⟩
      · exact .inl (same ▸ old)
      · obtain ⟨lead, others, returns, rfl, answered, likely, built⟩ := mem_finding found new
        exact .inr ⟨key, part, mem_singleton_self _, lead, others, returns, width, window, answered, likely, built⟩
    split at member
    · rename_i limited
      exact origin member (if_pos limited) rfl
    · rename_i ample
      exact origin member (if_neg ample) rfl

theorem mem_explore (member : entry ∈ (explore sha256 iso limits legs).generated) :
    entry.1 = entry.2.gapId ∧
      Generated sha256 iso limits (decide (limits.maxInputRows < legs.length)) (scopes legs) entry.2 := by
  unfold explore at member
  have run : ∀ (parts : List (List Leg)) (start : Progress),
      entry ∈ (parts.foldl (visitScope sha256 iso limits (decide (limits.maxInputRows < legs.length))) start).generated →
      entry ∈ start.generated ∨ entry.1 = entry.2.gapId ∧
        Generated sha256 iso limits (decide (limits.maxInputRows < legs.length)) parts entry.2 := by
    intro parts
    induction parts with
    | nil => exact fun start inside => .inl inside
    | cons part rest ih =>
      intro start inside
      rcases ih _ inside with early | ⟨key, other, listed, origin⟩
      · rcases mem_visitScope early with old | ⟨key, other, listed, origin⟩
        · exact .inl old
        · obtain rfl := mem_singleton.1 listed
          exact .inr ⟨key, other, .head _, origin⟩
      · exact .inr ⟨key, other, .tail _ listed, origin⟩
  rcases run _ _ member with old | new
  · cases old
  · exact new

def GapCandidate.bare (c : GapCandidate) : GapCandidate :=
  { c with promotionEligible := false, competitorScoreMargin := none, conflictSetId := "", conflictSize := 1, reasonCodes := [] }

@[simp] theorem bare_markIncomplete (ids : List String) (c : GapCandidate) : (markIncomplete ids c).bare = c.bare := by
  unfold markIncomplete
  split <;> rfl

@[simp] theorem markIncomplete_gapId (ids : List String) (c : GapCandidate) : (markIncomplete ids c).gapId = c.gapId := by
  unfold markIncomplete
  split <;> rfl

@[simp] theorem bare_promotion (margin : Nat) (candidates : List GapCandidate) (c : GapCandidate) :
    (promotion margin candidates c).bare = c.bare := rfl

@[simp] theorem bare_demote (ids : List String) (c : GapCandidate) : (demote ids c).bare = c.bare := by
  unfold demote
  split <;> rfl

/-- The candidates as they are ranked: with their conflict sets, and marked where a ceiling was met. -/
def ranked (progress : Progress) : List GapCandidate :=
  (stampConflicts ((items progress.generated).map snd)).map (markIncomplete progress.capacityLimitedCandidateIds)

theorem mem_stamp :
    c ∈ stamp limits progress ↔ ∃ m ∈ ranked progress, c = demote progress.capacityLimitedCandidateIds
      (promotion limits.promotionScoreMargin (ranked progress) m) := by
  unfold stamp stampPromotionEligibility
  rw [mem_sortedBy, mem_map]
  constructor
  · rintro ⟨promoted, inside, rfl⟩
    obtain ⟨m, listed, rfl⟩ := mem_map.1 inside
    exact ⟨m, listed, rfl⟩
  · rintro ⟨m, listed, rfl⟩
    exact ⟨_, mem_map_of_mem listed, rfl⟩

variable {m d : GapCandidate} {ignored : List String}

theorem mem_ranked (member : m ∈ ranked progress) :
    ∃ key base, (key, base) ∈ items progress.generated ∧ m.bare = base.bare ∧
      (∀ code ∈ base.reasonCodes, code ∈ m.reasonCodes) ∧
      m.conflictSetId = unions (conflictEdges ((items progress.generated).map snd)) base.gapId := by
  obtain ⟨joined, inside, rfl⟩ := mem_map.1 member
  obtain ⟨base, generated, rfl⟩ := mem_map.1 inside
  obtain ⟨⟨key, base⟩, stored, rfl⟩ := mem_map.1 generated
  refine ⟨key, base, stored, ?_, ?_, ?_⟩
  · rw [bare_markIncomplete]
    rfl
  · intro code present
    unfold markIncomplete
    split
    · exact mem_append_left _ present
    · exact present
  · unfold markIncomplete
    split <;> rfl

theorem eligible_before {ids : List String} (eligible : (demote ids c).promotionEligible = true) :
    c.promotionEligible = true := by
  unfold demote at eligible
  split at eligible
  · cases eligible
  · exact eligible

theorem promotion_eligible {margin : Nat}
    (eligible : (promotion margin candidates c).promotionEligible = true) :
    externalOrigin ∉ c.reasonCodes ∧
      ∀ score, competitorScore candidates c = some score → (margin : Int) ≤ c.score - score := by
  simp only [promotion, Bool.and_eq_true, Bool.not_eq_true', decide_eq_false_iff_not] at eligible
  obtain ⟨⟨-, unclassified⟩, clear⟩ := eligible
  refine ⟨unclassified, fun score competing => ?_⟩
  simpa [competing] using clear

theorem competitor_ge {c : GapCandidate} (member : d ∈ candidates)
    (cluster : d.conflictSetId = c.conflictSetId) (other : d.gapId ≠ c.gapId) :
    ∃ score, competitorScore candidates c = some score ∧ d.score ≤ score := by
  have listed : d ∈ candidates.filter fun other => other.conflictSetId = c.conflictSetId :=
    mem_filter.2 ⟨member, decide_eq_true cluster⟩
  obtain ⟨top, found, above⟩ := find_top rankKey (fun other : GapCandidate => other.gapId ≠ c.gapId) listed
    (decide_eq_true other)
  refine ⟨top.score, ?_, ?_⟩
  · unfold competitorScore
    dsimp only
    rw [found]
    rfl
  · rw [rankKey, rankKey, Prod.Lex.toLex_le_toLex] at above
    rcases above with less | ⟨same, -⟩
    · exact le_of_lt less
    · exact le_of_eq same

theorem promoted_alone {margin : Nat} (positive : 1 ≤ margin) {c : GapCandidate}
    (hc : c ∈ candidates) (hd : d ∈ candidates) (cluster : c.conflictSetId = d.conflictSetId)
    (first : (promotion margin candidates c).promotionEligible = true)
    (second : (promotion margin candidates d).promotionEligible = true) : c.gapId = d.gapId := by
  by_contra apart
  obtain ⟨above, competing, high⟩ := competitor_ge hd cluster.symm (Ne.symm apart)
  obtain ⟨above', competing', high'⟩ := competitor_ge hc cluster apart
  have lead := (promotion_eligible first).2 above competing
  have lead' := (promotion_eligible second).2 above' competing'
  have : (1 : Int) ≤ margin := Int.ofNat_le.2 positive
  omega

theorem ranked_injective (named : ∀ entry ∈ progress.generated, entry.1 = entry.2.gapId)
    {m' : GapCandidate} (hm : m ∈ ranked progress) (hm' : m' ∈ ranked progress) (same : m.gapId = m'.gapId) : m = m' := by
  have ids : (ranked progress).map (·.gapId) = (items progress.generated).map fst := by
    unfold ranked stampConflicts
    rw [map_map, map_map, map_map]
    refine map_congr_left fun entry kept => ?_
    rw [named entry (mem_of_items kept)]
    exact markIncomplete_gapId _ _
  exact inj_on_of_nodup_map (ids ▸ items_nodup progress.generated) hm hm' same

theorem connected_of_shared {c : GapCandidate} (hc : c ∈ candidates) (hd : d ∈ candidates)
    {legId : String} (left : legId ∈ c.legIds) (right : legId ∈ d.legIds) :
    Connected (conflictEdges candidates) c.gapId d.gapId := by
  have listed : ∀ {e : GapCandidate}, e ∈ candidates → legId ∈ e.legIds →
      (legId, e.gapId) ∈ candidates.flatMap fun c => c.legIds.map fun legId => (legId, c.gapId) :=
    fun inside named => mem_flatMap.2 ⟨_, inside, mem_map.2 ⟨legId, named, rfl⟩⟩
  have group := exists_group (κ := String) fst (listed hc left)
  -- The members of the group are joined with its first.
  have joined : ∀ {siblings : List (String × String)}, (legId, siblings) ∈ groupBy fst
      (candidates.flatMap fun c => c.legIds.map fun legId => (legId, c.gapId)) →
      ∀ {x y : String}, (legId, x) ∈ siblings → (legId, y) ∈ siblings → Connected (conflictEdges candidates) x y := by
    intro siblings member x y hx hy
    cases siblings with
    | nil => cases hx
    | cons first rest =>
      have edge : ∀ {z : String}, (legId, z) ∈ first :: rest → Connected (conflictEdges candidates) first.2 z := by
        intro z inside
        rcases mem_cons.1 inside with same | later
        · rw [← same]
          exact .refl _
        · refine .edge (mem_flatMap.2 ⟨_, member, ?_⟩)
          exact mem_map.2 ⟨_, later, rfl⟩
      exact (edge hx).symm.trans (edge hy)
  refine joined group ?_ ?_
  · exact mem_filter.2 ⟨listed hc left, by simp⟩
  · exact mem_filter.2 ⟨listed hd right, by simp⟩

theorem stamped_apart (named : ∀ entry ∈ progress.generated, entry.1 = entry.2.gapId)
    (positive : 1 ≤ limits.promotionScoreMargin) {c : GapCandidate} (hc : c ∈ stamp limits progress)
    (hd : d ∈ stamp limits progress) (first : c.promotionEligible = true) (second : d.promotionEligible = true)
    (different : c ≠ d) : ∀ legId ∈ c.legIds, legId ∉ d.legIds := by
  intro legId left right
  obtain ⟨m, hm, rfl⟩ := mem_stamp.1 hc
  obtain ⟨m', hm', rfl⟩ := mem_stamp.1 hd
  obtain ⟨key, base, stored, bare, -, cluster⟩ := mem_ranked hm
  obtain ⟨key', base', stored', bare', -, cluster'⟩ := mem_ranked hm'
  -- A stamped candidate has the legs and the id of the one it stamps.
  have shows : (demote progress.capacityLimitedCandidateIds (promotion limits.promotionScoreMargin (ranked progress) m)).bare
      = base.bare := (bare_demote _ _).trans ((bare_promotion _ _ _).trans bare)
  have shows' : (demote progress.capacityLimitedCandidateIds
      (promotion limits.promotionScoreMargin (ranked progress) m')).bare = base'.bare :=
    (bare_demote _ _).trans ((bare_promotion _ _ _).trans bare')
  have legs : legId ∈ base.legIds := by
    have same := congrArg GapCandidate.legIds shows
    exact same ▸ left
  have legs' : legId ∈ base'.legIds := by
    have same := congrArg GapCandidate.legIds shows'
    exact same ▸ right
  have listed : base ∈ (items progress.generated).map snd := mem_map.2 ⟨_, stored, rfl⟩
  have listed' : base' ∈ (items progress.generated).map snd := mem_map.2 ⟨_, stored', rfl⟩
  have connected := connected_of_shared listed listed' legs legs'
  have joined : m.conflictSetId = m'.conflictSetId := by
    rw [cluster, cluster']
    exact (unions_same _ _ _).2 connected
  have ids := promoted_alone positive hm hm' joined (eligible_before first) (eligible_before second)
  have unique : m = m' := ranked_injective named hm hm' ids
  exact different (by rw [unique])

theorem stamped_unclassified (hc : c ∈ stamp limits progress)
    (eligible : c.promotionEligible = true) :
    ∃ key base, (key, base) ∈ progress.generated ∧ c.bare = base.bare ∧ externalOrigin ∉ base.reasonCodes := by
  obtain ⟨m, hm, rfl⟩ := mem_stamp.1 hc
  obtain ⟨key, base, stored, bare, kept, -⟩ := mem_ranked hm
  refine ⟨key, base, mem_of_items stored, (bare_demote _ _).trans ((bare_promotion _ _ _).trans bare), fun present => ?_⟩
  exact (promotion_eligible (eligible_before eligible)).1 (kept _ present)

theorem stamped_base (hc : c ∈ stamp limits progress) :
    ∃ key base, (key, base) ∈ progress.generated ∧ c.bare = base.bare := by
  obtain ⟨m, hm, rfl⟩ := mem_stamp.1 hc
  obtain ⟨key, base, stored, bare, -⟩ := mem_ranked hm
  exact ⟨key, base, mem_of_items stored, (bare_demote _ _).trans ((bare_promotion _ _ _).trans bare)⟩

theorem mem_candidates {rows : List GapRow}
    (member : c ∈ (computeCustodyGapSearch sha256 iso limits ignored rows).candidates) :
    c ∈ stamp limits (explore sha256 iso limits (normalizedLegs iso ignored rows)) := by
  unfold computeCustodyGapSearch at member
  dsimp only at member
  split at member
  · exact mem_of_mem_take member
  · split at member <;> exact member

theorem mem_accounting {rows : List GapRow} :
    c ∈ (computeCustodyGapSearch sha256 iso limits ignored rows).accountingCandidates ↔
      c ∈ stamp limits (explore sha256 iso limits (normalizedLegs iso ignored rows)) ∧ c.promotionEligible = true := by
  unfold computeCustodyGapSearch
  dsimp only
  split
  · exact mem_filter
  · split <;> exact mem_filter

structure Balances (legs sources returns : List Leg) (c : GapCandidate) : Prop where
  sourceIds : c.sourceIds = groupIds sources ∧ sources ≠ [] ∧ ∀ leg ∈ sources, leg ∈ legs ∧ leg.direction = .outbound
  returnIds : c.returnIds = groupIds returns ∧ returns ≠ [] ∧ ∀ leg ∈ returns, leg ∈ legs ∧ leg.direction = .inbound
  sourceTotal : c.retainedMsat + c.residualMsat = c.sourceTotalMsat ∧ c.sourceTotalMsat = total sources
  returnTotal : c.retainedMsat + c.excessMsat = c.returnTotalMsat ∧ c.returnTotalMsat = total returns
  later : ∀ source ∈ sources, ∀ back ∈ returns, source.moment < back.moment
  unclassified : c.promotionEligible = true → ∀ leg ∈ sources ++ returns, externalOrigin ∉ leg.disqualifierCodes

/-- The promoted candidates stand apart, and every candidate balances legs of the rows. -/
structure PromotesApart (legs : List Leg) (result : GapSearchResult) : Prop where
  displayed : ∀ c ∈ result.candidates, ∀ d ∈ result.candidates, c.promotionEligible = true → d.promotionEligible = true →
    c ≠ d → ∀ legId ∈ c.legIds, legId ∉ d.legIds
  accounting : ∀ c ∈ result.accountingCandidates, ∀ d ∈ result.accountingCandidates, c ≠ d →
    ∀ legId ∈ c.legIds, legId ∉ d.legIds
  balanced : ∀ c, c ∈ result.candidates ∨ c ∈ result.accountingCandidates →
    ∃ sources returns, Balances legs sources returns c

theorem visitedSources_subset {leg : Leg}
    (member : leg ∈ visitedSources limits worklistLimited part) : leg ∈ sourcesOf part := by
  unfold visitedSources at member
  split at member
  · exact mem_of_mem_filter member
  · exact member

theorem mem_part (listed : part ∈ scopes legs) {leg : Leg} (member : leg ∈ part) : leg ∈ legs := by
  obtain ⟨entry, group, rfl⟩ := mem_map.1 listed
  obtain ⟨same, -⟩ := mem_groupBy.1 (mem_sortedBy.1 group)
  exact mem_of_mem_filter (same ▸ member)

theorem returnsOf_pairwise (part : List Leg) : (returnsOf part).Pairwise (Leg.sortKey · ≤ Leg.sortKey ·) :=
  (sortedBy_pairwise Leg.sortKey part).filter _

theorem normalizeLeg_id {row : GapRow} {leg : Leg} (read : normalizeLeg iso ignored row = some leg) :
    leg.id = strip row.id := by
  unfold normalizeLeg at read
  dsimp only at read
  split_ifs at read <;> split at read <;> try cases read
  all_goals
    split at read
    · cases read
    · cases read
      rfl

theorem generated_balances (sentinelled : ∀ leg ∈ legs, leg.id ≤ "\uffff") {c base : GapCandidate}
    (origin : Generated sha256 iso limits (decide (limits.maxInputRows < legs.length)) (scopes legs) base)
    (bare : c.bare = base.bare)
    (unclassified : c.promotionEligible = true → externalOrigin ∉ base.reasonCodes) :
    ∃ sources returns, Balances legs sources returns c := by
  obtain ⟨part, listed, lead, others, returns, width, window, answered, -, rfl⟩ := origin
  have visited : ∀ leg ∈ lead :: others, leg ∈ visitedSources limits (decide (limits.maxInputRows < legs.length)) part :=
    fun leg inside => mem_of_window window inside
  obtain ⟨some, behind⟩ := answers_sound answered
  refine ⟨lead :: others, returns, ?_, ?_, ?_, ?_, ?_, ?_⟩
  · refine ⟨congrArg (fun c => c.sourceIds) bare, cons_ne_nil _ _, fun leg inside => ?_⟩
    obtain ⟨sorted, outbound⟩ := mem_filter.1 (visitedSources_subset (visited leg inside))
    exact ⟨mem_part listed (mem_sortedBy.1 sorted), of_decide_eq_true outbound⟩
  · refine ⟨congrArg (fun c => c.returnIds) bare, some, fun leg inside => ?_⟩
    obtain ⟨sorted, inbound⟩ := mem_filter.1 (behind leg inside).1
    exact ⟨mem_part listed (mem_sortedBy.1 sorted), of_decide_eq_true inbound⟩
  · have retained : c.retainedMsat = min (total (lead :: others)) (total returns) := congrArg (fun c => c.retainedMsat) bare
    have residual : c.residualMsat = total (lead :: others) - min (total (lead :: others)) (total returns) :=
      congrArg (fun c => c.residualMsat) bare
    have sum : c.sourceTotalMsat = total (lead :: others) := congrArg (fun c => c.sourceTotalMsat) bare
    refine ⟨?_, sum⟩
    rw [retained, residual, sum]
    omega
  · have retained : c.retainedMsat = min (total (lead :: others)) (total returns) := congrArg (fun c => c.retainedMsat) bare
    have excess : c.excessMsat = total returns - min (total (lead :: others)) (total returns) :=
      congrArg (fun c => c.excessMsat) bare
    have sum : c.returnTotalMsat = total returns := congrArg (fun c => c.returnTotalMsat) bare
    refine ⟨?_, sum⟩
    rw [retained, excess, sum]
    omega
  · intro source inside back answer
    refine (moment_le_latest inside).trans_lt ?_
    obtain ⟨returned, after | ⟨small, eligible⟩⟩ := behind back answer
    · exact after
    · rcases ((mem_eligibleReturns (returnsOf_pairwise part)).1 eligible).2 with after | ⟨-, beyond⟩
      · exact after
      · -- No id stands behind the sentinel that a return at the boundary would have to pass.
        have known := mem_part listed (mem_sortedBy.1 (mem_of_mem_filter returned))
        exact absurd beyond (not_lt.2 (sentinelled back known))
  · intro eligible leg inside disqualified
    refine unclassified eligible (mem_append_right _ (mem_sortedSet.2 ?_))
    exact mem_flatMap.2 ⟨leg, inside, disqualified⟩

def sampleDigest (_ : String) : String := "ccbb6582b8183ee27c3fb46297954c668b07078315a2b2d6f236974f154c8623"

def sampleIso (_ : Int) : String := "2024-01-01T00:00:00Z"

def sampleInstant : Int := 1704067200000000

def sampleSpend : GapRow :=
  { id := "a", profileId := "p", asset := "BTC", direction := .outbound, amount := 100000000, fee := 1000
    walletId := "cold", moment := some sampleInstant }

def sampleReturn (id : String) (moment : Int) : GapRow :=
  { id, profileId := "p", asset := "BTC", direction := .inbound, amount := 100000000, walletId := "hot"
    moment := some moment }

end Kassiber.Custody.Gaps
