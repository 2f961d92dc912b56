import Kassiber.Sync.SourceOverlap

/-!
Which wallet keeps a shared script. A wallet ranks itself by its own targets next to the stored evidence of the others, so
two wallets can each defer to the other.
-/

namespace Kassiber.Sync
open Lib.Dict Lib.Sorting Custody Custody.Book List

/-! ### The recommended wallet of a group -/

def sourcesOf (group : List SourceScript) (wallet : String) : List SourceScript :=
  group.filter fun source => source.walletId = wallet

/-- One wallet's evidence ranks before another's, wherever both have some. -/
def Leads (own other : List SourceScript) : Prop :=
  ∀ mine ∈ overlapWallet own, ∀ theirs ∈ overlapWallet other, canonicalWalletSortKey mine < canonicalWalletSortKey theirs

variable {wallet : OverlapWallet} {sources : List SourceScript}

theorem sortKey_id {other : OverlapWallet} (same : canonicalWalletSortKey wallet = canonicalWalletSortKey other) :
    wallet.id = other.id := by
  unfold canonicalWalletSortKey at same
  simp only [EmbeddingLike.apply_eq_iff_eq, Prod.mk.injEq] at same
  exact same.2.2.2.2.2

theorem overlapWallet_id {id : String} (own : ∀ source ∈ sources, source.walletId = id)
    (made : overlapWallet sources = some wallet) : wallet.id = id := by
  cases sources with
  | nil => cases made
  | cons first rest =>
    cases made
    exact own first (.head _)

theorem sourcesOf_own (group : List SourceScript) (id : String) : ∀ source ∈ sourcesOf group id, source.walletId = id :=
  fun _ member => of_decide_eq_true (mem_filter.1 member).2

theorem overlapWallet_some (some : sources ≠ []) :
    ∃ wallet, overlapWallet sources = Option.some wallet := by
  cases sources with
  | nil => exact absurd rfl some
  | cons first rest => exact ⟨_, rfl⟩

variable {group : List SourceScript}

theorem mem_overlapWallets :
    wallet ∈ overlapWallets group ↔ overlapWallet (sourcesOf group wallet.id) = some wallet := by
  unfold overlapWallets
  rw [mem_sortedBy, mem_filterMap]
  constructor
  · rintro ⟨⟨id, members⟩, listed, made⟩
    obtain ⟨rfl, -⟩ := mem_groupBy.1 listed
    have same := overlapWallet_id (sourcesOf_own group id) made
    rw [same]
    exact made
  · intro made
    refine ⟨(wallet.id, sourcesOf group wallet.id), mem_groupBy.2 ⟨rfl, ?_⟩, made⟩
    cases found : sourcesOf group wallet.id with
    | nil =>
      rw [found] at made
      cases made
    | cons first rest =>
      have member : first ∈ sourcesOf group wallet.id := by
        rw [found]
        exact .head _
      obtain ⟨listed, own⟩ := mem_filter.1 member
      exact mem_map.2 ⟨first, listed, of_decide_eq_true own⟩

theorem recommended_least {best : OverlapWallet} (found : recommendedWallet group = some best) :
    best ∈ overlapWallets group ∧
      ∀ wallet ∈ overlapWallets group, canonicalWalletSortKey best ≤ canonicalWalletSortKey wallet := by
  unfold recommendedWallet at found
  have ordered := sortedBy_pairwise canonicalWalletSortKey (overlapWallets group)
  cases sorted : sortedBy canonicalWalletSortKey (overlapWallets group) with
  | nil =>
    rw [sorted] at found
    cases found
  | cons first rest =>
    rw [sorted] at found ordered
    cases found
    refine ⟨mem_sortedBy.1 (sorted ▸ mem_cons_self), fun wallet member => ?_⟩
    have listed : wallet ∈ best :: rest := sorted ▸ mem_sortedBy.2 member
    rcases mem_cons.1 listed with rfl | later
    · exact le_rfl
    · exact (pairwise_cons.1 ordered).1 wallet later

theorem recommended_iff {id : String} (member : sourcesOf group id ≠ []) :
    (recommendedWallet group).map OverlapWallet.id = some id ↔
      ∀ other, other ≠ id → Leads (sourcesOf group id) (sourcesOf group other) := by
  obtain ⟨mine, made⟩ := overlapWallet_some member
  have mineId := overlapWallet_id (sourcesOf_own group id) made
  have listed : mine ∈ overlapWallets group := mem_overlapWallets.2 (mineId ▸ made)
  cases found : recommendedWallet group with
  | none =>
    unfold recommendedWallet at found
    rw [head?_eq_none_iff] at found
    have present : mine ∈ sortedBy canonicalWalletSortKey (overlapWallets group) := mem_sortedBy.2 listed
    rw [found] at present
    cases present
  | some best =>
    obtain ⟨bestListed, least⟩ := recommended_least found
    rw [Option.map_some, Option.some.injEq]
    constructor
    · intro isOwn other different own ownMade theirs theirsMade
      have theirsId := overlapWallet_id (sourcesOf_own group other) theirsMade
      have bestMade := mem_overlapWallets.1 bestListed
      rw [isOwn, show overlapWallet (sourcesOf group id) = some own from ownMade] at bestMade
      cases bestMade
      refine lt_of_le_of_ne (least theirs (mem_overlapWallets.2 (theirsId ▸ theirsMade))) fun same => different ?_
      rw [← theirsId, ← sortKey_id same, isOwn]
    · intro leads
      by_contra other
      have bestMade := mem_overlapWallets.1 bestListed
      exact absurd (least mine listed) (not_le.2 (leads best.id other mine made best bestMade))

section
variable (profile : Profile) (wallet : WalletRow) (state : SyncState)

def indexOf (indexed : Bool) : Option ProfileSourceIndex :=
  if indexed then some (buildProfileSourceIndex profile) else none

def ownSources (indexed : Bool) : List SourceScript :=
  sourcesOf (sourceScripts profile (scriptsFromSyncState profile wallet state) (indexOf profile indexed)) wallet.id

/-- The stored evidence of another wallet that counts for its neighbours. -/
def storedSources (other : String) : List SourceScript :=
  sourcesOf ((buildProfileSourceIndex profile).sources.filter (includeSource [])) other

def keyed (key : ScriptKey) (sources : List SourceScript) : List SourceScript :=
  sources.filter fun source => source.key = some key

variable {source : SourceScript} {candidates : List SourceScript}

/-- What every source of a wallet says of it. -/
structure Describes (wallet : WalletRow) (source : SourceScript) : Prop where
  owner : source.walletId = wallet.id
  deprecated : source.deprecated = wallet.config.deprecated
  kind : source.walletKind ∈ canonicalWalletKinds ↔ wallet.kind ∈ canonicalWalletKinds

/-- What a source that is made from the wallet's own row says besides. -/
structure Configured (wallet : WalletRow) (source : SourceScript) : Prop extends Describes wallet source where
  label : source.walletLabel = orElse wallet.label wallet.id
  same : source.walletKind = wallet.kind

theorem candidate_own (member : source ∈ scriptsFromSyncState profile wallet state) :
    Configured wallet source ∧ source.source = .syncTarget ∧ source.activeTransactionCount = 0 := by
  obtain ⟨target, -, made⟩ := mem_filterMap.1 member
  split at made
  · cases made
  · cases made
    exact ⟨⟨⟨rfl, rfl, Iff.rfl⟩, rfl, rfl⟩, rfl, rfl⟩

theorem candidate_wallet (member : source ∈ scriptsFromSyncState profile wallet state) :
    source.walletId = wallet.id ∧ source.source = .syncTarget :=
  ⟨(candidate_own profile wallet state member).1.owner, (candidate_own profile wallet state member).2.1⟩

theorem derivedScripts_own {wallet : WalletRow} {plan : DescriptorPlan} {count : Nat} {branch start stop : Int}
    (member : source ∈ derivedScripts profile wallet plan count branch start stop) :
    Configured wallet source ∧ source.source = .descriptorConfig ∧ source.activeTransactionCount = count := by
  obtain ⟨target, -, rfl⟩ := mem_map.1 member
  exact ⟨⟨⟨rfl, rfl, Iff.rfl⟩, rfl, rfl⟩, rfl, rfl⟩

theorem descriptorScripts_own {wallet : WalletRow}
    (member : source ∈ descriptorScripts profile candidates wallet) :
    Configured wallet source ∧ source.source = .descriptorConfig ∧
      source.activeTransactionCount = profile.activeCounts wallet.id := by
  unfold descriptorScripts at member
  split at member
  · cases member
  · obtain ⟨branch, -, derived⟩ := mem_flatMap.1 member
    exact derivedScripts_own profile derived

theorem addressListScripts_own {wallet : WalletRow} (member : source ∈ addressListScripts profile wallet) :
    Describes wallet source ∧ source.source = .addressList ∧
      source.activeTransactionCount = profile.activeCounts wallet.id := by
  unfold addressListScripts at member
  dsimp only at member
  split at member
  · cases member
  obtain ⟨entry, -, made⟩ := mem_filterMap.1 member
  obtain ⟨script, -, rfl⟩ := Option.map_eq_some_iff.1 made
  refine ⟨⟨rfl, rfl, ?_⟩, rfl, rfl⟩
  by_cases unnamed : wallet.kind = ""
  · simp [orElse, unnamed, canonicalWalletKinds]
  · simp only [orElse, if_neg unnamed]

theorem inventoryScripts_own (member : source ∈ inventoryScripts profile) :
    source.source = .inventory ∧ ∀ wallet, walletRow profile source.walletId = some wallet → wallet.id = source.walletId →
      Describes wallet source ∧ source.activeTransactionCount = profile.activeCounts wallet.id := by
  obtain ⟨output, -, made⟩ := mem_filterMap.1 member
  obtain ⟨script, -, rfl⟩ := Option.map_eq_some_iff.1 made
  refine ⟨rfl, fun wallet found named => ⟨⟨named.symm, ?_, ?_⟩, congrArg profile.activeCounts named.symm⟩⟩
  · simp [show walletRow profile output.walletId = some wallet from found]
  · simp [show walletRow profile output.walletId = some wallet from found]

variable {id : String}

theorem walletRow_id {row : WalletRow} (found : walletRow profile id = some row) : row.id = id := by
  obtain ⟨other, -, same⟩ := mem_map.1 (mem_of_lookup found)
  cases same
  rfl

theorem supplements_own {index : ProfileSourceIndex}
    (member : source ∈ candidateDescriptorSupplements profile index candidates) :
    source.walletId ∈ candidates.map SourceScript.walletId ∧ source.source = .descriptorConfig ∧
      ∃ row, walletRow profile source.walletId = some row ∧ Configured row source := by
  obtain ⟨id, listed, own⟩ := mem_flatMap.1 member
  obtain ⟨candidate, kept, rfl⟩ := mem_map.1 (mem_eraseDups.1 listed)
  split at own
  · cases own
  rename_i row found
  split at own
  · cases own
  obtain ⟨branch, -, own⟩ := mem_flatMap.1 own
  split at own
  · cases own
  dsimp only at own
  split at own
  · cases own
  · obtain ⟨owner, kind, -⟩ := derivedScripts_own profile own
    have named := owner.owner.trans (walletRow_id profile found)
    refine ⟨named ▸ mem_map_of_mem (mem_filter.1 kept).1, kind, row, (congrArg _ named).trans found, owner⟩

theorem sourcesOf_append (left right : List SourceScript) (id : String) :
    sourcesOf (left ++ right) id = sourcesOf left id ++ sourcesOf right id := filter_append _ _

theorem sourcesOf_foreign {sources : List SourceScript} (foreign : ∀ source ∈ sources, source.walletId ≠ id) :
    sourcesOf sources id = [] := by
  unfold sourcesOf
  rw [filter_eq_nil_iff]
  exact fun source member own => foreign source member (of_decide_eq_true own)

theorem descriptorConfig_other (foreign : ∀ source ∈ candidates, source.walletId ≠ id) :
    sourcesOf (descriptorConfigScripts profile candidates) id = sourcesOf (descriptorConfigScripts profile []) id := by
  unfold descriptorConfigScripts sourcesOf
  rw [filter_flatMap, filter_flatMap]
  refine flatMap_congr fun row _ => ?_
  by_cases own : row.id = id
  · have horizon : ∀ branch, knownMax profile candidates row.id branch = knownMax profile [] row.id branch := by
      intro branch
      have none : branchIndexes candidates row.id branch = [] := by
        unfold branchIndexes
        rw [filterMap_eq_nil_iff]
        exact fun source member => if_neg fun named => foreign source member (named.1.trans own)
      unfold knownMax
      rw [none]
      rfl
    unfold descriptorScripts
    simp only [horizon]
  · have none : ∀ candidates, (descriptorScripts profile candidates row).filter (fun source => source.walletId = id) = [] := by
      intro candidates
      rw [filter_eq_nil_iff]
      exact fun source member same => own ((descriptorScripts_own profile member).1.owner.symm.trans (of_decide_eq_true same))
    rw [none, none]

theorem view_indexed (candidates : List SourceScript) :
    sourceScripts profile candidates (indexOf profile true) =
      (buildProfileSourceIndex profile).sources ++ candidates ++
        candidateDescriptorSupplements profile (buildProfileSourceIndex profile) candidates := by
  have same : (buildProfileSourceIndex profile).profileId = profile.id := rfl
  unfold sourceScripts indexOf
  rw [if_pos rfl, Option.filter_some, if_pos (decide_eq_true same)]

theorem view_other (indexed : Bool) {other : String} (different : other ≠ wallet.id) :
    sourcesOf (sourceScripts profile (scriptsFromSyncState profile wallet state) (indexOf profile indexed)) other =
      sourcesOf (buildProfileSourceIndex profile).sources other := by
  have foreign : ∀ source ∈ scriptsFromSyncState profile wallet state, source.walletId ≠ other :=
    fun source member same => different (same.symm.trans (candidate_wallet profile wallet state member).1)
  cases indexed with
  | true =>
    have supplements : ∀ source ∈ candidateDescriptorSupplements profile (buildProfileSourceIndex profile)
        (scriptsFromSyncState profile wallet state), source.walletId ≠ other := by
      intro source member same
      obtain ⟨candidate, listed, owner⟩ := mem_map.1 (supplements_own profile member).1
      exact foreign candidate listed (owner.trans same)
    rw [view_indexed, sourcesOf_append, sourcesOf_append, sourcesOf_foreign foreign, sourcesOf_foreign supplements, append_nil,
      append_nil]
  | false =>
    show sourcesOf (_ ++ _ ++ _ ++ descriptorConfigScripts profile _) other = sourcesOf (_ ++ _ ++ _) other
    rw [sourcesOf_append, sourcesOf_append, sourcesOf_append, sourcesOf_append, sourcesOf_append, sourcesOf_foreign foreign,
      append_nil, descriptorConfig_other profile foreign]

theorem stored_kind (member : source ∈ (buildProfileSourceIndex profile).sources) : source.source ≠ .syncTarget := by
  intro target
  rcases mem_append.1 member with early | derived
  · rcases mem_append.1 early with listed | stored
    · obtain ⟨row, -, own⟩ := mem_flatMap.1 listed
      rw [(addressListScripts_own profile own).2.1] at target
      cases target
    · rw [(inventoryScripts_own profile stored).1] at target
      cases target
  · obtain ⟨row, -, own⟩ := mem_flatMap.1 derived
    rw [(descriptorScripts_own profile own).2.1] at target
    cases target

theorem view_target (indexed : Bool) (target : source.source = .syncTarget) :
    source ∈ sourceScripts profile (scriptsFromSyncState profile wallet state) (indexOf profile indexed) ↔
      source ∈ scriptsFromSyncState profile wallet state := by
  have notStored : source ∉ (buildProfileSourceIndex profile).sources := fun member => stored_kind profile member target
  cases indexed with
  | true =>
    rw [view_indexed]
    constructor
    · intro member
      rcases mem_append.1 member with early | added
      · exact (mem_append.1 early).resolve_left notStored
      · rw [(supplements_own profile added).2.1] at target
        cases target
    · exact fun member => mem_append_left _ (mem_append_right _ member)
  | false =>
    constructor
    · intro member
      rcases mem_append.1 member with early | derived
      · rcases mem_append.1 early with stored | own
        · exact absurd (mem_append_left _ stored) notStored
        · exact own
      · obtain ⟨row, -, own⟩ := mem_flatMap.1 derived
        rw [(descriptorScripts_own profile own).2.1] at target
        cases target
    · exact fun member => mem_append_left _ (mem_append_right _ member)

/-! ### The scripts a wallet drops -/

def groupOf (indexed : Bool) (key : ScriptKey) : List SourceScript :=
  keyed key ((sourceScripts profile (scriptsFromSyncState profile wallet state) (indexOf profile indexed)).filter
    (includeSource ((scriptsFromSyncState profile wallet state).map SourceScript.walletId)))

theorem sourcesOf_filter (sources : List SourceScript) (p : SourceScript → Bool) (id : String) :
    sourcesOf (sources.filter p) id = (sourcesOf sources id).filter p := by
  unfold sourcesOf
  rw [filter_filter, filter_filter]
  simp only [Bool.and_comm]

theorem sourcesOf_keyed (key : ScriptKey) (sources : List SourceScript) (id : String) :
    sourcesOf (keyed key sources) id = keyed key (sourcesOf sources id) := sourcesOf_filter _ _ id

theorem mem_groups (indexed : Bool) {entry : Option (ScriptKey) × List SourceScript} :
    entry ∈ sourceScriptGroups profile (scriptsFromSyncState profile wallet state) (indexOf profile indexed) ↔
      ∃ key, entry = (some key, groupOf profile wallet state indexed key) ∧ groupOf profile wallet state indexed key ≠ [] := by
  obtain ⟨name, members⟩ := entry
  unfold sourceScriptGroups
  rw [mem_groupBy]
  have groups : ∀ key, (((sourceScripts profile (scriptsFromSyncState profile wallet state) (indexOf profile indexed)).filter
      (includeSource ((scriptsFromSyncState profile wallet state).map SourceScript.walletId))).filter
        fun source => source.key.isSome).filter (fun source => source.key = some key) =
        groupOf profile wallet state indexed key := by
    intro key
    unfold groupOf keyed
    rw [filter_filter]
    refine filter_congr fun source _ => ?_
    by_cases named : source.key = some key
    · simp [named]
    · simp [named]
  constructor
  · rintro ⟨rfl, listed⟩
    obtain ⟨source, member, rfl⟩ := mem_map.1 listed
    obtain ⟨kept, named⟩ := mem_filter.1 member
    obtain ⟨key, found⟩ := Option.isSome_iff_exists.1 named
    refine ⟨key, ?_, ?_⟩
    · rw [found, groups]
    · exact ne_nil_of_mem (mem_filter.2 ⟨kept, decide_eq_true found⟩)
  · rintro ⟨key, same, some⟩
    cases same
    obtain ⟨source, member⟩ := exists_mem_of_ne_nil _ some
    obtain ⟨kept, named⟩ := mem_filter.1 member
    have found := of_decide_eq_true named
    exact ⟨(groups key).symm, mem_map.2 ⟨source, mem_filter.2 ⟨kept, by rw [found]; rfl⟩, found⟩⟩

section
variable (candidate : scriptsFromSyncState profile wallet state ≠ [])
include candidate

theorem candidate_ids (id : String) :
    id ∈ (scriptsFromSyncState profile wallet state).map SourceScript.walletId ↔ id = wallet.id := by
  constructor
  · intro listed
    obtain ⟨source, member, rfl⟩ := mem_map.1 listed
    exact (candidate_wallet profile wallet state member).1
  · rintro rfl
    obtain ⟨source, member⟩ := exists_mem_of_ne_nil _ candidate
    exact mem_map.2 ⟨source, member, (candidate_wallet profile wallet state member).1⟩

theorem group_own (indexed : Bool) (key : ScriptKey) :
    sourcesOf (groupOf profile wallet state indexed key) wallet.id = keyed key (ownSources profile wallet state indexed) := by
  unfold groupOf
  rw [sourcesOf_keyed]
  congr 1
  unfold ownSources sourcesOf
  rw [filter_filter]
  refine filter_congr fun source _ => ?_
  by_cases own : source.walletId = wallet.id
  · have listed := (candidate_ids profile wallet state candidate source.walletId).2 own
    have included : includeSource ((scriptsFromSyncState profile wallet state).map SourceScript.walletId) source = true := by
      unfold includeSource
      rw [decide_eq_true listed, Bool.true_or, Bool.true_or]
    rw [included, Bool.and_true]
  · rw [decide_eq_false own, Bool.false_and]

theorem group_other (indexed : Bool) (key : ScriptKey) {other : String}
    (different : other ≠ wallet.id) :
    sourcesOf (groupOf profile wallet state indexed key) other = keyed key (storedSources profile other) := by
  unfold groupOf
  rw [sourcesOf_keyed]
  congr 1
  unfold storedSources
  rw [sourcesOf_filter, sourcesOf_filter, view_other profile wallet state indexed different]
  refine filter_congr fun source member => ?_
  have owner := sourcesOf_own _ _ source member
  have absent : source.walletId ∉ (scriptsFromSyncState profile wallet state).map SourceScript.walletId := by
    rw [candidate_ids profile wallet state candidate, owner]
    exact different
  unfold includeSource
  rw [decide_eq_false absent, decide_eq_false (not_mem_nil)]

def LeadsAll (indexed : Bool) (key : ScriptKey) : Prop :=
  ∀ other, other ≠ wallet.id →
    Leads (keyed key (ownSources profile wallet state indexed)) (keyed key (storedSources profile other))

theorem mem_filteredScripts (indexed : Bool) {script : String} :
    script ∈ filteredScripts profile wallet (scriptsFromSyncState profile wallet state) (indexOf profile indexed) ↔
      ∃ target ∈ scriptsFromSyncState profile wallet state, target.scriptPubkey = script ∧
        ∃ key, target.key = some key ∧ ¬ LeadsAll profile wallet state indexed key := by
  have inGroup : ∀ target ∈ scriptsFromSyncState profile wallet state, ∀ key, target.key = some key →
      target ∈ groupOf profile wallet state indexed key := by
    intro target member key named
    obtain ⟨owner, kind⟩ := candidate_wallet profile wallet state member
    have included : includeSource ((scriptsFromSyncState profile wallet state).map SourceScript.walletId) target = true := by
      unfold includeSource
      rw [decide_eq_true (mem_map_of_mem member), Bool.true_or, Bool.true_or]
    exact mem_filter.2 ⟨mem_filter.2 ⟨(view_target profile wallet state indexed kind).2 member, included⟩,
      decide_eq_true named⟩
  have leads : ∀ key, sourcesOf (groupOf profile wallet state indexed key) wallet.id ≠ [] →
      ((recommendedWallet (groupOf profile wallet state indexed key)).map OverlapWallet.id = some wallet.id ↔
        LeadsAll profile wallet state indexed key) := by
    intro key own
    rw [recommended_iff own, group_own profile wallet state candidate]
    refine forall_congr' fun other => forall_congr' fun different => ?_
    rw [group_other profile wallet state candidate indexed key different]
  unfold filteredScripts
  rw [mem_flatMap]
  constructor
  · rintro ⟨entry, listed, dropped⟩
    obtain ⟨key, rfl, -⟩ := (mem_groups profile wallet state indexed).1 listed
    dsimp only at dropped
    split at dropped
    · cases dropped
    rename_i contested
    obtain ⟨target, current, rfl⟩ := mem_map.1 dropped
    obtain ⟨member, own⟩ := mem_filter.1 current
    obtain ⟨owner, kind⟩ := of_decide_eq_true own
    obtain ⟨seen, named⟩ := mem_filter.1 member
    refine ⟨target, (view_target profile wallet state indexed kind).1 (mem_of_mem_filter seen), rfl, key,
      of_decide_eq_true named, fun all => contested (.inr (.inr (.inr ?_)))⟩
    exact (leads key (ne_nil_of_mem (mem_filter.2 ⟨member, decide_eq_true owner⟩))).2 all
  · rintro ⟨target, member, rfl, key, named, defers⟩
    obtain ⟨owner, kind⟩ := candidate_wallet profile wallet state member
    have present := inGroup target member key named
    have own : target ∈ sourcesOf (groupOf profile wallet state indexed key) wallet.id :=
      mem_filter.2 ⟨present, decide_eq_true owner⟩
    refine ⟨_, (mem_groups profile wallet state indexed).2 ⟨key, rfl, ne_nil_of_mem present⟩, ?_⟩
    have current : target ∈ (groupOf profile wallet state indexed key).filter
        fun source => source.walletId = wallet.id ∧ source.source = .syncTarget :=
      mem_filter.2 ⟨present, decide_eq_true ⟨owner, kind⟩⟩
    rw [if_neg]
    · exact mem_map_of_mem current
    · rintro (few | absent | none | recommended)
      · -- A wallet that is outranked is not alone in the group.
        have alone : ∀ other, other ≠ wallet.id → sourcesOf (groupOf profile wallet state indexed key) other = [] := by
          intro other different
          by_contra some
          obtain ⟨source, listed⟩ := exists_mem_of_ne_nil _ some
          obtain ⟨inside, named'⟩ := mem_filter.1 listed
          have both : [wallet.id, other] ⊆ ((groupOf profile wallet state indexed key).map SourceScript.walletId).dedup := by
            intro id either
            rw [mem_dedup]
            rcases mem_cons.1 either with rfl | second
            · exact mem_map.2 ⟨target, present, owner⟩
            · rw [mem_singleton.1 second]
              exact mem_map.2 ⟨source, inside, of_decide_eq_true named'⟩
          have two := List.Subperm.length_le (subperm_of_subset
            (nodup_cons.2 ⟨fun same => different (mem_singleton.1 same).symm, nodup_singleton other⟩) both)
          have fewer : ((groupOf profile wallet state indexed key).map SourceScript.walletId).dedup.length < 2 := few
          simp only [length_cons, length_nil] at two
          omega
        refine defers fun other different mine _ theirs theirsMade => ?_
        rw [← group_other profile wallet state candidate indexed key different, alone other different] at theirsMade
        cases theirsMade
      · exact absent (mem_map.2 ⟨target, present, owner⟩)
      · rw [none] at current
        cases current
      · exact defers ((leads key (ne_nil_of_mem own)).1 recommended)

end

end

def Syncs (state : SyncState) (script : String) : Prop := script ≠ "" ∧ ∃ target ∈ state.targets, scriptOf target = script

instance (state : SyncState) (script : String) : Decidable (Syncs state script) := inferInstanceAs (Decidable (_ ∧ _))

/-- On every network its targets name for a script, a wallet ranks before all others with stored evidence of it. -/
def RanksFirst (profile : Profile) (wallet : WalletRow) (state : SyncState) (indexed : Bool) (script : String) : Prop :=
  ∀ target ∈ scriptsFromSyncState profile wallet state, target.scriptPubkey = script → ∀ key, target.key = some key →
    LeadsAll profile wallet state indexed key

theorem syncs_filterTargets {state : SyncState} {filtered : List String} {script : String} :
    Syncs (filterSyncTargets state filtered) script ↔ Syncs state script ∧ script ∉ filtered := by
  have kept : (filterSyncTargets state filtered).targets = state.targets.filter fun target => scriptOf target ∉ filtered := by
    unfold filterSyncTargets
    dsimp only
    split
    · rename_i whole
      exact (filter_eq_self.2 (length_filter_eq_length_iff.1 whole)).symm
    · rfl
  unfold Syncs
  rw [kept]
  constructor
  · rintro ⟨named, target, member, rfl⟩
    obtain ⟨listed, stays⟩ := mem_filter.1 member
    exact ⟨⟨named, target, listed, rfl⟩, of_decide_eq_true stays⟩
  · rintro ⟨⟨named, target, listed, rfl⟩, stays⟩
    exact ⟨named, target, mem_filter.2 ⟨listed, decide_eq_true stays⟩, rfl⟩

theorem syncs_filtered_iff (profile : Profile) (wallet : WalletRow) (state : SyncState) (indexed : Bool) (script : String) :
    Syncs (filterSyncStateForCanonicalOwner profile wallet state (indexOf profile indexed)) script ↔
      Syncs state script ∧ RanksFirst profile wallet state indexed script := by
  unfold filterSyncStateForCanonicalOwner
  dsimp only
  by_cases none : scriptsFromSyncState profile wallet state = []
  · rw [if_pos none]
    refine ⟨fun syncs => ⟨syncs, fun target member => ?_⟩, And.left⟩
    rw [none] at member
    cases member
  rw [if_neg none]
  have dropped := fun text => @mem_filteredScripts profile wallet state none indexed text
  have stays : script ∉ filteredScripts profile wallet (scriptsFromSyncState profile wallet state) (indexOf profile indexed) ↔
      RanksFirst profile wallet state indexed script := by
    rw [dropped script]
    constructor
    · intro kept target member named key found
      by_contra defers
      exact kept ⟨target, member, named, key, found, defers⟩
    · rintro first ⟨target, member, named, key, found, defers⟩
      exact defers (first target member named key found)
  rw [← stays]
  by_cases clear : filteredScripts profile wallet (scriptsFromSyncState profile wallet state) (indexOf profile indexed) = []
  · rw [if_pos clear, clear]
    exact ⟨fun syncs => ⟨syncs, not_mem_nil⟩, And.left⟩
  · rw [if_neg clear, syncs_filterTargets]

def Shared (syncs : List (WalletRow × SyncState)) (script : String) : Prop :=
  ∃ sync ∈ syncs, ∃ other ∈ syncs, sync.1.id ≠ other.1.id ∧ Syncs sync.2 script ∧ Syncs other.2 script

/-- After each wallet has dropped what others own, every shared script is still synced by one of them. -/
def NoneOrphaned (profile : Profile) (syncs : List (WalletRow × SyncState)) (indexed : Bool) : Prop :=
  ∀ script, Shared syncs script → ∃ sync ∈ syncs, Syncs sync.2 script ∧
    Syncs (filterSyncStateForCanonicalOwner profile sync.1 sync.2 (indexOf profile indexed)) script

/-! ### Rank by one's own view and by stored evidence -/

theorem le_foldl_min {bound first : Nat} {numbers : List Nat} :
    bound ≤ numbers.foldl min first ↔ bound ≤ first ∧ ∀ number ∈ numbers, bound ≤ number := by
  induction numbers generalizing first with
  | nil => simp
  | cons number rest ih => rw [foldl_cons, ih, le_min_iff, forall_mem_cons, and_assoc]

/-- Two sources give their wallet the same rank, but for the kind of evidence. -/
structure Alike (source other : SourceScript) : Prop where
  wallet : source.walletId = other.walletId
  label : source.walletLabel = other.walletLabel
  kind : source.walletKind = other.walletKind
  deprecated : source.deprecated = other.deprecated
  counted : source.activeTransactionCount = 0 ↔ other.activeTransactionCount = 0

theorem Alike.refl (source : SourceScript) : Alike source source := ⟨rfl, rfl, rfl, rfl, Iff.rfl⟩

theorem sortKey_le {own stored : List SourceScript} {mine theirs : OverlapWallet} (made : mine ∈ overlapWallet own)
    (made' : theirs ∈ overlapWallet stored) (alike : ∀ first ∈ own.head?, ∀ other ∈ stored.head?, Alike first other)
    (better : ∀ source ∈ stored, ∃ other ∈ own, sourcePriority other.source ≤ sourcePriority source.source) :
    canonicalWalletSortKey mine ≤ canonicalWalletSortKey theirs := by
  cases own with
  | nil => cases made
  | cons first rest =>
    cases stored with
    | nil => cases made'
    | cons other others =>
      cases made
      cases made'
      obtain ⟨wallet, label, kind, deprecated, counted⟩ := alike first rfl other rfl
      obtain ⟨small, least⟩ := le_foldl_min.1 (le_refl (((first :: rest).map fun source => sourcePriority source.source).foldl min 99))
      have best : ((first :: rest).map fun source => sourcePriority source.source).foldl min 99 ≤
          ((other :: others).map fun source => sourcePriority source.source).foldl min 99 := by
        refine le_foldl_min.2 ⟨small, fun priority listed => ?_⟩
        obtain ⟨source, member, rfl⟩ := mem_map.1 listed
        obtain ⟨mine, held, less⟩ := better source member
        exact (least _ (mem_map_of_mem held)).trans less
      simp only [canonicalWalletSortKey, wallet, label, kind, deprecated, counted, Prod.Lex.toLex_le_toLex', le_refl, true_and,
        true_implies, implies_true, and_true]
      exact best

theorem sortKey_between {low middle high : OverlapWallet} (above : canonicalWalletSortKey low ≤ canonicalWalletSortKey middle)
    (below : canonicalWalletSortKey middle ≤ canonicalWalletSortKey high) (deprecated : low.deprecated = high.deprecated)
    (kind : low.kind ∈ canonicalWalletKinds ↔ high.kind ∈ canonicalWalletKinds) :
    middle.deprecated = high.deprecated ∧ (middle.kind ∈ canonicalWalletKinds ↔ high.kind ∈ canonicalWalletKinds) := by
  simp only [canonicalWalletSortKey, Prod.Lex.toLex_le_toLex', deprecated, kind] at above below
  have first := le_antisymm below.1 above.1
  have second := le_antisymm (below.2 first).1 (above.2 first.symm).1
  constructor
  · by_cases own : middle.deprecated = true <;> by_cases other : high.deprecated = true <;> simp [own, other] at first ⊢
  · by_cases own : middle.kind ∈ canonicalWalletKinds <;> by_cases other : high.kind ∈ canonicalWalletKinds <;>
      simp [own, other] at second ⊢

section
variable {profile : Profile} {wallet : WalletRow} {state : SyncState} {source : SourceScript}
  {candidates : List SourceScript} {indexed : Bool} {key : ScriptKey}

def recorded (profile : Profile) : List SourceScript :=
  (walletsForProfile profile).flatMap (addressListScripts profile) ++ inventoryScripts profile

theorem mem_keyed {sources : List SourceScript} : source ∈ keyed key sources ↔ source ∈ sources ∧ source.key = some key := by
  simp [keyed]

theorem keyed_append (left right : List SourceScript) : keyed key (left ++ right) = keyed key left ++ keyed key right :=
  filter_append _ _

/-- Deriving more addresses keeps the earlier ones. -/
def Profile.Widens (profile : Profile) : Prop :=
  ∀ plan branch stop further, stop ≤ further →
    (profile.derive plan branch 0 stop).getD [] ⊆ (profile.derive plan branch 0 further).getD []

theorem knownMax_widens (branch : Int) (wallet : WalletRow) (plan : DescriptorPlan) :
    (match knownMax profile [] wallet.id branch with
      | none => plan.gapLimit
      | some known => known + plan.gapLimit + 1) ≤
    match knownMax profile candidates wallet.id branch with
      | none => plan.gapLimit
      | some known => known + plan.gapLimit + 1 := by
  have grows (numbers : List Int) (start : Int) : start ≤ numbers.foldl max start := by
    induction numbers generalizing start with
    | nil => exact le_rfl
    | cons number rest ih => exact (le_max_left start number).trans (ih _)
  have known : knownMax profile [] wallet.id branch =
      greatest (outputIndexes profile wallet.id branch ++ (profile.highestUsed wallet.id branch).toList) := by
    simp [knownMax, branchIndexes]
  rw [known, knownMax]
  cases outputIndexes profile wallet.id branch ++ (profile.highestUsed wallet.id branch).toList with
  | nil =>
    cases branchIndexes candidates wallet.id branch with
    | nil => exact le_rfl
    | cons number rest =>
      have above := grows (number :: rest) (-1)
      show plan.gapLimit ≤ (number :: rest).foldl max (-1) + plan.gapLimit + 1
      omega
  | cons number rest =>
    have above := grows (branchIndexes candidates wallet.id branch) ((number :: rest).foldl max (-1))
    rw [← foldl_append] at above
    exact Int.add_le_add_right (Int.add_le_add_right above _) _

theorem descriptorScripts_widen (widens : profile.Widens) (wallet : WalletRow) :
    descriptorScripts profile [] wallet ⊆ descriptorScripts profile candidates wallet := by
  intro source member
  unfold descriptorScripts at member ⊢
  split at member
  · cases member
  rename_i plan _
  obtain ⟨branch, listed, derived⟩ := mem_flatMap.1 member
  obtain ⟨target, kept, rfl⟩ := mem_map.1 derived
  refine mem_flatMap.2 ⟨branch, listed, mem_map.2 ⟨target, widens _ _ _ _ ?_ kept, rfl⟩⟩
  exact max_le_max le_rfl (min_le_min (knownMax_widens branch wallet plan) le_rfl)

variable (distinct : (profile.wallets.map WalletRow.id).Nodup) (listed : wallet ∈ profile.wallets)
include distinct listed

theorem walletRow_listed : walletRow profile wallet.id = some wallet := by
  refine lookup_of_mem ?_ (mem_map_of_mem listed)
  rwa [map_map]

theorem row_eq {row : WalletRow} (member : row ∈ walletsForProfile profile) (same : row.id = wallet.id) : row = wallet :=
  inj_on_of_nodup_map distinct (mem_sortedBy.1 member) listed same

theorem recorded_own (member : source ∈ recorded profile) (own : source.walletId = wallet.id) :
    Describes wallet source ∧ source.source ≠ .descriptorConfig ∧
      source.activeTransactionCount = profile.activeCounts wallet.id := by
  rcases mem_append.1 member with stored | stored
  · obtain ⟨row, held, made⟩ := mem_flatMap.1 stored
    obtain ⟨describes, kind, count⟩ := addressListScripts_own profile made
    obtain rfl := row_eq distinct listed held (describes.owner.symm.trans own)
    exact ⟨describes, by rw [kind]; decide, count⟩
  · obtain ⟨kind, describes⟩ := inventoryScripts_own profile stored
    obtain ⟨describes, count⟩ := describes wallet (own ▸ walletRow_listed distinct listed) own.symm
    exact ⟨describes, by rw [kind]; decide, count⟩

theorem configured_own (member : source ∈ descriptorConfigScripts profile candidates) (own : source.walletId = wallet.id) :
    Configured wallet source ∧ source.source = .descriptorConfig ∧
      source.activeTransactionCount = profile.activeCounts wallet.id := by
  obtain ⟨row, held, made⟩ := mem_flatMap.1 member
  have describes := descriptorScripts_own profile made
  obtain rfl := row_eq distinct listed held (describes.1.owner.symm.trans own)
  exact describes

theorem stored_own (member : source ∈ (buildProfileSourceIndex profile).sources) (own : source.walletId = wallet.id) :
    Describes wallet source ∧ source.activeTransactionCount = profile.activeCounts wallet.id := by
  rcases mem_append.1 member with early | derived
  · obtain ⟨describes, -, count⟩ := recorded_own distinct listed early own
    exact ⟨describes, count⟩
  · obtain ⟨configured, -, count⟩ := configured_own distinct listed derived own
    exact ⟨configured.toDescribes, count⟩

theorem view_own (member : source ∈ ownSources profile wallet state indexed) : Describes wallet source := by
  obtain ⟨seen, own⟩ := mem_filter.1 member
  have own := of_decide_eq_true own
  cases indexed with
  | true =>
    rw [view_indexed] at seen
    rcases mem_append.1 seen with early | added
    · rcases mem_append.1 early with stored | current
      · exact (stored_own distinct listed stored own).1
      · exact (candidate_own profile wallet state current).1.toDescribes
    · obtain ⟨-, -, row, found, configured⟩ := supplements_own profile added
      rw [own, walletRow_listed distinct listed] at found
      cases found
      exact configured.toDescribes
  | false =>
    rcases mem_append.1 seen with early | derived
    · rcases mem_append.1 early with stored | current
      · exact (recorded_own distinct listed stored own).1
      · exact (candidate_own profile wallet state current).1.toDescribes
    · exact (configured_own distinct listed derived own).1.toDescribes

theorem stored_whole (some : keyed key (storedSources profile wallet.id) ≠ []) :
    storedSources profile wallet.id = sourcesOf (buildProfileSourceIndex profile).sources wallet.id := by
  obtain ⟨source, member⟩ := exists_mem_of_ne_nil _ some
  have held := (mem_keyed.1 member).1
  unfold storedSources at held ⊢
  rw [sourcesOf_filter] at held ⊢
  obtain ⟨inside, counts⟩ := mem_filter.1 held
  have describes {other : SourceScript} (inside : other ∈ sourcesOf (buildProfileSourceIndex profile).sources wallet.id) :=
    stored_own distinct listed (mem_of_mem_filter inside) (sourcesOf_own _ _ other inside)
  refine filter_eq_self.2 fun other member => ?_
  unfold includeSource at counts ⊢
  rw [(describes inside).1.deprecated, (describes inside).2] at counts
  rw [(describes member).1.deprecated, (describes member).2]
  simpa using counts

end

/-- Without an index a wallet known by its descriptor alone is ranked as if it had no transactions. -/
def Unseen (profile : Profile) (indexed : Bool) (key : ScriptKey) (wallet : WalletRow) : Prop :=
  indexed = false ∧ profile.activeCounts wallet.id ≠ 0 ∧
    ∀ source ∈ keyed key (storedSources profile wallet.id), source.source = .descriptorConfig

theorem attributes_of {wallet : WalletRow} (described : ∀ source ∈ sources, Describes wallet source)
    {made : OverlapWallet} (found : made ∈ overlapWallet sources) :
    made.deprecated = wallet.config.deprecated ∧ (made.kind ∈ canonicalWalletKinds ↔ wallet.kind ∈ canonicalWalletKinds) := by
  cases sources with
  | nil => cases found
  | cons first rest =>
    cases found
    exact ⟨(described first (.head _)).deprecated, (described first (.head _)).kind⟩

section
variable {profile : Profile} {wallet : WalletRow} {state : SyncState} {indexed : Bool} {key : ScriptKey}
  (distinct : (profile.wallets.map WalletRow.id).Nodup)
include distinct

theorem own_le_stored (widens : profile.Widens) (listed : wallet ∈ profile.wallets) (seen : ¬ Unseen profile indexed key wallet)
    {mine theirs : OverlapWallet} (made : mine ∈ overlapWallet (keyed key (ownSources profile wallet state indexed)))
    (made' : theirs ∈ overlapWallet (keyed key (storedSources profile wallet.id))) :
    canonicalWalletSortKey mine ≤ canonicalWalletSortKey theirs := by
  have some : keyed key (storedSources profile wallet.id) ≠ [] := by
    intro none
    rw [none] at made'
    cases made'
  have whole := stored_whole distinct listed some
  unfold Unseen at seen
  rw [whole] at made' some seen
  have front (left right : List SourceScript) (held : left ≠ []) :
      ∀ first ∈ (left ++ right).head?, ∀ other ∈ left.head?, Alike first other := by
    cases left with
    | nil => exact absurd rfl held
    | cons first rest =>
      rintro _ ⟨⟩ _ ⟨⟩
      exact .refl _
  cases indexed with
  | true =>
    have own : keyed key (ownSources profile wallet state true) =
        keyed key (sourcesOf (buildProfileSourceIndex profile).sources wallet.id) ++ keyed key
          (sourcesOf (scriptsFromSyncState profile wallet state ++ candidateDescriptorSupplements profile
            (buildProfileSourceIndex profile) (scriptsFromSyncState profile wallet state)) wallet.id) := by
      rw [ownSources, view_indexed, append_assoc, sourcesOf_append, keyed_append]
    rw [own] at made
    exact sortKey_le made made' (front _ _ some) fun source member => ⟨source, mem_append_left _ member, le_rfl⟩
  | false =>
    have own : keyed key (ownSources profile wallet state false) = keyed key (sourcesOf (recorded profile) wallet.id) ++
        keyed key (sourcesOf (scriptsFromSyncState profile wallet state ++
          descriptorConfigScripts profile (scriptsFromSyncState profile wallet state)) wallet.id) := by
      rw [← keyed_append, ← sourcesOf_append, ← append_assoc]
      rfl
    have stored : keyed key (sourcesOf (buildProfileSourceIndex profile).sources wallet.id) =
        keyed key (sourcesOf (recorded profile) wallet.id) ++
          keyed key (sourcesOf (descriptorConfigScripts profile []) wallet.id) := by
      rw [← keyed_append, ← sourcesOf_append]
      rfl
    rw [stored] at made' some seen
    rw [own] at made
    refine sortKey_le made made' ?_ fun source member => ⟨source, ?_, le_rfl⟩
    · by_cases bare : keyed key (sourcesOf (recorded profile) wallet.id) = []
      · rw [bare, nil_append, nil_append]
        rw [bare, nil_append] at seen
        have described (other : SourceScript) (held : other ∈ keyed key (sourcesOf (descriptorConfigScripts profile []) wallet.id)) :=
          configured_own distinct listed (mem_of_mem_filter (mem_keyed.1 held).1) (sourcesOf_own _ _ other (mem_keyed.1 held).1)
        have idle : profile.activeCounts wallet.id = 0 := by
          by_contra active
          exact seen ⟨rfl, active, fun other held => (described other held).2.1⟩
        intro first top other top'
        obtain ⟨configured, -, count⟩ := described other (mem_of_mem_head? top')
        obtain ⟨held, -⟩ := mem_keyed.1 (mem_of_mem_head? top)
        have own : Configured wallet first ∧ first.activeTransactionCount = 0 := by
          rcases mem_append.1 (mem_of_mem_filter held) with current | derived
          · obtain ⟨configured, -, count⟩ := candidate_own profile wallet state current
            exact ⟨configured, count⟩
          · obtain ⟨configured, -, count⟩ := configured_own distinct listed derived (sourcesOf_own _ _ first held)
            exact ⟨configured, count.trans idle⟩
        exact ⟨own.1.owner.trans configured.owner.symm, own.1.label.trans configured.label.symm,
          own.1.same.trans configured.same.symm, own.1.deprecated.trans configured.deprecated.symm, by rw [own.2, count, idle]⟩
      · cases held : keyed key (sourcesOf (recorded profile) wallet.id) with
        | nil => exact absurd held bare
        | cons first rest =>
          rintro _ ⟨⟩ _ ⟨⟩
          exact .refl _
    · refine (mem_append.1 member).imp (mem_append_left _) (fun derived => mem_append_right _ ?_) |>.elim id id
      obtain ⟨held, named⟩ := mem_keyed.1 derived
      obtain ⟨inside, own⟩ := mem_filter.1 held
      obtain ⟨row, row_listed, made⟩ := mem_flatMap.1 inside
      exact mem_keyed.2 ⟨mem_filter.2 ⟨mem_append_right _ (mem_flatMap.2 ⟨row, row_listed, descriptorScripts_widen widens row made⟩),
        own⟩, named⟩

end

/-- The network on which a wallet is about to sync a script. -/
def Names (profile : Profile) (sync : WalletRow × SyncState) (script : String) (key : ScriptKey) : Prop :=
  ∃ target ∈ scriptsFromSyncState profile sync.1 sync.2, target.scriptPubkey = script ∧ target.key = some key

/-- Each wallet names a script on one network, and no two wallets that tie on deprecation and kind share a script on which
one of them goes unseen. -/
structure Apart (profile : Profile) (syncs : List (WalletRow × SyncState)) (indexed : Bool) : Prop where
  single : ∀ sync ∈ syncs, ∀ script key other, Names profile sync script key → Names profile sync script other → key = other
  seen : ∀ sync ∈ syncs, ∀ other ∈ syncs, sync.1.id ≠ other.1.id → ∀ script key,
    Names profile sync script key → Names profile other script key → sync.1.config.deprecated = other.1.config.deprecated →
    (sync.1.kind ∈ canonicalWalletKinds ↔ other.1.kind ∈ canonicalWalletKinds) → ¬ Unseen profile indexed key other.1

/-- The wallet ranks before every stored evidence of the script whose wallet is not about to sync it. -/
def OutranksIdle (profile : Profile) (syncs : List (WalletRow × SyncState)) (indexed : Bool) (sync : WalletRow × SyncState)
    (script : String) : Prop :=
  ∀ key, Names profile sync script key → ∀ other, (∀ sync ∈ syncs, Names profile sync script key → sync.1.id ≠ other) →
    Leads (keyed key (ownSources profile sync.1 sync.2 indexed)) (keyed key (storedSources profile other))

section
variable {profile : Profile} {syncs : List (WalletRow × SyncState)} {indexed : Bool} {script : String}

theorem own_made (indexed : Bool) {sync : WalletRow × SyncState} {key : ScriptKey}
    (named : Names profile sync script key) :
    ∃ mine, overlapWallet (keyed key (ownSources profile sync.1 sync.2 indexed)) = some mine := by
  obtain ⟨target, member, -, found⟩ := named
  obtain ⟨owner, kind⟩ := candidate_wallet profile sync.1 sync.2 member
  refine overlapWallet_some (ne_nil_of_mem (mem_keyed.2 ⟨mem_filter.2 ⟨?_, decide_eq_true owner⟩, found⟩))
  exact (view_target profile sync.1 sync.2 indexed kind).2 member

/-- Of the wallets that name a script on a network, one ranks first by its own view. -/
theorem least_namer (indexed : Bool) {key : ScriptKey} {sync : WalletRow × SyncState} (listed : sync ∈ syncs)
    (named : Names profile sync script key) :
    ∃ first ∈ syncs, Names profile first script key ∧ ∀ mine ∈ overlapWallet (keyed key (ownSources profile first.1 first.2 indexed)),
      ∀ other ∈ syncs, Names profile other script key →
        ∀ theirs ∈ overlapWallet (keyed key (ownSources profile other.1 other.2 indexed)),
          canonicalWalletSortKey mine ≤ canonicalWalletSortKey theirs := by
  obtain ⟨some, -⟩ := own_made indexed named
  let rank (sync : WalletRow × SyncState) :=
    ((overlapWallet (keyed key (ownSources profile sync.1 sync.2 indexed))).map canonicalWalletSortKey).getD
      (canonicalWalletSortKey some)
  obtain ⟨first, ⟨inside, names⟩, least⟩ := Set.exists_min_image {sync | sync ∈ syncs ∧ Names profile sync script key} rank
    ((List.finite_toSet syncs).subset fun _ both => both.1) ⟨sync, listed, named⟩
  refine ⟨first, inside, names, fun mine made other held names' theirs made' => ?_⟩
  have less := least other ⟨held, names'⟩
  dsimp only [rank] at less
  rwa [Option.mem_def.1 made, Option.mem_def.1 made'] at less

end

/-! ### Two wallets on one descriptor -/

def twinPlan : DescriptorPlan :=
  { chain := "bitcoin", network := "main", gapLimit := 1, fingerprint := "f", branches := [0] }

def twinWallet (id : String) : WalletRow := { id, label := id, kind := "descriptor", config := { plan := some twinPlan } }

def twinProfile : Profile where
  id := "book"
  wallets := [twinWallet "a", twinWallet "b"]
  activeCounts _ := 1
  outputs := []
  highestUsed _ _ := none
  addressScript _ := none
  derive _ branch start stop :=
    if start ≤ 0 ∧ 0 < stop then some [{ branchIndex := branch, addressIndex := 0, scriptPubkey := "0014aa" }] else some []

def twinState : SyncState where
  chain := "bitcoin"
  network := "main"
  targets := [{ scriptPubkey := "0014aa", branchIndex := some 0, addressIndex := some 0 }]
  trackedScripts := []

def twins : List (WalletRow × SyncState) := [(twinWallet "a", twinState), (twinWallet "b", twinState)]

end Kassiber.Sync
