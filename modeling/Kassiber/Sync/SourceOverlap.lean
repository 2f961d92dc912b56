import Kassiber.Custody.Routes

/-!
Scripts that several wallets of a profile would sync.
-/

namespace Kassiber.Sync
open Lib.Dict Lib.Sorting Custody Custody.Book

inductive SourceKind where
  | inventory
  | descriptorConfig
  | addressList
  | syncTarget
  deriving DecidableEq

structure SourceScript where
  profileId : String
  walletId : String
  walletLabel : String
  walletKind : String
  chain : String
  network : String
  scriptPubkey : String
  source : SourceKind
  deprecated : Bool := false
  activeTransactionCount : Nat := 0
  branchIndex : Option Int := none
  addressIndex : Option Int := none

structure ProfileSourceIndex where
  profileId : String
  sources : List SourceScript

structure DescriptorPlan where
  chain : String
  network : String
  gapLimit : Int
  fingerprint : String
  branches : List Int

structure DerivedTarget where
  branchIndex : Int
  addressIndex : Int
  scriptPubkey : String

/-- A wallet's configuration with its normalized addresses and the descriptor plan that loads from it, if any. -/
structure WalletConfig where
  chain : Option String := none
  network : Option String := none
  addresses : List String := []
  deprecated : Bool := false
  plan : Option DescriptorPlan := none

structure WalletRow where
  id : String
  label : String
  kind : String
  config : WalletConfig

/-- A stored output with the script its columns, its raw data or its address give. -/
structure OutputRow where
  walletId : String
  chain : Option String
  network : Option String
  script : Option String
  branchIndex : Option Int := none
  addressIndex : Option Int := none

structure Profile where
  id : String
  wallets : List WalletRow
  activeCounts : String → Nat
  outputs : List OutputRow
  highestUsed : String → Int → Option Int
  addressScript : String → Option String
  derive : DescriptorPlan → Int → Int → Int → Option (List DerivedTarget)

structure SyncTarget where
  scriptPubkey : String
  chain : Option String := none
  network : Option String := none
  branchIndex : Option Int := none
  addressIndex : Option Int := none

/-- What a wallet is about to sync. A tracked script need not be described by a target. -/
structure SyncState where
  chain : String
  network : String
  targets : List SyncTarget
  trackedScripts : List (String × Option SyncTarget)

def normalizeChainNetwork (chain network : Option String) : String × String :=
  match present chain, present network with
  | some chain, some network =>
    match (knownChain chain).bind fun known => (knownNetwork known network).map fun net => (known, net) with
    | some known => known
    | none => ((strip chain).toLower, (strip network).toLower)
  | _, _ => ("", "")

def orElse (text fallback : String) : String := if text = "" then fallback else text

section
variable (profile : Profile)

def walletsForProfile : List WalletRow := sortedBy (fun wallet => toLex (wallet.label, wallet.id)) profile.wallets

def addressListScripts (wallet : WalletRow) : List SourceScript :=
  let (chain, network) := normalizeChainNetwork wallet.config.chain wallet.config.network
  if chain = "" ∨ network = "" then []
  else wallet.config.addresses.zipIdx.filterMap fun (address, index) =>
    (present (profile.addressScript address)).map fun script =>
      { profileId := profile.id, walletId := wallet.id, walletLabel := orElse wallet.label wallet.id,
        walletKind := orElse wallet.kind "address", chain, network, scriptPubkey := script, source := .addressList,
        deprecated := wallet.config.deprecated, activeTransactionCount := profile.activeCounts wallet.id,
        addressIndex := some index }

def walletRow (id : String) : Option WalletRow := lookup (profile.wallets.map fun wallet => (wallet.id, wallet)) id

def inventoryScripts : List SourceScript :=
  profile.outputs.filterMap fun output =>
    (present output.script).map fun script =>
      let (chain, network) := normalizeChainNetwork output.chain output.network
      let wallet := walletRow profile output.walletId
      { profileId := profile.id, walletId := output.walletId
        walletLabel := (wallet.map WalletRow.label).getD output.walletId
        walletKind := (wallet.map WalletRow.kind).getD "", chain, network, scriptPubkey := script, source := .inventory
        deprecated := wallet.any fun row => row.config.deprecated
        activeTransactionCount := profile.activeCounts output.walletId, branchIndex := output.branchIndex
        addressIndex := output.addressIndex }

def branchIndexes (sources : List SourceScript) (wallet : String) (branch : Int) : List Int :=
  sources.filterMap fun source =>
    if source.walletId = wallet ∧ source.branchIndex = some branch then source.addressIndex else none

def outputIndexes (wallet : String) (branch : Int) : List Int :=
  profile.outputs.filterMap fun output =>
    if output.walletId = wallet ∧ output.branchIndex = some branch then output.addressIndex else none

def greatest : List Int → Option Int
  | [] => none
  | indexes => some (indexes.foldl max (-1))

/-- The furthest address known on a branch, from outputs, checkpoints and the candidate itself. -/
def knownMax (candidates : List SourceScript) (wallet : String) (branch : Int) : Option Int :=
  greatest (outputIndexes profile wallet branch ++ (profile.highestUsed wallet branch).toList ++
    branchIndexes candidates wallet branch)

def maxStoredDescriptorTargets : Int := 20000

def derivedScripts (wallet : WalletRow) (plan : DescriptorPlan) (count : Nat) (branch start stop : Int) :
    List SourceScript :=
  ((profile.derive plan branch start stop).getD []).map fun target =>
    { profileId := profile.id, walletId := wallet.id, walletLabel := orElse wallet.label wallet.id,
      walletKind := wallet.kind, chain := plan.chain, network := plan.network,
      scriptPubkey := target.scriptPubkey.toLower, source := .descriptorConfig, deprecated := wallet.config.deprecated,
      activeTransactionCount := count, branchIndex := some target.branchIndex, addressIndex := some target.addressIndex }

/-- Scripts a wallet's descriptor derives up to its horizon, which a candidate can widen. -/
def descriptorScripts (candidates : List SourceScript) (wallet : WalletRow) : List SourceScript :=
  match wallet.config.plan with
  | none => []
  | some plan => plan.branches.flatMap fun branch =>
    let stop := match knownMax profile candidates wallet.id branch with
      | none => plan.gapLimit
      | some known => known + plan.gapLimit + 1
    derivedScripts profile wallet plan (profile.activeCounts wallet.id) branch 0
      (max 0 (min stop maxStoredDescriptorTargets))

def descriptorConfigScripts (candidates : List SourceScript) : List SourceScript :=
  (walletsForProfile profile).flatMap (descriptorScripts profile candidates)

def buildProfileSourceIndex : ProfileSourceIndex where
  profileId := profile.id
  sources := (walletsForProfile profile).flatMap (addressListScripts profile) ++ inventoryScripts profile ++
    descriptorConfigScripts profile []

def scriptOf (target : SyncTarget) : String := (strip target.scriptPubkey).toLower

def scriptsFromSyncState (wallet : WalletRow) (state : SyncState) : List SourceScript :=
  state.targets.filterMap fun target =>
    if scriptOf target = "" then none
    else
      let (chain, network) := normalizeChainNetwork ((present (some state.chain)).or target.chain)
        ((present (some state.network)).or target.network)
      some { profileId := profile.id, walletId := wallet.id, walletLabel := orElse wallet.label wallet.id,
             walletKind := wallet.kind, chain, network, scriptPubkey := scriptOf target, source := .syncTarget,
             deprecated := wallet.config.deprecated, branchIndex := target.branchIndex, addressIndex := target.addressIndex }

/-- One past the last address a branch of an indexed descriptor reaches. -/
def baselineEnd (index : ProfileSourceIndex) (wallet : String) (branch : Int) : Int :=
  (index.sources.filterMap fun source =>
    if source.source = .descriptorConfig ∧ source.walletId = wallet ∧ source.branchIndex = some branch then
      source.addressIndex.map (· + 1)
    else none).foldl max 0

/-- The tail of a descriptor branch that a candidate's horizon adds to the index. -/
def candidateDescriptorSupplements (index : ProfileSourceIndex) (candidates : List SourceScript) : List SourceScript :=
  let indexed := candidates.filter fun source => source.branchIndex.isSome ∧ source.addressIndex.isSome
  (indexed.map SourceScript.walletId).eraseDups.flatMap fun id =>
    match walletRow profile id with
    | none => []
    | some wallet =>
      match wallet.config.plan with
      | none => []
      | some plan => plan.branches.flatMap fun branch =>
        match greatest (branchIndexes candidates id branch) with
        | none => []
        | some furthest =>
          let start := baselineEnd index id branch
          let stop := min (max start (furthest + plan.gapLimit + 1)) maxStoredDescriptorTargets
          if stop ≤ start then []
          else derivedScripts profile wallet plan
            ((index.sources.filterMap fun source =>
              if source.walletId = id then some source.activeTransactionCount else none).foldl max 0) branch start stop

/-- All sources in the order the overlap check reads them, which the index changes. -/
def sourceScripts (candidates : List SourceScript) (index : Option ProfileSourceIndex) : List SourceScript :=
  match index.filter fun index => index.profileId = profile.id with
  | some index => index.sources ++ candidates ++ candidateDescriptorSupplements profile index candidates
  | none => (walletsForProfile profile).flatMap (addressListScripts profile) ++ inventoryScripts profile ++ candidates ++
      descriptorConfigScripts profile candidates

/-- Deprecated wallets without transactions count only for themselves. -/
def includeSource (candidateWallets : List String) (source : SourceScript) : Bool :=
  source.walletId ∈ candidateWallets || !source.deprecated || 0 < source.activeTransactionCount

/-- A profile, a chain, a network and a script. -/
abbrev ScriptKey := String × String × String × String

/-- The identity of a script on a network, for a source that names its network. -/
def SourceScript.key (source : SourceScript) : Option ScriptKey :=
  if source.chain = "" ∨ source.network = "" then none
  else
    let (chain, network) := normalizeChainNetwork (some source.chain) (some source.network)
    if chain = "" ∨ network = "" then none else some (source.profileId, chain, network, source.scriptPubkey)

def sourceScriptGroups (candidates : List SourceScript) (index : Option ProfileSourceIndex) :
    List (Option ScriptKey × List SourceScript) :=
  groupBy SourceScript.key (((sourceScripts profile candidates index).filter
    (includeSource (candidates.map SourceScript.walletId))).filter fun source => source.key.isSome)

structure OverlapWallet where
  id : String
  label : String
  kind : String
  deprecated : Bool
  activeTransactionCount : Nat
  sourcePriority : Nat

def sourcePriority : SourceKind → Nat
  | .inventory => 0
  | .descriptorConfig => 0
  | .addressList => 1
  | .syncTarget => 2

/-- A wallet as its first source describes it, with the best of all its evidence. -/
def overlapWallet : List SourceScript → Option OverlapWallet
  | [] => none
  | first :: rest => some
    { id := first.walletId, label := first.walletLabel, kind := first.walletKind, deprecated := first.deprecated
      activeTransactionCount := first.activeTransactionCount
      sourcePriority := ((first :: rest).map fun source => sourcePriority source.source).foldl min 99 }

def canonicalWalletKinds : List String := ["descriptor", "xpub", "silent-payment"]

def canonicalWalletSortKey (wallet : OverlapWallet) : Nat ×ₗ Nat ×ₗ Nat ×ₗ Nat ×ₗ String ×ₗ String :=
  toLex (if wallet.deprecated then 1 else 0, toLex (if wallet.kind ∈ canonicalWalletKinds then 0 else 1,
    toLex (wallet.sourcePriority, toLex (if wallet.activeTransactionCount = 0 then 1 else 0,
      toLex (wallet.label, wallet.id)))))

def overlapWallets (group : List SourceScript) : List OverlapWallet :=
  sortedBy (fun wallet => toLex (wallet.label, wallet.id))
    ((groupBy SourceScript.walletId group).filterMap fun entry => overlapWallet entry.2)

def recommendedWallet (group : List SourceScript) : Option OverlapWallet :=
  (sortedBy canonicalWalletSortKey (overlapWallets group)).head?

def filteredScripts (wallet : WalletRow) (candidates : List SourceScript) (index : Option ProfileSourceIndex) :
    List String :=
  (sourceScriptGroups profile candidates index).flatMap fun group =>
    let current := group.2.filter fun source => source.walletId = wallet.id ∧ source.source = .syncTarget
    if (group.2.map SourceScript.walletId).dedup.length < 2 ∨ wallet.id ∉ group.2.map SourceScript.walletId ∨
        current = [] ∨ (recommendedWallet group.2).map OverlapWallet.id = some wallet.id then []
    else current.map SourceScript.scriptPubkey

def filterSyncTargets (state : SyncState) (filtered : List String) : SyncState :=
  let kept := state.targets.filter fun target => scriptOf target ∉ filtered
  if kept.length = state.targets.length then state
  else { state with
    targets := kept
    trackedScripts := state.trackedScripts.filter fun entry =>
      (strip entry.1).toLower ∉ filtered ∧ (entry.2.map scriptOf).getD "" ∉ filtered }

def filterSyncStateForCanonicalOwner (wallet : WalletRow) (state : SyncState) (index : Option ProfileSourceIndex) :
    SyncState :=
  let candidates := scriptsFromSyncState profile wallet state
  if candidates = [] then state
  else
    let filtered := filteredScripts profile wallet candidates index
    if filtered = [] then state else filterSyncTargets state filtered

end

end Kassiber.Sync
