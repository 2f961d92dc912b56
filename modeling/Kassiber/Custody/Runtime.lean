import Kassiber.Custody.Authority
import Kassiber.Custody.ComponentClaims
import Kassiber.Custody.Eligibility
import Kassiber.Custody.GapHolds
import Kassiber.Custody.NativeAudit

/-!
The canonical quantity state of a book: reviewed components, gap holds, native evidence and interpreter
claims are arbitrated together, and whatever stays open becomes an issue.
-/

namespace Kassiber.Custody
open Lib.Outcome Lib.Dict Lib.Sorting Lib.Document Lib.Tiling
open List hiding lookup

structure Host where
  sha256 : String → String
  repr : String → String

structure InterpreterBlocker where
  transactionId : String := ""
  reason : String := ""

structure CanonicalQuantityState where
  canonicalInput : CanonicalQuantityInput
  projection : QuantityProjection
  issues : List QuantityIssue
  taxEligibility : QuantityTaxEligibility
  gapCandidateTransactionIds : List String := []
  gapHolds : List CustodyGapHold := []
  reviewedConversionPairs : List ConversionPair := []
  reviewedDirectPayouts : List DirectPayout := []

section
variable (host : Host)

def issueIdOf (parts : List String) : String := host.sha256 (Json.encode true (.list (parts.map .text)))

def reprKey (key : CanonicalEventKey) : String :=
  "CanonicalEventKey(chain=" ++ host.repr key.chain ++ ", network=" ++ host.repr key.network ++
    ", native_namespace=" ++ host.repr key.nativeNamespace ++ ", native_event_id=" ++ host.repr key.nativeEventId ++ ")"

def rejectedEventIssue (rowsById : List (String × LedgerRow)) (issue : CanonicalEventIssue) : QuantityIssue :=
  { issueId := issueIdOf host ["canonical", reprKey host issue.eventKey, issue.code]
    issueType := .canonicalEventRejected, state := .conflicting, asset := none, amountMsat := none
    occurredAt := ((issue.transactionIds.filterMap fun id => (lookup rowsById id).map (·.occurredAt)).min?).getD ""
    transactionIds := issue.transactionIds, reason := issue.code }

def decisionIssue (d : ArbitratedSlice) (o : QuantityObservation) : QuantityIssue :=
  { issueId := issueIdOf host ["decision", d.source.observationHash, toString d.source.startMsat, toString d.source.endMsat,
      d.state.text]
    issueType := .unresolvedQuantity, state := d.state, asset := some o.asset, amountMsat := some d.source.amountMsat
    occurredAt := o.occurredAt, transactionIds := [o.transactionId], reason := d.reason }

/-- The exceptions a component may fail with without aborting the build. -/
def caught : PyError → Bool
  | .appError _ _ | .typeError _ | .valueError _ => true
  | _ => false

def errorCode : PyError → String
  | .appError code _ => code
  | _ => "custody_component_claim_compile"

/-- The quantity hashes an author bound at activation must be those observed now. -/
def componentEvidenceDrift (component : Component) (canonical : CanonicalQuantityInput)
    (authoredEvidence : Option (List (String × List String))) : Option PyError :=
  let stored := ((authoredEvidence.bind fun evidence => lookup evidence component.id)).getD []
  if stored = [] then none
  else
    let relevant := (canonical.aliases.filter fun entry => entry.1 ∈ component.transactionIds).map Prod.snd
    let current := (canonical.events.flatMap (·.evidenceSnapshots)).map (·.quantityHash) |>.filter fun hash =>
      hash ∈ relevant
    if sortedSet current = sortedSet stored then none
    else some (.appError "custody_component_evidence_drift"
      "component activation quantity or identity no longer matches current observations")

def compileComponent (canonical : CanonicalQuantityInput) (authoredEvidence : Option (List (String × List String)))
    (observations : List (String × QuantityObservation)) (component : Component) :
    Except PyError ComponentClaimCompilation :=
  if component.effectiveState ≠ "active" then
    .error (.appError "custody_component_authored_active_invalid" "authored active component is not locally effective")
  else match componentEvidenceDrift component canonical authoredEvidence with
    | some drift => .error drift
    | none => compileComponentQuantityClaims component observations

def componentSources (observations : List (String × QuantityObservation)) (component : Component) :
    List QuantityObservation :=
  (items ((component.transactionIds.filterMap (lookup observations)).filterMap fun o =>
    if o.direction = .outbound then some (o.quantityHash, o) else none)).map Prod.snd

def failedBundle (component : Component) : String := "component:" ++ component.id ++ ":compile-failed"

def failedClaim (component : Component) (code : String) (o : QuantityObservation) : Except PyError QuantityClaim := do
  let source ← QuantitySlice.make o.quantityHash 0 o.principalMsat
  QuantityClaim.make
    { claimId := failedBundle component ++ ":" ++ o.quantityHash, source, state := .custodySuspense
      priority := .reviewedComponent, reason := code, atomicBundleId := some (failedBundle component) }

def failedIssue (component : Component) (code : String) (sources : List QuantityObservation) : QuantityIssue :=
  { issueId := issueIdOf host ["component_compile", component.id]
    issueType := if code = "custody_component_evidence_drift" then .custodyComponentEvidenceDrift
      else .componentClaimCompileFailed
    state := .conflicting, asset := sources.head?.map (·.asset), amountMsat := none
    occurredAt := ((sources.map (·.occurredAt)).min?).getD "", transactionIds := component.transactionIds
    reason := code }

structure ComponentOutcome where
  claims : List QuantityClaim := []
  issues : List QuantityIssue := []
  pairs : List ConversionPair := []
  payouts : List DirectPayout := []

def componentOutcome (canonical : CanonicalQuantityInput) (authoredEvidence : Option (List (String × List String)))
    (observations : List (String × QuantityObservation)) (component : Component) : Except PyError ComponentOutcome :=
  match compileComponent canonical authoredEvidence observations component with
  | .ok compiled =>
    .ok
      { claims := compiled.claims, pairs := compiled.reviewedConversionPairs
        payouts := compiled.reviewedDirectPayouts }
  | .error problem =>
    if caught problem then do
      let sources := componentSources observations component
      let claims ← (sources.filter fun o => 0 < o.principalMsat).mapM (failedClaim component (errorCode problem))
      pure { claims, issues := [failedIssue host component (errorCode problem) sources] }
    else .error problem

def componentClaimsAndIssues (components : List Component) (canonical : CanonicalQuantityInput)
    (authoredEvidence : Option (List (String × List String))) : Except PyError ComponentOutcome := do
  let observations ← canonical.observationsByTransaction
  let outcomes ← (sortedBy (fun component : Component => component.id) components).mapM
    (componentOutcome host canonical authoredEvidence observations)
  pure
    { claims := outcomes.flatMap (·.claims), issues := outcomes.flatMap (·.issues)
      pairs := outcomes.flatMap (·.pairs), payouts := outcomes.flatMap (·.payouts) }

structure GapOutcome where
  claims : List QuantityClaim := []
  issues : List QuantityIssue := []
  candidateTransactionIds : List String := []
  holds : List CustodyGapHold := []

def sourceHoldClaim (reason : String) (hold : CustodyGapHold) : Except PyError QuantityClaim := do
  raiseIf (hold.direction ≠ .outbound) (.valueError "only outbound holds participate in source arbitration")
  QuantityClaim.make
    { claimId := hold.holdId, source := hold.quantity, state := .custodySuspense, priority := .accountingConvention
      reason }

def capacityHold (observations : List (String × QuantityObservation)) (state : GapOutcome) (transactionId : String) :
    Except PyError GapOutcome :=
  match (lookup observations transactionId).filter fun o => o.direction = .outbound ∧ 0 < o.principalMsat with
  | none => .ok state
  | some o => do
    let quantity ← QuantitySlice.make o.quantityHash 0 o.principalMsat
    let hold : CustodyGapHold :=
      { holdId := "gap-capacity-hold:" ++ o.quantityHash, gapId := "capacity-incomplete"
        transactionId := o.transactionId, direction := .outbound, quantity, evidenceDetailHash := o.evidenceDetailHash }
    let claim ← sourceHoldClaim "custody_gap_search_incomplete_structured_source" hold
    pure
      { state with
        claims := state.claims ++ [claim], holds := state.holds ++ [hold]
        candidateTransactionIds := state.candidateTransactionIds ++ [transactionId] }

def failedGapClaim (c : CustodyGapCandidate) (o : QuantityObservation) : Except PyError QuantityClaim := do
  let source ← QuantitySlice.make o.quantityHash 0 o.principalMsat
  QuantityClaim.make
    { claimId := "candidate:" ++ c.gapId ++ ":compile-failed:" ++ o.quantityHash, source, state := .custodySuspense
      priority := .accountingConvention, reason := "custody_gap_hold_compile"
      atomicBundleId := some ("candidate:" ++ c.gapId ++ ":compile-failed") }

def gapIssue (c : CustodyGapCandidate) (tag : String) (issueType : IssueType) (state : QuantityState) (reason : String) :
    QuantityIssue :=
  { issueId := issueIdOf host [tag, c.gapId], issueType, state, asset := some c.asset, amountMsat := none
    occurredAt := c.startedAt, transactionIds := sortedBy id (c.sourceIds ++ c.returnIds), reason
    gapId := some c.gapId }

/-- A promotable candidate holds both boundaries; one that does not compile still holds its sources. -/
def candidateOutcome (observations : List (String × QuantityObservation)) (dismissed : List (String × String))
    (state : GapOutcome) (c : CustodyGapCandidate) : Except PyError GapOutcome :=
  if c.promotionEligible = false then .ok state
  else if lookup dismissed c.gapId = some (candidateFingerprint host.sha256 c) then .ok state
  else
    let named := { state with candidateTransactionIds := state.candidateTransactionIds ++ c.sourceIds ++ c.returnIds }
    match compileGapCandidateHolds host.sha256 c observations with
    | .ok compiled =>
      .ok
        { named with
          holds := state.holds ++ compiled.holds
          issues := state.issues ++ [gapIssue host c "custody_gap_hold" .custodyGapReviewHold .custodySuspense
            "custody_gap_review_required"] }
    | .error (.valueError _) | .error (.typeError _) => do
      let sources := (items ((c.sourceIds.filterMap (lookup observations)).filterMap fun o =>
        if o.direction = .outbound then some (o.quantityHash, o) else none)).map Prod.snd
      let claims ← (sources.filter fun o => 0 < o.principalMsat).mapM (failedGapClaim c)
      pure
        { named with
          claims := state.claims ++ claims
          issues := state.issues ++ [gapIssue host c "gap_compile" .custodyGapHoldCompileFailed .conflicting
            "custody_gap_hold_compile"] }
    | .error problem => .error problem

def sourceHolds (holds : List CustodyGapHold) : List CustodyGapHold :=
  (groupBy (fun hold : CustodyGapHold => hold.quantity.observationHash)
    (holds.filter fun hold => hold.direction = .outbound)).filterMap fun group => group.2.head?

def gapCandidateHoldsAndIssues (canonical : CanonicalQuantityInput) (ignoredTransactionIds : List String)
    (dismissed : List (String × String)) (search : CustodyGapSearchResult) : Except PyError GapOutcome :=
  let blocking := if search.searchComplete then [] else search.blockingSourceIds
  if search.searchComplete = false ∧ search.accountingCandidates.isEmpty ∧ blocking = [] then .ok {}
  else do
    let candidates := search.accountingCandidates.filter fun c =>
      ∀ id ∈ c.sourceIds ++ c.returnIds, id ∉ ignoredTransactionIds.filter fun id => id ≠ ""
    let capacity := sortedSet (blocking.filter fun id => id ∉ ignoredTransactionIds.filter fun id => id ≠ "")
    let observations ← canonical.observationsByTransaction
    let held ← capacity.foldlM (capacityHold observations) {}
    let done ← candidates.foldlM (candidateOutcome host observations dismissed) held
    let claimed := done.claims.map (·.source)
    let further ← ((sourceHolds done.holds).filter fun hold => hold.quantity ∉ claimed).mapM
      (sourceHoldClaim "custody_gap_review_required")
    pure
      { done with
        claims := done.claims ++ further
        candidateTransactionIds := sortedSet done.candidateTransactionIds
        holds := sortedBy CustodyGapHold.holdId done.holds }

structure RuntimeInput where
  rows : List LedgerRow
  canonicalInput : CanonicalQuantityInput
  gapSearchResult : CustodyGapSearchResult
  interpreterClaims : List QuantityClaim := []
  effectiveComponents : List Component := []
  nativeEvidence : List NativeAuditRow := []
  interpreterBlockers : List InterpreterBlocker := []
  ignoredGapTransactionIds : List String := []
  componentEvidenceSnapshots : Option (List (String × List String)) := none
  dismissedGapFingerprints : List (String × String) := []

namespace RuntimeInput

def componentTransactionIds (input : RuntimeInput) : List String :=
  input.effectiveComponents.flatMap Component.transactionIds

/-- Observations that components or interpreter claims already speak for. -/
def ignoredTransactionIds (input : RuntimeInput) : List String :=
  input.componentTransactionIds ++ input.ignoredGapTransactionIds ++
    input.interpreterClaims.flatMap fun claim =>
      (input.canonicalInput.byHash claim.source.observationHash).toList.map (·.transactionId) ++
        (claim.target.bind fun target => input.canonicalInput.byHash target.observationHash).toList.map (·.transactionId)

def rowsById (input : RuntimeInput) : List (String × LedgerRow) :=
  (input.rows.filter fun row => row.id ≠ "").map fun row => (row.id, row)

end RuntimeInput

def nativeQuantityIssue (issue : NativeAuditIssue) : QuantityIssue :=
  { issueId := issue.issueId, issueType := .nativeAuditEvidenceInvalid, state := .conflicting, asset := issue.asset
    amountMsat := issue.amountMsat, occurredAt := issue.occurredAt, transactionIds := issue.transactionIds
    reason := issue.reason }

def claimErrorIssue (projection : QuantityProjection) (error : QuantityClaimError) : QuantityIssue :=
  let involved := error.involvedObservationHashes.filterMap
    (lookup (projection.observations.map fun o => (o.quantityHash, o)))
  { issueId := issueIdOf host ["claim_bundle_invalid", error.bundleId], issueType := .quantityClaimBundleInvalid
    state := .conflicting
    asset := match (involved.map (·.asset)).dedup with
      | [only] => some only
      | _ => none
    amountMsat := none, occurredAt := ((involved.map (·.occurredAt)).min?).getD ""
    transactionIds := sortedSet (involved.map (·.anchorTransactionId)), reason := "malformed_claim_bundle" }

def blockerIssue (rowsById : List (String × LedgerRow)) (entry : InterpreterBlocker × Nat) : QuantityIssue :=
  let blocker := entry.1
  let row := lookup rowsById blocker.transactionId
  let reason := orElse blocker.reason "custody_interpreter_blocked"
  { issueId := issueIdOf host ["custody_interpreter_blocked", blocker.transactionId, reason, toString entry.2]
    issueType := .custodyInterpreterBlocked, state := .conflicting
    asset := (row.map (·.asset.toUpper)).filter fun asset => asset ≠ ""
    amountMsat := (row.map (·.amount)).filter fun amount => 0 < amount
    occurredAt := (row.map (·.occurredAt)).getD ""
    transactionIds := if blocker.transactionId ≠ "" then [blocker.transactionId] else [], reason }

def decisionIssues (projection : QuantityProjection) : Except PyError (List QuantityIssue) :=
  (projection.decisions.filter fun d => d.state ∈ QuantityState.unresolvedStates).mapM fun d =>
    match lookup (projection.observations.map fun o => (o.quantityHash, o)) d.source.observationHash with
    | none => .error (.keyError d.source.observationHash)
    | some o => .ok (decisionIssue host d o)

def buildCanonicalQuantityState (input : RuntimeInput) : Except PyError CanonicalQuantityState := do
  let components ← componentClaimsAndIssues host input.effectiveComponents input.canonicalInput
    input.componentEvidenceSnapshots
  let gaps ← gapCandidateHoldsAndIssues host input.canonicalInput input.ignoredTransactionIds
    input.dismissedGapFingerprints input.gapSearchResult
  let natives ← compileVerifiedNativeClaims host.sha256 input.canonicalInput input.nativeEvidence
    input.componentTransactionIds []
  let canonical := natives.canonicalInput
  let projection ← projectQuantities canonical.observations
    (components.claims ++ gaps.claims ++ natives.claims ++ input.interpreterClaims)
  let decided ← decisionIssues host projection
  let issues := sortedBy (fun issue : QuantityIssue => toLex (issue.occurredAt, issue.issueId))
    (canonical.rejectedEvents.map (rejectedEventIssue host input.rowsById) ++ components.issues ++ gaps.issues ++
      natives.issues.map nativeQuantityIssue ++ projection.claimErrors.map (claimErrorIssue host projection) ++
      input.interpreterBlockers.zipIdx.map (blockerIssue host input.rowsById) ++ decided)
  let eligibility ← taxEligibility canonical projection issues input.rowsById
  pure
    { canonicalInput := canonical, projection, issues, taxEligibility := eligibility
      gapCandidateTransactionIds := gaps.candidateTransactionIds, gapHolds := gaps.holds
      reviewedConversionPairs := components.pairs, reviewedDirectPayouts := components.payouts }

structure Built (input : RuntimeInput) (s : CanonicalQuantityState) where
  components : ComponentOutcome
  gaps : GapOutcome
  natives : NativeAuditCompilation
  reviewed : componentClaimsAndIssues host input.effectiveComponents input.canonicalInput
    input.componentEvidenceSnapshots = .ok components
  audited : compileVerifiedNativeClaims host.sha256 input.canonicalInput input.nativeEvidence
    input.componentTransactionIds [] = .ok natives
  canonical : s.canonicalInput = natives.canonicalInput
  projected : projectQuantities natives.canonicalInput.observations
    (components.claims ++ gaps.claims ++ natives.claims ++ input.interpreterClaims) = .ok s.projection
  judged : taxEligibility natives.canonicalInput s.projection s.issues input.rowsById = .ok s.taxEligibility
  decided : List QuantityIssue
  unresolved : decisionIssues host s.projection = .ok decided
  listed : ∀ issue ∈ decided, issue ∈ s.issues

variable {input : RuntimeInput} {canonical : CanonicalQuantityInput} {p : QuantityProjection}
  {observations : List (String × QuantityObservation)} {o : QuantityObservation} {component : Component}

theorem build_ok {s : CanonicalQuantityState}
    (built : buildCanonicalQuantityState host input = .ok s) : Nonempty (Built host input s) := by
  obtain ⟨components, reviewed, built⟩ := bind_ok.1 built
  obtain ⟨gaps, -, built⟩ := bind_ok.1 built
  obtain ⟨natives, audited, built⟩ := bind_ok.1 built
  obtain ⟨projection, projected, built⟩ := bind_ok.1 built
  obtain ⟨decided, unresolved, built⟩ := bind_ok.1 built
  obtain ⟨eligibility, judged, same⟩ := bind_ok.1 built
  cases same
  refine ⟨⟨components, gaps, natives, reviewed, audited, rfl, projected, judged, decided, unresolved, ?_⟩⟩
  exact fun issue member => mem_sortedBy.2 (mem_append_right _ member)

theorem contributions_total
    (pooled : ∀ o ∈ p.observations, ∃ pool, canonical.poolByHash o.quantityHash = some pool)
    (rowsById : List (String × LedgerRow)) (issue : QuantityIssue) :
    ∃ cs, contributions canonical p rowsById issue = .ok cs := by
  have pools : ∃ pools, rejectedPools canonical p rowsById issue = .ok pools := by
    unfold rejectedPools
    dsimp only
    split
    · refine ⟨_, bind_ok.2 ⟨_, (mapM_total fun o member => ?_).choose_spec, rfl⟩⟩
      obtain ⟨pool, found⟩ := pooled o (mem_filter.1 member).1
      exact ⟨pool, by rw [found]⟩
    · exact ⟨_, rfl⟩
  obtain ⟨pools, found⟩ := pools
  unfold contributions
  split
  · exact ⟨_, rfl⟩
  · split
    · exact ⟨_, rfl⟩
    · exact ⟨_, bind_ok.2 ⟨pools, found, rfl⟩⟩

theorem taxEligibility_total {claims : List QuantityClaim}
    (projected : projectQuantities canonical.observations claims = .ok p) (issues : List QuantityIssue)
    (rowsById : List (String × LedgerRow)) : ∃ e, taxEligibility canonical p issues rowsById = .ok e := by
  obtain ⟨v, ds, validated, arbitrated, -, observed, decisions, -⟩ := projectQuantities_ok projected
  have pooled : ∀ o ∈ canonical.observations, ∃ pool, canonical.poolByHash o.quantityHash = some pool := fun o member =>
    Option.isSome_iff_exists.1 (lookup_isSome.2 (mem_map.2 ⟨_, mem_map.2 ⟨o, member, rfl⟩, rfl⟩))
  have ordered : ∀ o ∈ canonical.observations, ∃ order, canonical.eventOrderByHash o.quantityHash = some order := by
    intro o member
    obtain ⟨event, listed, inside⟩ := mem_observations.1 member
    refine Option.isSome_iff_exists.1 (lookup_isSome.2 (mem_map.2 ⟨(o.quantityHash, event.order), ?_, rfl⟩))
    exact mem_flatMap.2 ⟨event, listed, mem_map.2 ⟨o, inside, rfl⟩⟩
  obtain ⟨registered, registering⟩ : ∃ registered, issues.mapM (contributions canonical p rowsById) = .ok registered := by
    refine mapM_total fun issue _ => contributions_total ?_ rowsById issue
    intro o member
    rw [observed] at member
    exact pooled o (mem_sortedBy.1 member)
  have judging : ∃ judged, p.decisions.mapM (judge canonical (directlyBlockedHashes canonical issues)
      (registered.flatten.foldl register [])) = .ok judged := by
    refine mapM_total ?_
    intro d member
    rw [decisions] at member
    obtain ⟨o, present, -, same⟩ := final_source (reconciled_final validated arbitrated (mem_sortedBy.1 member))
    obtain ⟨pool, found⟩ := pooled o present
    obtain ⟨order, placed⟩ := ordered o present
    have verdict : ∃ b, eligibleDecision canonical (directlyBlockedHashes canonical issues)
        (registered.flatten.foldl register []) d = .ok b := by
      unfold eligibleDecision
      split
      · exact ⟨_, rfl⟩
      · split
        · exact ⟨_, rfl⟩
        · rw [← same, found, placed]
          exact ⟨_, rfl⟩
    obtain ⟨b, verdict⟩ := verdict
    exact ⟨_, bind_ok.2 ⟨b, verdict, rfl⟩⟩
  obtain ⟨judged, judging⟩ := judging
  exact ⟨_, bind_ok.2 ⟨registered, registering, bind_ok.2 ⟨judged, judging, rfl⟩⟩⟩

theorem build_total {components : ComponentOutcome} {gaps : GapOutcome}
    {natives : NativeAuditCompilation}
    (reviewed : componentClaimsAndIssues host input.effectiveComponents input.canonicalInput
      input.componentEvidenceSnapshots = .ok components)
    (held : gapCandidateHoldsAndIssues host input.canonicalInput input.ignoredTransactionIds
      input.dismissedGapFingerprints input.gapSearchResult = .ok gaps)
    (audited : compileVerifiedNativeClaims host.sha256 input.canonicalInput input.nativeEvidence
      input.componentTransactionIds [] = .ok natives)
    (projected : projectQuantities natives.canonicalInput.observations
      (components.claims ++ gaps.claims ++ natives.claims ++ input.interpreterClaims) = .ok p) :
    ∃ s, buildCanonicalQuantityState host input = .ok s ∧ s.projection = p := by
  obtain ⟨v, ds, validated, arbitrated, -, observed, decisions, -⟩ := projectQuantities_ok projected
  have decided : ∃ issues, decisionIssues host p = .ok issues := by
    refine mapM_total ?_
    intro d member
    have present := (mem_filter.1 member).1
    rw [decisions] at present
    obtain ⟨o, listed, -, same⟩ := final_source (reconciled_final validated arbitrated (mem_sortedBy.1 present))
    have known : (lookup (p.observations.map fun o => (o.quantityHash, o)) d.source.observationHash).isSome = true := by
      refine lookup_isSome.2 (mem_map.2 ⟨(o.quantityHash, o), ?_, same⟩)
      exact mem_map.2 ⟨o, by rw [observed]; exact mem_sortedBy.2 listed, rfl⟩
    obtain ⟨stored, found⟩ := Option.isSome_iff_exists.1 known
    exact ⟨decisionIssue host d stored, by rw [found]⟩
  obtain ⟨issues, decided⟩ := decided
  obtain ⟨e, judged⟩ := taxEligibility_total projected _ input.rowsById
  exact ⟨_, bind_ok.2 ⟨components, reviewed, bind_ok.2 ⟨gaps, held, bind_ok.2 ⟨natives, audited,
    bind_ok.2 ⟨p, projected, bind_ok.2 ⟨issues, decided, bind_ok.2 ⟨e, judged, rfl⟩⟩⟩⟩⟩⟩, rfl⟩

theorem projectQuantities_indexed {index : Observations} (good : ValidIndex index) (claims : List QuantityClaim) :
    projectQuantities index claims = (do
      let inputs ← (do
        let suspended ← (invalidSources index claims).mapM (malformedBundleClaim index)
        pure ({ observations := index
                claims := sortedBy QuantityClaim.rank ((acceptedBundles index claims).flatMap Prod.snd ++ suspended)
                errors := (rejectedBundles index claims).map (bundleError index claims) } : ValidatedInputs))
      let arbitrated ← sourceDecisions inputs.observations inputs.claims
      let decisions := reconcile inputs.claims arbitrated
      let postings ← buildPostings inputs.observations decisions
      let projection : QuantityProjection :=
        { observations := sortedBy QuantityObservation.quantityHash inputs.observations
          decisions := sortedBy ArbitratedSlice.place decisions, postings, claimErrors := inputs.errors }
      let unbalanced := projection.totalsByDomain.filter fun entry => entry.2 ≠ 0
      raiseIf (unbalanced ≠ []) (.assertionError ("custody quantity projection is unbalanced: \x7b" ++
        String.intercalate ", " (unbalanced.map domainText) ++ "\x7d"))
      pure projection) := by
  have indexed : indexObservations index = .ok index := indexObservations_ok.2 ⟨rfl, good.valid, good.distinct⟩
  unfold projectQuantities validatedInputs
  rw [indexed]
  rfl

theorem build_unaudited (canonical : CanonicalQuantityInput)
    (indexed : ∃ observations, input.canonicalInput.observationsByTransaction = .ok observations)
    (ordered : input.canonicalInput.inKeyOrder = canonical) (ordered' : canonical.inKeyOrder = canonical)
    (indexed' : ∃ observations, canonical.observationsByTransaction = .ok observations)
    (searched : input.gapSearchResult.searchComplete = true)
    (gapless : input.gapSearchResult.accountingCandidates = []) (unaudited : input.nativeEvidence = []) :
    buildCanonicalQuantityState host input = (do
      let components ← componentClaimsAndIssues host input.effectiveComponents input.canonicalInput
        input.componentEvidenceSnapshots
      let projection ← projectQuantities canonical.observations (components.claims ++ input.interpreterClaims)
      let decided ← decisionIssues host projection
      let issues := sortedBy (fun issue : QuantityIssue => toLex (issue.occurredAt, issue.issueId))
        (canonical.rejectedEvents.map (rejectedEventIssue host input.rowsById) ++ components.issues ++
          projection.claimErrors.map (claimErrorIssue host projection) ++
          input.interpreterBlockers.zipIdx.map (blockerIssue host input.rowsById) ++ decided)
      let eligibility ← taxEligibility canonical projection issues input.rowsById
      pure
        { canonicalInput := canonical, projection, issues, taxEligibility := eligibility
          reviewedConversionPairs := components.pairs, reviewedDirectPayouts := components.payouts }) := by
  obtain ⟨observations, indexed⟩ := indexed
  obtain ⟨observations', indexed'⟩ := indexed'
  have held : gapCandidateHoldsAndIssues host input.canonicalInput input.ignoredTransactionIds
      input.dismissedGapFingerprints input.gapSearchResult = .ok {} := by
    unfold gapCandidateHoldsAndIssues
    rw [searched, gapless, indexed]
    rfl
  -- Without audit rows the native compiler only puts the events in order.
  have audited : compileVerifiedNativeClaims host.sha256 input.canonicalInput [] input.componentTransactionIds [] =
      .ok { canonicalInput := canonical, claims := [], issues := [] } := by
    refine bind_ok.2 ⟨(canonical, []), bind_ok.2 ⟨observations, indexed, ?_⟩, ?_⟩
    · rw [← ordered]
      rfl
    · refine bind_ok.2 ⟨([], []), bind_ok.2 ⟨observations', indexed', rfl⟩, ?_⟩
      refine bind_ok.2 ⟨{ canonical, targetByEvidence := [], issues := [], invalidEvidence := [] }, ?_, rfl⟩
      refine bind_ok.2 ⟨_, rfl, bind_ok.2 ⟨_, rfl, ?_⟩⟩
      simp only [ordered']
      rfl
  unfold buildCanonicalQuantityState
  rw [held, unaudited, audited]
  simp only [Bind.bind, Except.bind, map_nil, append_nil]

/-- The observation is an outbound with principal that one of the component's legs is anchored to. -/
def Anchors (observations : List (String × QuantityObservation)) (component : Component) (o : QuantityObservation) : Prop :=
  o.direction = .outbound ∧ 0 < o.principalMsat ∧
    ∃ leg ∈ component.legs, leg.observedBy ≠ "" ∧ lookup observations leg.observedBy = some o

theorem indexed_observation
    (indexed : canonical.observationsByTransaction = .ok observations) {id : String}
    (found : lookup observations id = some o) : canonical.byHash o.quantityHash = some o ∧ o ∈ canonical.observations := by
  obtain ⟨entry, -, step⟩ := mapM_outputs indexed (mem_of_lookup found)
  split at step
  · cases step
  · rename_i stored read
    cases step
    have listed := mem_of_lookup read
    obtain ⟨leg, member, same⟩ := mem_map.1 listed
    obtain ⟨hash, rfl⟩ := Prod.mk.inj same
    exact ⟨hash ▸ read, member⟩

theorem anchored_source
    (indexed : canonical.observationsByTransaction = .ok observations)
    (anchors : Anchors observations component o) : o ∈ componentSources observations component := by
  obtain ⟨outbound, -, leg, member, named, found⟩ := anchors
  have listed : o ∈ component.transactionIds.filterMap (lookup observations) :=
    mem_filterMap.2 ⟨leg.observedBy, Component.mem_transactionIds.2 ⟨named, leg, member, rfl⟩, found⟩
  have keyed : (o.quantityHash, o) ∈ (component.transactionIds.filterMap (lookup observations)).filterMap fun o =>
      if o.direction = .outbound then some (o.quantityHash, o) else none :=
    mem_filterMap.2 ⟨o, listed, if_pos outbound⟩
  obtain ⟨other, read⟩ := Option.isSome_iff_exists.1 (lookup_isSome.2 (mem_map.2 ⟨_, keyed, rfl⟩))
  -- Observations of one hash are one observation, so the last assignment is `o` itself.
  have same : other = o := by
    obtain ⟨kept, inside, pair⟩ := mem_filterMap.1 (mem_of_lookup read)
    split at pair
    · obtain ⟨hash, rfl⟩ := Prod.mk.inj (Option.some.inj pair)
      obtain ⟨id, -, read'⟩ := mem_filterMap.1 inside
      have here := (indexed_observation indexed read').1
      have there := (indexed_observation indexed found).1
      rw [hash, there] at here
      exact (Option.some.inj here).symm
    · cases pair
  exact mem_map.2 ⟨(o.quantityHash, o), mem_items.2 (same ▸ read), rfl⟩

theorem failed_claims {outcome : ComponentOutcome}
    (reviewed : componentClaimsAndIssues host input.effectiveComponents input.canonicalInput
      input.componentEvidenceSnapshots = .ok outcome)
    (indexed : input.canonicalInput.observationsByTransaction = .ok observations)
    (member : component ∈ input.effectiveComponents) {problem : PyError}
    (failed : compileComponent input.canonicalInput input.componentEvidenceSnapshots observations component =
      .error problem) (anchors : Anchors observations component o) :
    ∃ claim ∈ outcome.claims, failedClaim component (errorCode problem) o = .ok claim := by
  obtain ⟨observations', indexed', reviewed⟩ := bind_ok.1 reviewed
  rw [indexed] at indexed'
  cases indexed'
  obtain ⟨outcomes, run, same⟩ := bind_ok.1 reviewed
  cases same
  obtain ⟨own, listed, step⟩ := mapM_inputs run (mem_sortedBy.2 member)
  unfold componentOutcome at step
  rw [failed] at step
  dsimp only at step
  split at step
  · obtain ⟨claims, made, same⟩ := bind_ok.1 step
    cases same
    have kept : o ∈ (componentSources observations component).filter fun o => 0 < o.principalMsat :=
      mem_filter.2 ⟨anchored_source indexed anchors, decide_eq_true anchors.2.1⟩
    obtain ⟨claim, present, built⟩ := mapM_inputs made kept
    exact ⟨claim, mem_flatMap.2 ⟨_, listed, present⟩, built⟩
  · cases step

/-- The coins of a component that does not compile are never finalized. -/
theorem failed_component_unresolved {s : CanonicalQuantityState}
    (built : buildCanonicalQuantityState host input = .ok s)
    (indexed : input.canonicalInput.observationsByTransaction = .ok observations)
    (member : component ∈ input.effectiveComponents) {problem : PyError}
    (failed : compileComponent input.canonicalInput input.componentEvidenceSnapshots observations component =
      .error problem) (anchors : Anchors observations component o) :
    Tiles 0 ((s.projection.decisions.filter fun d => d.source.observationHash = o.quantityHash).map (·.source.range))
      o.principalMsat ∧
    (∀ d ∈ s.projection.decisions, d.source.observationHash = o.quantityHash →
      d.state ∈ QuantityState.unresolvedStates) ∧
    ∀ d ∈ s.taxEligibility.eligibleDecisions, d.source.observationHash ≠ o.quantityHash := by
  obtain ⟨parts⟩ := build_ok host built
  obtain ⟨claim, present, made⟩ := failed_claims host parts.reviewed indexed member failed anchors
  obtain ⟨slice, sliced, made⟩ := bind_ok.1 made
  have fields := QuantityClaim.make_ok.1 made
  obtain ⟨hash, bounds⟩ := QuantitySlice.make_ok.1 sliced
  obtain ⟨outbound, -, leg, -, -, found⟩ := anchors
  have observed : o ∈ parts.natives.canonicalInput.observations :=
    compileVerifiedNativeClaims_extends host.sha256 parts.audited o (indexed_observation indexed found).2
  have claimed : claim ∈ parts.components.claims ++ parts.gaps.claims ++ parts.natives.claims ++ input.interpreterClaims := by
    simp [present]
  have unresolved : ∀ d ∈ s.projection.decisions, d.source.observationHash = o.quantityHash →
      d.state ∈ QuantityState.unresolvedStates := by
    intro d decided source
    refine held_unresolved parts.projected claimed (congrArg ClaimFields.state fields) ?_ observed outbound ?_ ?_ decided
      source
    · have rank : claim.priority = .reviewedComponent := congrArg ClaimFields.priority fields
      simp [QuantityClaim.Authoritative, rank, ClaimPriority.value]
    · rw [congrArg ClaimFields.source fields]
      exact hash
    · rw [congrArg ClaimFields.source fields]
      exact bounds
  refine ⟨(projectQuantities_isolates parts.projected).2 o observed outbound, unresolved, ?_⟩
  intro d eligible source
  obtain ⟨decided, finalized, -⟩ := (mem_eligibleDecisions parts.judged).1 eligible
  have final := of_decide_eq_true finalized
  have held := unresolved d decided source
  cases state : d.state <;> rw [state] at final held <;>
    simp [QuantityState.finalizedStates, QuantityState.unresolvedStates] at final held

end

/-! A payment whose reviewed component is not effective here. -/

def sampleDigests : List (String × String) :=
  [("[\"component_compile\",\"component-1\"]", "b9875403818f5eda9035cb7c5181d04ba322e24632fe402fc921a36e91fdf015"),
   ("[\"decision\",\"" ++ sampleHash 'a' ++ "\",\"0\",\"1000\",\"custody_suspense\"]",
    "b08a40eda4656778c9e2d18e4d9849efa8e1dfb23701caeefbf7cfcb764439e4")]

def sampleHost : Host where
  sha256 text := (lookup sampleDigests text).getD ""
  repr text := "'" ++ text ++ "'"

def sampleInput : CanonicalQuantityInput :=
  { events := [{ eventKey := sampleSent.eventKey, legs := [sampleSent], evidenceSnapshots := []
                 sourceTransactionIds := ["sent"], observationAliases := [("sent", sampleHash 'a')] }]
    rejectedEvents := []
    distinct := nodup_singleton _ }

theorem sampleInput_valid : ValidIndex sampleInput.observations :=
  ⟨by simp [CanonicalQuantityInput.observations, sampleInput, sampleSent_valid], nodup_singleton _⟩

def sampleComponent : Component :=
  { id := "component-1", effectiveState := "invalid"
    legs := [{ id := "leg-1", role := .source, amountMsat := 1000, anchorTransactionId := "sent" }]
    allocations := [], economicTerms := [] }

def sampleRuntime : RuntimeInput :=
  { rows := [], canonicalInput := sampleInput
    gapSearchResult := { accountingCandidates := [], searchComplete := true }
    effectiveComponents := [sampleComponent] }

theorem sampleRuntime_built : ∃ s, buildCanonicalQuantityState sampleHost sampleRuntime = .ok s ∧
    s.canonicalInput.observations = [sampleSent] := by
  obtain ⟨components, reviewed⟩ := exists_of_isOk (x := componentClaimsAndIssues sampleHost [sampleComponent] sampleInput
    none) (by decide +kernel)
  obtain ⟨gaps, held⟩ := exists_of_isOk (x := gapCandidateHoldsAndIssues sampleHost sampleInput
    sampleRuntime.ignoredTransactionIds [] { accountingCandidates := [], searchComplete := true }) (by decide +kernel)
  obtain ⟨natives, audited, observed⟩ : ∃ natives, compileVerifiedNativeClaims sampleHost.sha256 sampleInput []
      sampleRuntime.componentTransactionIds [] = .ok natives ∧ natives.canonicalInput.observations = [sampleSent] :=
    ok_of_toOption_map (by decide +kernel)
  have good : ValidIndex natives.canonicalInput.observations := by
    rw [observed]
    exact sampleInput_valid
  obtain ⟨v, validated⟩ := (validatedInputs_total_iff good
    (components.claims ++ gaps.claims ++ natives.claims ++ sampleRuntime.interpreterClaims)).2 (by
      intro c _ o found
      have present := (get_some (outboundSource_some.1 found).1).1
      rw [observed, mem_singleton] at present
      rw [present]
      decide)
  obtain ⟨p, projected⟩ := projectQuantities_total validated
  obtain ⟨s, built, -⟩ : ∃ s, buildCanonicalQuantityState sampleHost sampleRuntime = .ok s ∧ s.projection = p :=
    build_total sampleHost reviewed held audited projected
  refine ⟨s, built, ?_⟩
  obtain ⟨parts⟩ := build_ok sampleHost built
  cases audited.symm.trans parts.audited
  rw [parts.canonical]
  exact observed

theorem failed_component_unresolved_payment :
    ∃ s, buildCanonicalQuantityState sampleHost sampleRuntime = .ok s ∧
      (∀ d ∈ s.projection.decisions, d.source.observationHash = sampleHash 'a' →
        d.state ∈ QuantityState.unresolvedStates) ∧
      ∀ d ∈ s.taxEligibility.eligibleDecisions, d.source.observationHash ≠ sampleHash 'a' := by
  obtain ⟨s, built, -⟩ := sampleRuntime_built
  have anchors : Anchors [("sent", sampleSent)] sampleComponent sampleSent := by
    refine ⟨rfl, by decide, _, mem_singleton.2 rfl, by decide, by decide +kernel⟩
  have unresolved := failed_component_unresolved sampleHost built (by decide +kernel) (mem_singleton.2 rfl) rfl anchors
  exact ⟨s, built, unresolved.2⟩

end Kassiber.Custody
