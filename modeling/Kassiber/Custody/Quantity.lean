import Kassiber.Custody.Evidence

/-!
The arbiter's vocabulary: exposure domains, msat slices, claims over outbound slices, and the
decisions, postings and errors that arbitration returns.
-/

namespace Kassiber.Custody
open Lib.Outcome

inductive QuantityState where
  | internalVerified
  | internalReviewed
  | externalConfirmed
  | externalPresumed
  | custodySuspense
  | conflicting
  deriving DecidableEq

namespace QuantityState

def text : QuantityState → String
  | internalVerified => "internal_verified"
  | internalReviewed => "internal_reviewed"
  | externalConfirmed => "external_confirmed"
  | externalPresumed => "external_presumed"
  | custodySuspense => "custody_suspense"
  | conflicting => "conflicting"

def claimStates : List QuantityState := [internalVerified, internalReviewed, externalConfirmed, custodySuspense]

def targetStates : List QuantityState := [internalVerified, internalReviewed]

def unresolvedStates : List QuantityState := [custodySuspense, conflicting]

def finalizedStates : List QuantityState := [internalVerified, internalReviewed, externalConfirmed, externalPresumed]

end QuantityState

inductive ClaimPriority where
  | reviewedComponent
  | exactNativeEvent
  | accountingConvention
  deriving DecidableEq

namespace ClaimPriority

def value : ClaimPriority → Nat
  | reviewedComponent => 10
  | exactNativeEvent => 20
  | accountingConvention => 40

def name : ClaimPriority → String
  | reviewedComponent => "reviewed_component"
  | exactNativeEvent => "exact_native_event"
  | accountingConvention => "accounting_convention"

theorem value_injective : Function.Injective value := by
  rintro ⟨⟩ ⟨⟩ same <;> first | rfl | simp [value] at same

end ClaimPriority

def statePriorities : QuantityState → List ClaimPriority
  | .internalVerified => [.exactNativeEvent]
  | .internalReviewed => [.reviewedComponent]
  | .externalConfirmed => [.reviewedComponent, .exactNativeEvent]
  | .custodySuspense => [.reviewedComponent, .exactNativeEvent, .accountingConvention]
  | .externalPresumed | .conflicting => []

inductive DestinationKind where
  | external
  | fee
  | retainedCustody
  deriving DecidableEq

inductive ExternalSubtype where
  | payment
  | disposal
  | gift
  | lost
  deriving DecidableEq

structure QuantityDomain where
  network : String
  exposure : String
  unit : String
  rail : String

namespace QuantityDomain

/-- Liquid's wire network names as the owner-domain names of Bitcoin. -/
def ownerNetwork (network : String) : String :=
  if network = "liquidv1" then "main"
  else if network = "liquidtestnet" then "test"
  else if network = "elementsregtest" then "regtest"
  else network

def assetExposure (asset : String) : String := if asset = "BTC" ∨ asset = "LBTC" then "bitcoin" else "asset:" ++ asset

def fromObservation (o : QuantityObservation) : QuantityDomain :=
  { network := ownerNetwork o.eventKey.network, exposure := assetExposure o.asset, unit := "msat",
    rail := o.eventKey.chain }

def conserved (d : QuantityDomain) : String × String × String := (d.network, d.exposure, d.unit)

def compatibleWith (d other : QuantityDomain) (allowCrossRail : Bool) : Bool :=
  if d.conserved ≠ other.conserved then false else decide (d.rail = other.rail) || allowCrossRail

theorem conserved_of_compatible {d other : QuantityDomain} {cross : Bool}
    (compatible : d.compatibleWith other cross = true) : d.conserved = other.conserved := by
  by_contra different
  simp [compatibleWith, different] at compatible

end QuantityDomain

structure QuantitySlice where
  observationHash : String
  startMsat : Int
  endMsat : Int
  hash_nonempty : observationHash ≠ ""
  start_nonneg : 0 ≤ startMsat
  start_lt_end : startMsat < endMsat
  deriving DecidableEq

namespace QuantitySlice

def make (observationHash : String) (startMsat endMsat : Int) : Except PyError QuantitySlice :=
  if named : observationHash ≠ "" then
    if range : 0 ≤ startMsat ∧ startMsat < endMsat then
      .ok { observationHash, startMsat, endMsat, hash_nonempty := named, start_nonneg := range.1,
            start_lt_end := range.2 }
    else .error (.valueError "quantity slices require a non-empty half-open msat range")
  else .error (.valueError "quantity slices require an observation hash")

def amountMsat (s : QuantitySlice) : Int := s.endMsat - s.startMsat

def range (s : QuantitySlice) : Int × Int := (s.startMsat, s.endMsat)

theorem make_ok {hash : String} {low high : Int} {s : QuantitySlice} :
    make hash low high = .ok s ↔ s.observationHash = hash ∧ s.range = (low, high) := by
  unfold make range
  constructor
  · intro built
    split at built
    · split at built
      · cases built
        exact ⟨rfl, rfl⟩
      · cases built
    · cases built
  · rintro ⟨rfl, bounds⟩
    obtain ⟨rfl, rfl⟩ := Prod.mk.inj bounds
    rw [dif_pos s.hash_nonempty, dif_pos ⟨s.start_nonneg, s.start_lt_end⟩]

theorem make_total {hash : String} {low high : Int} (named : hash ≠ "") (nonneg : 0 ≤ low) (proper : low < high) :
    ∃ s, make hash low high = .ok s :=
  ⟨⟨hash, low, high, named, nonneg, proper⟩, make_ok.2 ⟨rfl, rfl⟩⟩

end QuantitySlice

def isBlank (text : String) : Bool := text.toList.all isSpace

structure ClaimFields where
  claimId : String
  source : QuantitySlice
  state : QuantityState
  priority : ClaimPriority
  reason : String
  target : Option QuantitySlice := none
  atomicBundleId : Option String := none
  destinationKind : Option DestinationKind := none
  externalEconomicSubtype : Option ExternalSubtype := none
  transferKind : Option String := none
  transferPolicy : Option String := none
  componentId : Option String := none
  allowCrossRail : Bool := false
  deriving DecidableEq

namespace ClaimFields

def targetlessReviewedRetained (c : ClaimFields) : Prop :=
  c.state = .internalReviewed ∧ c.priority = .reviewedComponent ∧ c.target = none ∧
    c.destinationKind = some .retainedCustody

instance (c : ClaimFields) : Decidable c.targetlessReviewedRetained := inferInstanceAs (Decidable (_ ∧ _ ∧ _ ∧ _))

def postInit (c : ClaimFields) : Except PyError Unit := do
  raiseIf (c.claimId = "" ∨ c.reason = "") (.valueError "quantity claims require claim_id and reason")
  raiseIf (c.state ∉ QuantityState.claimStates) (.valueError ("unsupported quantity claim state: " ++ c.state.text))
  raiseIf (c.priority ∉ statePriorities c.state)
    (.valueError (c.state.text ++ " cannot use " ++ c.priority.name ++ " priority"))
  raiseIf (c.state ∈ QuantityState.targetStates ∧ c.target = none ∧ ¬c.targetlessReviewedRetained)
    (.valueError (c.state.text ++ " claims require an observed target slice"))
  raiseIf (c.state ∉ QuantityState.targetStates ∧ c.target ≠ none)
    (.valueError (c.state.text ++ " claims cannot consume a target slice"))
  raiseIf (∃ t ∈ c.target, t.amountMsat ≠ c.source.amountMsat)
    (.valueError "source and target quantity slices must conserve exact msat")
  raiseIf (∃ b ∈ c.atomicBundleId, isBlank b = true) (.valueError "atomic_bundle_id cannot be empty")
  raiseIf ((c.destinationKind = some .external ∨ c.destinationKind = some .fee) ∧
      (c.state ≠ .externalConfirmed ∨ c.target ≠ none))
    (.valueError "only targetless external_confirmed claims may classify an external destination")
  raiseIf (c.destinationKind = some .retainedCustody ∧
      ¬(c.state = .internalReviewed ∧ c.priority = .reviewedComponent ∧ c.target = none))
    (.valueError "retained_custody requires a targetless reviewed component claim")
  raiseIf (c.externalEconomicSubtype ≠ none ∧
      ¬(c.state = .externalConfirmed ∧ c.priority = .reviewedComponent ∧ c.target = none ∧
        c.destinationKind = some .external))
    (.valueError "external economic subtype requires a reviewed external component claim")
  raiseIf (c.allowCrossRail = true ∧ c.target = none) (.valueError "only target claims can bridge custody rails")

theorem suspense_constructible {c : ClaimFields} (named : c.claimId ≠ "") (reasoned : c.reason ≠ "")
    (suspense : c.state = .custodySuspense) (targetless : c.target = none) (local_ : c.allowCrossRail = false)
    (plain : c.destinationKind = none ∧ c.externalEconomicSubtype = none)
    (bundled : ∀ b, c.atomicBundleId = some b → isBlank b = false) : c.postInit = .ok () := by
  simp only [postInit, bind_unit_ok, raiseIf_ok, suspense, targetless, plain.1, plain.2, local_]
  have ranked : c.priority ∈ statePriorities .custodySuspense := by cases c.priority <;> decide
  refine ⟨by simp [named, reasoned], by decide, by simp [ranked], by simp [QuantityState.targetStates],
    by simp, by simp, ?_, by simp, by simp, by simp, by simp⟩
  rintro ⟨b, present, blank⟩
  rw [bundled b present] at blank
  cases blank

end ClaimFields

structure QuantityClaim extends ClaimFields where
  constructible : toClaimFields.postInit = .ok ()
  deriving DecidableEq

namespace QuantityClaim

def make (fields : ClaimFields) : Except PyError QuantityClaim :=
  match checked : fields.postInit with
  | .ok () => .ok { fields with constructible := checked }
  | .error e => .error e

theorem make_ok {fields : ClaimFields} {c : QuantityClaim} : make fields = .ok c ↔ c.toClaimFields = fields := by
  unfold make
  constructor
  · intro built
    split at built
    · cases built
      rfl
    · cases built
  · rintro rfl
    split
    · rfl
    · rename_i e refused
      rw [c.constructible] at refused
      cases refused

theorem make_total {fields : ClaimFields} (accepted : fields.postInit = .ok ()) : ∃ c, make fields = .ok c :=
  ⟨⟨fields, accepted⟩, make_ok.2 rfl⟩

def effectiveBundleId (c : QuantityClaim) : Option String :=
  match c.atomicBundleId with
  | some bundle => some bundle
  | none => if c.priority = .reviewedComponent then some ("single:" ++ c.claimId) else none

structure Sound (c : QuantityClaim) : Prop where
  id_nonempty : c.claimId ≠ ""
  claimable : c.state ∈ QuantityState.claimStates
  ranked : c.priority ∈ statePriorities c.state
  targetless_retained : c.state ∈ QuantityState.targetStates → c.target = none →
    c.destinationKind = some .retainedCustody
  target_state : c.target ≠ none → c.state ∈ QuantityState.targetStates
  target_amount : ∀ t, c.target = some t → t.amountMsat = c.source.amountMsat
  fee_external : c.destinationKind = some .fee → c.state = .externalConfirmed
  retained_internal : c.destinationKind = some .retainedCustody → c.state = .internalReviewed ∧ c.target = none

theorem sound (c : QuantityClaim) : c.Sound := by
  have accepted := c.constructible
  simp only [ClaimFields.postInit, bind_unit_ok, raiseIf_ok] at accepted
  obtain ⟨named, claimable, ranked, required, forbidden, conserved, -, external, retained, -, -⟩ := accepted
  refine ⟨fun empty => named (.inl empty), not_not.1 claimable, not_not.1 ranked, ?_, ?_, ?_, ?_, ?_⟩
  · intro internal absent
    by_contra other
    exact required ⟨internal, absent, fun retained => other retained.2.2.2⟩
  · intro present
    by_contra other
    exact forbidden ⟨other, present⟩
  · intro t present
    by_contra different
    exact conserved ⟨t, present, different⟩
  · intro fee
    by_contra other
    exact external ⟨.inr fee, .inl other⟩
  · intro kept
    by_contra other
    exact retained ⟨kept, fun h => other ⟨h.1, h.2.2⟩⟩

end QuantityClaim

def targetRanges (claims : List QuantityClaim) (hash : String) : List (Int × Int) :=
  ((claims.filterMap (·.target)).filter fun slice => slice.observationHash = hash).map QuantitySlice.range

structure ArbitratedSlice where
  source : QuantitySlice
  state : QuantityState
  reason : String
  selectedClaimId : Option String := none
  atomicBundleId : Option String := none
  transferKind : Option String := none
  transferPolicy : Option String := none
  componentId : Option String := none
  target : Option QuantitySlice := none
  destinationKind : Option DestinationKind := none
  externalEconomicSubtype : Option ExternalSubtype := none
  contenderClaimIds : List String := []
  deriving DecidableEq

def ArbitratedSlice.finalized (d : ArbitratedSlice) : Bool := decide (d.state ∈ QuantityState.finalizedStates)

inductive LocationKind where
  | wallet
  | fee
  | external
  | custodySuspense
  | conflicting
  | retainedCustody
  | externalOrigin
  deriving DecidableEq

inductive PostingState where
  | observed
  | decided (state : QuantityState)
  | unclassifiedOrigin

structure QuantityPosting where
  postingId : String
  asset : String
  locationKind : LocationKind
  locationId : String
  amountMsat : Int
  state : PostingState
  observationHash : Option String := none
  domain : Option QuantityDomain := none

inductive ClaimFault where
  | atomicBundlePriorityMismatch
  | duplicateClaimId
  | claimSourceInvalid
  | claimSourceExceedsPrincipal
  | claimTargetInvalid
  | claimTargetExceedsPrincipal
  | claimDomainIncompatible

def ClaimFault.text : ClaimFault → String
  | atomicBundlePriorityMismatch => "atomic_bundle_priority_mismatch"
  | duplicateClaimId => "duplicate_claim_id"
  | claimSourceInvalid => "claim_source_invalid"
  | claimSourceExceedsPrincipal => "claim_source_exceeds_principal"
  | claimTargetInvalid => "claim_target_invalid"
  | claimTargetExceedsPrincipal => "claim_target_exceeds_principal"
  | claimDomainIncompatible => "claim_domain_incompatible"

/-- One rejected claim bundle, isolated from independent arbitration. -/
structure QuantityClaimError where
  bundleId : String
  reasons : List String
  claimIds : List String
  sourceObservationHashes : List String
  involvedObservationHashes : List String

structure QuantityProjection where
  observations : List QuantityObservation
  decisions : List ArbitratedSlice
  postings : List QuantityPosting
  claimErrors : List QuantityClaimError := []

end Kassiber.Custody
