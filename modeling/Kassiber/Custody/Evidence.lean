import Kassiber.Lib.Outcome

/-!
Observations of physical events. An imported row becomes a content-addressed observation of one
wallet boundary; several observations of one event form a canonical event.
-/

namespace Kassiber.Custody
open Lib.Outcome

inductive PyError where
  | valueError (message : String)
  | typeError (message : String)
  | keyError (key : String)
  | assertionError (message : String)
  | indexError
  | zeroDivisionError
  | appError (code message : String)
  | allocationError (code message : String)
  deriving DecidableEq

inductive Direction where
  | inbound
  | outbound
  | other (text : String)
  deriving DecidableEq

inductive FeeAttribution where
  | exact
  | implicitWalletDelta
  | unknown
  deriving DecidableEq

structure CanonicalEventKey where
  chain : String
  network : String
  nativeNamespace : String
  nativeEventId : String
  nonempty : chain ≠ "" ∧ network ≠ "" ∧ nativeNamespace ≠ "" ∧ nativeEventId ≠ ""
  deriving DecidableEq

def CanonicalEventKey.order (key : CanonicalEventKey) : String ×ₗ String ×ₗ String ×ₗ String :=
  toLex (key.chain, toLex (key.network, toLex (key.nativeNamespace, key.nativeEventId)))

theorem CanonicalEventKey.order_injective : Function.Injective CanonicalEventKey.order := by
  rintro ⟨chain, network, namespace₁, id, _⟩ ⟨chain', network', namespace₂, id', _⟩ same
  simp only [CanonicalEventKey.order, EmbeddingLike.apply_eq_iff_eq, Prod.mk.injEq] at same
  obtain ⟨rfl, rfl, rfl, rfl⟩ := same
  rfl

structure BoundaryAmounts where
  direction : Direction
  observedAmountMsat : Int
  principalMsat : Int
  feeMsat : Int
  walletMovementMsat : Int
  walletDeltaMsat : Int

def normalizeBoundaryAmounts (direction : Direction) (amountMsat feeMsat : Int) (amountIncludesFee : Bool) :
    BoundaryAmounts :=
  let principal := if direction = .outbound ∧ amountIncludesFee then amountMsat - feeMsat else amountMsat
  let walletMovement := if direction = .outbound then principal + feeMsat else amountMsat
  let walletDelta := if direction = .outbound then -walletMovement else walletMovement
  { direction, observedAmountMsat := amountMsat, principalMsat := principal, feeMsat,
    walletMovementMsat := walletMovement, walletDeltaMsat := walletDelta }

/-- The zeros of the decimal digit blocks that `int` reads besides the ASCII digits. -/
def decimalZeros : List Nat :=
  [1632, 1776, 1984, 2406, 2534, 2662, 2790, 2918, 3046, 3174, 3302, 3430, 3558, 3664, 3792, 3872, 4160, 4240,
    6112, 6160, 6470, 6608, 6784, 6800, 6992, 7088, 7232, 7248, 42528, 43216, 43264, 43472, 43504, 43600, 44016,
    65296, 66720, 68912, 69734, 69872, 69942, 70096, 70384, 70736, 70864, 71248, 71360, 71472, 71904, 72016,
    72784, 73040, 73120, 92768, 92864, 93008, 120782, 120792, 120802, 120812, 120822, 123200, 123632, 125264,
    130032]

def isSpace (c : Char) : Bool :=
  c.toNat ∈ [9, 10, 11, 12, 13, 28, 29, 30, 31, 32, 133, 160, 5760, 8192, 8193, 8194, 8195, 8196, 8197, 8198, 8199,
    8200, 8201, 8202, 8232, 8233, 8239, 8287, 12288]

/-- `int` reads every decimal digit as its ASCII digit and every space as a blank. -/
def asciiForm (c : Char) : Char :=
  if isSpace c then ' '
  else match decimalZeros.find? fun first => decide (first ≤ c.toNat) && decide (c.toNat < first + 10) with
    | some first => Nat.digitChar (c.toNat - first)
    | none => c

def isHexDigit (c : Char) : Bool :=
  c.isDigit || (decide ('a' ≤ c) && decide (c ≤ 'f')) || (decide ('A' ≤ c) && decide (c ≤ 'F'))

def hexBody : List Char → Bool
  | [] => false
  | [c] => isHexDigit c
  | c :: '_' :: rest => isHexDigit c && hexBody rest
  | c :: rest => isHexDigit c && hexBody rest

/-- Whether `int(text, 16)` reads the text. -/
def readsBase16 (text : String) : Bool :=
  let stripped := ((((text.toList.map asciiForm).dropWhile (· = ' ')).reverse).dropWhile (· = ' ')).reverse
  let unsigned := match stripped with
    | '+' :: rest => rest
    | '-' :: rest => rest
    | rest => rest
  match unsigned with
  | '0' :: 'x' :: '_' :: rest => hexBody rest
  | '0' :: 'X' :: '_' :: rest => hexBody rest
  | '0' :: 'x' :: rest => hexBody rest
  | '0' :: 'X' :: rest => hexBody rest
  | rest => hexBody rest

structure QuantityObservation where
  transactionId : String
  anchorTransactionId : String
  quantityHash : String
  evidenceDetailHash : String
  evidencePayloadJson : String
  eventKey : CanonicalEventKey
  profileId : String
  authoritativeChainObservation : Bool
  observationAuthorityReason : String
  feeAttribution : FeeAttribution
  walletId : String
  asset : String
  direction : Direction
  amountMsat : Int
  feeMsat : Int
  amountIncludesFee : Bool
  occurredAt : String
  deriving DecidableEq

namespace QuantityObservation

def validateHash (label value : String) : Except PyError Unit := do
  raiseIf (value.length ≠ 64 ∨ value ≠ value.toLower)
    (.valueError s!"quantity observation {label} must be lowercase SHA-256")
  raiseIf (readsBase16 value = false) (.valueError s!"quantity observation {label} must be lowercase SHA-256")

def validate (o : QuantityObservation) : Except PyError Unit := do
  raiseIf (o.transactionId = "" ∨ o.anchorTransactionId = "" ∨ o.walletId = "")
    (.valueError "quantity observations require transaction, anchor, and wallet ids")
  validateHash "quantity_hash" o.quantityHash
  validateHash "evidence_detail_hash" o.evidenceDetailHash
  raiseIf (o.direction ≠ .inbound ∧ o.direction ≠ .outbound)
    (.valueError "quantity observation direction must be inbound or outbound")
  raiseIf (o.asset = "") (.valueError "quantity observations require an asset")
  raiseIf (o.amountMsat < 0) (.valueError "quantity observation amount_msat must be non-negative")
  raiseIf (o.feeMsat < 0) (.valueError "quantity observation fee_msat must be non-negative")
  raiseIf (o.direction = .inbound ∧ o.amountIncludesFee)
    (.valueError "inbound quantity cannot use amount_includes_fee")
  raiseIf (o.amountMsat = 0 ∧ ¬(o.direction = .outbound ∧ o.feeMsat > 0))
    (.valueError "zero quantity is valid only for a fee-only outbound")
  raiseIf (o.amountIncludesFee ∧ o.feeMsat > o.amountMsat)
    (.valueError "an included fee cannot exceed the observed amount")

def Valid (o : QuantityObservation) : Prop := o.validate = .ok ()

instance (o : QuantityObservation) : Decidable o.Valid := inferInstanceAs (Decidable (_ = _))

def boundaryAmounts (o : QuantityObservation) : BoundaryAmounts :=
  normalizeBoundaryAmounts o.direction o.amountMsat o.feeMsat o.amountIncludesFee

def principalMsat (o : QuantityObservation) : Int := o.boundaryAmounts.principalMsat

def walletDeltaMsat (o : QuantityObservation) : Int := o.boundaryAmounts.walletDeltaMsat

structure Sound (o : QuantityObservation) : Prop where
  hash_length : o.quantityHash.length = 64
  directed : o.direction = .inbound ∨ o.direction = .outbound
  principal_nonneg : 0 ≤ o.principalMsat
  fee_nonneg : 0 ≤ o.feeMsat
  inbound_positive : o.direction = .inbound → 0 < o.principalMsat

variable {o : QuantityObservation}

theorem valid_sound (valid : o.Valid) : o.Sound := by
  simp only [Valid, validate, validateHash, bind_unit_ok, raiseIf_ok] at valid
  obtain ⟨-, ⟨width, -⟩, -, directed, -, amount, fee, separate, nonzero, included⟩ := valid
  have directions : o.direction = .inbound ∨ o.direction = .outbound := by
    by_contra none
    exact directed (not_or.1 none)
  refine ⟨by_contra fun other => width (.inl other), directions, ?_, by omega, ?_⟩
  · simp only [principalMsat, boundaryAmounts, normalizeBoundaryAmounts]
    split
    · rename_i inside
      have bound : ¬o.feeMsat > o.amountMsat := fun excess => included ⟨inside.2, excess⟩
      omega
    · omega
  · intro inbound
    have positive : o.amountMsat ≠ 0 := fun zero => nonzero ⟨zero, by simp [inbound]⟩
    simp only [principalMsat, boundaryAmounts, normalizeBoundaryAmounts, inbound]
    simp only [reduceCtorEq, false_and, if_false]
    omega

theorem outbound_delta (outbound : o.direction = .outbound) : o.walletDeltaMsat = -(o.principalMsat + o.feeMsat) := by
  simp [walletDeltaMsat, principalMsat, boundaryAmounts, normalizeBoundaryAmounts, outbound]

theorem inbound_delta (inbound : o.direction = .inbound) : o.walletDeltaMsat = o.principalMsat := by
  simp [walletDeltaMsat, principalMsat, boundaryAmounts, normalizeBoundaryAmounts, inbound]

end QuantityObservation
end Kassiber.Custody
