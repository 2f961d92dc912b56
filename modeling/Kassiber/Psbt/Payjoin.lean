import Kassiber.Lib.Json
import Kassiber.Psbt.Canonical
import Kassiber.Psbt.Prevouts

/-!
Comparing a Payjoin proposal with the original PSBT.
-/

namespace Kassiber.Psbt.Payjoin
open Lib.CompactSize Lib.Document Lib.Outcome Lib.Sorting List
open Option (map_some getD_some some.inj)

inductive CheckStatus where
  | unavailable
  | passed
  | failed
  deriving DecidableEq

inductive PayjoinStatus where
  | failed
  | incomplete
  | checksPassed
  deriving DecidableEq

structure PayjoinCheck where
  code : String
  status : CheckStatus
  details : List (String × Json)

structure PayjoinReport where
  status : PayjoinStatus
  checks : List PayjoinCheck
  additionalInputCount : Nat
  receiverContributionMsat : Option Nat

structure InputMetadata where
  finalized : Bool
  partialSignatureCount : Nat
  derivationMetadataPresent : Bool

structure Analysis where
  inputMetadata : List InputMetadata
  outputDerivationMetadataPresent : Bool
  inputAmounts : List (Option Nat)
  feeMsat : Option Int
  finalFeeRate : Option ℚ

structure Constraints where
  payment : Nat
  feeOutput : Option Nat
  maximumText : String
  maximum : Nat
  substitute : Bool
  minimum : Json

def refused {α : Type} (message : String) : Except PsbtError α :=
  .error (.appError "chain_analysis_invalid_payjoin_constraints" message none none)

def allowedConstraints : List String :=
  ["payment_output_index", "additional_fee_output_index", "max_additional_fee_contribution_msat",
    "allow_output_substitution", "minimum_fee_rate_sat_vb"]

def digitsValue (text : String) : Nat := text.toList.foldl (fun n c => n * 10 + (c.toNat - '0'.toNat)) 0

def outputIndex (before : Parsed) (value : Json) : Option Nat :=
  match value with
  | .number n => if 0 ≤ n ∧ n < before.tx.vout.length then some n.toNat else none
  | _ => none

def readFeeOutput (before : Parsed) (payment : Nat) (value : Json) : Except PsbtError (Option Nat) :=
  match value with
  | .null => .ok none
  | value => match outputIndex before value with
    | some index => if index = payment then refused "Invalid additional fee output." else .ok (some index)
    | none => refused "Invalid additional fee output."

def readMaximum (value : Json) : Except PsbtError (String × Nat) :=
  match value with
  | .text text =>
    if text = "" ∨ (text.toList.any fun c => !c.isDigit) ∨ 19 < text.length ∨ maxMoney * 1000 < digitsValue text ∨
        digitsValue text % 1000 ≠ 0 then
      refused "Fee contribution must be an exact nonnegative whole-satoshi msat string."
    else .ok (text, digitsValue text)
  | _ => refused "Fee contribution must be an exact nonnegative whole-satoshi msat string."

def readConstraints (before : Parsed) (constraints : Json) : Except PsbtError Constraints :=
  match constraints with
  | .fields entries => do
    if entries.any fun entry => entry.1 ∉ allowedConstraints then refused "Invalid Payjoin comparison constraints."
    else
      let get := fun (key : String) (default : Json) => (entries.lookup key).getD default
      let payment ← match outputIndex before (get "payment_output_index" .null) with
        | some payment => .ok payment
        | none => refused "Select the original payment output for Payjoin comparison."
      let feeOutput ← readFeeOutput before payment (get "additional_fee_output_index" .null)
      let (maximumText, maximum) ← readMaximum (get "max_additional_fee_contribution_msat" (.text "0"))
      let substitute ← match get "allow_output_substitution" (.bool false) with
        | .bool substitute => .ok substitute
        | _ => refused "Output substitution must be a boolean."
      return { payment, feeOutput, maximumText, maximum, substitute, minimum := get "minimum_fee_rate_sat_vb" .null }
  | _ => refused "Invalid Payjoin comparison constraints."

def check (code : String) (passed : Option Bool) (details : List (String × Json) := []) : PayjoinCheck :=
  { code, status := match passed with | none => .unavailable | some true => .passed | some false => .failed, details }

def pointsOf (psbt : Parsed) : List (Bytes × Nat) := psbt.tx.vin.map TransactionInput.point

/-- The position and the input of an outpoint; no outpoint is spent twice. -/
def inputAt (psbt : Parsed) (point : Bytes × Nat) : Option (TransactionInput × Nat) :=
  psbt.tx.vin.zipIdx.find? fun entry => entry.1.point = point

def receiverIndices (before after : Parsed) : List Nat :=
  (after.tx.vin.zipIdx.filter fun entry => entry.1.point ∉ pointsOf before).map Prod.snd

def finalizedAt (right : Analysis) (index : Nat) : Bool := (right.inputMetadata[index]?).any InputMetadata.finalized

def amountAt (right : Analysis) (index : Nat) : Option Nat := (right.inputAmounts[index]?).join

def transactionChecks (before after : Parsed) : List PayjoinCheck :=
  [check "original_inputs_preserved" (some (pointsOf before ⊆ pointsOf after : Bool)),
    check "original_input_order_preserved"
      (some (((pointsOf after).filter fun point => point ∈ pointsOf before) = pointsOf before : Bool)),
    check "transaction_version_unchanged" (some (before.tx.version = after.tx.version : Bool)),
    check "locktime_unchanged" (some (before.tx.locktime = after.tx.locktime : Bool)),
    check "sender_sequences_unchanged"
      (some (before.tx.vin.all fun row => (inputAt after row.point).any fun entry => row.sequence = entry.1.sequence)),
    check "proposal_sequences_uniform" (some ((after.tx.vin.map TransactionInput.sequence).dedup.length ≤ 1 : Bool))]

def metadataChecks (before after : Parsed) (right : Analysis) : List PayjoinCheck :=
  let receivers := receiverIndices before after
  let senders := (after.tx.vin.zipIdx.filter fun entry => entry.1.point ∈ pointsOf before).map Prod.snd
  [check "no_input_derivations" (some (!right.inputMetadata.any InputMetadata.derivationMetadataPresent)),
    check "no_output_derivations" (some (!right.outputDerivationMetadataPresent)),
    check "no_partial_signatures" (some (!right.inputMetadata.any fun row => row.partialSignatureCount != 0)),
    check "sender_inputs_unfinalized" (some (!senders.any (finalizedAt right))),
    check "receiver_inputs_finalized" (some (receivers.all (finalizedAt right))),
    check "receiver_utxos_supplied" (some (receivers.all fun index => (amountAt right index).isSome))]

def verdictOf (outcomes : List (Option Bool)) : Option Bool :=
  if some false ∈ outcomes then some false else if none ∈ outcomes then none else some true

def prevoutUnchanged (verifiers : Verifiers) (before after : Parsed) (row : TransactionInput × Nat) :
    Except PsbtError (Option Bool) :=
  match inputAt after row.1.point with
  | none => .ok (some true)
  | some (kept, index) => do
    let left ← inputUtxo verifiers ((before.inputs[row.2]?).getD []) row.1 row.2
    let right ← inputUtxo verifiers ((after.inputs[index]?).getD []) kept index
    match left, right with
    | some left, some right => return some (verifiers.serializeOutput left = verifiers.serializeOutput right : Bool)
    | _, _ => return none

def feeDelta (left right : Analysis) : Option Int := do
  let feeBefore ← left.feeMsat
  let feeAfter ← right.feeMsat
  return feeAfter - feeBefore

def protectedOutputs (before : Parsed) (c : Constraints) : List (TransactionOutput × Nat) :=
  before.tx.vout.zipIdx.filter fun entry => !(entry.2 = c.payment && c.substitute)

def scriptsOf (outputs : List (TransactionOutput × Nat)) : List Bytes := outputs.map fun entry => entry.1.scriptPubkey

section
variable (before after : Parsed) (c : Constraints)

def countsPreserved : Bool :=
  (scriptsOf (protectedOutputs before c)).all fun script =>
    (scriptsOf (protectedOutputs before c)).count script ≤ (scriptsOf after.tx.vout.zipIdx).count script

def requiredValue (entry : TransactionOutput × Nat) : Nat :=
  entry.1.value * 1000 - if some entry.2 = c.feeOutput then min c.maximum (entry.1.value * 1000) else 0

def valuesPreserved : Bool :=
  (scriptsOf (protectedOutputs before c)).all fun script =>
    (((protectedOutputs before c).filter fun entry => entry.1.scriptPubkey = script).map (requiredValue c)).sum ≤
      ((after.tx.vout.filter fun row => row.scriptPubkey = script).map fun row => row.value * 1000).sum

def correspondenceUnique : Bool :=
  (scriptsOf (protectedOutputs before c)).all fun script =>
    (scriptsOf (protectedOutputs before c)).count script = 1 && (scriptsOf after.tx.vout.zipIdx).count script ≤ 1

def matchOf (script : Bytes) : Option (TransactionOutput × Nat) :=
  after.tx.vout.zipIdx.reverse.find? fun entry => entry.1.scriptPubkey = script

def originalPositions : List Nat :=
  (protectedOutputs before c).filterMap fun entry => (matchOf after entry.1.scriptPubkey).map Prod.snd

def contribution : Nat :=
  match (protectedOutputs before c).find? fun entry => some entry.2 = c.feeOutput with
  | none => 0
  | some entry => ((matchOf after entry.1.scriptPubkey).map fun found => (entry.1.value - found.1.value) * 1000).getD 0

def outputValid (entry : TransactionOutput × Nat) : Bool :=
  match matchOf after entry.1.scriptPubkey with
  | none => false
  | some found =>
    if some entry.2 = c.feeOutput then contribution before after c ≤ c.maximum else entry.1.value ≤ found.1.value

/-- The cap on the contribution by the size of the added inputs, where all original inputs have one final size. -/
def costCap (verifiers : Verifiers) (left : Analysis) (sizes : List (Option Nat)) : Option ℚ :=
  match left.finalFeeRate, sizes with
  | some rate, some size :: others =>
    if others.all (· = some size) then
      some (verifiers.product (verifiers.product (verifiers.product rate size) (receiverIndices before after).length) 1000)
    else none
  | _, _ => none

def uniqueChecks (verifiers : Verifiers) (left right : Analysis) : Except PsbtError (List PayjoinCheck) := do
  let positions := originalPositions before after c
  let given := contribution before after c
  let sizes ← (List.range before.tx.vin.length).mapM (finalInputVsize verifiers before)
  let cap := costCap before after verifiers left sizes
  return [check "original_output_order_preserved"
      (some (countsPreserved before after c && (positions = sortedBy id positions : Bool)))
      [("payment_output_substitution_allowed", .bool c.substitute)],
    check "sender_outputs_preserved_and_values_valid"
      (some ((protectedOutputs before c).all (outputValid before after c))),
    check "fee_contribution_within_budget" (some (given ≤ c.maximum : Bool))
      [("contribution_msat", .text (toString given)), ("maximum_msat", .text c.maximumText)],
    check "fee_contribution_only_pays_fee_increase" ((feeDelta left right).map fun delta => ((given : Int) ≤ delta : Bool)),
    check "fee_contribution_added_input_cost_cap"
      (match cap with
        | some cap => some (given ≤ cap : Bool)
        | none => if given = 0 then some true else none)
      [("maximum_msat", (cap.map fun cap => Json.text (verifiers.decimalText cap)).getD .null)]]

def ambiguousChecks : List PayjoinCheck :=
  [check "original_output_order_preserved" none [("payment_output_substitution_allowed", .bool c.substitute)],
    check "sender_outputs_preserved_and_values_valid"
      (if countsPreserved before after c && valuesPreserved before after c then none else some false)]

def detailedChecks (verifiers : Verifiers) (left right : Analysis) : Except PsbtError (List PayjoinCheck) :=
  if correspondenceUnique before after c then uniqueChecks before after c verifiers left right
  else .ok (ambiguousChecks before after c)

def outputChecks (verifiers : Verifiers) (left right : Analysis) : Except PsbtError (List PayjoinCheck) := do
  let detailed ← detailedChecks before after c verifiers left right
  return [check "protected_output_cardinality_preserved" (some (countsPreserved before after c)),
    check "protected_output_aggregate_value_preserved" (some (valuesPreserved before after c)),
    check "output_correspondence_unambiguous" (if correspondenceUnique before after c then some true else none)] ++ detailed

def minimumChecks (verifiers : Verifiers) (right : Analysis) : Except PsbtError (List PayjoinCheck) :=
  match c.minimum with
  | .null => .ok []
  | .text text =>
    match if text.length ≤ 40 then verifiers.finiteDecimal text else none with
    | some least =>
      if least < 0 then refused "Minimum fee rate must be a nonnegative decimal string."
      else .ok [check "minimum_final_fee_rate" (right.finalFeeRate.map fun rate => (least ≤ rate : Bool))]
    | none => refused "Minimum fee rate must be a nonnegative decimal string."
  | _ => refused "Minimum fee rate must be a nonnegative decimal string."

end

def overallStatus (checks : List PayjoinCheck) : PayjoinStatus :=
  if checks.any fun row => row.status = .failed then .failed
  else if checks.any fun row => row.status = .unavailable then .incomplete
  else .checksPassed

def payjoinChecks (verifiers : Verifiers) (before after : Parsed) (left right : Analysis) (constraints : Json) :
    Except PsbtError PayjoinReport := do
  let c ← readConstraints before constraints
  let receivers := receiverIndices before after
  let signatures ← receivers.mapM (verifySegwitKeyhashSignature verifiers after)
  let prevouts ← before.tx.vin.zipIdx.mapM (prevoutUnchanged verifiers before after)
  let outputs ← outputChecks before after c verifiers left right
  let minimum ← minimumChecks c verifiers right
  let checks := transactionChecks before after ++ metadataChecks before after right ++
    [check "receiver_signature_commitments_valid" (verdictOf signatures)
        [("supported_templates", .list [.text "p2wpkh", .text "p2sh-p2wpkh"])],
      check "sender_prevouts_unchanged" (verdictOf prevouts),
      check "absolute_fee_not_decreased" ((feeDelta left right).map fun delta => (0 ≤ delta : Bool))] ++ outputs ++ minimum
  let amounts := receivers.map (amountAt right)
  return { status := overallStatus checks, checks, additionalInputCount := receivers.length,
           receiverContributionMsat := if none ∈ amounts then none else some (amounts.map fun amount => amount.getD 0).sum }

/-- The original inputs and outputs that a proposal keeps for its sender. -/
structure SenderProtected (before after : Parsed) (left right : Analysis) (c : Constraints) : Prop where
  inputs : (before.tx.vin.map fun row => (row.point, row.sequence)).Sublist
    (after.tx.vin.map fun row => (row.point, row.sequence))
  version : before.tx.version = after.tx.version
  locktime : before.tx.locktime = after.tx.locktime
  outputs : ∃ position : Nat → Nat,
    StrictMonoOn position {i | ¬ (i = c.payment ∧ c.substitute = true) ∧ i < before.tx.vout.length} ∧
    ∀ i output, before.tx.vout[i]? = some output → ¬ (i = c.payment ∧ c.substitute = true) →
      ∃ kept, after.tx.vout[position i]? = some kept ∧ kept.scriptPubkey = output.scriptPubkey ∧
        (c.feeOutput ≠ some i → output.value ≤ kept.value) ∧
        (c.feeOutput = some i → ((output.value : Int) - kept.value) * 1000 ≤ c.maximum ∧
          ∃ feeBefore feeAfter, left.feeMsat = some feeBefore ∧ right.feeMsat = some feeAfter ∧
            ((output.value : Int) - kept.value) * 1000 ≤ feeAfter - feeBefore)

section
variable {verifiers : Verifiers} {before after : Parsed} {left right : Analysis} {c : Constraints}

theorem check_passed {code : String} {passed : Option Bool} {details : List (String × Json)}
    (status : (check code passed details).status = .passed) : passed = some true := by
  unfold check at status
  rcases passed with _ | (_ | _) <;> simp_all

theorem all_passed {checks : List PayjoinCheck} (status : overallStatus checks = .checksPassed) :
    ∀ row ∈ checks, row.status = .passed := by
  intro row member
  unfold overallStatus at status
  split_ifs at status with failed unavailable
  simp only [any_eq_true, decide_eq_true_eq, not_exists, not_and] at failed unavailable
  cases kind : row.status with
  | passed => rfl
  | failed => exact absurd kind (failed row member)
  | unavailable => exact absurd kind (unavailable row member)

theorem inputAt_of_mem {row : TransactionInput} (member : row ∈ after.tx.vin) :
    (inputAt after row.point).map Prod.fst = some row := by
  obtain ⟨i, found⟩ := mem_iff_getElem?.1 member
  have entered : (row, i) ∈ after.tx.vin.zipIdx := mem_zipIdx_iff_getElem?.2 found
  cases first : inputAt after row.point with
  | none => exact absurd (decide_eq_true rfl) (List.find?_eq_none.1 first _ entered)
  | some entry =>
    have listed := mem_of_getElem? (mem_zipIdx_iff_getElem?.1 (mem_of_find?_eq_some first))
    have same : entry.1.point = row.point := by simpa using find?_some first
    rw [map_some, inj_on_of_nodup_map after.points listed member same]

theorem inputs_kept (order : ((pointsOf after).filter fun point => point ∈ pointsOf before) = pointsOf before)
    (sequences : ∀ row ∈ before.tx.vin, ∃ entry, inputAt after row.point = some entry ∧ row.sequence = entry.1.sequence) :
    (before.tx.vin.map fun row => (row.point, row.sequence)).Sublist
      (after.tx.vin.map fun row => (row.point, row.sequence)) := by
  let told := fun point => (point, ((inputAt after point).map fun entry => entry.1.sequence).getD 0)
  have theirs : ∀ row ∈ after.tx.vin, (row.point, row.sequence) = told row.point := by
    intro row member
    obtain ⟨entry, found, rfl⟩ := Option.map_eq_some_iff.1 (inputAt_of_mem member)
    simp only [told, found, map_some, getD_some]
  have ours : ∀ row ∈ before.tx.vin, (row.point, row.sequence) = told row.point := by
    intro row member
    obtain ⟨entry, found, same⟩ := sequences row member
    simp only [told, found, same, map_some, getD_some]
  rw [map_congr_left ours, map_congr_left theirs]
  have kept := ((filter_sublist (l := pointsOf after) (p := fun point => decide (point ∈ pointsOf before))).map told)
  rw [order] at kept
  simpa only [pointsOf, map_map, Function.comp_def] using kept

theorem mem_protectedOutputs {output : TransactionOutput} {i : Nat} : (output, i) ∈ protectedOutputs before c ↔
    before.tx.vout[i]? = some output ∧ ¬ (i = c.payment ∧ c.substitute = true) := by
  simp [protectedOutputs, mem_filter, mem_zipIdx_iff_getElem?, imp_iff_not_or]

theorem matchOf_spec {script : Bytes} {found : TransactionOutput × Nat} (matched : matchOf after script = some found) :
    after.tx.vout[found.2]? = some found.1 ∧ found.1.scriptPubkey = script :=
  ⟨mem_zipIdx_iff_getElem?.1 (mem_reverse.1 (mem_of_find?_eq_some matched)), by simpa using find?_some matched⟩

def positionOf (after : Parsed) (entry : TransactionOutput × Nat) : Nat :=
  ((matchOf after entry.1.scriptPubkey).map Prod.snd).getD 0

theorem positions_strict (unique : correspondenceUnique before after c = true)
    (sorted : originalPositions before after c = sortedBy id (originalPositions before after c))
    (valid : ∀ entry ∈ protectedOutputs before c, outputValid before after c entry = true)
    {first second : TransactionOutput × Nat} (firstIn : first ∈ protectedOutputs before c)
    (secondIn : second ∈ protectedOutputs before c) (later : first.2 < second.2) :
    positionOf after first < positionOf after second := by
  have matched : ∀ entry ∈ protectedOutputs before c, ∃ found, matchOf after entry.1.scriptPubkey = some found := by
    intro entry member
    have holds := valid entry member
    unfold outputValid at holds
    cases found : matchOf after entry.1.scriptPubkey with
    | none => simp [found] at holds
    | some kept => exact ⟨kept, rfl⟩
  have positions : originalPositions before after c = (protectedOutputs before c).map (positionOf after) := by
    rw [originalPositions, ← filterMap_eq_map]
    refine filterMap_congr fun entry member => ?_
    obtain ⟨found, matched⟩ := matched entry member
    simp [positionOf, matched]
  have ordered : (protectedOutputs before c).Pairwise fun e f => positionOf after e ≤ positionOf after f := by
    have pairs := sortedBy_pairwise id (originalPositions before after c)
    rw [← sorted, positions] at pairs
    exact pairwise_map.1 pairs
  have apart : (protectedOutputs before c).Pairwise fun e f => e.1.scriptPubkey ≠ f.1.scriptPubkey := by
    refine pairwise_map.1 (nodup_iff_count_eq_one.2 fun script member => ?_)
    exact of_decide_eq_true (Bool.and_eq_true_iff.1 (all_eq_true.1 unique script member)).1
  have indexed : (protectedOutputs before c).Pairwise fun e f => e.2 < f.2 := by
    refine List.Pairwise.filter _ (pairwise_map (f := Prod.snd).1 ?_)
    rw [zipIdx_map_snd]
    exact pairwise_lt_range'
  have both := (ordered.and apart).and indexed
  let Related := fun e f : TransactionOutput × Nat =>
    (e.2 < f.2 → positionOf after e ≤ positionOf after f ∧ e.1.scriptPubkey ≠ f.1.scriptPubkey) ∧
    (f.2 < e.2 → positionOf after f ≤ positionOf after e ∧ f.1.scriptPubkey ≠ e.1.scriptPubkey)
  have symmetric : Std.Symm Related := ⟨fun _ _ h => h.symm⟩
  have pairs : (protectedOutputs before c).Pairwise Related :=
    both.imp fun h => ⟨fun _ => h.1, fun wrong => absurd h.2 (Nat.lt_asymm wrong)⟩
  have related := pairs.forall firstIn secondIn (fun same => absurd (same ▸ later) (lt_irrefl _))
  obtain ⟨le, differ⟩ := related.1 later
  refine lt_of_le_of_ne le fun same => differ ?_
  obtain ⟨one, oneMatched⟩ := matched first firstIn
  obtain ⟨other, otherMatched⟩ := matched second secondIn
  obtain ⟨oneHere, oneScript⟩ := matchOf_spec oneMatched
  obtain ⟨otherHere, otherScript⟩ := matchOf_spec otherMatched
  simp only [positionOf, oneMatched, otherMatched, map_some, getD_some] at same
  rw [same, otherHere, Option.some.injEq] at oneHere
  rw [← oneScript, ← otherScript, oneHere]

theorem contribution_eq {output : TransactionOutput} {i : Nat} (member : (output, i) ∈ protectedOutputs before c)
    (fee : c.feeOutput = some i) {found : TransactionOutput × Nat} (matched : matchOf after output.scriptPubkey = some found) :
    contribution before after c = (output.value - found.1.value) * 1000 := by
  unfold contribution
  cases first : (protectedOutputs before c).find? fun entry => some entry.2 = c.feeOutput with
  | none => exact absurd (decide_eq_true fee.symm) (List.find?_eq_none.1 first _ member)
  | some entry =>
    obtain ⟨other, j⟩ := entry
    have named : some j = c.feeOutput := by simpa using find?_some first
    obtain rfl : j = i := some.inj (named.trans fee)
    have same := (mem_protectedOutputs.1 (mem_of_find?_eq_some first)).1
    rw [(mem_protectedOutputs.1 member).1, Option.some.injEq] at same
    subst same
    simp [matched]

/-- When every check of a Payjoin comparison passes, the sender keeps all inputs in their order, and every protected
output in its order and at its value, up to a contribution within the budget that only pays the added fee. -/
theorem payjoin_checks_protect {constraints : Json} {report : PayjoinReport}
    (run : payjoinChecks verifiers before after left right constraints = .ok report)
    (passed : report.status = .checksPassed) :
    ∃ c, readConstraints before constraints = .ok c ∧ SenderProtected before after left right c := by
  simp only [payjoinChecks, bind_ok, pure_ok] at run
  obtain ⟨c, accepted, signatures, -, prevouts, -, outputs, outputRun, minimum, -, rfl⟩ := run
  have each := all_passed passed
  have early : ∀ row ∈ transactionChecks before after, row.status = .passed := fun row member => each row (by
    simp only [mem_append]
    exact .inl (.inl (.inl (.inl member))))
  have late : ∀ row ∈ outputs, row.status = .passed := fun row member => each row (by
    simp only [mem_append]
    exact .inl (.inr member))
  simp only [transactionChecks, forall_mem_cons] at early
  obtain ⟨-, order, version, locktime, sequences, -⟩ := early
  have order := of_decide_eq_true (some.inj (check_passed order))
  have version := of_decide_eq_true (some.inj (check_passed version))
  have locktime := of_decide_eq_true (some.inj (check_passed locktime))
  have sequences := all_eq_true.1 (some.inj (check_passed sequences))
  simp only [outputChecks, bind_ok, pure_ok] at outputRun
  obtain ⟨detailed, detailedRun, rfl⟩ := outputRun
  simp only [cons_append, nil_append, forall_mem_cons] at late
  obtain ⟨-, -, unambiguous, late⟩ := late
  have unique : correspondenceUnique before after c = true := by
    by_contra repeated
    have status := check_passed unambiguous
    rw [if_neg repeated] at status
    cases status
  rw [detailedChecks, if_pos unique] at detailedRun
  simp only [uniqueChecks, bind_ok, pure_ok] at detailedRun
  obtain ⟨sizes, -, rfl⟩ := detailedRun
  simp only [forall_mem_cons] at late
  obtain ⟨ordered, preserved, budget, increase, -⟩ := late
  have sorted := of_decide_eq_true (Bool.and_eq_true_iff.1 (some.inj (check_passed ordered))).2
  have valid := all_eq_true.1 (some.inj (check_passed preserved))
  have budget := of_decide_eq_true (some.inj (check_passed budget))
  obtain ⟨delta, difference, paid⟩ := Option.map_eq_some_iff.1 (check_passed increase)
  refine ⟨c, accepted, ?_, version, locktime, fun i => ((before.tx.vout[i]?).map fun output =>
    positionOf after (output, i)).getD 0, ?_, ?_⟩
  · refine inputs_kept order fun row member => ?_
    obtain ⟨entry, found, same⟩ := (Option.any_eq_true _ _).1 (sequences row member)
    exact ⟨entry, found, of_decide_eq_true same⟩
  · rintro i ⟨iOpen, iBound⟩ j ⟨jOpen, jBound⟩ later
    have iHere := List.getElem?_eq_getElem iBound
    have jHere := List.getElem?_eq_getElem jBound
    simp only [iHere, jHere, map_some, getD_some]
    exact positions_strict unique sorted valid (mem_protectedOutputs.2 ⟨iHere, iOpen⟩)
      (mem_protectedOutputs.2 ⟨jHere, jOpen⟩) later
  · intro i output here open_
    have member := mem_protectedOutputs.2 ⟨here, open_⟩
    have holds := valid _ member
    unfold outputValid at holds
    cases matched : matchOf after output.scriptPubkey with
    | none => simp [matched] at holds
    | some found =>
      obtain ⟨keptHere, script⟩ := matchOf_spec matched
      simp only [matched] at holds
      refine ⟨found.1, by simpa [here, positionOf, matched] using keptHere, script, fun other => ?_, fun fee => ?_⟩
      · rw [if_neg (Ne.symm other), decide_eq_true_eq] at holds
        exact holds
      · have given := contribution_eq member fee matched
        obtain ⟨feeBefore, known, rest⟩ := Option.bind_eq_some_iff.1 difference
        obtain ⟨feeAfter, knownAfter, same⟩ := Option.bind_eq_some_iff.1 rest
        have delta_eq : feeAfter - feeBefore = delta := some.inj same
        have paid := of_decide_eq_true paid
        exact ⟨by omega, feeBefore, feeAfter, known, knownAfter, by omega⟩

end

/-- The bytes of a number written with its first byte in front. -/
def bigBytes (width n : Nat) : Bytes := (leBytes width n).reverse

def keyhashScript (hash : Nat) : Bytes := [0, 20] ++ bigBytes 20 hash

def paymentScript : Bytes := keyhashScript 0x7dd65592d0ab2fe0d0257d571abf032cd9db93dc

def changeScript : Bytes := keyhashScript 0xc42e7ef92fdb603af844d064faad95db9bcdfd3d

def receiverKey : Bytes := bigBytes 33 0x02c6047f9441ed7d6d3045406e95c07cd85c778e4b8cef3ca7abac09b95c709ee5

def receiverHash : Nat := 0x06afd46bcdfd22ef94ac122aa11f241244a37ecc

def receiverSignature : Bytes := bigBytes 71
  0x3045022100d01115d548e7561b15c38f004d734633687cf4419620095bc5b0f47070afe85a022028a167887e9c1536c0822ae90db72d1c72b9ab702087f1839841c42ff4709c03

def spentOutput (value hash : Nat) : Bytes := leBytes 8 value ++ [22] ++ keyhashScript hash

def finalWitness (signature key : Bytes) : Bytes := [2, 72] ++ signature ++ [1, 33] ++ key

def spentInput (byte : UInt8) (vout : Nat) : Bytes :=
  wireCodecs.serializeInput { txid := replicate 32 byte, vout, sequence := 0xFFFFFFFD }

def paidTransaction (inputs : List Bytes) (payment change : Nat) : Bytes :=
  leBytes 4 2 ++ [UInt8.ofNat inputs.length] ++ inputs.flatten ++ [2] ++ leBytes 8 payment ++ [22] ++ paymentScript ++
    leBytes 8 change ++ [22] ++ changeScript ++ leBytes 4 0

def senderSpent : Bytes × Bytes := ([1], spentOutput 100000 0x751e76e8199196d454941c45d1b3a323f1433bd6)

/-- A sender pays 60000 satoshis of 100000 at ten satoshis a byte. -/
def originalPsbt : Bytes :=
  let witness := finalWitness
    (bigBytes 71
      0x3045022100acd484e2f0c7f65309ad178a9f559abde09796974c57e714c35f110dfc27ccbe02205540c171649dd0913c97b40764f52aa65ed732db230ea271f73a3270b9685c1f)
    (bigBytes 33 0x0279be667ef9dcbbac55a06295ce870b07029bfcdb2dce28d959f2815b16f81798)
  magic ++ encodeMap [([0], paidTransaction [spentInput 10 0] 60000 38590)] ++ encodeMap [senderSpent, ([8], witness)] ++
    encodeMap [] ++ encodeMap []

/-- The receiver adds an input of 20000 satoshis, and the change pays 500 for it. -/
def proposalPsbt : Bytes :=
  magic ++ encodeMap [([0], paidTransaction [spentInput 10 0, spentInput 11 1] 79400 38090)] ++ encodeMap [senderSpent] ++
    encodeMap [([1], spentOutput 20000 receiverHash), ([8], finalWitness receiverSignature receiverKey)] ++ encodeMap [] ++
    encodeMap []

def payjoinCodecs : Codecs :=
  { wireCodecs with
    sha256Hex := fun data =>
      if data = originalPsbt then "6b1cd9643aeebbc9d4376ad45064e2212f0dd585aa7fa6a9d96e1ec2b138d53f"
      else "bfd74c4c6c56a532740fc2a9c40a416d958a79cad975b22ba4bcc81280b17d1c" }

def readWitness (raw : Bytes) : Except PsbtError (List Bytes × Reader) := do
  let (count, reader) ← (Reader.start raw).compact
  (List.range count).foldlM
    (fun read _ => do
      let (item, reader) ← read.2.sized
      return (read.1 ++ [item], reader)) ([], reader)

def receiverDigest : Bytes := bigBytes 32 0xb1c9938f01121e159887ac2c8d393a22e4476ff8212de13fe1939de2a236f0a7

def payjoinVerifiers : Verifiers where
  decodeTransaction _ := none
  decodeOutput raw := (wireCodecs.readOutput (Reader.start raw)).toOption.map Prod.fst
  serializeOutput := wireCodecs.serializeOutput
  decodeWitness raw := (readWitness raw).toOption.map Prod.fst
  inputSize vin := (wireCodecs.serializeInput vin).length
  sha256 data := if data = receiverKey then receiverDigest else []
  ripemd160 data := if data = receiverDigest then bigBytes 20 receiverHash else []
  verifies _ index _ value sighash key signature :=
    index = 1 ∧ value = 20000 ∧ sighash = 1 ∧ key = receiverKey ∧ signature = receiverSignature
  product rate n := rate * n
  finiteDecimal _ := none
  decimalText _ := ""

def originalAnalysis : Analysis :=
  { inputMetadata := [⟨true, 0, false⟩], outputDerivationMetadataPresent := false, inputAmounts := [some 100000000]
    feeMsat := some 1410000, finalFeeRate := some 10 }

def proposalAnalysis : Analysis :=
  { inputMetadata := [⟨false, 0, false⟩, ⟨true, 0, false⟩], outputDerivationMetadataPresent := false
    inputAmounts := [some 100000000, some 20000000], feeMsat := some 2510000, finalFeeRate := none }

def payjoinConstraints : Json :=
  .fields [("payment_output_index", .number 0), ("additional_fee_output_index", .number 1),
    ("max_additional_fee_contribution_msat", .text "500000")]

theorem payjoin_checks_protect_proposal :
    ∃ before after, parse payjoinCodecs (.bytes originalPsbt) = .ok before ∧
      parse payjoinCodecs (.bytes proposalPsbt) = .ok after ∧
      ∃ c, readConstraints before payjoinConstraints = .ok c ∧
        SenderProtected before after originalAnalysis proposalAnalysis c := by
  let compared : Except PsbtError PayjoinReport := do
    let before ← parse payjoinCodecs (.bytes originalPsbt)
    let after ← parse payjoinCodecs (.bytes proposalPsbt)
    payjoinChecks payjoinVerifiers before after originalAnalysis proposalAnalysis payjoinConstraints
  have passes : compared.toOption.any (fun report => report.status = .checksPassed) = true := by decide +kernel
  cases outcome : compared with
  | error e => simp [outcome, Except.toOption] at passes
  | ok report =>
    simp only [outcome, Except.toOption, Option.any_some, decide_eq_true_eq] at passes
    obtain ⟨before, parsed, later⟩ := bind_ok.1 outcome
    obtain ⟨after, proposed, run⟩ := bind_ok.1 later
    exact ⟨before, after, parsed, proposed, payjoin_checks_protect run passes⟩

end Kassiber.Psbt.Payjoin
