import Kassiber.Psbt.Parsing

/-!
What the map of an input says about the output that it spends: the output itself, the size of the final input, and
whether the final witness commits to the transaction.
-/

namespace Kassiber.Psbt
open Lib.CompactSize Lib.Dict

/-- The transaction library, hashes and decimal arithmetic behind the checks. -/
structure Verifiers where
  decodeTransaction : Bytes → Option (Bytes × List TransactionOutput)
  decodeOutput : Bytes → Option TransactionOutput
  serializeOutput : TransactionOutput → Bytes
  decodeWitness : Bytes → Option (List Bytes)
  inputSize : TransactionInput → Nat
  sha256 : Bytes → Bytes
  ripemd160 : Bytes → Bytes
  /-- The signature of a key on the digest of an input, its script code, value and sighash. -/
  verifies : Transaction → Nat → Bytes → Nat → Nat → Bytes → Bytes → Bool
  product : ℚ → Nat → ℚ
  finiteDecimal : String → Option ℚ
  decimalText : ℚ → String

inductive ScriptType where
  | p2pkh
  | p2sh
  | p2wpkh
  | p2wsh
  | p2tr
  | opReturn
  | p2pk
  | witnessUnknown
  | other
  deriving DecidableEq

/-- The byte at a position, 0 behind the end; every use is behind a check of the length. -/
def byteAt (script : Bytes) (index : Nat) : Nat := ((script[index]?).map UInt8.toNat).getD 0

def scriptType (script : Bytes) : ScriptType :=
  let length := script.length
  let first := byteAt script 0
  if length = 25 ∧ script.take 3 = [0x76, 0xA9, 0x14] ∧ script.drop 23 = [0x88, 0xAC] then .p2pkh
  else if length = 23 ∧ script.take 2 = [0xA9, 0x14] ∧ script.drop 22 = [0x87] then .p2sh
  else if length = 22 ∧ script.take 2 = [0x00, 0x14] then .p2wpkh
  else if length = 34 ∧ script.take 2 = [0x00, 0x20] then .p2wsh
  else if length = 34 ∧ script.take 2 = [0x51, 0x20] then .p2tr
  else if script.take 1 = [0x6A] then .opReturn
  else if length ∈ [35, 67] ∧ first = length - 2 ∧ byteAt script (length - 1) = 0xAC then .p2pk
  else if 4 ≤ length ∧ length ≤ 42 ∧ (first = 0 ∨ 0x51 ≤ first ∧ first ≤ 0x60) ∧ byteAt script 1 = length - 2 then
    .witnessUnknown
  else .other

/-- The size of the data that an opcode pushes and what follows, or none where it pushes no data. -/
def pushSize (opcode : Nat) (rest : Bytes) : Option (Nat × Bytes) :=
  if opcode ≤ 75 then some (opcode, rest)
  else if opcode ≤ 78 then
    let width := if opcode = 76 then 1 else if opcode = 77 then 2 else 4
    if rest.length < width then none else some (littleEndian (rest.take width), rest.drop width)
  else none

def pushesFrom : Nat → Bytes → Option (List Bytes)
  | 0, _ => some []
  | _ + 1, [] => some []
  | fuel + 1, opcode :: rest => do
    let (size, rest) ← pushSize opcode.toNat rest
    if rest.length < size then none
    else
      let later ← pushesFrom fuel (rest.drop size)
      return rest.take size :: later

/-- The pushes of a script of pushes only. Every turn reads a byte, so the length is enough. -/
def pushes (script : Bytes) : Option (List Bytes) := pushesFrom script.length script

def curveOrder : Nat := 0xFFFFFFFFFFFFFFFFFFFFFFFFFFFFFFFEBAAEDCE6AF48A03BBFD25E8CD0364141

def bigEndian (bytes : Bytes) : Nat := littleEndian bytes.reverse

/-- A strictly encoded positive integer of a signature. -/
def strictInteger (bytes : Bytes) : Bool :=
  !(128 ≤ byteAt bytes 0 || (1 < bytes.length && byteAt bytes 0 = 0 && byteAt bytes 1 < 128)) &&
    0 < bigEndian bytes && bigEndian bytes < curveOrder

/-- The sighash of a strictly encoded ECDSA signature. -/
def signatureSighash (value : Bytes) : Option Nat :=
  let size := value.length
  let lengthR := byteAt value 3
  let lengthS := byteAt value (5 + lengthR)
  if !(9 ≤ size && size ≤ 73) || byteAt value 0 != 0x30 || byteAt value 1 != size - 3 then none
  else if byteAt value 2 != 2 || lengthR = 0 || size ≤ 5 + lengthR || byteAt value (4 + lengthR) != 2 then none
  else if lengthS = 0 || lengthR + lengthS + 7 != size then none
  else if strictInteger ((value.drop 4).take lengthR) && strictInteger ((value.drop (6 + lengthR)).take lengthS) then
    some (byteAt value (size - 1))
  else none

section
variable (verifiers : Verifiers)

def hash160 (bytes : Bytes) : Bytes := verifiers.ripemd160 (verifiers.sha256 bytes)

def validateScripts (row : Entries) (utxo : TransactionOutput) (index : Nat) : Except PsbtError Unit := do
  let outer := utxo.scriptPubkey
  let redeem := lookup row [0x04]
  let effective := redeem.getD outer
  if redeem.any fun redeem => scriptType outer ≠ .p2sh ∨ hash160 verifiers redeem ≠ (outer.drop 2).take 20 then
    invalidAt "redeem_script_mismatch" index
  if (lookup row [0x05]).any fun script =>
      scriptType effective ≠ .p2wsh ∨ verifiers.sha256 script ≠ effective.drop 2 then
    invalidAt "witness_script_mismatch" index
  if (lookup row [0x01]).isSome ∧ scriptType outer ∉ [.p2sh, .p2wpkh, .p2wsh, .p2tr, .witnessUnknown] then
    invalidAt "witness_utxo_for_nonsegwit_script" index
  if (lookup row [0x01]).isSome ∧ redeem.any fun redeem => scriptType redeem ∉ [.p2wpkh, .p2wsh] then
    invalidAt "witness_utxo_for_nonsegwit_redeem_script" index

def previousOutput (row : Entries) (vin : TransactionInput) (index : Nat) : Except PsbtError (Option TransactionOutput) :=
  match lookup row [0x00] with
  | none => .ok none
  | some raw =>
    match verifiers.decodeTransaction raw with
    | none => invalid "invalid_non_witness_utxo"
    | some (txid, outputs) =>
      if txid ≠ vin.txid then invalidAt "non_witness_utxo_txid_mismatch" index
      else match outputs[vin.vout]? with
        | none => invalidAt "non_witness_utxo_outpoint_out_of_range" index
        | some output =>
          if (∃ output ∈ outputs, maxMoney < output.value) ∨ maxMoney < (outputs.map TransactionOutput.value).sum then
            invalidAt "previous_transaction_amount_out_of_range" index
          else .ok (some output)

def witnessOutput (row : Entries) (index : Nat) : Except PsbtError (Option TransactionOutput) :=
  match lookup row [0x01] with
  | none => .ok none
  | some raw =>
    match verifiers.decodeOutput raw with
    | none => invalid "invalid_witness_utxo"
    | some output => if maxMoney < output.value then invalidAt "input_amount_out_of_range" index else .ok (some output)

/-- The output that an input spends, as its map supplies it. -/
def inputUtxo (row : Entries) (vin : TransactionInput) (index : Nat) : Except PsbtError (Option TransactionOutput) := do
  let previous ← previousOutput verifiers row vin index
  let witness ← witnessOutput verifiers row index
  match previous, witness with
  | some previous, some witness =>
    if verifiers.serializeOutput previous ≠ verifiers.serializeOutput witness then
      invalidAt "witness_non_witness_utxo_conflict" index
  | _, _ => pure ()
  let utxo := previous <|> witness
  utxo.forM fun utxo => validateScripts verifiers row utxo index
  return utxo

/-- An input of a parsed transaction with its map; there are as many maps as inputs. -/
def inputWithMap (parsed : Parsed) (index : Nat) : Option (TransactionInput × Entries) := do
  let vin ← parsed.tx.vin[index]?
  let row ← parsed.inputs[index]?
  return (vin, row)

def finalInputVsize (parsed : Parsed) (index : Nat) : Except PsbtError (Option Nat) :=
  match inputWithMap parsed index with
  | none => .ok none
  | some (vin, row) => do
    let utxo ← inputUtxo verifiers row vin index
    let scriptSig := (lookup row [0x07]).getD []
    let witness := lookup row [0x08]
    return utxo.bind fun utxo =>
      let kind := scriptType utxo.scriptPubkey
      let wrapped := (pushes scriptSig).any fun pushed => pushed.length = 1 ∧ pushed.all fun push => scriptType push = .p2wpkh
      if ((lookup row [0x07]).isNone ∧ witness.isNone) ∨ kind ∉ [.p2pkh, .p2wpkh, .p2sh, .p2tr] ∨
          (kind = .p2sh ∧ wrapped = false) ∨ (kind ≠ .p2pkh ∧ witness.isNone) then none
      else some ((verifiers.inputSize { vin with scriptSig } * 4 + (witness.getD []).length + 3) / 4)

/-- Whether a final witness of a key hash commits to the transaction, for a script of that type. -/
def verifyWitness (parsed : Parsed) (index : Nat) (utxo : TransactionOutput) (script : Bytes) (row : Entries) :
    Except PsbtError (Option Bool) :=
  if scriptType script ≠ .p2wpkh then .ok none
  else match lookup row [0x08] with
    | none => .ok (some false)
    | some raw =>
      match verifiers.decodeWitness raw with
      | none => invalid "invalid_final_witness"
      | some [signature, key] =>
        if hash160 verifiers key ≠ script.drop 2 then .ok (some false)
        else match signatureSighash signature with
          | none => .ok (some false)
          | some sighash =>
            let scriptCode := [0x76, 0xA9, 0x14] ++ script.drop 2 ++ [0x88, 0xAC]
            .ok (some (sighash ∈ [1, 2, 3, 0x81, 0x82, 0x83] ∧
              verifiers.verifies parsed.tx index scriptCode utxo.value sighash key signature.dropLast = true : Bool))
      | some _ => .ok (some false)

def verifySegwitKeyhashSignature (parsed : Parsed) (index : Nat) : Except PsbtError (Option Bool) :=
  match inputWithMap parsed index with
  | none => .ok none
  | some (vin, row) => do
    let utxo ← inputUtxo verifiers row vin index
    match utxo with
    | none => return none
    | some utxo =>
      let outer := utxo.scriptPubkey
      if scriptType outer = .p2sh then
        match (lookup row [0x07]).bind pushes with
        | some [redeem] =>
          if hash160 verifiers redeem ≠ (outer.drop 2).take 20 then return some false
          else verifyWitness verifiers parsed index utxo redeem row
        | _ => return none
      else if ((lookup row [0x07]).getD []) ≠ [] then
        return if scriptType outer = .p2wpkh then some false else none
      else verifyWitness verifiers parsed index utxo outer row

end

end Kassiber.Psbt
