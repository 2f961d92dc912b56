import Kassiber.Lib.Dict
import Kassiber.Lib.Labelling
import Kassiber.Psbt.Reader

/-!
Parsing a PSBT of version 0 or 2: the framing, the fields of the maps, and the transaction that they describe.
-/

namespace Kassiber.Psbt
open Lib.CompactSize Lib.Dict Lib.Outcome

structure TransactionInput where
  txid : Bytes
  vout : Nat
  sequence : Nat
  scriptSig : Bytes := []
  witness : List Bytes := []

structure TransactionOutput where
  value : Nat
  scriptPubkey : Bytes

structure Transaction where
  version : Nat
  vin : List TransactionInput
  vout : List TransactionOutput
  locktime : Nat

def Transaction.isSegwit (tx : Transaction) : Bool := tx.vin.any fun vin => !vin.witness.isEmpty

def TransactionInput.point (vin : TransactionInput) : Bytes × Nat := (vin.txid, vin.vout)

def maxPsbtBytes : Nat := 2 * 1024 * 1024
def maxLegs : Nat := 4096
def maxMoney : Nat := 21000000 * 100000000

/-- How single legs and keys are decoded, what texts decode to, and the digest of the data. -/
structure Codecs where
  readInput : Reader → Except PsbtError (TransactionInput × Reader)
  serializeInput : TransactionInput → Bytes
  readOutput : Reader → Except PsbtError (TransactionOutput × Reader)
  serializeOutput : TransactionOutput → Bytes
  publicKeyParses : Bytes → Bool
  fromHex : String → Option Bytes
  fromBase64 : String → Option Bytes
  sha256Hex : Bytes → String

def fieldNumber (entries : Entries) (key : Bytes) (width : Nat) : Except PsbtError (Option Nat) :=
  match lookup entries key with
  | none => .ok none
  | some value => if value.length ≠ width then invalid "invalid_field_length" else .ok (some (littleEndian value))

def requiredNumber (entries : Entries) (key : Bytes) (width : Nat) : Except PsbtError Nat := do
  match ← fieldNumber entries key width with
  | none => invalid "missing_required_field"
  | some value => return value

def count (entries : Entries) (key : Bytes) : Except PsbtError Nat :=
  match lookup entries key with
  | none => invalid "missing_required_field"
  | some value => do
    let (result, reader) ← (Reader.start value).compact
    invalidIf (reader.offset ≠ reader.data.length ∨ maxLegs < result) "invalid_or_excessive_leg_count"
    return result

inductive MapScope where
  | globals
  | input
  | output
  deriving DecidableEq

def singleton : MapScope → List Nat
  | .globals => [0, 2, 3, 4, 5, 6, 0xFB]
  | .input => [0, 1, 3, 4, 5, 7, 8, 0x0E, 0x0F, 0x10, 0x11, 0x12, 0x13, 0x17, 0x18]
  | .output => [0, 1, 3, 4, 5, 6]

def v2Only : MapScope → List Nat
  | .globals => [2, 3, 4, 5, 6]
  | .input => [0x0E, 0x0F, 0x10, 0x11, 0x12]
  | .output => [3, 4]

section
variable (codecs : Codecs)

def typedKey (mapScope : MapScope) (version : Nat) (entry : Bytes × Bytes) : Except PsbtError Unit := do
  let (keyType, _) ← (Reader.start entry.1).compact
  invalidIf (keyType ∈ singleton mapScope ∧ entry.1.length ≠ 1) "unexpected_key_data"
  invalidIf ((version = 0 ∧ keyType ∈ v2Only mapScope) ∨ (version = 2 ∧ mapScope = .globals ∧ keyType = 0))
    "field_forbidden_in_psbt_version"
  let keyed := (mapScope = .input ∧ keyType ∈ [2, 6]) ∨ (mapScope = .output ∧ keyType = 2)
  invalidIf (keyed ∧ codecs.publicKeyParses (entry.1.drop 1) = false) "invalid_public_key_encoding"
  let derived := (mapScope = .input ∧ keyType = 6) ∨ (mapScope = .output ∧ keyType = 2)
  invalidIf (derived ∧ (entry.2.length < 4 ∨ entry.2.length % 4 ≠ 0)) "invalid_derivation_encoding"

def typedMap (mapScope : MapScope) (version : Nat) (entries : Entries) : Except PsbtError Unit :=
  entries.forM (typedKey codecs mapScope version)

section
variable {α : Type} (read : Reader → Except PsbtError (α × Reader)) (serialize : α → Bytes)

def leg (reader : Reader) : Except PsbtError (α × Reader) := do
  let (row, next) ← read reader
  let written ← Reader.between next.data reader.offset next.offset
  invalidIf (serialize row ≠ written) "invalid_unsigned_transaction"
  return (row, next)

def legRows (reader : Reader) : Nat → Except PsbtError (List α × Reader)
  | 0 => .ok ([], reader)
  | rows + 1 => do
    let (row, reader) ← leg read serialize reader
    let (rest, reader) ← legRows reader rows
    return (row :: rest, reader)

def legs (reader : Reader) : Except PsbtError (List α × Reader) := do
  let (count, reader) ← reader.compact
  invalidIf (maxLegs < count) "invalid_or_excessive_leg_count"
  legRows read serialize reader count

end

def unsignedTransaction (value : Bytes) : Except PsbtError Transaction := do
  let (version, reader) ← (Reader.start value).number 4
  let (vin, reader) ← legs codecs.readInput codecs.serializeInput reader
  let (vout, reader) ← legs codecs.readOutput codecs.serializeOutput reader
  let (locktime, reader) ← reader.number 4
  invalidIf (reader.offset ≠ value.length) "invalid_unsigned_transaction"
  return { version, vin, vout, locktime }

structure InputFields where
  inputs : List TransactionInput := []
  timeLocks : List Nat := []
  heightLocks : List Nat := []
  timeAllowed : Bool := true
  heightAllowed : Bool := true

def previousTxid (row : Entries) : Except PsbtError Bytes :=
  match lookup row [0x0E] with
  | none => invalid "missing_or_invalid_previous_txid"
  | some txid => if txid.length ≠ 32 then invalid "missing_or_invalid_previous_txid" else .ok txid

def addInput (fields : InputFields) (row : Entries) : Except PsbtError InputFields := do
  let txid ← previousTxid row
  let vout ← requiredNumber row [0x0F] 4
  let sequence ← fieldNumber row [0x10] 4
  let timeLock ← fieldNumber row [0x11] 4
  let heightLock ← fieldNumber row [0x12] 4
  invalidIf (timeLock.any (· < 500000000) ∨ heightLock.any fun height => !(0 < height && height < 500000000))
    "invalid_required_locktime"
  let locked := timeLock.isSome || heightLock.isSome
  return { inputs := fields.inputs ++ [{ txid := txid.reverse, vout, sequence := sequence.getD 0xFFFFFFFF }],
           timeLocks := fields.timeLocks ++ timeLock.toList,
           heightLocks := fields.heightLocks ++ heightLock.toList,
           timeAllowed := fields.timeAllowed && (!locked || timeLock.isSome),
           heightAllowed := fields.heightAllowed && (!locked || heightLock.isSome) }

def outputOf (row : Entries) : Except PsbtError TransactionOutput := do
  let value ← requiredNumber row [0x03] 8
  match lookup row [0x04] with
  | none => invalid "missing_output_script"
  | some scriptPubkey => return { value, scriptPubkey }

def greatest (locks : List Nat) : Nat := locks.foldl max 0

def resolvedLocktime (fields : InputFields) (fallback : Nat) : Nat :=
  if fields.heightAllowed = true ∧ fields.heightLocks ≠ [] then greatest fields.heightLocks
  else if fields.timeLocks ≠ [] then greatest fields.timeLocks
  else fallback

def describedTransaction (version fallback : Nat) (inputMaps outputMaps : List Entries) :
    Except PsbtError Transaction := do
  let fields ← inputMaps.foldlM addInput {}
  invalidIf (fields.timeAllowed = false ∧ fields.heightAllowed = false) "incompatible_required_locktime_types"
  let vout ← outputMaps.mapM outputOf
  return { version, vin := fields.inputs, vout, locktime := resolvedLocktime fields fallback }

/-- A parsed PSBT spends no outpoint twice and stays within the money supply. -/
structure Parsed where
  psbtVersion : Nat
  tx : Transaction
  globals : Entries
  inputs : List Entries
  outputs : List Entries
  contentSha256 : String
  amounts : (∀ row ∈ tx.vout, row.value ≤ maxMoney) ∧ (tx.vout.map TransactionOutput.value).sum ≤ maxMoney
  points : (tx.vin.map TransactionInput.point).Nodup

/-- What the global map says: the transaction of version 0, or the fields of version 2 with the counts of its maps. -/
inductive Header where
  | whole (tx : Transaction)
  | fields (version inputCount outputCount fallbackLocktime : Nat)

def Header.counts : Header → Nat × Nat
  | .whole tx => (tx.vin.length, tx.vout.length)
  | .fields _ inputCount outputCount _ => (inputCount, outputCount)

def header (globals : Entries) (version : Nat) : Except PsbtError Header :=
  if version = 0 then
    match lookup globals [0x00] with
    | none => invalid "missing_unsigned_transaction"
    | some rawTx => do
      let tx ← unsignedTransaction codecs rawTx
      invalidIf (tx.isSegwit ∨ ∃ row ∈ tx.vin, row.scriptSig ≠ []) "unsigned_transaction_contains_scripts_or_witness"
      invalidIf (maxLegs < max tx.vin.length tx.vout.length) "invalid_or_excessive_leg_count"
      return .whole tx
  else do
    let txVersion ← requiredNumber globals [0x02] 4
    let inputCount ← count globals [0x04]
    let outputCount ← count globals [0x05]
    let fallbackLocktime ← fieldNumber globals [0x03] 4
    let _ ← fieldNumber globals [0x06] 1
    return .fields txVersion inputCount outputCount (fallbackLocktime.getD 0)

def Header.transaction (inputMaps outputMaps : List Entries) : Header → Except PsbtError Transaction
  | .whole tx => .ok tx
  | .fields version _ _ fallbackLocktime => describedTransaction version fallbackLocktime inputMaps outputMaps

def checked (psbtVersion : Nat) (tx : Transaction) (globals : Entries) (inputs outputs : List Entries)
    (contentSha256 : String) : Except PsbtError Parsed :=
  if amounts : (∀ row ∈ tx.vout, row.value ≤ maxMoney) ∧ (tx.vout.map TransactionOutput.value).sum ≤ maxMoney then
    if points : (tx.vin.map TransactionInput.point).Nodup then
      .ok { psbtVersion, tx, globals, inputs, outputs, contentSha256, amounts, points }
    else invalid "duplicate_input_outpoint"
  else invalid "output_amount_out_of_range"

def magic : Bytes := [0x70, 0x73, 0x62, 0x74, 0xFF]

def parseData (data : Bytes) : Except PsbtError Parsed := do
  invalidIf (maxPsbtBytes < data.length) "payload_limit"
  let (start, reader) ← (Reader.start data).take 5
  invalidIf (start ≠ magic) "invalid_magic"
  let (globals, reader) ← reader.mapping
  let version ← fieldNumber globals [0xFB] 4
  let version := version.getD 0
  invalidIf (version ∉ [0, 2]) "unsupported_psbt_version"
  typedMap codecs .globals version globals
  let header ← header codecs globals version
  let (inputs, reader) ← reader.mappings header.counts.1
  let (outputs, reader) ← reader.mappings header.counts.2
  invalidIf (reader.offset ≠ data.length) "trailing_bytes_or_extra_maps"
  inputs.forM (typedMap codecs .input version)
  outputs.forM (typedMap codecs .output version)
  let tx ← header.transaction inputs outputs
  checked version tx globals inputs outputs (codecs.sha256Hex data)

inductive Payload where
  | bytes (data : Bytes)
  | text (text : String)

def hexMagic : List Char := "70736274ff".toList

def parseText (text : String) : Except PsbtError Parsed := do
  invalidIf (maxPsbtBytes * 3 < text.length) "payload_limit"
  let compact := text.toList.filter fun c => !Lib.Labelling.isBlank c
  let decoded :=
    if hexMagic.isPrefixOf compact then codecs.fromHex (String.ofList compact)
    else codecs.fromBase64 (String.ofList compact)
  match decoded with
  | none => invalid "invalid_base64_or_hex"
  | some data => parseData codecs data

def parse : Payload → Except PsbtError Parsed
  | .text text => parseText codecs text
  | .bytes data =>
    if magic.isPrefixOf data then parseData codecs data
    else do
      invalidIf (maxPsbtBytes * 3 < data.length) "payload_limit"
      invalidIf (∃ byte ∈ data, 128 ≤ byte.toNat) "invalid_binary_or_text_encoding"
      parseText codecs (String.ofList (data.map fun byte => Char.ofNat byte.toNat))

end

end Kassiber.Psbt
