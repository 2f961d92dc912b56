import Kassiber.Psbt.Parsing

/-!
An accepted PSBT is the encoding of its maps and nothing else, and no input makes the parser read behind
the end of the data.
-/

namespace Kassiber.Psbt
open Lib.CompactSize Lib.Dict Lib.Outcome List

/-- A decoder that reads at the cursor and leaves it inside the same data. -/
structure StaysWithin {α : Type} (read : Reader → Except PsbtError (α × Reader)) : Prop where
  guarded : ∀ reader : Reader, reader.offset ≤ reader.data.length → Guarded (read reader)
  stays : ∀ (reader after : Reader) (row : α), reader.offset ≤ reader.data.length → read reader = .ok (row, after) →
    after.data = reader.data ∧ after.offset ≤ after.data.length

structure Codecs.Within (codecs : Codecs) : Prop where
  input : StaysWithin codecs.readInput
  output : StaysWithin codecs.readOutput

theorem forM_guarded {α : Type} {f : α → Except PsbtError Unit} (guarded : ∀ x, Guarded (f x)) (xs : List α) :
    Guarded (xs.forM f) := by
  induction xs with
  | nil => exact guarded_pure
  | cons x rest ih => exact (guarded x).bind fun _ _ => ih

theorem mapM_guarded {α β : Type} {f : α → Except PsbtError β} (guarded : ∀ x, Guarded (f x)) (xs : List α) :
    Guarded (xs.mapM f) := by
  induction xs with
  | nil => exact guarded_pure
  | cons x rest ih =>
    rw [mapM_cons]
    exact (guarded x).bind fun _ _ => ih.bind fun _ _ => guarded_pure

theorem foldlM_guarded {σ α : Type} {f : σ → α → Except PsbtError σ} (guarded : ∀ s x, Guarded (f s x)) (xs : List α) :
    ∀ s, Guarded (xs.foldlM f s) := by
  induction xs with
  | nil => exact fun _ => guarded_pure
  | cons x rest ih => exact fun s => (guarded s x).bind fun next _ => ih next

section
variable {entries : Entries} {key : Bytes} {width : Nat} {codecs : Codecs}

theorem fieldNumber_guarded : Guarded (fieldNumber entries key width) := by
  unfold fieldNumber
  split
  · exact guarded_ok
  · split_ifs
    · exact guarded_invalid
    · exact guarded_ok

theorem requiredNumber_guarded : Guarded (requiredNumber entries key width) := by
  refine fieldNumber_guarded.bind fun found _ => ?_
  cases found with
  | none => exact guarded_invalid
  | some value => exact guarded_pure

theorem count_guarded : Guarded (count entries key) := by
  unfold count
  split
  · exact guarded_invalid
  · exact Reader.compact_guarded.bind fun _ _ => guarded_invalidIf.bind fun _ _ => guarded_pure

variable {version : Nat} {inputs outputs : List Entries}

theorem typedMap_guarded {mapScope : MapScope} : Guarded (typedMap codecs mapScope version entries) :=
  forM_guarded (fun _ => Reader.compact_guarded.bind fun _ _ => guarded_invalidIf.bind fun _ _ =>
    guarded_invalidIf.bind fun _ _ => guarded_invalidIf.bind fun _ _ => guarded_invalidIf) entries

section
variable {α : Type} {read : Reader → Except PsbtError (α × Reader)} {serialize : α → Bytes} {reader : Reader}

theorem leg_within (stays : StaysWithin read) (within : reader.offset ≤ reader.data.length) :
    Guarded (leg read serialize reader) ∧
      ∀ row after, leg read serialize reader = .ok (row, after) → after.data = reader.data ∧ after.offset ≤ after.data.length := by
  constructor
  · refine (stays.guarded reader within).bind fun ⟨row, next⟩ found => ?_
    obtain ⟨-, inside⟩ := stays.stays reader next row within found
    have between_guarded : Guarded (Reader.between next.data reader.offset next.offset) := by
      rw [Reader.between, if_pos inside]
      exact guarded_ok
    exact between_guarded.bind fun _ _ => guarded_invalidIf.bind fun _ _ => guarded_pure
  · intro row after found
    simp only [leg, bind_ok, pure_ok, Prod.exists, Prod.mk.injEq] at found
    obtain ⟨_, next, taken, -, -, -, -, -, rfl⟩ := found
    exact stays.stays reader next _ within taken

theorem legRows_within (stays : StaysWithin read) {count : Nat} (within : reader.offset ≤ reader.data.length) :
    Guarded (legRows read serialize reader count) ∧
      ∀ rows after, legRows read serialize reader count = .ok (rows, after) →
        after.data = reader.data ∧ after.offset ≤ after.data.length := by
  induction count generalizing reader with
  | zero =>
    refine ⟨guarded_ok, fun rows after found => ?_⟩
    simp only [legRows, Except.ok.injEq, Prod.mk.injEq] at found
    obtain ⟨-, rfl⟩ := found
    exact ⟨rfl, within⟩
  | succ count ih =>
    constructor
    · refine (leg_within stays within).1.bind fun ⟨row, next⟩ found => ?_
      obtain ⟨-, inside⟩ := (leg_within stays within).2 row next found
      exact (ih inside).1.bind fun _ _ => guarded_pure
    · intro rows after found
      simp only [legRows, bind_ok, pure_ok, Prod.exists, Prod.mk.injEq] at found
      obtain ⟨row, next, first, rest, last, later, -, rfl⟩ := found
      obtain ⟨same, inside⟩ := (leg_within stays within).2 row next first
      obtain ⟨same_later, inside_later⟩ := (ih inside).2 rest last later
      exact ⟨same_later.trans same, inside_later⟩

theorem legs_within (stays : StaysWithin read) :
    Guarded (legs read serialize reader) ∧
      ∀ rows after, legs read serialize reader = .ok (rows, after) →
        after.data = reader.data ∧ after.offset ≤ after.data.length := by
  constructor
  · refine Reader.compact_guarded.bind fun ⟨count, next⟩ found => guarded_invalidIf.bind fun _ _ => ?_
    exact (legRows_within stays (Reader.compact_ok found).within).1
  · intro rows after found
    simp only [legs, bind_ok, Prod.exists] at found
    obtain ⟨count, next, first, -, -, rest⟩ := found
    have reads := Reader.compact_ok first
    obtain ⟨same, inside⟩ := (legRows_within stays reads.within).2 rows after rest
    exact ⟨same.trans reads.data, inside⟩

end

theorem unsignedTransaction_guarded (within : codecs.Within) (value : Bytes) :
    Guarded (unsignedTransaction codecs value) := by
  refine Reader.number_guarded.bind fun _ _ => ?_
  refine (legs_within within.input).1.bind fun _ _ => ?_
  refine (legs_within within.output).1.bind fun _ _ => ?_
  exact Reader.number_guarded.bind fun _ _ => guarded_invalidIf.bind fun _ _ => guarded_pure

theorem previousTxid_guarded : Guarded (previousTxid entries) := by
  unfold previousTxid
  split
  · exact guarded_invalid
  · split_ifs
    · exact guarded_invalid
    · exact guarded_ok

theorem addInput_guarded (fields : InputFields) (row : Entries) : Guarded (addInput fields row) := by
  refine previousTxid_guarded.bind fun _ _ => ?_
  refine requiredNumber_guarded.bind fun _ _ => ?_
  refine fieldNumber_guarded.bind fun _ _ => fieldNumber_guarded.bind fun _ _ => fieldNumber_guarded.bind fun _ _ => ?_
  exact Guarded.bind guarded_invalidIf fun _ _ => guarded_pure

theorem outputOf_guarded (row : Entries) : Guarded (outputOf row) := by
  refine requiredNumber_guarded.bind fun _ _ => ?_
  split
  · exact guarded_invalid
  · exact guarded_pure

theorem header_guarded (within : codecs.Within) {globals : Entries} :
    Guarded (header codecs globals version) := by
  unfold header
  split_ifs
  · split
    · exact guarded_invalid
    · exact (unsignedTransaction_guarded within _).bind fun _ _ => guarded_invalidIf.bind fun _ _ =>
        guarded_invalidIf.bind fun _ _ => guarded_pure
  · exact requiredNumber_guarded.bind fun _ _ => count_guarded.bind fun _ _ => count_guarded.bind fun _ _ =>
      fieldNumber_guarded.bind fun _ _ => fieldNumber_guarded.bind fun _ _ => guarded_pure

theorem transaction_guarded {header : Header} :
    Guarded (header.transaction inputs outputs) := by
  cases header with
  | whole tx => exact guarded_ok
  | fields version inputCount outputCount fallback =>
    exact (foldlM_guarded addInput_guarded inputs {}).bind fun _ _ => guarded_invalidIf.bind fun _ _ =>
      (mapM_guarded outputOf_guarded outputs).bind fun _ _ => guarded_pure

theorem checked_guarded {tx : Transaction} {globals : Entries}
    {digest : String} : Guarded (checked version tx globals inputs outputs digest) := by
  unfold checked
  split_ifs
  · exact guarded_ok
  · exact guarded_invalid
  · exact guarded_invalid

theorem parseData_guarded (within : codecs.Within) (data : Bytes) : Guarded (parseData codecs data) := by
  refine guarded_invalidIf.bind fun _ _ => Reader.take_guarded.bind fun _ _ => guarded_invalidIf.bind fun _ _ =>
    entries_guarded.bind fun _ _ => fieldNumber_guarded.bind fun _ _ => guarded_invalidIf.bind fun _ _ =>
    typedMap_guarded.bind fun _ _ => (header_guarded within).bind fun _ _ => mappings_guarded.bind fun _ _ =>
    mappings_guarded.bind fun _ _ => guarded_invalidIf.bind fun _ _ => (forM_guarded (fun _ => typedMap_guarded) _).bind
    fun _ _ => (forM_guarded (fun _ => typedMap_guarded) _).bind fun _ _ => transaction_guarded.bind fun _ _ =>
    checked_guarded

theorem parseText_guarded (within : codecs.Within) (text : String) : Guarded (parseText codecs text) := by
  refine guarded_invalidIf.bind fun _ _ => ?_
  dsimp only
  split
  · exact guarded_invalid
  · exact parseData_guarded within _

theorem parse_guarded (within : codecs.Within) (payload : Payload) : Guarded (parse codecs payload) := by
  cases payload with
  | text text => exact parseText_guarded within text
  | bytes data =>
    rw [parse]
    split_ifs
    · exact parseData_guarded within data
    · exact guarded_invalidIf.bind fun _ _ => guarded_invalidIf.bind fun _ _ => parseText_guarded within _

end

def encodeMaps (parsed : Parsed) : Bytes :=
  magic ++ encodeMap parsed.globals ++ parsed.inputs.flatMap encodeMap ++ parsed.outputs.flatMap encodeMap

structure Framed (data : Bytes) (parsed : Parsed) : Prop where
  whole : encodeMaps parsed = data
  inputMaps : parsed.inputs.length = parsed.tx.vin.length
  outputMaps : parsed.outputs.length = parsed.tx.vout.length
  keys : ∀ entries ∈ parsed.globals :: (parsed.inputs ++ parsed.outputs), (entries.map Prod.fst).Nodup
  points : (parsed.tx.vin.map TransactionInput.point).Nodup
  amounts : ∀ row ∈ parsed.tx.vout, row.value ≤ maxMoney
  total : (parsed.tx.vout.map TransactionOutput.value).sum ≤ maxMoney

section
variable {codecs : Codecs} {data : Bytes} {parsed : Parsed}

theorem addInput_length {fields next : InputFields} {row : Entries} (added : addInput fields row = .ok next) :
    next.inputs.length = fields.inputs.length + 1 := by
  simp only [addInput, bind_ok, pure_ok] at added
  obtain ⟨txid, -, vout, -, sequence, -, timeLock, -, heightLock, -, -, -, rfl⟩ := added
  simp

theorem inputs_length {inputMaps : List Entries} : ∀ {fields next : InputFields},
    inputMaps.foldlM addInput fields = .ok next → next.inputs.length = fields.inputs.length + inputMaps.length := by
  induction inputMaps with
  | nil =>
    intro fields next run
    rw [foldlM_nil, pure_ok] at run
    rw [run, length_nil, Nat.add_zero]
  | cons row rest ih =>
    intro fields next run
    rw [foldlM_cons, bind_ok] at run
    obtain ⟨middle, added, later⟩ := run
    rw [ih later, addInput_length added, length_cons]
    omega

theorem transaction_counts {header : Header} {inputs outputs : List Entries} {tx : Transaction}
    (inputCount : inputs.length = header.counts.1) (outputCount : outputs.length = header.counts.2)
    (described : header.transaction inputs outputs = .ok tx) :
    inputs.length = tx.vin.length ∧ outputs.length = tx.vout.length := by
  cases header with
  | whole own =>
    simp only [Header.transaction, Except.ok.injEq] at described
    exact described ▸ ⟨inputCount, outputCount⟩
  | fields version inputCount outputCount fallback =>
    simp only [Header.transaction, describedTransaction, bind_ok, pure_ok] at described
    obtain ⟨fields, collected, -, -, vout, made, rfl⟩ := described
    refine ⟨?_, (mapM_ok.1 made).length_eq⟩
    have length := inputs_length collected
    simp only [length_nil, Nat.zero_add] at length
    exact length.symm

theorem parseData_framed (accepted : parseData codecs data = .ok parsed) : Framed data parsed := by
  simp only [parseData, bind_ok, Prod.exists, invalidIf_ok, not_not] at accepted
  obtain ⟨-, -, start, afterMagic, taken, -, rfl, globals, afterGlobals, globalMap, version, -, -, -, -, -, header, -,
    inputs, afterInputs, inputMaps, outputs, afterOutputs, outputMaps, -, ended, -, -, -, -, tx, described, made⟩ :=
    accepted
  obtain ⟨-, magicReads⟩ := Reader.take_ok taken
  obtain ⟨globalKeys, globalReads⟩ := mapping_ok globalMap
  obtain ⟨inputCount, inputKeys, inputReads⟩ := mappings_ok globalReads.within inputMaps
  obtain ⟨outputCount, outputKeys, outputReads⟩ := mappings_ok inputReads.within outputMaps
  obtain ⟨inputMatch, outputMatch⟩ := transaction_counts inputCount outputCount described
  have all := ((magicReads.append globalReads).append inputReads).append outputReads
  unfold checked at made
  split_ifs at made with amounts points
  case neg => exact absurd made invalid_ne_ok
  case neg => exact absurd made invalid_ne_ok
  rw [Except.ok.injEq] at made
  subst made
  have rest_empty : afterOutputs.data.drop afterOutputs.offset = [] := by
    rw [all.data, ended]
    exact drop_length
  have whole := all.held
  rw [rest_empty, append_nil] at whole
  refine ⟨whole.symm, inputMatch, outputMatch, forall_mem_cons.2 ⟨globalKeys, fun entries member => ?_⟩, points,
    amounts.1, amounts.2⟩
  rcases mem_append.1 member with input | output
  · exact inputKeys entries input
  · exact outputKeys entries output

/-- Raw data is accepted as the encoding of its maps only, the maps determine the data, and no data makes the
parser read behind its end. -/
theorem psbt_framing_canonical (within : codecs.Within) :
    (∀ (data : Bytes) (parsed : Parsed), magic <+: data → parse codecs (.bytes data) = .ok parsed →
      Framed data parsed) ∧
    (∀ (data other : Bytes) (parsed otherParsed : Parsed), magic <+: data → magic <+: other →
      parse codecs (.bytes data) = .ok parsed → parse codecs (.bytes other) = .ok otherParsed →
      parsed.globals = otherParsed.globals → parsed.inputs = otherParsed.inputs →
      parsed.outputs = otherParsed.outputs → data = other) ∧
    ∀ payload : Payload, Guarded (parse codecs payload) := by
  have framed : ∀ (data : Bytes) (parsed : Parsed), magic <+: data → parse codecs (.bytes data) = .ok parsed →
      Framed data parsed := by
    intro data parsed raw accepted
    rw [parse, if_pos ( isPrefixOf_iff_prefix.2 raw)] at accepted
    exact parseData_framed accepted
  refine ⟨framed, ?_, parse_guarded within⟩
  intro data other parsed otherParsed raw otherRaw accepted otherAccepted globals inputs outputs
  rw [← (framed data parsed raw accepted).whole, ← (framed other otherParsed otherRaw otherAccepted).whole, encodeMaps,
    encodeMaps, globals, inputs, outputs]

end

/-- A PSBT of version 0 with one input, one output and the given bytes of an output map. -/
def framedPsbt (outputEntries : Bytes) : Bytes :=
  magic ++ [1, 0, 61, 2, 0, 0, 0, 1] ++ replicate 32 7 ++ [0, 0, 0, 0, 0, 253, 255, 255, 255, 1, 232, 3] ++ replicate 6 0 ++
    [1, 81, 0, 0, 0, 0, 0, 1, 3, 4, 1, 0, 0, 0, 0] ++ outputEntries ++ [0]

def ascendingPsbt : Bytes := framedPsbt [2, 252, 1, 1, 5, 2, 252, 2, 1, 6]

def descendingPsbt : Bytes := framedPsbt [2, 252, 2, 1, 6, 2, 252, 1, 1, 5]

/-- The wire format of the legs, with the digests of the two PSBTs. -/
def wireCodecs : Codecs where
  readInput reader := do
    let (txid, reader) ← reader.take 32
    let (vout, reader) ← reader.number 4
    let (scriptSig, reader) ← reader.sized
    let (sequence, reader) ← reader.number 4
    return ({ txid := txid.reverse, vout, sequence, scriptSig }, reader)
  serializeInput row := row.txid.reverse ++ leBytes 4 row.vout ++ encodeSized row.scriptSig ++ leBytes 4 row.sequence
  readOutput reader := do
    let (value, reader) ← reader.number 8
    let (scriptPubkey, reader) ← reader.sized
    return ({ value, scriptPubkey }, reader)
  serializeOutput row := leBytes 8 row.value ++ encodeSized row.scriptPubkey
  publicKeyParses _ := false
  fromHex _ := none
  fromBase64 _ := none
  sha256Hex data :=
    if data = ascendingPsbt then "623a017267fa2b7b70e6e9b4831a68ff70b6c827f931b29e2a0c07b0900eed38"
    else if data = descendingPsbt then "01668164c3f3cfe74ab088cf59c6f5c1a05f72a1bda973dc08731f80ed3c7f5e"
    else ""

theorem wireCodecs_within : wireCodecs.Within where
  input :=
    { guarded := fun _ _ => Reader.take_guarded.bind fun _ _ => Reader.number_guarded.bind fun _ _ =>
        Reader.sized_guarded.bind fun _ _ => Reader.number_guarded.bind fun _ _ => guarded_pure
      stays := by
        intro reader after row _ read
        simp only [wireCodecs, bind_ok, pure_ok, Prod.exists, Prod.mk.injEq] at read
        obtain ⟨txid, one, taken, vout, two, numbered, scriptSig, three, scripted, sequence, four, last, -, rfl⟩ := read
        obtain ⟨-, first⟩ := Reader.take_ok taken
        obtain ⟨_, -, -, second⟩ := Reader.number_ok numbered
        obtain ⟨_, -, -, fourth⟩ := Reader.number_ok last
        have all := ((first.append second).append (Reader.sized_ok scripted)).append fourth
        exact ⟨all.data, all.within⟩ }
  output :=
    { guarded := fun _ _ => Reader.number_guarded.bind fun _ _ => Reader.sized_guarded.bind fun _ _ => guarded_pure
      stays := by
        intro reader after row _ read
        simp only [wireCodecs, bind_ok, pure_ok, Prod.exists, Prod.mk.injEq] at read
        obtain ⟨value, one, numbered, scriptPubkey, two, scripted, -, rfl⟩ := read
        obtain ⟨_, -, -, first⟩ := Reader.number_ok numbered
        have all := first.append (Reader.sized_ok scripted)
        exact ⟨all.data, all.within⟩ }

/-- Raw data that is accepted is the encoding of its maps. -/
theorem psbt_framing_canonical_ascending :
    ∃ parsed, parse wireCodecs (.bytes ascendingPsbt) = .ok parsed ∧ Framed ascendingPsbt parsed := by
  obtain ⟨parsed, accepted⟩ := exists_of_isOk (x := parse wireCodecs (.bytes ascendingPsbt)) (by decide +kernel)
  exact ⟨parsed, accepted, (psbt_framing_canonical wireCodecs_within).1 _ _ (by decide) accepted⟩

/-- Two pairs of one map may stand in either order, so equal dictionaries do not determine the data. -/
theorem equal_maps_of_different_data :
    ¬∀ (codecs : Codecs) (data other : Bytes) (parsed otherParsed : Parsed), codecs.Within → magic <+: data →
      magic <+: other → parse codecs (.bytes data) = .ok parsed → parse codecs (.bytes other) = .ok otherParsed →
      parsed.globals.Perm otherParsed.globals → Forall₂ Perm parsed.inputs otherParsed.inputs →
      Forall₂ Perm parsed.outputs otherParsed.outputs → data = other := by
  intro determined
  have read : ∀ (data : Bytes) (outputs : Entries), ((parse wireCodecs (.bytes data)).toOption.any fun parsed =>
        parsed.globals = [([0], ascendingPsbt.extract 8 69)] ∧ parsed.inputs = [[([3], [1, 0, 0, 0])]] ∧
          parsed.outputs = [outputs]) = true →
      ∃ parsed, parse wireCodecs (.bytes data) = .ok parsed ∧ parsed.globals = [([0], ascendingPsbt.extract 8 69)] ∧
        parsed.inputs = [[([3], [1, 0, 0, 0])]] ∧ parsed.outputs = [outputs] := by
    intro data outputs found
    cases outcome : parse wireCodecs (.bytes data) with
    | error e => simp [outcome, Except.toOption] at found
    | ok parsed =>
      simp only [outcome, Except.toOption, Option.any_some, decide_eq_true_eq] at found
      exact ⟨parsed, rfl, found⟩
  let first : Bytes × Bytes := ([252, 1], [5])
  let second : Bytes × Bytes := ([252, 2], [6])
  obtain ⟨parsed, accepted, globals, inputs, outputs⟩ := read ascendingPsbt [first, second] (by decide +kernel)
  obtain ⟨other, otherAccepted, otherGlobals, otherInputs, otherOutputs⟩ :=
    read descendingPsbt [second, first] (by decide +kernel)
  have same := determined wireCodecs ascendingPsbt descendingPsbt parsed other wireCodecs_within (by decide) (by decide)
    accepted otherAccepted (by rw [globals, otherGlobals]) (by rw [inputs, otherInputs]; exact .cons (.refl _) .nil)
    (by rw [outputs, otherOutputs]; exact .cons (.swap _ _ _) .nil)
  exact absurd same (by decide)

end Kassiber.Psbt
