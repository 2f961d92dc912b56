import Kassiber.Lib.CompactSize
import Kassiber.Lib.Outcome

/-!
The cursor that a PSBT is read with. Whatever is read stands in the data at the cursor, a compact size is
accepted in its shortest form only, and a map is read back as the encoding of its entries.
-/

namespace Kassiber.Psbt
open Lib.CompactSize Lib.Outcome List
open Prod (fst)

inductive PsbtError where
  | appError (code message : String) (reason : Option String) (inputIndex : Option Nat)
  | pastEnd

def invalidAt {α : Type} (reason : String) (inputIndex : Option Nat) : Except PsbtError α :=
  .error (.appError "chain_analysis_invalid_psbt" "The PSBT cannot be analyzed safely." (some reason) inputIndex)

def invalid {α : Type} (reason : String) : Except PsbtError α := invalidAt reason none

def invalidIf (refused : Prop) [Decidable refused] (reason : String) : Except PsbtError Unit :=
  if refused then invalid reason else .ok ()

structure Reader where
  data : Bytes
  offset : Nat

namespace Reader

def start (data : Bytes) : Reader := { data, offset := 0 }

/-- The bytes from one position up to another, which must lie in the data. -/
def between (data : Bytes) (first last : Nat) : Except PsbtError Bytes :=
  if last ≤ data.length then .ok ((data.drop first).take (last - first)) else .error .pastEnd

def take (reader : Reader) (size : Nat) : Except PsbtError (Bytes × Reader) := do
  invalidIf (reader.data.length < reader.offset + size) "truncated_encoding"
  let value ← between reader.data reader.offset (reader.offset + size)
  return (value, { reader with offset := reader.offset + size })

def number (reader : Reader) (width : Nat) : Except PsbtError (Nat × Reader) := do
  let (value, reader) ← reader.take width
  return (littleEndian value, reader)

/-- The number behind a marker, which must be too large for a shorter form. -/
def wideNumber (reader : Reader) (width least : Nat) : Except PsbtError (Nat × Reader) := do
  let (result, reader) ← reader.number width
  invalidIf (result < least) "noncanonical_compact_size"
  return (result, reader)

def compact (reader : Reader) : Except PsbtError (Nat × Reader) := do
  let (marker, reader) ← reader.number 1
  if marker < 253 then return (marker, reader)
  else if marker = 253 then reader.wideNumber 2 253
  else if marker = 254 then reader.wideNumber 4 65536
  else reader.wideNumber 8 (2 ^ 32)

def sized (reader : Reader) : Except PsbtError (Bytes × Reader) := do
  let (size, reader) ← reader.compact
  reader.take size

end Reader

abbrev Entries := List (Bytes × Bytes)

def entryLimit : Nat := 10000

/-- The entries after those already read, of which `room` more may follow. -/
def Reader.entries (reader : Reader) (room : Nat) (values : Entries) : Except PsbtError (Entries × Reader) := do
  let (size, reader) ← reader.compact
  if size = 0 then return (values, reader)
  else
    let (key, reader) ← reader.take size
    let _ ← (Reader.start key).compact
    invalidIf (key ∈ values.map fst) "duplicate_map_key"
    match room with
    | 0 => invalid "map_entry_limit"
    | room + 1 =>
      let (value, reader) ← reader.sized
      reader.entries room (values ++ [(key, value)])

def Reader.mapping (reader : Reader) : Except PsbtError (Entries × Reader) := reader.entries entryLimit []

def Reader.mappings (reader : Reader) : Nat → Except PsbtError (List Entries × Reader)
  | 0 => .ok ([], reader)
  | count + 1 => do
    let (values, reader) ← reader.mapping
    let (rest, reader) ← reader.mappings count
    return (values :: rest, reader)

def encodeSized (bytes : Bytes) : Bytes := encodeCompact bytes.length ++ bytes

def encodeEntry (entry : Bytes × Bytes) : Bytes := encodeSized entry.1 ++ encodeSized entry.2

def encodeMap (entries : Entries) : Bytes := entries.flatMap encodeEntry ++ [0]

structure Reads (bytes : Bytes) (before after : Reader) : Prop where
  data : after.data = before.data
  offset : after.offset = before.offset + bytes.length
  held : before.data.drop before.offset = bytes ++ after.data.drop after.offset
  within : after.offset ≤ after.data.length

theorem Reads.append {left right : Bytes} {before between after : Reader} (first : Reads left before between)
    (second : Reads right between after) : Reads (left ++ right) before after where
  data := second.data.trans first.data
  offset := by rw [second.offset, first.offset, length_append, Nat.add_assoc]
  held := by rw [first.held, second.held, List.append_assoc]
  within := second.within

def Guarded {α : Type} (run : Except PsbtError α) : Prop := run ≠ .error .pastEnd

section
variable {α β : Type}

variable {value : α}

@[simp] theorem guarded_ok : Guarded (.ok value) := by simp [Guarded]

@[simp] theorem guarded_pure : Guarded (pure value) := guarded_ok

variable {reason : String}

@[simp] theorem guarded_invalid : Guarded (invalid (α := α) reason) := by simp [Guarded, invalid, invalidAt]

@[simp] theorem invalid_ne_ok : invalid reason ≠ .ok value := by simp [invalid, invalidAt]

@[simp] theorem guarded_invalidIf {refused : Prop} [Decidable refused] :
    Guarded (invalidIf refused reason) := by
  unfold invalidIf
  split <;> simp

theorem invalidIf_ok {refused : Prop} [Decidable refused] {u : Unit} :
    invalidIf refused reason = .ok u ↔ ¬ refused := by
  unfold invalidIf
  split <;> simp_all [invalid, invalidAt]

theorem Guarded.bind {run : Except PsbtError α} {next : α → Except PsbtError β} (first : Guarded run)
    (later : ∀ value, run = .ok value → Guarded (next value)) : Guarded (run >>= next) := by
  cases outcome : run with
  | error e =>
    rw [outcome] at first
    exact fun same => first (by simpa [Bind.bind, Except.bind] using same)
  | ok value => exact later value outcome

end

namespace Reader

variable {reader after : Reader} {size n width : Nat} {bytes : Bytes}

theorem take_ok (taken : reader.take size = .ok (bytes, after)) : bytes.length = size ∧ Reads bytes reader after := by
  simp only [take, bind_ok, pure_ok, Prod.mk.injEq, invalidIf_ok] at taken
  obtain ⟨-, enough, value, found, rfl, rfl⟩ := taken
  unfold between at found
  rw [if_pos (by omega), Except.ok.injEq, Nat.add_sub_cancel_left] at found
  subst found
  have length : ((reader.data.drop reader.offset).take size).length = size := by
    rw [length_take, length_drop]
    omega
  refine ⟨length, rfl, by rw [length], ?_, by dsimp only; omega⟩
  dsimp only
  rw [← drop_drop, take_append_drop]

theorem take_guarded : Guarded (reader.take size) := by
  unfold take between
  refine Guarded.bind guarded_invalidIf fun _ enough => ?_
  rw [invalidIf_ok] at enough
  rw [if_pos (by omega)]
  exact guarded_ok

theorem number_ok (taken : reader.number width = .ok (n, after)) :
    ∃ bytes : Bytes, bytes.length = width ∧ littleEndian bytes = n ∧ Reads bytes reader after := by
  simp only [number, bind_ok, pure_ok, Prod.exists, Prod.mk.injEq] at taken
  obtain ⟨bytes, later, taken, rfl, rfl⟩ := taken
  obtain ⟨length, reads⟩ := take_ok taken
  exact ⟨bytes, length, rfl, reads⟩

theorem number_guarded : Guarded (reader.number width) := Guarded.bind take_guarded fun _ _ => guarded_pure

theorem wideNumber_ok {least : Nat} (taken : reader.wideNumber width least = .ok (n, after)) :
    ∃ bytes : Bytes, bytes.length = width ∧ littleEndian bytes = n ∧ least ≤ n ∧ Reads bytes reader after := by
  simp only [wideNumber, bind_ok, pure_ok, Prod.exists, Prod.mk.injEq, invalidIf_ok, not_lt] at taken
  obtain ⟨result, later, taken, -, least_le, rfl, rfl⟩ := taken
  obtain ⟨bytes, length, value, reads⟩ := number_ok taken
  exact ⟨bytes, length, value, least_le, reads⟩

theorem wideNumber_guarded {least : Nat} : Guarded (reader.wideNumber width least) :=
  Guarded.bind number_guarded fun _ _ => Guarded.bind guarded_invalidIf fun _ _ => guarded_pure

theorem compact_ok (taken : reader.compact = .ok (n, after)) : Reads (encodeCompact n) reader after := by
  simp only [compact, bind_ok, Prod.exists] at taken
  obtain ⟨marker, middle, first, rest⟩ := taken
  obtain ⟨bytes, single, value, reads⟩ := number_ok first
  obtain ⟨byte, rfl⟩ := length_eq_one_iff.1 single
  have marker_eq : byte.toNat = marker := by simpa [littleEndian] using value
  have whole : byte.toNat < 256 := byte.toNat_lt
  subst marker_eq
  have wide : ∀ {payload : Bytes}, Reads payload middle after →
      encodeCompact (littleEndian payload) = byte :: payload →
      Reads (encodeCompact (littleEndian payload)) reader after := by
    intro payload later form
    rw [form]
    exact reads.append later
  split_ifs at rest with small two four
  · rw [pure_ok, Prod.mk.injEq] at rest
    obtain ⟨rfl, rfl⟩ := rest
    rwa [encodeCompact_single small]
  · obtain ⟨payload, length, rfl, least, later⟩ := wideNumber_ok rest
    have named : byte = 253 := UInt8.toNat_inj.1 two
    exact wide later (by rw [named, encodeCompact_two length least])
  · obtain ⟨payload, length, rfl, least, later⟩ := wideNumber_ok rest
    have named : byte = 254 := UInt8.toNat_inj.1 four
    exact wide later (by rw [named, encodeCompact_four length least])
  · obtain ⟨payload, length, rfl, least, later⟩ := wideNumber_ok rest
    have last : byte.toNat = 255 := by omega
    have named : byte = 255 := UInt8.toNat_inj.1 last
    exact wide later (by rw [named, encodeCompact_eight length least])

theorem compact_guarded : Guarded reader.compact := by
  unfold compact
  refine Guarded.bind number_guarded fun _ _ => ?_
  dsimp only
  split_ifs
  · exact guarded_pure
  all_goals exact wideNumber_guarded

theorem sized_ok (taken : reader.sized = .ok (bytes, after)) : Reads (encodeSized bytes) reader after := by
  simp only [sized, bind_ok, Prod.exists] at taken
  obtain ⟨size, middle, first, second⟩ := taken
  obtain ⟨length, reads⟩ := take_ok second
  rw [encodeSized, length]
  exact (compact_ok first).append reads

theorem sized_guarded : Guarded reader.sized := Guarded.bind compact_guarded fun _ _ => take_guarded

end Reader

section
variable {reader after : Reader} {room count : Nat} {values result : Entries}

theorem entries_cases (read : reader.entries room values = .ok (result, after)) :
    (result = values ∧ Reads [0] reader after) ∨
      ∃ (less : Nat) (key value : Bytes) (middle : Reader), room = less + 1 ∧ key ∉ values.map fst ∧
        Reads (encodeEntry (key, value)) reader middle ∧
        middle.entries less (values ++ [(key, value)]) = .ok (result, after) := by
  unfold Reader.entries at read
  simp only [bind_ok, Prod.exists] at read
  obtain ⟨size, named, first, rest⟩ := read
  have sizeReads := Reader.compact_ok first
  split_ifs at rest with ended
  · rw [pure_ok, Prod.mk.injEq] at rest
    obtain ⟨rfl, rfl⟩ := rest
    rw [ended] at sizeReads
    exact .inl ⟨rfl, sizeReads⟩
  · simp only [bind_ok, Prod.exists, invalidIf_ok] at rest
    obtain ⟨key, keyed, taken, -, -, -, -, fresh, rest⟩ := rest
    obtain ⟨length, keyReads⟩ := Reader.take_ok taken
    cases room with
    | zero => cases rest
    | succ less =>
      simp only [bind_ok, Prod.exists] at rest
      obtain ⟨value, middle, valued, rest⟩ := rest
      refine .inr ⟨less, key, value, middle, rfl, fresh, ?_, rest⟩
      rw [← length] at sizeReads
      exact (sizeReads.append keyReads).append (Reader.sized_ok valued)

theorem entries_ok (distinct : (values.map fst).Nodup)
    (read : reader.entries room values = .ok (result, after)) :
    (result.map fst).Nodup ∧ ∃ more, result = values ++ more ∧ Reads (encodeMap more) reader after := by
  induction room generalizing reader values with
  | zero =>
    rcases entries_cases read with ⟨rfl, ended⟩ | ⟨less, key, value, middle, absurd_room, -⟩
    · exact ⟨distinct, [], by simp, ended⟩
    · cases absurd_room
  | succ room ih =>
    rcases entries_cases read with ⟨rfl, ended⟩ | ⟨less, key, value, middle, same, fresh, entry, rest⟩
    · exact ⟨distinct, [], by simp, ended⟩
    · cases same
      have longer : ((values ++ [(key, value)]).map fst).Nodup := by
        rw [map_append, nodup_append]
        refine ⟨distinct, nodup_singleton key, fun a old b new => ?_⟩
        rw [map_singleton, mem_singleton] at new
        rintro rfl
        rw [new] at old
        exact fresh old
      obtain ⟨distinct_result, more, rfl, later⟩ := ih longer rest
      refine ⟨distinct_result, (key, value) :: more, by simp, ?_⟩
      have whole := entry.append later
      rwa [encodeMap, ← List.append_assoc, ← flatMap_cons, ← encodeMap] at whole

theorem mapping_ok (read : reader.mapping = .ok (result, after)) :
    (result.map fst).Nodup ∧ Reads (encodeMap result) reader after := by
  have no_keys : (([] : Entries).map fst).Nodup := nodup_nil
  obtain ⟨distinct, more, rfl, reads⟩ := entries_ok no_keys read
  exact ⟨distinct, reads⟩

theorem entries_guarded : Guarded (reader.entries room values) := by
  induction room generalizing reader values with
  | zero =>
    unfold Reader.entries
    refine Guarded.bind Reader.compact_guarded fun _ _ => ?_
    dsimp only
    split_ifs
    · exact guarded_pure
    · exact Guarded.bind Reader.take_guarded fun _ _ => Guarded.bind Reader.compact_guarded fun _ _ =>
        Guarded.bind guarded_invalidIf fun _ _ => guarded_invalid
  | succ room ih =>
    unfold Reader.entries
    refine Guarded.bind Reader.compact_guarded fun _ _ => ?_
    dsimp only
    split_ifs
    · exact guarded_pure
    · exact Guarded.bind Reader.take_guarded fun _ _ => Guarded.bind Reader.compact_guarded fun _ _ =>
        Guarded.bind guarded_invalidIf fun _ _ => Guarded.bind Reader.sized_guarded fun _ _ => ih

theorem mappings_ok {result : List Entries} (within : reader.offset ≤ reader.data.length)
    (read : reader.mappings count = .ok (result, after)) :
    result.length = count ∧ (∀ entries ∈ result, (entries.map fst).Nodup) ∧
      Reads (result.flatMap encodeMap) reader after := by
  induction count generalizing reader result with
  | zero =>
    simp only [Reader.mappings, Except.ok.injEq, Prod.mk.injEq] at read
    obtain ⟨rfl, rfl⟩ := read
    exact ⟨rfl, by simp, ⟨rfl, by simp, by simp, within⟩⟩
  | succ count ih =>
    simp only [Reader.mappings, bind_ok, pure_ok, Prod.exists, Prod.mk.injEq] at read
    obtain ⟨first, middle, mapped, rest, last, others, rfl, rfl⟩ := read
    obtain ⟨distinct, reads⟩ := mapping_ok mapped
    obtain ⟨length, distincts, later⟩ := ih reads.within others
    refine ⟨by rw [length_cons, length], forall_mem_cons.2 ⟨distinct, distincts⟩, ?_⟩
    rw [flatMap_cons]
    exact reads.append later

theorem mappings_guarded : Guarded (reader.mappings count) := by
  induction count generalizing reader with
  | zero => exact guarded_ok
  | succ count ih =>
    exact Guarded.bind entries_guarded fun _ _ => Guarded.bind ih fun _ _ => guarded_pure

end

end Kassiber.Psbt
