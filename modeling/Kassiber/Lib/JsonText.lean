import Kassiber.Lib.Json

/-!
The text of a document and the document of a text.
-/

namespace Lib.JsonText
open List
open Lib.Document (escapeChar hexUnit unicodeEscape)
open Option (bind_eq_bind bind_some map_some map_eq_some_iff bind_eq_some_iff some.inj)

inductive Value (ν : Type) where
  | null
  | bool (value : Bool)
  | number (value : ν)
  | text (value : String)
  | list (items : List (Value ν))
  | fields (entries : List (String × Value ν))

def isTokenChar (c : Char) : Bool := c.isAlphanum || c = '+' || c = '-' || c = '.'

def nullToken : List Char := ['n', 'u', 'l', 'l']

def trueToken : List Char := ['t', 'r', 'u', 'e']

def falseToken : List Char := ['f', 'a', 'l', 's', 'e']

structure Numbers (ν : Type) where
  write : ν → List Char
  read : List Char → Option ν
  isZero : ν → Bool
  read_write : ∀ n, read (write n) = some n
  token : ∀ n, ∀ c ∈ write n, isTokenChar c
  nonempty : ∀ n, write n ≠ []
  reserved : ∀ n, write n ≠ nullToken ∧ write n ≠ trueToken ∧ write n ≠ falseToken

section
variable {ν : Type} [DecidableEq ν]

mutual

def Value.same : Value ν → Value ν → Bool
  | .null, .null => true
  | .bool a, .bool b => a = b
  | .number a, .number b => a = b
  | .text a, .text b => a = b
  | .list items, .list others => sameItems items others
  | .fields entries, .fields others => sameEntries entries others
  | _, _ => false

def sameItems : List (Value ν) → List (Value ν) → Bool
  | [], [] => true
  | item :: items, other :: others => Value.same item other && sameItems items others
  | _, _ => false

def sameEntries : List (String × Value ν) → List (String × Value ν) → Bool
  | [], [] => true
  | (key, value) :: entries, (otherKey, other) :: others =>
    (key = otherKey && Value.same value other) && sameEntries entries others
  | _, _ => false

end

mutual

theorem same_iff (a b : Value ν) : Value.same a b = true ↔ a = b := by
  cases a <;> cases b <;> simp [Value.same]
  case list.list items others => exact sameItems_iff items others
  case fields.fields entries others => exact sameEntries_iff entries others

theorem sameItems_iff (items others : List (Value ν)) : sameItems items others = true ↔ items = others := by
  cases items <;> cases others <;> simp [sameItems]
  case cons.cons item items other others => rw [same_iff item other, sameItems_iff items others]

theorem sameEntries_iff (entries others : List (String × Value ν)) :
    sameEntries entries others = true ↔ entries = others := by
  rcases entries with _ | ⟨⟨key, value⟩, entries⟩ <;> rcases others with _ | ⟨⟨otherKey, other⟩, others⟩ <;>
    simp [sameEntries]
  rw [same_iff value other, sameEntries_iff entries others]

end

instance : DecidableEq (Value ν) := fun a b => decidable_of_iff (Value.same a b = true) (same_iff a b)

end

section
variable {ν : Type}

def setField (entries : List (String × Value ν)) (key : String) (value : Value ν) : List (String × Value ν) :=
  match entries with
  | [] => [(key, value)]
  | (other, stored) :: rest =>
    if key < other then (key, value) :: (other, stored) :: rest
    else if key = other then (key, value) :: rest
    else (other, stored) :: setField rest key value

def ofEntries (entries : List (String × Value ν)) : List (String × Value ν) :=
  entries.foldl (fun object entry => setField object entry.1 entry.2) []

def Ordered (entries : List (String × Value ν)) : Prop := entries.Pairwise fun a b => a.1 < b.1

variable {entries : List (String × Value ν)}

theorem setField_last {key : String} {value : Value ν}
    (last : ∀ entry ∈ entries, entry.1 < key) : setField entries key value = entries ++ [(key, value)] := by
  induction entries with
  | nil => rfl
  | cons entry rest ih =>
    have before := last entry (.head _)
    rw [setField, if_neg (lt_asymm before), if_neg (ne_of_gt before), cons_append,
      ih fun other member => last other (.tail _ member)]

theorem mem_setField {key : String} {value : Value ν} {entry : String × Value ν}
    (member : entry ∈ setField entries key value) : entry = (key, value) ∨ entry ∈ entries := by
  induction entries with
  | nil => exact .inl (mem_singleton.1 member)
  | cons first rest ih =>
    rw [setField] at member
    split at member
    · exact mem_cons.1 member
    · split at member
      · exact (mem_cons.1 member).imp_right (mem_cons_of_mem _)
      · rcases mem_cons.1 member with rfl | later
        · exact .inr (.head _)
        · exact (ih later).imp_right (mem_cons_of_mem _)

theorem setField_ordered (ordered : Ordered entries) (key : String) (value : Value ν) :
    Ordered (setField entries key value) := by
  induction entries with
  | nil => exact pairwise_singleton _ _
  | cons first rest ih =>
    obtain ⟨before, later⟩ := pairwise_cons.1 ordered
    rw [setField]
    split
    case isTrue less =>
      refine pairwise_cons.2 ⟨fun entry member => ?_, ordered⟩
      rcases mem_cons.1 member with rfl | inside
      · exact less
      · exact less.trans (before entry inside)
    case isFalse notLess =>
      split
      case isTrue same =>
        subst same
        exact pairwise_cons.2 ⟨before, later⟩
      case isFalse different =>
        refine pairwise_cons.2 ⟨fun entry member => ?_, ih later⟩
        rcases mem_setField member with rfl | inside
        · exact lt_of_le_of_ne (not_lt.1 notLess) (Ne.symm different)
        · exact before entry inside

theorem foldl_setField {object entries : List (String × Value ν)} (ordered : Ordered (object ++ entries)) :
    entries.foldl (fun object entry => setField object entry.1 entry.2) object = object ++ entries := by
  induction entries generalizing object with
  | nil => rw [foldl_nil, append_nil]
  | cons entry rest ih =>
    have split : object ++ entry :: rest = (object ++ [entry]) ++ rest := by simp
    have last : ∀ other ∈ object, other.1 < entry.1 := fun other member =>
      (pairwise_append.1 ordered).2.2 other member entry (.head _)
    rw [foldl_cons, setField_last last, split]
    exact ih (split ▸ ordered)

theorem ofEntries_ordered (ordered : Ordered entries) : ofEntries entries = entries := foldl_setField ordered

theorem ordered_ofEntries (entries : List (String × Value ν)) : Ordered (ofEntries entries) := by
  have run : ∀ object : List (String × Value ν), Ordered object →
      Ordered (entries.foldl (fun object entry => setField object entry.1 entry.2) object) := by
    induction entries with
    | nil => exact fun object ordered => ordered
    | cons entry rest ih => exact fun object ordered => ih _ (setField_ordered ordered _ _)
  exact run [] List.Pairwise.nil

theorem mem_ofEntries {entry : String × Value ν} (member : entry ∈ ofEntries entries) : entry ∈ entries := by
  have run : ∀ object : List (String × Value ν),
      entry ∈ entries.foldl (fun object entry => setField object entry.1 entry.2) object →
        entry ∈ object ∨ entry ∈ entries := by
    clear member
    induction entries with
    | nil => exact fun object inside => .inl inside
    | cons first rest ih =>
      intro object inside
      rcases ih _ inside with before | later
      · rcases mem_setField before with rfl | old
        · exact .inr (.head _)
        · exact .inl old
      · exact .inr (.tail _ later)
  exact (run [] member).resolve_left (by simp)

end

def writeText (text : String) : List Char := '"' :: (text.toList.flatMap (fun c => (escapeChar true c).toList) ++ ['"'])

def hexValue (c : Char) : Option Nat :=
  if '0' ≤ c ∧ c ≤ '9' then some (c.toNat - 48)
  else if 'a' ≤ c ∧ c ≤ 'f' then some (c.toNat - 87)
  else if 'A' ≤ c ∧ c ≤ 'F' then some (c.toNat - 55)
  else none

def readHex : List Char → Option (Nat × List Char)
  | a :: b :: c :: d :: rest => do
    let a ← hexValue a
    let b ← hexValue b
    let c ← hexValue c
    let d ← hexValue d
    pure (a * 4096 + b * 256 + c * 16 + d, rest)
  | _ => none

def isHighSurrogate (code : Nat) : Bool := 55296 ≤ code && code < 56320

def isLowSurrogate (code : Nat) : Bool := 56320 ≤ code && code < 57344

def pairCode (high low : Nat) : Nat := 65536 + (high - 55296) * 1024 + (low - 56320)

def readPartner (high : Nat) : List Char → Option (Char × List Char)
  | slash :: u :: more =>
    if slash = '\\' ∧ u = 'u' then do
      let (low, rest) ← readHex more
      if isLowSurrogate low then pure (Char.ofNat (pairCode high low), rest) else none
    else none
  | _ => none

/-- The character of an escaped code. A surrogate stands for a character with its partner only. -/
def readUnicode (chars : List Char) : Option (Char × List Char) := do
  let (code, rest) ← readHex chars
  if isHighSurrogate code then readPartner code rest
  else if isLowSurrogate code then none
  else pure (Char.ofNat code, rest)

def simpleEscapes : List (Char × Char) :=
  [('"', '"'), ('\\', '\\'), ('/', '/'), ('b', Char.ofNat 8), ('f', Char.ofNat 12), ('n', '\n'), ('r', '\r'), ('t', '\t')]

def readEscape : List Char → Option (Char × List Char)
  | [] => none
  | c :: rest =>
    if c = 'u' then readUnicode rest
    else (simpleEscapes.find? fun entry => entry.1 = c).map fun entry => (entry.2, rest)

def readChars : Nat → List Char → Option (List Char × List Char)
  | 0, _ => none
  | _ + 1, [] => none
  | fuel + 1, c :: rest =>
    if c = '"' then some ([], rest)
    else if c = '\\' then do
      let (c, rest) ← readEscape rest
      let (chars, rest) ← readChars fuel rest
      pure (c :: chars, rest)
    else if c.toNat < 32 then none
    else do
      let (chars, rest) ← readChars fuel rest
      pure (c :: chars, rest)

def readText (chars : List Char) : Option (String × List Char) := do
  let (text, rest) ← readChars (chars.length + 1) chars
  pure (String.ofList text, rest)

theorem hexValue_digitChar {d : Nat} (small : d < 16) : hexValue (Nat.digitChar d) = some d := by
  revert d
  decide

def hexDigits (n : Nat) : List Char := [4096, 256, 16, 1].map fun place => Nat.digitChar (n / place % 16)

theorem hexUnit_toList (n : Nat) : (hexUnit n).toList = '\\' :: 'u' :: hexDigits n := by
  rw [hexUnit, String.toList_ofList, hexDigits]

theorem readHex_hexDigits {n : Nat} (small : n < 65536) (rest : List Char) :
    readHex (hexDigits n ++ rest) = some (n, rest) := by
  have digit (place : Nat) := hexValue_digitChar (Nat.mod_lt (n / place) (show 0 < 16 by decide))
  have sum : n / 4096 % 16 * 4096 + n / 256 % 16 * 256 + n / 16 % 16 * 16 + n / 1 % 16 = n := by omega
  simp only [hexDigits, map_cons, map_nil, cons_append, nil_append, readHex, digit, bind_eq_bind, bind_some, sum]
  rfl

theorem readPartner_low {high low : Nat} (small : low < 65536) (partner : isLowSurrogate low) (rest : List Char) :
    readPartner high ('\\' :: 'u' :: (hexDigits low ++ rest)) = some (Char.ofNat (pairCode high low), rest) := by
  rw [readPartner, if_pos ⟨rfl, rfl⟩, readHex_hexDigits small]
  simp only [bind_eq_bind, bind_some, if_pos partner]
  rfl

theorem readUnicode_pair {high low : Nat} (high_small : high < 65536) (low_small : low < 65536)
    (first : isHighSurrogate high) (second : isLowSurrogate low) (rest : List Char) :
    readUnicode (hexDigits high ++ '\\' :: 'u' :: (hexDigits low ++ rest)) =
      some (Char.ofNat (pairCode high low), rest) := by
  rw [readUnicode, readHex_hexDigits high_small]
  simp only [bind_eq_bind, bind_some, if_pos first]
  exact readPartner_low low_small second rest

theorem readUnicode_single {code : Nat} (small : code < 65536) (single : isHighSurrogate code = false)
    (alone : isLowSurrogate code = false) (rest : List Char) :
    readUnicode (hexDigits code ++ rest) = some (Char.ofNat code, rest) := by
  rw [readUnicode, readHex_hexDigits small]
  simp only [bind_eq_bind, bind_some, single, alone]
  rfl

theorem readUnicode_escape (c : Char) :
    ∃ tail, (unicodeEscape c.toNat).toList = '\\' :: 'u' :: tail ∧
      ∀ rest, readUnicode (tail ++ rest) = some (c, rest) := by
  have valid : c.toNat < 55296 ∨ 57343 < c.toNat ∧ c.toNat < 1114112 := c.valid
  unfold unicodeEscape
  split
  case isTrue small =>
    refine ⟨hexDigits c.toNat, hexUnit_toList _, fun rest => ?_⟩
    have single : isHighSurrogate c.toNat = false := by
      simp only [isHighSurrogate, Bool.and_eq_false_iff, decide_eq_false_iff_not]
      omega
    have alone : isLowSurrogate c.toNat = false := by
      simp only [isLowSurrogate, Bool.and_eq_false_iff, decide_eq_false_iff_not]
      omega
    rw [readUnicode_single small single alone, Char.ofNat_toNat]
  case isFalse large =>
    -- the code is split over a pair of surrogates
    refine ⟨hexDigits (55296 + (c.toNat - 65536) / 1024) ++
      '\\' :: 'u' :: hexDigits (56320 + (c.toNat - 65536) % 1024), ?_, fun rest => ?_⟩
    · rw [String.toList_append, hexUnit_toList, hexUnit_toList, cons_append, cons_append]
    · have first : isHighSurrogate (55296 + (c.toNat - 65536) / 1024) := by
        simp only [isHighSurrogate, Bool.and_eq_true, decide_eq_true_eq]
        omega
      have second : isLowSurrogate (56320 + (c.toNat - 65536) % 1024) := by
        simp only [isLowSurrogate, Bool.and_eq_true, decide_eq_true_eq]
        omega
      have code : pairCode (55296 + (c.toNat - 65536) / 1024) (56320 + (c.toNat - 65536) % 1024) = c.toNat := by
        unfold pairCode
        omega
      rw [append_assoc, cons_append, cons_append,
        readUnicode_pair (by omega) (by omega) first second, code, Char.ofNat_toNat]

theorem readEscape_escapeChar (c : Char) :
    (∃ tail, (escapeChar true c).toList = '\\' :: tail ∧ ∀ rest, readEscape (tail ++ rest) = some (c, rest)) ∨
      ((escapeChar true c).toList = [c] ∧ c ≠ '"' ∧ c ≠ '\\' ∧ 32 ≤ c.toNat) := by
  have same {code : Nat} (value : c.toNat = code) : c = Char.ofNat code := by rw [← value, Char.ofNat_toNat]
  unfold escapeChar
  split
  case isTrue quote => exact .inl ⟨['"'], by simp, fun rest => by subst quote; rfl⟩
  case isFalse notQuote =>
    split
    case isTrue slash => exact .inl ⟨['\\'], by simp, fun rest => by subst slash; rfl⟩
    case isFalse notSlash =>
      split
      case isTrue newline => exact .inl ⟨['n'], by simp, fun rest => by subst newline; rfl⟩
      split
      case isTrue carriage => exact .inl ⟨['r'], by simp, fun rest => by subst carriage; rfl⟩
      split
      case isTrue tab => exact .inl ⟨['t'], by simp, fun rest => by subst tab; rfl⟩
      split
      case isTrue back => exact .inl ⟨['b'], by simp, fun rest => by rw [same back]; rfl⟩
      split
      case isTrue feed => exact .inl ⟨['f'], by simp, fun rest => by rw [same feed]; rfl⟩
      split
      case isTrue =>
        obtain ⟨tail, written, reads⟩ := readUnicode_escape c
        exact .inl ⟨'u' :: tail, written, fun rest => by rw [cons_append, readEscape, if_pos rfl, reads]⟩
      case isFalse plain =>
        refine .inr ⟨String.toList_singleton c, notQuote, notSlash, ?_⟩
        by_contra small
        exact plain (.inl (not_le.1 small))

theorem readChars_escapes (chars : List Char) {fuel : Nat}
    (enough : (chars.flatMap fun c => (escapeChar true c).toList).length < fuel) (rest : List Char) :
    readChars fuel ((chars.flatMap fun c => (escapeChar true c).toList) ++ '"' :: rest) = some (chars, rest) := by
  induction chars generalizing fuel with
  | nil =>
    obtain ⟨fuel, rfl⟩ := Nat.exists_eq_succ_of_ne_zero (Nat.ne_zero_of_lt enough)
    rfl
  | cons c others ih =>
    obtain ⟨fuel, rfl⟩ := Nat.exists_eq_succ_of_ne_zero (Nat.ne_zero_of_lt enough)
    rw [flatMap_cons, length_append] at enough
    rw [flatMap_cons, append_assoc]
    rcases readEscape_escapeChar c with ⟨tail, written, reads⟩ | ⟨written, notQuote, notSlash, visible⟩
    · have later : (others.flatMap fun c => (escapeChar true c).toList).length < fuel := by
        rw [written, length_cons] at enough
        omega
      rw [written, cons_append, readChars, if_neg (by decide), if_pos rfl, reads]
      simp only [bind_eq_bind, bind_some, ih later]
      rfl
    · have later : (others.flatMap fun c => (escapeChar true c).toList).length < fuel := by
        rw [written, length_singleton] at enough
        omega
      rw [written, singleton_append, readChars, if_neg notQuote, if_neg notSlash, if_neg (not_lt.2 visible), ih later]
      rfl

theorem readText_writeText (text : String) (rest : List Char) :
    ∃ tail, writeText text ++ rest = '"' :: tail ∧ readText tail = some (text, rest) := by
  refine ⟨_, rfl, ?_⟩
  have enough : (text.toList.flatMap fun c => (escapeChar true c).toList).length <
      ((text.toList.flatMap fun c => (escapeChar true c).toList) ++ '"' :: rest).length + 1 := by
    rw [length_append]
    omega
  rw [readText, append_eq, append_assoc, singleton_append, readChars_escapes text.toList enough rest]
  simp

def isBlank (c : Char) : Bool := c = ' ' || c = '\t' || c = '\n' || c = '\r'

def skip (chars : List Char) : List Char := chars.dropWhile isBlank

def gap (spaced : Bool) : List Char := if spaced then [' '] else []

theorem skip_gap (spaced : Bool) (rest : List Char) : skip (gap spaced ++ rest) = skip rest := by
  cases spaced <;> rfl

section
variable {ν : Type} (numbers : Numbers ν) (spaced : Bool)

mutual

/-- The text of a document, compact or with a blank after each comma and colon. -/
def Value.write : Value ν → List Char
  | .null => nullToken
  | .bool value => if value then trueToken else falseToken
  | .number value => numbers.write value
  | .text value => writeText value
  | .list [] => ['[', ']']
  | .list (item :: rest) => '[' :: (Value.write item ++ writeItems rest)
  | .fields [] => ['{', '}']
  | .fields ((key, value) :: rest) => '{' :: (writeText key ++ ':' :: (gap spaced ++ (Value.write value ++ writeEntries rest)))

def writeItems : List (Value ν) → List Char
  | [] => [']']
  | item :: rest => ',' :: (gap spaced ++ (Value.write item ++ writeItems rest))

def writeEntries : List (String × Value ν) → List Char
  | [] => ['}']
  | (key, value) :: rest =>
    ',' :: (gap spaced ++ (writeText key ++ ':' :: (gap spaced ++ (Value.write value ++ writeEntries rest))))

end

def readToken (token : List Char) : Option (Value ν) :=
  if token = nullToken then some .null
  else if token = trueToken then some (.bool true)
  else if token = falseToken then some (.bool false)
  else (numbers.read token).map .number

mutual

/-- A document at the start of a text. The items of a list are read as if a comma stood before the first. -/
def readValue : Nat → List Char → Option (Value ν × List Char)
  | 0, _ => none
  | fuel + 1, chars =>
    match skip chars with
    | [] => none
    | c :: rest =>
      if c = '"' then (readText rest).map fun read => (.text read.1, read.2)
      else if c = '[' then
        (readItems fuel (if (skip rest).head? = some ']' then rest else ',' :: rest)).map
          fun read => (.list read.1, read.2)
      else if c = '{' then
        (readEntries fuel (if (skip rest).head? = some '}' then rest else ',' :: rest)).map
          fun read => (.fields (ofEntries read.1), read.2)
      else
        (readToken numbers ((c :: rest).takeWhile isTokenChar)).map
          fun value => (value, (c :: rest).dropWhile isTokenChar)

def readItems : Nat → List Char → Option (List (Value ν) × List Char)
  | 0, _ => none
  | fuel + 1, chars =>
    match skip chars with
    | [] => none
    | c :: rest =>
      if c = ']' then some ([], rest)
      else if c = ',' then do
        let (item, rest) ← readValue fuel rest
        let (items, rest) ← readItems fuel rest
        pure (item :: items, rest)
      else none

def readEntries : Nat → List Char → Option (List (String × Value ν) × List Char)
  | 0, _ => none
  | fuel + 1, chars =>
    match skip chars with
    | [] => none
    | c :: rest =>
      if c = '}' then some ([], rest)
      else if c = ',' then
        match skip rest with
        | [] => none
        | quote :: rest =>
          if quote = '"' then do
            let (key, rest) ← readText rest
            match skip rest with
            | [] => none
            | colon :: rest =>
              if colon = ':' then do
                let (value, rest) ← readValue fuel rest
                let (entries, rest) ← readEntries fuel rest
                pure ((key, value) :: entries, rest)
              else none
          else none
      else none

end

def loads (text : String) : Option (Value ν) := do
  let (value, rest) ← readValue numbers (text.toList.length + 1) text.toList
  if skip rest = [] then pure value else none

def dumps (value : Value ν) : String := String.ofList (value.write numbers true)

def dumpsCompact (value : Value ν) : String := String.ofList (value.write numbers false)

inductive Sorted : Value ν → Prop where
  | null : Sorted .null
  | bool (value : Bool) : Sorted (.bool value)
  | number (value : ν) : Sorted (.number value)
  | text (value : String) : Sorted (.text value)
  | list {items : List (Value ν)} (items_sorted : ∀ item ∈ items, Sorted item) : Sorted (.list items)
  | fields {entries : List (String × Value ν)} (ordered : Ordered entries)
      (entries_sorted : ∀ entry ∈ entries, Sorted entry.2) : Sorted (.fields entries)

def Ends (rest : List Char) : Prop := ∀ c, rest.head? = some c → isTokenChar c = false

theorem ends_cons {c : Char} (stops : isTokenChar c = false) (rest : List Char) : Ends (c :: rest) := fun _ head =>
  some.inj head ▸ stops

variable {token rest chars middle : List Char}

theorem token_span (inside : ∀ c ∈ token, isTokenChar c) (ends : Ends rest) :
    (token ++ rest).takeWhile isTokenChar = token ∧ (token ++ rest).dropWhile isTokenChar = rest := by
  have stops : rest.takeWhile isTokenChar = [] ∧ rest.dropWhile isTokenChar = rest := by
    cases rest with
    | nil => exact ⟨rfl, rfl⟩
    | cons c others => simp [ends c rfl]
  rw [takeWhile_append_of_pos inside, dropWhile_append_of_pos inside, stops.1, stops.2, append_nil]
  exact ⟨rfl, rfl⟩

theorem tokenChar_head {c : Char} (token : isTokenChar c) :
    isBlank c = false ∧ c ≠ '"' ∧ c ≠ '[' ∧ c ≠ ']' ∧ c ≠ '{' ∧ c ≠ '}' := by
  have apart {other : Char} (stops : isTokenChar other = false) : c ≠ other := by
    rintro rfl
    rw [stops] at token
    exact absurd token (by decide)
  refine ⟨?_, apart (by decide), apart (by decide), apart (by decide), apart (by decide), apart (by decide)⟩
  unfold isBlank
  simp only [Bool.or_eq_false_iff, decide_eq_false_iff_not]
  exact ⟨⟨⟨apart (by decide), apart (by decide)⟩, apart (by decide)⟩, apart (by decide)⟩

theorem skip_cons {c : Char} (visible : isBlank c = false) (rest : List Char) : skip (c :: rest) = c :: rest := by
  rw [skip, dropWhile_cons, visible]
  rfl

theorem readValue_gap (fuel : Nat) (rest : List Char) :
    readValue numbers fuel (gap spaced ++ rest) = readValue numbers fuel rest := by
  cases fuel with
  | zero => rfl
  | succ fuel => rw [readValue, readValue, skip_gap]

variable {value : Value ν} {items : List (Value ν)} {entries : List (String × Value ν)}

theorem readValue_token (nonempty : token ≠ []) (inside : ∀ c ∈ token, isTokenChar c)
    (reads : readToken numbers token = some value) {fuel : Nat} (enough : token.length ≤ fuel)
    (ends : Ends rest) : readValue numbers fuel (token ++ rest) = some (value, rest) := by
  obtain ⟨c, others, rfl⟩ := exists_cons_of_ne_nil nonempty
  obtain ⟨fuel, rfl⟩ := Nat.exists_eq_succ_of_ne_zero (n := fuel) (by rw [length_cons] at enough; omega)
  obtain ⟨visible, notQuote, notList, -, notFields, -⟩ := tokenChar_head (inside c (.head _))
  obtain ⟨taken, left⟩ := token_span inside ends
  rw [cons_append] at taken left ⊢
  rw [readValue, skip_cons visible]
  simp only [if_neg notQuote, if_neg notList, if_neg notFields, taken, left, reads, map_some]

theorem readToken_number (n : ν) : readToken numbers (numbers.write n) = some (.number n) := by
  obtain ⟨null, yes, no⟩ := numbers.reserved n
  rw [readToken, if_neg null, if_neg yes, if_neg no, numbers.read_write, map_some]

theorem write_head (value : Value ν) :
    ∃ c tail, value.write numbers spaced = c :: tail ∧ isBlank c = false ∧ c ≠ ']' ∧ c ≠ '}' := by
  cases value with
  | null => exact ⟨'n', _, by rw [Value.write]; rfl, by decide, by decide, by decide⟩
  | bool value =>
    cases value with
    | false => exact ⟨'f', _, by rw [Value.write]; rfl, by decide, by decide, by decide⟩
    | true => exact ⟨'t', _, by rw [Value.write]; rfl, by decide, by decide, by decide⟩
  | number n =>
    obtain ⟨c, tail, written⟩ := exists_cons_of_ne_nil (numbers.nonempty n)
    have token : isTokenChar c := numbers.token n c (by rw [written]; exact mem_cons_self)
    obtain ⟨visible, -, -, notList, -, notFields⟩ := tokenChar_head token
    exact ⟨c, tail, by rw [Value.write, written], visible, notList, notFields⟩
  | text text => exact ⟨'"', _, by rw [Value.write, writeText], by decide, by decide, by decide⟩
  | list items =>
    cases items with
    | nil => exact ⟨'[', _, by rw [Value.write], by decide, by decide, by decide⟩
    | cons item rest => exact ⟨'[', _, by rw [Value.write], by decide, by decide, by decide⟩
  | fields entries =>
    cases entries with
    | nil => exact ⟨'{', _, by rw [Value.write], by decide, by decide, by decide⟩
    | cons entry rest => exact ⟨'{', _, by rw [Value.write], by decide, by decide, by decide⟩

def ReadBack (value : Value ν) : Prop :=
  ∀ fuel rest, (value.write numbers spaced).length ≤ fuel → Ends rest →
    readValue numbers fuel (value.write numbers spaced ++ rest) = some (value, rest)

theorem writeItems_ends (items : List (Value ν)) (rest : List Char) : Ends (writeItems numbers spaced items ++ rest) := by
  cases items with
  | nil => exact ends_cons (by decide) _
  | cons item others => exact ends_cons (by decide) _

theorem writeEntries_ends (entries : List (String × Value ν)) (rest : List Char) :
    Ends (writeEntries numbers spaced entries ++ rest) := by
  cases entries with
  | nil => exact ends_cons (by decide) _
  | cons entry others => exact ends_cons (by decide) _

theorem readItems_comma {fuel : Nat} {item : Value ν}
    (first : readValue numbers fuel chars = some (item, middle)) (later : readItems numbers fuel middle = some (items, rest)) :
    readItems numbers (fuel + 1) (',' :: chars) = some (item :: items, rest) := by
  rw [readItems, skip_cons (by decide)]
  simp only [if_neg (show (',' : Char) ≠ ']' by decide), if_true, first, later, bind_eq_bind, bind_some]
  rfl

theorem readItems_write (back : ∀ item ∈ items, ReadBack numbers spaced item) (fuel : Nat)
    (rest : List Char) (enough : (writeItems numbers spaced items).length ≤ fuel) :
    readItems numbers fuel (writeItems numbers spaced items ++ rest) = some (items, rest) := by
  induction items generalizing fuel with
  | nil =>
    rw [writeItems, length_singleton] at enough
    obtain ⟨fuel, rfl⟩ := Nat.exists_eq_succ_of_ne_zero (n := fuel) (by omega)
    rfl
  | cons item others ih =>
    rw [writeItems, length_cons, length_append, length_append] at enough
    obtain ⟨fuel, rfl⟩ := Nat.exists_eq_succ_of_ne_zero (n := fuel) (by omega)
    have first := back item (.head _) fuel (writeItems numbers spaced others ++ rest) (by omega)
      (writeItems_ends numbers spaced others rest)
    rw [writeItems, cons_append, append_assoc, append_assoc]
    refine readItems_comma numbers ((readValue_gap numbers spaced fuel _).trans first) ?_
    exact ih (fun other member => back other (.tail _ member)) fuel (by omega)

theorem readEntries_comma {fuel : Nat} {key : String}
    (first : readValue numbers fuel chars = some (value, middle))
    (later : readEntries numbers fuel middle = some (entries, rest)) {before : List Char}
    (shape : skip before = writeText key ++ ':' :: (gap spaced ++ chars)) :
    readEntries numbers (fuel + 1) (',' :: before) = some ((key, value) :: entries, rest) := by
  obtain ⟨tail, quoted, reads⟩ := readText_writeText key (':' :: (gap spaced ++ chars))
  rw [readEntries, skip_cons (by decide)]
  simp only [if_neg (show (',' : Char) ≠ '}' by decide), if_true, shape, quoted, reads, bind_eq_bind,
    bind_some, skip_cons (show isBlank ':' = false by decide), readValue_gap, first, later]
  rfl

theorem readEntries_write (back : ∀ entry ∈ entries, ReadBack numbers spaced entry.2)
    (fuel : Nat) (rest : List Char) (enough : (writeEntries numbers spaced entries).length ≤ fuel) :
    readEntries numbers fuel (writeEntries numbers spaced entries ++ rest) = some (entries, rest) := by
  induction entries generalizing fuel with
  | nil =>
    rw [writeEntries, length_singleton] at enough
    obtain ⟨fuel, rfl⟩ := Nat.exists_eq_succ_of_ne_zero (n := fuel) (by omega)
    rfl
  | cons entry others ih =>
    obtain ⟨key, value⟩ := entry
    simp only [writeEntries, length_cons, length_append] at enough
    obtain ⟨fuel, rfl⟩ := Nat.exists_eq_succ_of_ne_zero (n := fuel) (by omega)
    have first := back _ mem_cons_self fuel (writeEntries numbers spaced others ++ rest) (by simp only; omega)
      (writeEntries_ends numbers spaced others rest)
    rw [writeEntries, cons_append]
    refine readEntries_comma numbers spaced first
      (ih (fun other member => back other (.tail _ member)) fuel (by omega)) ?_
    rw [append_assoc, skip_gap, writeText, cons_append, cons_append, cons_append, skip_cons (by decide)]
    simp

theorem readBack_list (back : ∀ item ∈ items, ReadBack numbers spaced item) :
    ReadBack numbers spaced (.list items) := by
  intro fuel rest enough _
  cases items with
  | nil =>
    rw [Value.write, length_cons, length_singleton] at enough
    obtain ⟨fuel, rfl⟩ := Nat.exists_eq_add_of_le' (show 2 ≤ fuel by omega)
    rw [Value.write]
    rfl
  | cons item others =>
    rw [Value.write, length_cons, length_append] at enough
    obtain ⟨c, tail, written, visible, opens, -⟩ := write_head numbers spaced item
    have short : 0 < (item.write numbers spaced).length := by
      rw [written]
      exact Nat.succ_pos _
    have more : 0 < (writeItems numbers spaced others).length := by
      cases others <;> exact Nat.succ_pos _
    obtain ⟨fuel, rfl⟩ := Nat.exists_eq_add_of_le' (show 2 ≤ fuel by omega)
    have first := back item (.head _) fuel (writeItems numbers spaced others ++ rest) (by omega)
      (writeItems_ends numbers spaced others rest)
    have reads := readItems_comma numbers first (readItems_write numbers spaced
      (fun other member => back other (.tail _ member)) fuel rest (by omega))
    have stops : (skip (item.write numbers spaced ++ (writeItems numbers spaced others ++ rest))).head? ≠ some ']' := by
      rw [written, cons_append, skip_cons visible, head?_cons]
      exact fun same => opens (some.inj same)
    rw [Value.write, cons_append, append_assoc, readValue, skip_cons (by decide)]
    simp only [if_neg (show ('[' : Char) ≠ '"' by decide), if_true, if_neg stops, reads, map_some]

theorem readBack_fields (ordered : Ordered entries)
    (back : ∀ entry ∈ entries, ReadBack numbers spaced entry.2) : ReadBack numbers spaced (.fields entries) := by
  intro fuel rest enough _
  cases entries with
  | nil =>
    rw [Value.write, length_cons, length_singleton] at enough
    obtain ⟨fuel, rfl⟩ := Nat.exists_eq_add_of_le' (show 2 ≤ fuel by omega)
    rw [Value.write]
    rfl
  | cons entry others =>
    obtain ⟨key, value⟩ := entry
    simp only [Value.write, length_cons, length_append] at enough
    obtain ⟨fuel, rfl⟩ := Nat.exists_eq_add_of_le' (show 2 ≤ fuel by omega)
    have first := back _ mem_cons_self fuel (writeEntries numbers spaced others ++ rest) (by simp only; omega)
      (writeEntries_ends numbers spaced others rest)
    have reads := readEntries_comma numbers spaced first (readEntries_write numbers spaced
      (fun other member => back other (.tail _ member)) fuel rest (by omega))
      (show skip (writeText key ++
          ':' :: (gap spaced ++ (value.write numbers spaced ++ (writeEntries numbers spaced others ++ rest)))) = _ by
        rw [writeText, cons_append, skip_cons (by decide)])
    have stops : (skip (writeText key ++ ':' ::
        (gap spaced ++ (value.write numbers spaced ++ (writeEntries numbers spaced others ++ rest))))).head? ≠ some '}' := by
      rw [writeText, cons_append, skip_cons (by decide), head?_cons]
      decide
    rw [Value.write, cons_append, append_assoc, cons_append, append_assoc, append_assoc,
      readValue, skip_cons (by decide)]
    simp only [if_neg (show ('{' : Char) ≠ '"' by decide), if_neg (show ('{' : Char) ≠ '[' by decide), if_true,
      if_neg stops, reads, map_some, ofEntries_ordered ordered]

theorem readBack_sorted (sorted : Sorted value) : ReadBack numbers spaced value := by
  induction sorted with
  | null =>
    intro fuel rest enough ends
    rw [Value.write] at enough ⊢
    exact readValue_token numbers (cons_ne_nil _ _) (all_eq_true.1 (by decide)) rfl enough ends
  | bool value =>
    intro fuel rest enough ends
    cases value with
    | false =>
      rw [Value.write] at enough ⊢
      exact readValue_token numbers (cons_ne_nil _ _) (all_eq_true.1 (by decide)) rfl enough ends
    | true =>
      rw [Value.write] at enough ⊢
      exact readValue_token numbers (cons_ne_nil _ _) (all_eq_true.1 (by decide)) rfl enough ends
  | number n =>
    intro fuel rest enough ends
    rw [Value.write] at enough ⊢
    exact readValue_token numbers (numbers.nonempty n) (numbers.token n) (readToken_number numbers n) enough ends
  | text text =>
    intro fuel rest enough _
    rw [Value.write] at enough ⊢
    obtain ⟨fuel, rfl⟩ := Nat.exists_eq_succ_of_ne_zero (n := fuel) (by rw [writeText, length_cons] at enough; omega)
    obtain ⟨tail, quoted, reads⟩ := readText_writeText text rest
    rw [quoted, readValue, skip_cons (by decide)]
    simp only [if_true, reads, map_some]
  | list _ back => exact readBack_list numbers spaced back
  | fields ordered _ back => exact readBack_fields numbers spaced ordered back

theorem loads_write (sorted : Sorted value) :
    loads numbers (String.ofList (value.write numbers spaced)) = some value := by
  have back := readBack_sorted numbers spaced sorted ((value.write numbers spaced).length + 1) [] (Nat.le_succ _) nofun
  rw [append_nil] at back
  rw [loads, String.toList_ofList, back]
  rfl

theorem loads_dumps (sorted : Sorted value) : loads numbers (dumps numbers value) = some value :=
  loads_write numbers true sorted

theorem loads_dumpsCompact (sorted : Sorted value) : loads numbers (dumpsCompact numbers value) = some value :=
  loads_write numbers false sorted

def ReadsSorted (fuel : Nat) : Prop :=
  (∀ chars value rest, readValue numbers fuel chars = some (value, rest) → Sorted value) ∧
    (∀ chars items rest, readItems numbers fuel chars = some (items, rest) → ∀ item ∈ items, Sorted item) ∧
    ∀ chars entries rest, readEntries numbers fuel chars = some (entries, rest) → ∀ entry ∈ entries, Sorted entry.2

theorem readToken_sorted (reads : readToken numbers token = some value) : Sorted value := by
  unfold readToken at reads
  split at reads
  · exact some.inj reads ▸ .null
  split at reads
  · exact some.inj reads ▸ .bool true
  split at reads
  · exact some.inj reads ▸ .bool false
  · obtain ⟨n, -, rfl⟩ := map_eq_some_iff.1 reads
    exact .number n

theorem readsSorted (fuel : Nat) : ReadsSorted numbers fuel := by
  induction fuel with
  | zero => exact ⟨nofun, nofun, nofun⟩
  | succ fuel ih =>
    obtain ⟨values, items, entries⟩ := ih
    refine ⟨fun chars value rest reads => ?_, fun chars list rest reads => ?_, fun chars fields rest reads => ?_⟩
    · rw [readValue] at reads
      split at reads
      · exact absurd reads (by simp)
      split at reads
      · obtain ⟨read, -, same⟩ := map_eq_some_iff.1 reads
        exact (Prod.mk.inj same).1 ▸ .text read.1
      split at reads
      · obtain ⟨read, list, same⟩ := map_eq_some_iff.1 reads
        exact (Prod.mk.inj same).1 ▸ .list (items _ _ _ list)
      split at reads
      · obtain ⟨read, fields, same⟩ := map_eq_some_iff.1 reads
        exact (Prod.mk.inj same).1 ▸
          .fields (ordered_ofEntries _) fun entry member => entries _ _ _ fields entry (mem_ofEntries member)
      · obtain ⟨token, single, same⟩ := map_eq_some_iff.1 reads
        exact (Prod.mk.inj same).1 ▸ readToken_sorted numbers single
    · rw [readItems] at reads
      split at reads
      · exact absurd reads (by simp)
      split at reads
      · rw [← (Prod.mk.inj (some.inj reads)).1]
        exact nofun
      split at reads
      · obtain ⟨⟨first, middle⟩, value, reads⟩ := bind_eq_some_iff.1 reads
        obtain ⟨⟨later, last⟩, others, reads⟩ := bind_eq_some_iff.1 reads
        rw [← (Prod.mk.inj (some.inj reads)).1]
        intro item member
        rcases mem_cons.1 member with rfl | member
        · exact values _ _ _ value
        · exact items _ _ _ others item member
      · exact absurd reads (by simp)
    · rw [readEntries] at reads
      split at reads
      · exact absurd reads (by simp)
      split at reads
      · rw [← (Prod.mk.inj (some.inj reads)).1]
        exact nofun
      split at reads
      · split at reads
        · exact absurd reads (by simp)
        split at reads
        · obtain ⟨⟨key, after⟩, -, reads⟩ := bind_eq_some_iff.1 reads
          dsimp only at reads
          split at reads
          · exact absurd reads (by simp)
          split at reads
          · obtain ⟨⟨first, middle⟩, value, reads⟩ := bind_eq_some_iff.1 reads
            obtain ⟨⟨later, last⟩, others, reads⟩ := bind_eq_some_iff.1 reads
            rw [← (Prod.mk.inj (some.inj reads)).1]
            intro entry member
            rcases mem_cons.1 member with rfl | member
            · exact values _ _ _ value
            · exact entries _ _ _ others entry member
          · exact absurd reads (by simp)
        · exact absurd reads (by simp)
      · exact absurd reads (by simp)

theorem sorted_of_loads {text : String} (reads : loads numbers text = some value) : Sorted value := by
  obtain ⟨⟨read, rest⟩, value_read, reads⟩ := bind_eq_some_iff.1 reads
  dsimp only at reads
  split at reads
  · exact some.inj reads ▸ (readsSorted numbers _).1 _ _ _ value_read
  · exact absurd reads (by simp)

end

/-- An integer is read from the text it is written as, and from a negative zero. -/
def readInteger (chars : List Char) : Option Int :=
  if chars = ['-', '0'] then some 0
  else (String.ofList chars).toInt?.filter fun n => (toString n).toList = chars

theorem toDigits_token (n : Nat) : ∀ c ∈ Nat.toDigits 10 n, isTokenChar c := by
  intro c member
  have digit := Nat.isDigit_of_mem_toDigits (by decide) (by decide) member
  simp [isTokenChar, Char.isAlphanum, digit]

theorem integer_toList (n : Int) :
    (∃ m : Nat, (toString n).toList = Nat.toDigits 10 m) ∨ ∃ m : Nat, (toString n).toList = '-' :: Nat.toDigits 10 (m + 1) := by
  cases n with
  | ofNat m => exact .inl ⟨m, by simp [toString, Int.repr, Nat.repr]⟩
  | negSucc m => exact .inr ⟨m, by simp [toString, Int.repr, Nat.repr]⟩

def integers : Numbers Int where
  write n := (toString n).toList
  read := readInteger
  isZero n := n = 0
  read_write n := by
    have whole : (toString n).toInt? = some n := Int.toInt?_repr n
    unfold readInteger
    split
    case isTrue negative =>
      rw [show toString n = "-0" from String.toList_injective negative] at whole
      have zero : ("-" ++ Nat.repr 0).toInt? = some 0 := by
        rw [String.toInt?_minus_append, Nat.toNat?_repr]
        rfl
      exact zero.symm.trans whole
    case isFalse => rw [String.ofList_toList, whole, Option.filter_some, if_pos (decide_eq_true rfl)]
  token n := by
    rcases integer_toList n with ⟨m, written⟩ | ⟨m, written⟩
    · rw [written]
      exact toDigits_token m
    · rw [written]
      intro c member
      rcases mem_cons.1 member with rfl | member
      · decide
      · exact toDigits_token _ c member
  nonempty n := by
    rcases integer_toList n with ⟨m, written⟩ | ⟨m, written⟩
    · rw [written]
      exact Nat.toDigits_ne_nil
    · rw [written]
      exact cons_ne_nil _ _
  reserved n := by
    have apart {c : Char} (letter : c.isDigit = false) (dash : c ≠ '-') (rest : List Char) : (toString n).toList ≠ c :: rest := by
      intro same
      rcases integer_toList n with ⟨m, written⟩ | ⟨m, written⟩
      · have digit := Nat.isDigit_of_mem_toDigits (by decide) (by decide)
          (show c ∈ Nat.toDigits 10 m by rw [← written, same]; exact mem_cons_self)
        rw [letter] at digit
        exact absurd digit (by decide)
      · exact dash (List.cons.inj (same.symm.trans written)).1
    exact ⟨apart (by decide) (by decide) _, apart (by decide) (by decide) _, apart (by decide) (by decide) _⟩

end Lib.JsonText
