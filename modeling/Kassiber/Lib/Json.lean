import Kassiber.Lib.Sorting

/-!
JSON documents and their compact text. Objects are built with sorted keys.
-/

namespace Lib.Document
open Lib.Sorting

inductive Json where
  | null
  | bool (value : Bool)
  | number (value : Int)
  | text (value : String)
  | list (items : List Json)
  | fields (entries : List (String × Json))

def Json.object (entries : List (String × Json)) : Json := .fields (sortedBy Prod.fst entries)

def hexUnit (n : Nat) : String :=
  String.ofList ('\\' :: 'u' :: ([4096, 256, 16, 1].map fun place => Nat.digitChar (n / place % 16)))

/-- A character outside the basic plane is written as a surrogate pair. -/
def unicodeEscape (n : Nat) : String :=
  if n < 65536 then hexUnit n
  else hexUnit (55296 + (n - 65536) / 1024) ++ hexUnit (56320 + (n - 65536) % 1024)

def escapeChar (ascii : Bool) (c : Char) : String :=
  if c = '"' then "\\\""
  else if c = '\\' then "\\\\"
  else if c = '\n' then "\\n"
  else if c = '\r' then "\\r"
  else if c = '\t' then "\\t"
  else if c.toNat = 8 then "\\b"
  else if c.toNat = 12 then "\\f"
  else if c.toNat < 32 ∨ (ascii = true ∧ 126 < c.toNat) then unicodeEscape c.toNat
  else String.singleton c

def quote (ascii : Bool) (text : String) : String := "\"" ++ String.join (text.toList.map (escapeChar ascii)) ++ "\""

mutual

/-- The compact text of a document, without blanks between its parts. -/
def Json.encode (ascii : Bool) : Json → String
  | .null => "null"
  | .bool value => if value then "true" else "false"
  | .number value => toString value
  | .text value => quote ascii value
  | .list items => "[" ++ ",".intercalate (encodeItems ascii items) ++ "]"
  | .fields entries => "\x7b" ++ ",".intercalate (encodeEntries ascii entries) ++ "\x7d"

def encodeItems (ascii : Bool) : List Json → List String
  | [] => []
  | item :: rest => Json.encode ascii item :: encodeItems ascii rest

def encodeEntries (ascii : Bool) : List (String × Json) → List String
  | [] => []
  | (key, value) :: rest => (quote ascii key ++ ":" ++ Json.encode ascii value) :: encodeEntries ascii rest

end

example : Json.encode true (.object [("b", .list [.number 1, .null]), ("a", .text "x\"y")]) =
    "\x7b\"a\":\"x\\\"y\",\"b\":[1,null]\x7d" := by decide +kernel

end Lib.Document
