import Kassiber.Lib.Occurrences

/-!
The streaming splitter of inline reasoning. Text is a list of UTF-16 code units, cut into chunks anywhere.
-/

namespace Kassiber.Ui
open Lib.Occurrences List Option

abbrev Text := List UInt16

def units (text : String) : Text := text.toList.map fun c => c.toNat.toUInt16

def openTag : Text := units "<think>"
def closeTag : Text := units "</think>"

structure ThinkSplit where
  content : Text := []
  thinking : Text := []

namespace ThinkSplit

def append (first second : ThinkSplit) : ThinkSplit :=
  { content := first.content ++ second.content, thinking := first.thinking ++ second.thinking }

/-- A piece in its channel. -/
def of (inThink : Bool) (piece : Text) : ThinkSplit := if inThink then { thinking := piece } else { content := piece }

theorem append_assoc (a b c : ThinkSplit) : (a.append b).append c = a.append (b.append c) := by
  simp [append]

@[simp] theorem append_empty (a : ThinkSplit) : a.append {} = a := by
  simp [append]

theorem of_append (inThink : Bool) (a b : Text) : (of inThink a).append (of inThink b) = of inThink (a ++ b) := by
  cases inThink <;> rfl

end ThinkSplit

structure ThinkParser where
  inThink : Bool := false
  pending : Text := []

def tag (inThink : Bool) : Text := if inThink then closeTag else openTag

theorem tag_ne_nil (inThink : Bool) : tag inThink ≠ [] := by
  cases inThink <;> decide

variable {inThink : Bool} {text : Text} {i : Nat}

def afterTag (inThink : Bool) (text : Text) (i : Nat) : Text := text.drop (i + (tag inThink).length)

theorem tag_shortens (found : indexOf (tag inThink) text = some i) : (afterTag inThink text i).length < text.length := by
  have within := indexOf_within found
  have positive := length_pos_of_ne_nil (tag_ne_nil inThink)
  rw [afterTag, length_drop]
  omega

namespace ThinkParser

/-- The loop of `feed` over what is left of the buffer and the chunk. -/
def feedLoop (inThink : Bool) (out : ThinkSplit) (s : Text) : ThinkSplit × ThinkParser :=
  if s = [] then (out, { inThink })
  else match _found : indexOf (tag inThink) s with
    | some i => feedLoop (!inThink) (out.append (.of inThink (s.take i))) (afterTag inThink s i)
    | none =>
      let prefixLen := openEnd (tag inThink) s (min s.length ((tag inThink).length - 1))
      (out.append (.of inThink (s.take (s.length - prefixLen))), { inThink, pending := s.drop (s.length - prefixLen) })
termination_by s.length
decreasing_by exact tag_shortens _found

def feed (parser : ThinkParser) (chunk : Text) : ThinkSplit × ThinkParser :=
  feedLoop parser.inThink {} (parser.pending ++ chunk)

def flush (parser : ThinkParser) : ThinkSplit × ThinkParser :=
  if parser.pending = [] then ({}, parser) else (.of parser.inThink parser.pending, { parser with pending := [] })

/-- What a consumer has collected after some chunks, and the parser it is left with. -/
def feedAll (parser : ThinkParser) : List Text → ThinkSplit × ThinkParser
  | [] => ({}, parser)
  | chunk :: rest =>
    let fed := parser.feed chunk
    let later := fed.2.feedAll rest
    (fed.1.append later.1, later.2)

end ThinkParser

open ThinkParser

def splitThinkOnce (text : Text) : ThinkSplit :=
  let live := feed {} text
  live.1.append live.2.flush.1

/-! The text cut at the first opening tag, the first closing tag after it, and so on. -/

def pieces (inThink : Bool) (text : Text) : List Text :=
  match _found : indexOf (tag inThink) text with
  | none => [text]
  | some i => text.take i :: pieces (!inThink) (afterTag inThink text i)
termination_by text.length
decreasing_by exact tag_shortens _found

def rejoin (inThink : Bool) : List Text → Text
  | [] => []
  | [piece] => piece
  | piece :: rest => piece ++ tag inThink ++ rejoin (!inThink) rest

def assign (inThink : Bool) : List Text → ThinkSplit
  | [] => {}
  | piece :: rest => (ThinkSplit.of inThink piece).append (assign (!inThink) rest)

def split (inThink : Bool) (text : Text) : ThinkSplit := assign inThink (pieces inThink text)

theorem split_none (absent : indexOf (tag inThink) text = none) : split inThink text = .of inThink text := by
  rw [split, pieces]
  split <;> simp_all [assign]

theorem split_some (found : indexOf (tag inThink) text = some i) :
    split inThink text = (ThinkSplit.of inThink (text.take i)).append (split (!inThink) (afterTag inThink text i)) := by
  rw [split, pieces]
  split <;> simp_all [assign, split]

/-- Text in which no tag starts goes to its channel whatever follows. -/
theorem split_shift {before rest : Text} (late : ∀ j < before.length, ¬tag inThink <+: (before ++ rest).drop j) :
    split inThink (before ++ rest) = (ThinkSplit.of inThink before).append (split inThink rest) := by
  have shifted := indexOf_shift (tag_ne_nil inThink) late
  cases found : indexOf (tag inThink) rest with
  | none =>
    rw [found, map_none] at shifted
    rw [split_none found, split_none shifted, ThinkSplit.of_append]
  | some i =>
    rw [found, map_some] at shifted
    rw [split_some found, split_some shifted, take_length_add_append, afterTag, Nat.add_assoc,
      drop_length_add_append, ← ThinkSplit.append_assoc, ThinkSplit.of_append, afterTag]

theorem rejoin_pieces (inThink : Bool) (text : Text) : rejoin inThink (pieces inThink text) = text := by
  fun_induction pieces inThink text with
  | case1 inThink text absent => rfl
  | case2 inThink text i found ih =>
    obtain ⟨-, ⟨rest, occurs⟩, -⟩ := indexOf_some.1 found
    have remains : afterTag inThink text i = rest := by
      rw [afterTag, ← drop_drop, ← occurs, drop_left]
    have more : pieces (!inThink) (afterTag inThink text i) ≠ [] := by
      rw [pieces]
      split <;> simp
    rw [rejoin.eq_3 _ _ _ more, ih, remains, List.append_assoc, occurs, take_append_drop]

/-- A parser that waits for no complete tag and holds less than one. -/
def ThinkParser.Waiting (parser : ThinkParser) : Prop :=
  indexOf (tag parser.inThink) parser.pending = none ∧ parser.pending.length ≤ (tag parser.inThink).length - 1

theorem waiting_of_short {parser : ThinkParser} (short : parser.pending.length ≤ (tag parser.inThink).length - 1) :
    parser.Waiting := by
  refine ⟨(indexOf_none (tag_ne_nil _)).2 fun i occurs => ?_, short⟩
  have fits := occurs.length_le
  have positive := length_pos_of_ne_nil (tag_ne_nil parser.inThink)
  rw [length_drop] at fits
  omega

/-- What the loop has put out and what it holds back split like the text it read, whatever follows. -/
theorem feedLoop_split (inThink : Bool) (out : ThinkSplit) (s : Text) :
    (feedLoop inThink out s).2.Waiting ∧ ∀ rest, (feedLoop inThink out s).1.append
        (split (feedLoop inThink out s).2.inThink ((feedLoop inThink out s).2.pending ++ rest)) =
      out.append (split inThink (s ++ rest)) := by
  fun_induction feedLoop inThink out s with
  | case1 inThink out => exact ⟨waiting_of_short (Nat.zero_le _), fun rest => rfl⟩
  | case2 inThink out s nonempty i found ih =>
    have within := indexOf_within found
    refine ⟨ih.1, fun rest => ?_⟩
    rw [ih.2, ThinkSplit.append_assoc, split_some (indexOf_append found rest), take_append_of_le_length (by omega),
      afterTag, afterTag, drop_append_of_le_length within]
  | case3 inThink out s nonempty absent prefixLen =>
    have short : prefixLen ≤ min s.length ((tag inThink).length - 1) := openEnd_le _
    refine ⟨waiting_of_short ?_, fun rest => ?_⟩
    · change (s.drop _).length ≤ (tag inThink).length - 1
      rw [length_drop]
      omega
    · have cut := take_append_drop (s.length - prefixLen) s
      rw [ThinkSplit.append_assoc, ← split_shift, ← List.append_assoc, cut]
      intro j before
      rw [← List.append_assoc, cut]
      exact late_of_openEnd absent rest (Nat.lt_of_lt_of_le before (length_take_le _ _))

theorem feedAll_split {parser : ThinkParser} (waiting : parser.Waiting) (chunks : List Text) :
    (parser.feedAll chunks).2.Waiting ∧
      (parser.feedAll chunks).1.append (split (parser.feedAll chunks).2.inThink (parser.feedAll chunks).2.pending) =
        split parser.inThink (parser.pending ++ chunks.flatten) := by
  induction chunks generalizing parser with
  | nil => exact ⟨waiting, by rw [flatten_nil, append_nil]; rfl⟩
  | cons chunk rest ih =>
    obtain ⟨kept, fed⟩ := feedLoop_split parser.inThink {} (parser.pending ++ chunk)
    obtain ⟨last, later⟩ := ih kept
    refine ⟨last, ?_⟩
    rw [flatten_cons, ← List.append_assoc]
    exact (ThinkSplit.append_assoc _ _ _).trans ((congrArg _ later).trans (fed rest.flatten))

theorem chunks_split (chunks : List Text) :
    (feedAll {} chunks).1.append (feedAll {} chunks).2.flush.1 = split false chunks.flatten := by
  obtain ⟨waiting, fed⟩ := @feedAll_split {} (waiting_of_short (Nat.zero_le _)) chunks
  have flushed : (feedAll {} chunks).2.flush.1 =
      split (feedAll {} chunks).2.inThink (feedAll {} chunks).2.pending := by
    rw [split_none waiting.1, flush]
    split
    · rename_i empty
      rw [empty]
      cases (feedAll {} chunks).2.inThink <;> rfl
    · rfl
  rw [flushed, fed]
  rfl

/-- The channels do not depend on how a text is cut into chunks: they are the pieces between its alternating tags, and
the parser never holds back a whole tag. -/
theorem splitter_ignores_chunking (chunks : List Text) :
    (feedAll {} chunks).1.append (feedAll {} chunks).2.flush.1 = splitThinkOnce chunks.flatten ∧
      splitThinkOnce chunks.flatten = assign false (pieces false chunks.flatten) ∧
      rejoin false (pieces false chunks.flatten) = chunks.flatten ∧
      (feedAll {} chunks).2.pending.length ≤ (tag (feedAll {} chunks).2.inThink).length - 1 := by
  have once : splitThinkOnce chunks.flatten = split false chunks.flatten := by
    have whole := chunks_split [chunks.flatten]
    rw [flatten_singleton] at whole
    simpa [feedAll, splitThinkOnce] using whole
  exact ⟨(chunks_split chunks).trans once.symm, once, rejoin_pieces false _,
    (feedAll_split (waiting_of_short (Nat.zero_le _)) chunks).1.2⟩

end Kassiber.Ui
