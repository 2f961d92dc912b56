import Kassiber.Swaps.HtlcScript

/-!
The grammar of redeem scripts, and what the parser makes of it.
-/

namespace Kassiber.Swaps
open Lib.ByteStrings List Option

inductive MinimalPush : Bytes → Prop where
  | zero : MinimalPush [op0]
  | small (head : UInt8) : op1 ≤ head → head ≤ op16 → MinimalPush [head]
  | bytes (head : UInt8) (data : Bytes) : 1 ≤ head.toNat → head.toNat ≤ 5 → data.length = head.toNat →
    MinimalPush (head :: data)

structure HtlcScript where
  sized : Bool
  hashlock : Bytes
  claimKey : Bytes
  push : Bytes
  refundKey : Bytes
  hashlock_length : hashlock.length = 20
  claimKey_length : claimKey.length = 33
  push_minimal : MinimalPush push
  refundKey_length : refundKey.length = 33

def sizeCheck : Bytes := [0x82, 0x01, 0x20, 0x88]
def hashlockPart (hashlock : Bytes) : Bytes := [0xA9, 0x14] ++ hashlock ++ [0x87]
def claimPart (claimKey : Bytes) : Bytes := [0x63, 0x21] ++ claimKey
def timeoutPart (push : Bytes) : Bytes := 0x67 :: push
def refundPart (refundKey : Bytes) : Bytes := [0xB1, 0x75, 0x21] ++ refundKey ++ [0x68, 0xAC]

namespace HtlcScript

def start (htlc : HtlcScript) : Bytes := if htlc.sized then sizeCheck else []

def bytes (htlc : HtlcScript) : Bytes :=
  htlc.start ++ hashlockPart htlc.hashlock ++ claimPart htlc.claimKey ++ timeoutPart htlc.push ++
    refundPart htlc.refundKey

def template (htlc : HtlcScript) : Template := if htlc.sized then .reverse else .submarine

def extraction (htlc : HtlcScript) : HtlcExtraction :=
  { template := htlc.template, role := .fund, hashlock160 := hex htlc.hashlock }

end HtlcScript

variable {script : Bytes} {cursor : Nat}

theorem hasSizeCheck_iff : hasSizeCheck script = true ↔ Holds sizeCheck script 0 := by
  have spelled : Holds sizeCheck script 0 ↔ script[0]? = some 0x82 ∧ script[1]? = some 0x01 ∧
      script[2]? = some 0x20 ∧ script[3]? = some 0x88 := by
    simp [sizeCheck, holds_cons, holds_nil]
  rw [spelled]
  simp only [hasSizeCheck, opSize, opPushbytes1, preimageLen, opEqualverify, Bool.and_eq_true, decide_eq_true_eq,
    beq_iff_eq]
  constructor
  · rintro ⟨⟨⟨⟨-, first⟩, second⟩, third⟩, fourth⟩
    exact ⟨first, second, third, fourth⟩
  · rintro ⟨first, second, third, fourth⟩
    exact ⟨⟨⟨⟨lt_of_read fourth, first⟩, second⟩, third⟩, fourth⟩

variable {hashlock key : Bytes}

theorem holds_hashlockPart {script : Bytes} (size : hashlock.length = 20) :
    Holds (hashlockPart hashlock) script cursor ↔ script[cursor]? = some 0xA9 ∧ script[cursor + 1]? = some 0x14 ∧
      Holds hashlock script (cursor + 2) ∧ script[cursor + 22]? = some 0x87 := by
  simp [hashlockPart, holds_append, holds_cons, holds_nil, size, Nat.add_assoc]

theorem returns_readHashlock {script : Bytes} {cursor next : Nat} :
    Returns (readHashlock script cursor) (hashlock, next) ↔
      hashlock.length = 20 ∧ next = cursor + 23 ∧ Holds (hashlockPart hashlock) script cursor := by
  simp only [readHashlock, returns_bind, returns_stopIf, returns_expect, returns_pure, Prod.mk.injEq, exists_const]
  simp only [hashlockLen, opHash160, opEqual]
  constructor
  · rintro ⟨-, first, second, last, rfl, rfl⟩
    have fits := lt_of_read last
    have size : (slice script (cursor + 1 + 1) 20).length = 20 := length_slice (by omega)
    exact ⟨size, rfl, (holds_hashlockPart size).2 ⟨first, second, holds_slice, last⟩⟩
  · rintro ⟨size, rfl, held⟩
    obtain ⟨first, second, middle, last⟩ := (holds_hashlockPart size).1 held
    have fits := lt_of_read last
    refine ⟨by omega, first, second, last, ?_, rfl⟩
    rw [middle.eq_slice, size]

theorem raises_readHashlock :
    Raises (readHashlock script cursor) ↔ script.length = cursor + 22 ∧ Holds [0xA9, 0x14] script cursor := by
  have spelled : Holds [0xA9, 0x14] script cursor ↔
      script[cursor]? = some 0xA9 ∧ script[cursor + 1]? = some 0x14 := by
    simp [holds_cons, holds_nil]
  rw [spelled]
  simp only [readHashlock, raises_bind, raises_stopIf, raises_expect, returns_stopIf, returns_expect, raises_pure,
    exists_const]
  simp only [hashlockLen, opHash160]
  constructor
  · rintro (bad | ⟨fits, short | ⟨first, short | ⟨second, short | ⟨-, bad⟩⟩⟩⟩)
    · exact bad.elim
    · omega
    · omega
    · exact ⟨by omega, first, second⟩
    · exact bad.elim
  · rintro ⟨size, first, second⟩
    exact .inr ⟨by omega, .inr ⟨first, .inr ⟨second, .inl (by omega)⟩⟩⟩

theorem holds_claimPart {script : Bytes} :
    Holds (claimPart key) script cursor ↔ script[cursor]? = some 0x63 ∧ script[cursor + 1]? = some 0x21 ∧
      Holds key script (cursor + 2) := by
  simp [claimPart, holds_cons]

theorem returns_readClaimKey {cursor next : Nat} :
    Returns (readClaimKey script cursor) next ↔
      ∃ key : Bytes, key.length = 33 ∧ next = cursor + 35 ∧ Holds (claimPart key) script cursor := by
  simp only [readClaimKey, returns_bind, returns_stopIf, returns_expect, returns_pure, exists_const]
  simp only [pubkeyLen, opIf]
  constructor
  · rintro ⟨fits, first, second, rfl⟩
    refine ⟨slice script (cursor + 2) 33, length_slice (by omega), by omega, ?_⟩
    exact holds_claimPart.2 ⟨first, second, holds_slice⟩
  · rintro ⟨key, size, rfl, held⟩
    obtain ⟨first, second, rest⟩ := holds_claimPart.1 held
    have fits := rest.length_le
    exact ⟨by omega, first, second, by omega⟩

theorem not_raises_readClaimKey : ¬Raises (readClaimKey script cursor) := by
  simp only [readClaimKey, raises_bind, raises_stopIf, raises_expect, returns_stopIf, returns_expect, raises_pure,
    exists_const]
  simp only [pubkeyLen]
  rintro (bad | ⟨fits, short | ⟨-, short | ⟨-, bad⟩⟩⟩)
  · exact bad
  · omega
  · omega
  · exact bad

theorem returns_consumeMinimalIntegerPush {cursor size : Nat} :
    Returns (consumeMinimalIntegerPush script cursor) size ↔
      ∃ push, MinimalPush push ∧ push.length = size ∧ Holds push script cursor := by
  simp only [consumeMinimalIntegerPush, returns_bind, returns_stopIf, returns_byteAt, exists_const]
  constructor
  · rintro ⟨-, head, read, run⟩
    split at run
    · rename_i zero
      exact ⟨[head], zero ▸ .zero, returns_pure.1 run, holds_cons.2 ⟨read, holds_nil⟩⟩
    · split at run
      · rename_i small
        exact ⟨[head], .small head small.1 small.2, returns_pure.1 run, holds_cons.2 ⟨read, holds_nil⟩⟩
      · split at run
        · rename_i counted
          simp only [returns_bind, returns_stopIf, returns_pure, exists_const] at run
          obtain ⟨short, fits, rfl⟩ := run
          have size : (slice script (cursor + 1) head.toNat).length = head.toNat := length_slice (by omega)
          refine ⟨head :: slice script (cursor + 1) head.toNat, .bytes head _ counted.1 (by omega) size, ?_,
            holds_cons.2 ⟨read, holds_slice⟩⟩
          rw [length_cons, size, Nat.add_comm]
        · exact (returns_failure run).elim
  · rintro ⟨push, minimal, rfl, held⟩
    cases minimal with
    | zero =>
      obtain ⟨read, -⟩ := holds_cons.1 held
      exact ⟨Nat.not_le.2 (lt_of_read read), op0, read, by simp⟩
    | small head low high =>
      obtain ⟨read, -⟩ := holds_cons.1 held
      refine ⟨Nat.not_le.2 (lt_of_read read), head, read, ?_⟩
      split <;> simp [low, high]
    | bytes head data low high size =>
      obtain ⟨read, rest⟩ := holds_cons.1 held
      have fits := rest.length_le
      have within := lt_of_read read
      refine ⟨Nat.not_le.2 within, head, read, ?_⟩
      have nonzero : head ≠ op0 := by rintro rfl; simp [op0] at low
      have plain : ¬(op1 ≤ head ∧ head ≤ op16) := by
        rintro ⟨above, -⟩
        have : 81 ≤ head.toNat := above
        omega
      have counted : opPushbytes1 ≤ head ∧ head ≤ opPushbytes75 :=
        ⟨low, UInt8.le_iff_toNat_le.2 (high.trans (by decide))⟩
      rw [if_neg nonzero, if_neg plain, if_pos counted]
      simp only [returns_bind, returns_stopIf, returns_pure, exists_const, length_cons]
      exact ⟨by omega, by omega, by omega⟩

theorem not_raises_consumeMinimalIntegerPush : ¬Raises (consumeMinimalIntegerPush script cursor) := by
  simp only [consumeMinimalIntegerPush, raises_bind, raises_stopIf, raises_byteAt, returns_stopIf, returns_byteAt,
    exists_const, false_or, not_le]
  rintro ⟨fits, short | ⟨head, -, run⟩⟩
  · omega
  · split at run
    · exact raises_pure run
    · split at run
      · exact raises_pure run
      · split at run
        · simp only [raises_bind, raises_stopIf, raises_pure, and_false, exists_false, or_false] at run
        · exact raises_failure run

theorem returns_readTimeout {cursor next : Nat} :
    Returns (readTimeout script cursor) next ↔
      ∃ push, MinimalPush push ∧ next = cursor + 1 + push.length ∧ Holds (timeoutPart push) script cursor := by
  simp only [readTimeout, returns_bind, returns_stopIf, returns_expect, returns_pure,
    returns_consumeMinimalIntegerPush, timeoutPart, holds_cons, opElse, exists_const]
  constructor
  · rintro ⟨-, first, size, ⟨push, minimal, rfl, held⟩, rfl⟩
    exact ⟨push, minimal, rfl, first, held⟩
  · rintro ⟨push, minimal, rfl, first, held⟩
    exact ⟨Nat.not_le.2 (lt_of_read first), first, push.length, ⟨push, minimal, rfl, held⟩, rfl⟩

theorem not_raises_readTimeout : ¬Raises (readTimeout script cursor) := by
  simp only [readTimeout, raises_bind, raises_stopIf, raises_expect, returns_stopIf, returns_expect, raises_pure,
    exists_const, not_raises_consumeMinimalIntegerPush, and_false, or_false, false_or]
  rintro ⟨fits, short⟩
  omega

theorem holds_refundPart {script : Bytes} (size : key.length = 33) :
    Holds (refundPart key) script cursor ↔ script[cursor]? = some 0xB1 ∧ script[cursor + 1]? = some 0x75 ∧
      script[cursor + 2]? = some 0x21 ∧ Holds key script (cursor + 3) ∧ script[cursor + 36]? = some 0x68 ∧
      script[cursor + 37]? = some 0xAC := by
  simp [refundPart, holds_append, holds_cons, holds_nil, size, Nat.add_assoc]

theorem returns_readRefundKey {cursor next : Nat} :
    Returns (readRefundKey script cursor) next ↔
      ∃ key : Bytes, key.length = 33 ∧ next = cursor + 38 ∧ Holds (refundPart key) script cursor := by
  simp only [readRefundKey, returns_bind, returns_stopIf, returns_expect, returns_pure, exists_const]
  simp only [pubkeyLen, opChecklocktimeverify, opDrop, opEndif, opChecksig]
  constructor
  · rintro ⟨fits, first, second, third, fourth, last, rfl⟩
    have size : (slice script (cursor + 3) 33).length = 33 := length_slice (by omega)
    exact ⟨_, size, by omega, (holds_refundPart size).2 ⟨first, second, third, holds_slice, fourth, last⟩⟩
  · rintro ⟨key, size, rfl, held⟩
    obtain ⟨first, second, third, -, fourth, last⟩ := (holds_refundPart size).1 held
    have fits := lt_of_read last
    exact ⟨by omega, first, second, third, fourth, last, by omega⟩

theorem not_raises_readRefundKey : ¬Raises (readRefundKey script cursor) := by
  simp only [readRefundKey, raises_bind, raises_stopIf, raises_expect, returns_stopIf, returns_expect, raises_pure,
    exists_const]
  simp only [pubkeyLen]
  rintro (bad | ⟨fits, short | ⟨-, short | ⟨-, short | ⟨-, short | ⟨-, short | ⟨-, bad⟩⟩⟩⟩⟩⟩)
  · exact bad
  all_goals first | exact bad | omega

/-- Ends where `OP_EQUAL` should stand, after nothing but the size check and the hash. -/
def CutBeforeEqual (script : Bytes) : Prop :=
  ∃ hashlock : Bytes, hashlock.length = 20 ∧
    (script = [0xA9, 0x14] ++ hashlock ∨ script = sizeCheck ++ [0xA9, 0x14] ++ hashlock)

theorem length_hashlockPart (size : hashlock.length = 20) :
    (hashlockPart hashlock).length = 23 := by
  simp [hashlockPart, size]

theorem length_claimPart (size : key.length = 33) : (claimPart key).length = 35 := by
  simp [claimPart, size]

theorem length_refundPart (size : key.length = 33) : (refundPart key).length = 38 := by
  simp [refundPart, size]

theorem hasSizeCheck_of_hash (first : script[0]? = some 0xA9) : hasSizeCheck script = false := by
  by_contra checked
  have held := hasSizeCheck_iff.1 (by simpa using checked)
  have other := (holds_cons.1 held).1
  rw [first] at other
  exact absurd other (by decide)

theorem HtlcScript.hasSizeCheck_bytes (htlc : HtlcScript) : hasSizeCheck htlc.bytes = htlc.sized := by
  cases sized : htlc.sized with
  | true =>
    refine hasSizeCheck_iff.2 ?_
    simp [Holds, HtlcScript.bytes, HtlcScript.start, sized]
  | false =>
    refine hasSizeCheck_of_hash ?_
    simp [HtlcScript.bytes, HtlcScript.start, sized, hashlockPart]

def startCursor (script : Bytes) : Nat := if hasSizeCheck script then 4 else 0

theorem holds_start : Holds (if hasSizeCheck script then sizeCheck else []) script 0 := by
  cases checked : hasSizeCheck script with
  | true => exact hasSizeCheck_iff.1 checked
  | false => exact holds_nil

theorem length_start : (if hasSizeCheck script then sizeCheck else []).length = startCursor script := by
  unfold startCursor
  split <;> rfl

theorem returns_parse {found : HtlcExtraction} :
    Returns (parseHtlcRedeemScript script) found ↔
      ∃ htlc : HtlcScript, script = htlc.bytes ∧ found = htlc.extraction := by
  simp only [parseHtlcRedeemScript, returns_bind, returns_stopIf, returns_pure, exists_const, Prod.exists,
    returns_readHashlock, returns_readClaimKey, returns_readTimeout, returns_readRefundKey, not_not]
  constructor
  · rintro ⟨-, hashlock, _, ⟨hashSize, rfl, hashHeld⟩, _, ⟨claimKey, claimSize, rfl, claimHeld⟩, _,
      ⟨push, minimal, rfl, pushHeld⟩, _, ⟨refundKey, refundSize, rfl, refundHeld⟩, whole, rfl⟩
    let htlc : HtlcScript :=
      { sized := hasSizeCheck script, hashlock := hashlock, claimKey := claimKey, push := push
        refundKey := refundKey, hashlock_length := hashSize, claimKey_length := claimSize
        push_minimal := minimal, refundKey_length := refundSize }
    refine ⟨htlc, (holds_whole.2 ⟨?_, ?_⟩).symm, rfl⟩
    · simp only [HtlcScript.bytes, HtlcScript.start, holds_append, length_append, length_hashlockPart hashSize,
        length_claimPart claimSize, length_start, Nat.zero_add, htlc]
      refine ⟨⟨⟨⟨holds_start, hashHeld⟩, claimHeld⟩, pushHeld⟩, ?_⟩
      convert refundHeld using 1
      simp only [timeoutPart, length_cons, startCursor]
      omega
    · simp only [HtlcScript.bytes, HtlcScript.start, length_append, length_hashlockPart hashSize,
        length_claimPart claimSize, length_refundPart refundSize, length_start, timeoutPart, length_cons, htlc]
      change startCursor script + 23 + 35 + 1 + push.length + 38 = script.length at whole
      omega
  · rintro ⟨htlc, rfl, rfl⟩
    obtain ⟨held, size⟩ := holds_whole.1 (Eq.refl htlc.bytes)
    have sized := htlc.hasSizeCheck_bytes
    have started : htlc.start.length = if htlc.sized then 4 else 0 := by
      unfold HtlcScript.start
      split <;> rfl
    have nonempty : htlc.bytes ≠ [] := by simp [HtlcScript.bytes, timeoutPart]
    have total : htlc.bytes.length = (if htlc.sized then 4 else 0) + 23 + 35 + (1 + htlc.push.length) + 38 := by
      simp only [HtlcScript.bytes, length_append, length_hashlockPart htlc.hashlock_length,
        length_claimPart htlc.claimKey_length, length_refundPart htlc.refundKey_length, started, timeoutPart,
        length_cons]
      omega
    rw [sized]
    nth_rewrite 1 [HtlcScript.bytes] at held
    simp only [holds_append, length_append, length_hashlockPart htlc.hashlock_length,
      length_claimPart htlc.claimKey_length, started, Nat.zero_add] at held
    obtain ⟨⟨⟨⟨-, hashHeld⟩, claimHeld⟩, pushHeld⟩, refundHeld⟩ := held
    refine ⟨nonempty, htlc.hashlock, _, ⟨htlc.hashlock_length, rfl, hashHeld⟩, _,
      ⟨htlc.claimKey, htlc.claimKey_length, rfl, claimHeld⟩, _, ⟨htlc.push, htlc.push_minimal, rfl, pushHeld⟩, _,
      ⟨htlc.refundKey, htlc.refundKey_length, rfl, ?_⟩, ?_, rfl⟩
    · convert refundHeld using 1
      simp only [timeoutPart, length_cons]
      omega
    · rw [total]
      omega

theorem raises_parse_iff_hashlock :
    Raises (parseHtlcRedeemScript script) ↔ script ≠ [] ∧ Raises (readHashlock script (startCursor script)) := by
  simp only [parseHtlcRedeemScript, raises_bind, raises_stopIf, returns_stopIf, raises_pure, exists_const,
    not_raises_readClaimKey, not_raises_readTimeout, not_raises_readRefundKey, and_false, or_false, false_or,
    startCursor, ne_eq]

theorem raises_parse : Raises (parseHtlcRedeemScript script) ↔ CutBeforeEqual script := by
  rw [raises_parse_iff_hashlock, raises_readHashlock]
  constructor
  · rintro ⟨-, size, held⟩
    have fits : (slice script (startCursor script + 2) 20).length = 20 := length_slice (by omega)
    refine ⟨_, fits, ?_⟩
    have whole : (if hasSizeCheck script then sizeCheck else []) ++ [0xA9, 0x14] ++
        slice script (startCursor script + 2) 20 = script := by
      refine holds_whole.2 ⟨?_, ?_⟩
      · simp only [holds_append, length_append, length_start, Nat.zero_add]
        exact ⟨⟨holds_start, held⟩, holds_slice⟩
      · simp only [length_append, length_start, fits, size, length_cons, length_nil]
    cases checked : hasSizeCheck script with
    | true =>
      rw [checked, if_pos rfl] at whole
      exact .inr whole.symm
    | false =>
      rw [checked, if_neg (by decide), nil_append] at whole
      exact .inl whole.symm
  · rintro ⟨hashlock, size, rfl | rfl⟩
    · have plain : startCursor ([0xA9, 0x14] ++ hashlock) = 0 := by
        rw [startCursor, hasSizeCheck_of_hash rfl]
        rfl
      rw [plain]
      exact ⟨cons_ne_nil _ _, by simp [size], prefix_append _ _⟩
    · have sized : startCursor (sizeCheck ++ [0xA9, 0x14] ++ hashlock) = 4 := by
        have checked : hasSizeCheck (sizeCheck ++ [0xA9, 0x14] ++ hashlock) = true :=
          hasSizeCheck_iff.2 ⟨[0xA9, 0x14] ++ hashlock, rfl⟩
        rw [startCursor, checked]
        rfl
      rw [sized]
      exact ⟨cons_ne_nil _ _, by simp [sizeCheck, size], prefix_append _ _⟩

section
variable {hash160 sha256 : Bytes → Bytes} {items : List Bytes} {htlc : HtlcScript} {found : HtlcExtraction}

theorem returns_parse_bytes : Returns (parseHtlcRedeemScript htlc.bytes) found ↔ found = htlc.extraction := by
  have own : Returns (parseHtlcRedeemScript htlc.bytes) htlc.extraction := returns_parse.2 ⟨htlc, rfl, rfl⟩
  constructor
  · exact fun returned => returned.unique own
  · rintro rfl
    exact own

theorem returns_claim (enough : 2 ≤ items.length) (last : items.getLast? = some htlc.bytes) :
    Returns (extractFromClaimWitness hash160 sha256 items) found ↔
      ∃ item, revealedPreimage hash160 htlc.hashlock items.dropLast = some item ∧
        found = { htlc.extraction with
          role := .claim, paymentHash := some (hex (sha256 item)), preimage := some (hex item) } := by
  have script : items.getLastD [] = htlc.bytes := by rw [getLastD_eq_getLast?, last]; rfl
  simp only [extractFromClaimWitness, returns_bind, returns_stopIf, script, returns_parse_bytes, exists_const]
  constructor
  · rintro ⟨-, fund, rfl, run⟩
    simp only [HtlcScript.extraction, fromHex_hex, getD_some] at run
    cases revealed : revealedPreimage hash160 htlc.hashlock items.dropLast with
    | none =>
      rw [revealed] at run
      exact (returns_failure run).elim
    | some item =>
      rw [revealed] at run
      exact ⟨item, rfl, (returns_pure.1 run).symm⟩
  · rintro ⟨item, revealed, rfl⟩
    refine ⟨by omega, htlc.extraction, rfl, ?_⟩
    simp only [HtlcScript.extraction, fromHex_hex, getD_some, revealed, returns_pure]

theorem returns_refund (enough : 2 ≤ items.length) (last : items.getLast? = some htlc.bytes) :
    Returns (extractFromRefundWitness hash160 items) found ↔
      revealedPreimage hash160 htlc.hashlock items.dropLast = none ∧
        found = { htlc.extraction with role := .refund } := by
  have script : items.getLastD [] = htlc.bytes := by rw [getLastD_eq_getLast?, last]; rfl
  simp only [extractFromRefundWitness, returns_bind, returns_stopIf, script, returns_parse_bytes, exists_const]
  constructor
  · rintro ⟨-, fund, rfl, run⟩
    simp only [HtlcScript.extraction, fromHex_hex, getD_some] at run
    cases revealed : revealedPreimage hash160 htlc.hashlock items.dropLast with
    | some item =>
      rw [revealed] at run
      exact (returns_failure run).elim
    | none =>
      rw [revealed] at run
      exact ⟨rfl, (returns_pure.1 run).symm⟩
  · rintro ⟨hidden, rfl⟩
    refine ⟨by omega, htlc.extraction, rfl, ?_⟩
    simp only [HtlcScript.extraction, fromHex_hex, getD_some, hidden, returns_pure]

theorem claim_xor_refund (enough : 2 ≤ items.length) (last : items.getLast? = some htlc.bytes) :
    Xor (∃ found, Returns (extractFromClaimWitness hash160 sha256 items) found)
      (∃ found, Returns (extractFromRefundWitness hash160 items) found) := by
  simp only [returns_claim enough last, returns_refund enough last]
  cases revealed : revealedPreimage hash160 htlc.hashlock items.dropLast with
  | none => exact .inr ⟨⟨_, rfl, rfl⟩, by simp⟩
  | some item => exact .inl ⟨⟨_, item, rfl, rfl⟩, by simp⟩

end

/-- The parser returns, what it finds is what the grammar reads, and a spend of the script is a claim or a refund. -/
def ParsesExactly (hash160 sha256 : Bytes → Bytes) (script : Bytes) : Prop :=
  (∃ result, (parseHtlcRedeemScript script).run = .ok result) ∧
    (∀ found, Returns (parseHtlcRedeemScript script) found ↔
      ∃ htlc : HtlcScript, script = htlc.bytes ∧ found = htlc.extraction) ∧
    ∀ items : List Bytes, 2 ≤ items.length → items.getLast? = some script →
      (∃ htlc : HtlcScript, script = htlc.bytes) →
        Xor (∃ found, Returns (extractFromClaimWitness hash160 sha256 items) found)
          (∃ found, Returns (extractFromRefundWitness hash160 items) found)

theorem returns_or_raises {α : Type} (scan : Scan α) : (∃ result, scan.run = .ok result) ↔ ¬Raises scan := by
  unfold Raises
  rcases outcome : scan.run with error | result
  · cases error
    simp
  · simp

theorem parses_exactly_iff (hash160 sha256 : Bytes → Bytes) (script : Bytes) :
    ParsesExactly hash160 sha256 script ↔ ¬CutBeforeEqual script := by
  have total : (∃ result, (parseHtlcRedeemScript script).run = .ok result) ↔ ¬CutBeforeEqual script := by
    rw [returns_or_raises, raises_parse]
  constructor
  · rintro ⟨returned, -⟩
    exact total.1 returned
  · intro whole
    refine ⟨total.2 whole, fun found => returns_parse, ?_⟩
    rintro items enough last ⟨htlc, rfl⟩
    exact claim_xor_refund enough last

/-- Twenty-two bytes are enough for the parser's check and too few for its reads. -/
theorem hash_alone_raises :
    ¬∀ (hash160 sha256 : Bytes → Bytes) (script : Bytes), ParsesExactly hash160 sha256 script := by
  intro everywhere
  obtain ⟨⟨result, run⟩, -⟩ := everywhere id id ([0xA9, 0x14] ++ List.replicate 20 0)
  have raised : (parseHtlcRedeemScript ([0xA9, 0x14] ++ List.replicate 20 0)).run = .error .outOfRange := by
    decide +kernel
  rw [raised] at run
  cases run

end Kassiber.Swaps
