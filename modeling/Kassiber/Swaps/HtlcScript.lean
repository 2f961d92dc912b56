import Kassiber.Lib.ByteStrings

/-!
Redeem scripts of hash time-locked contracts, and the witnesses that spend them.
-/

namespace Kassiber.Swaps
open Lib.ByteStrings

def op0 : UInt8 := 0x00
def opPushbytes1 : UInt8 := 0x01
def opPushbytes75 : UInt8 := 0x4B
def op1 : UInt8 := 0x51
def op16 : UInt8 := 0x60
def opDrop : UInt8 := 0x75
def opEqual : UInt8 := 0x87
def opEqualverify : UInt8 := 0x88
def opSize : UInt8 := 0x82
def opHash160 : UInt8 := 0xA9
def opChecksig : UInt8 := 0xAC
def opChecklocktimeverify : UInt8 := 0xB1
def opIf : UInt8 := 0x63
def opElse : UInt8 := 0x67
def opEndif : UInt8 := 0x68

def hashlockLen : Nat := 20
def pubkeyLen : Nat := 33
def preimageLen : Nat := 32

inductive Template where
  | submarine
  | reverse
  deriving DecidableEq

inductive Role where
  | fund
  | claim
  | refund
  deriving DecidableEq

/-- What a script or a witness tells. The hashes and the preimage are lower-case hexadecimal texts. -/
structure HtlcExtraction where
  template : Template
  role : Role
  hashlock160 : String
  paymentHash : Option String := none
  preimage : Option String := none
  deriving DecidableEq

/-- The size of the number push at the cursor: an opcode for 0 to 16, or one to five bytes. -/
def consumeMinimalIntegerPush (script : Bytes) (cursor : Nat) : Scan Nat := do
  stopIf (script.length ≤ cursor)
  let head ← byteAt script cursor
  if head = op0 then pure 1
  else if op1 ≤ head ∧ head ≤ op16 then pure 1
  else if opPushbytes1 ≤ head ∧ head ≤ opPushbytes75 then do
    let pushLen := head.toNat
    stopIf (5 < pushLen)
    stopIf (script.length < cursor + 1 + pushLen)
    pure (1 + pushLen)
  else failure

/-- Whether the script starts with the check of the preimage's size. -/
def hasSizeCheck (script : Bytes) : Bool :=
  decide (4 ≤ script.length) && script[0]? == some opSize && script[1]? == some opPushbytes1 &&
    script[2]? == some (.ofNat preimageLen) && script[3]? == some opEqualverify

/-- `OP_HASH160 <20 bytes> OP_EQUAL`, with the cursor after it. -/
def readHashlock (script : Bytes) (cursor : Nat) : Scan (Bytes × Nat) := do
  -- One byte short: the comparison below needs `cursor + 1 + 1 + hashlockLen + 1`.
  stopIf (script.length < cursor + 1 + hashlockLen + 1)
  expect script cursor opHash160
  let cursor := cursor + 1
  expect script cursor (.ofNat hashlockLen)
  let cursor := cursor + 1
  let hashlock160 := slice script cursor hashlockLen
  let cursor := cursor + hashlockLen
  expect script cursor opEqual
  pure (hashlock160, cursor + 1)

/-- `OP_IF <33 byte pubkey>` -/
def readClaimKey (script : Bytes) (cursor : Nat) : Scan Nat := do
  stopIf (script.length < cursor + 2 + pubkeyLen)
  expect script cursor opIf
  let cursor := cursor + 1
  expect script cursor (.ofNat pubkeyLen)
  pure (cursor + 1 + pubkeyLen)

/-- `OP_ELSE <CLTV push>` -/
def readTimeout (script : Bytes) (cursor : Nat) : Scan Nat := do
  stopIf (script.length ≤ cursor)
  expect script cursor opElse
  let cursor := cursor + 1
  let consumed ← consumeMinimalIntegerPush script cursor
  pure (cursor + consumed)

/-- `OP_CHECKLOCKTIMEVERIFY OP_DROP <33 byte pubkey> OP_ENDIF OP_CHECKSIG` -/
def readRefundKey (script : Bytes) (cursor : Nat) : Scan Nat := do
  stopIf (script.length < cursor + 2 + 1 + pubkeyLen + 2)
  expect script cursor opChecklocktimeverify
  let cursor := cursor + 1
  expect script cursor opDrop
  let cursor := cursor + 1
  expect script cursor (.ofNat pubkeyLen)
  let cursor := cursor + 1 + pubkeyLen
  expect script cursor opEndif
  let cursor := cursor + 1
  expect script cursor opChecksig
  pure (cursor + 1)

def parseHtlcRedeemScript (script : Bytes) : Scan HtlcExtraction := do
  stopIf (script = [])
  let sized := hasSizeCheck script
  let (hashlock160, cursor) ← readHashlock script (if sized then 4 else 0)
  let cursor ← readClaimKey script cursor
  let cursor ← readTimeout script cursor
  let cursor ← readRefundKey script cursor
  stopIf (cursor ≠ script.length)
  pure { template := if sized then .reverse else .submarine, role := .fund, hashlock160 := hex hashlock160 }

section
variable (hash160 sha256 : Bytes → Bytes)

def revealedPreimage (expected : Bytes) (items : List Bytes) : Option Bytes :=
  items.find? fun item => item.length = preimageLen && hash160 item = expected

def extractFromClaimWitness (witnessItems : List Bytes) : Scan HtlcExtraction := do
  stopIf (witnessItems.length < 2)
  let fund ← parseHtlcRedeemScript (witnessItems.getLastD [])
  let expectedHash160 := (fromHex fund.hashlock160).getD []
  match revealedPreimage hash160 expectedHash160 witnessItems.dropLast with
  | none => failure
  | some item =>
    pure { template := fund.template, role := .claim, hashlock160 := fund.hashlock160
           paymentHash := some (hex (sha256 item)), preimage := some (hex item) }

def extractFromRefundWitness (witnessItems : List Bytes) : Scan HtlcExtraction := do
  stopIf (witnessItems.length < 2)
  let fund ← parseHtlcRedeemScript (witnessItems.getLastD [])
  let expectedHash160 := (fromHex fund.hashlock160).getD []
  -- A witness that reveals the preimage is a claim.
  match revealedPreimage hash160 expectedHash160 witnessItems.dropLast with
  | some _ => failure
  | none => pure { template := fund.template, role := .refund, hashlock160 := fund.hashlock160 }

end

end Kassiber.Swaps
