import Kassiber.Lib.Dict
import Kassiber.Custody.Evidence

/-!
The canonical input: one event per physical identity, its location legs, and the transaction ids that observed
each of them.
-/

namespace Kassiber.Custody
open Lib.Outcome Lib.Dict

structure EvidenceSnapshot where
  quantityHash : String
  detailHash : String
  payloadJson : String

structure CanonicalEventIssue where
  eventKey : CanonicalEventKey
  code : String
  transactionIds : List String

structure CanonicalQuantityEvent where
  eventKey : CanonicalEventKey
  legs : List QuantityObservation
  evidenceSnapshots : List EvidenceSnapshot
  sourceTransactionIds : List String
  observationAliases : List (String × String)

/-- Events of distinct physical identities, as canonicalization groups them. -/
structure CanonicalQuantityInput where
  events : List CanonicalQuantityEvent
  rejectedEvents : List CanonicalEventIssue
  distinct : (events.map (·.eventKey)).Nodup

namespace CanonicalQuantityInput

def observations (canonical : CanonicalQuantityInput) : List QuantityObservation := canonical.events.flatMap (·.legs)

def aliases (canonical : CanonicalQuantityInput) : List (String × String) :=
  canonical.events.flatMap (·.observationAliases)

def transactionToHash (canonical : CanonicalQuantityInput) (transactionId : String) : Option String :=
  lookup canonical.aliases transactionId

def byHash (canonical : CanonicalQuantityInput) (hash : String) : Option QuantityObservation :=
  lookup (canonical.observations.map fun o => (o.quantityHash, o)) hash

/-- The observation behind every alias; an alias of an unknown hash raises. -/
def observationsByTransaction (canonical : CanonicalQuantityInput) :
    Except PyError (List (String × QuantityObservation)) :=
  canonical.aliases.mapM fun entry =>
    match canonical.byHash entry.2 with
    | none => .error (.keyError entry.2)
    | some o => .ok (entry.1, o)

end CanonicalQuantityInput

/-- The fields of a ledger row that scope, settle and price it. Texts of the row's stored JSON are given as read. -/
structure LedgerRow where
  id : String
  profileId : String := ""
  asset : String := ""
  occurredAt : String := ""
  direction : Direction := .other ""
  amount : Int := 0
  fee : Int := 0
  amountIncludesFee : Bool := false
  kind : Option String := none
  walletKind : String := ""
  rawChain : String := ""
  rawNetwork : String := ""
  chain : String := ""
  network : String := ""
  configChain : String := ""
  configNetwork : String := ""

def strip (text : String) : String :=
  String.ofList ((((text.toList.dropWhile isSpace).reverse).dropWhile isSpace).reverse)

def lightningWalletKinds : List String := ["lnd", "coreln", "cln", "lightning", "nwc", "phoenix"]

def chainAliases : List (String × String) :=
  [("bitcoin", "bitcoin"), ("btc", "bitcoin"), ("onchain", "bitcoin"), ("liquid", "liquid"), ("lbtc", "liquid"),
    ("elements", "liquid")]

def bitcoinNetworkAliases : List (String × String) :=
  [("main", "main"), ("mainnet", "main"), ("bitcoin", "main"), ("test", "test"), ("testnet", "test"),
    ("regtest", "regtest"), ("signet", "signet")]

def liquidNetworkAliases : List (String × String) :=
  [("liquid", "liquidv1"), ("liquidv1", "liquidv1"), ("main", "liquidv1"), ("mainnet", "liquidv1"),
    ("liquidtestnet", "liquidtestnet"), ("test", "liquidtestnet"), ("testnet", "liquidtestnet"),
    ("elements", "elementsregtest"), ("elementsregtest", "elementsregtest"), ("regtest", "elementsregtest")]

def firstNonempty (texts : List String) : String := (texts.find? fun text => text ≠ "").getD ""

def normalizeChain (value asset : String) : Except PyError String :=
  let text := (strip value).toLower
  if text = "lightning" ∨ text = "ln" then .ok "lightning"
  else
    let wanted := firstNonempty [text, if asset = "LBTC" then "liquid" else "bitcoin"]
    match lookup chainAliases wanted with
    | some chain => .ok chain
    | none => .error (.valueError ("Unsupported wallet chain '" ++ wanted ++ "'"))

def normalizeNetwork (chain value : String) : Except PyError String :=
  let text := (strip value).toLower
  if chain = "lightning" then
    if text = "" then .ok "main"
    else match lookup bitcoinNetworkAliases text with
      | some network => .ok network
      | none => .error (.valueError ("Unsupported lightning network '" ++ value ++ "'"))
  else
    let known := if chain = "bitcoin" then bitcoinNetworkAliases else liquidNetworkAliases
    match lookup known (firstNonempty [text, if chain = "bitcoin" then "main" else "liquidv1"]) with
    | some network => .ok network
    | none => .error (.valueError ("Unsupported " ++ chain ++ " network '" ++ text ++ "'"))

structure ProtocolScope where
  protocolChain : String
  network : String
  rail : String
  baseChain : String

/-- Raw protocol evidence wins, then a Lightning wallet kind, then the row's own and the configured chain. -/
def resolveProtocolScope (row : LedgerRow) : Except PyError ProtocolScope := do
  let asset := (strip row.asset).toUpper
  let chainValue :=
    if row.rawChain ≠ "" then row.rawChain
    else if (strip row.walletKind).toLower ∈ lightningWalletKinds then "lightning"
    else if row.chain ≠ "" then row.chain
    else firstNonempty [row.configChain, if asset = "LBTC" then "liquid" else "bitcoin"]
  let chain ← normalizeChain chainValue asset
  let network ← normalizeNetwork chain (firstNonempty [row.rawNetwork, row.network, row.configNetwork])
  pure { protocolChain := chain, network, rail := chain, baseChain := if chain = "lightning" then "bitcoin" else chain }

end Kassiber.Custody
