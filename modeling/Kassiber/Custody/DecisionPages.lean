import Kassiber.Lib.Base64
import Kassiber.Lib.JsonText
import Kassiber.Lib.Paging

/-!
The stored custody decisions of a profile, newest first, one bounded page at a time.
-/

namespace Kassiber.Custody.DecisionPages
open Lib.Sorting Lib.JsonText Lib.Paging List Lib.Base64 Function

/-- A stored decision. Its id is as long as the schema checks, up to the first null character. -/
structure Decision where
  decisionId : String
  decisionId_length : (decisionId.toList.takeWhile fun c => c ≠ Char.ofNat 0).length = 64
  profileId : String
  sourceTransactionId : String
  targetTransactionId : String
  sourceStartMsat : Int
  sourceEndMsat : Int
  sourceWalletId : Option String
  targetWalletId : Option String
  sourceNetwork : String
  targetNetwork : String
  sourceRail : String
  targetRail : String
  sourceAsset : String
  targetAsset : String
  state : String
  basisState : String
  basisBarrierAt : Option String
  reason : String
  atomicGroupId : Option String
  componentId : Option String
  occurredAt : Option String
  targetOccurredAt : Option String
  createdAt : String

structure Tables where
  decisions : List Decision
  keyed : (decisions.map fun row => (row.profileId, row.decisionId)).Nodup
  walletLabels : List (String × String)
  wallets_keyed : (walletLabels.map Prod.fst).Nodup

abbrev Truth := Option Bool

def orElse : Truth → Truth → Truth
  | some true, _ => some true
  | _, some true => some true
  | some false, some false => some false
  | _, _ => none

def andAlso : Truth → Truth → Truth
  | some false, _ => some false
  | _, some false => some false
  | some true, some true => some true
  | _, _ => none

def less (a : Option String) (b : String) : Truth := a.map fun a => decide (a < b)

def equal (a : Option String) (b : String) : Truth := a.map fun a => decide (a = b)

def isNull (a : Option String) : Truth := some a.isNone

@[simp] theorem orElse_true {a b : Truth} : orElse a b = some true ↔ a = some true ∨ b = some true := by
  rcases a with _ | _ | _ <;> rcases b with _ | _ | _ <;> simp [orElse]

@[simp] theorem andAlso_true {a b : Truth} : andAlso a b = some true ↔ a = some true ∧ b = some true := by
  rcases a with _ | _ | _ <;> rcases b with _ | _ | _ <;> simp [andAlso]

variable {a : Option String}

@[simp] theorem less_true {b : String} : less a b = some true ↔ ∃ text, a = some text ∧ text < b := by
  cases a <;> simp only [less, Option.map_none, Option.map_some, Option.some.injEq, decide_eq_true_eq, reduceCtorEq,
    false_and, exists_false, exists_eq_left']

@[simp] theorem equal_true {b : String} : equal a b = some true ↔ a = some b := by
  cases a <;> simp [equal]

@[simp] theorem isNull_true : isNull a = some true ↔ a = none := by
  cases a <;> simp [isNull]

structure CursorFilters where
  profileScopeHash : String
  transactionIds : Option (List String)
  deriving DecidableEq

structure CursorKey where
  occurredAt : Option String
  decisionId : String

inductive CursorError where
  | invalid
  | attribute

section
variable {ν : Type} [DecidableEq ν] (numbers : Numbers ν) (one : ν)

def textOrNull : Option String → Value ν
  | none => .null
  | some text => .text text

def CursorFilters.document (filters : CursorFilters) : Value ν :=
  .fields [("profile_scope_hash", .text filters.profileScopeHash),
    ("transaction_ids", match filters.transactionIds with
      | none => .null
      | some ids => .list (ids.map .text))]

def cursorPayload (key : CursorKey) (filters : CursorFilters) : Value ν :=
  .fields [("decision_id", .text key.decisionId), ("filters", filters.document),
    ("occurred_at", textOrNull key.occurredAt), ("version", .number one)]

def encodeCustodyDecisionCursor (key : CursorKey) (filters : CursorFilters) : String :=
  let token := dumpsCompact numbers (cursorPayload one key filters)
  String.ofList (Lib.Base64.strip (encode token.toUTF8.data.toList))

def fieldOf (entries : List (String × Value ν)) (name : String) : Option (Value ν) :=
  (entries.find? fun entry => entry.1 = name).map Prod.snd

def isVersion : Option (Value ν) → Bool
  | some (.number n) => n = one
  | some (.bool value) => value
  | _ => false

/-- The document of a cursor. Only a text of plain characters is decoded. -/
def cursorDocument (cursor : String) : Option (Value ν) := do
  let chars := cursor.toList ++ padding cursor.toList
  if chars.all fun c => c.toNat < 128 then
    let bytes ← decode chars
    let token ← String.fromUTF8? ⟨bytes.toArray⟩
    loads numbers token
  else none

def readKey (entries : List (String × Value ν)) : Option CursorKey :=
  match fieldOf entries "decision_id" with
  | some (.text decisionId) =>
    if decisionId = "" then none
    else match fieldOf entries "occurred_at" with
      | none => some { occurredAt := Option.none, decisionId := decisionId }
      | some .null => some { occurredAt := Option.none, decisionId := decisionId }
      | some (.text occurredAt) => some { occurredAt := some occurredAt, decisionId := decisionId }
      | _ => none
  | _ => none

def decodeCustodyDecisionCursor (cursor : Option String) (filters : CursorFilters) :
    Except CursorError (Option CursorKey) :=
  match cursor with
  | none => .ok none
  | some cursor =>
    if cursor = "" then .ok none
    else match cursorDocument numbers cursor with
      | none => .error .invalid
      | some (.fields entries) =>
        if isVersion one (fieldOf entries "version") ∧ fieldOf entries "filters" = some filters.document then
          match readKey entries with
          | some key => .ok (some key)
          | none => .error .invalid
        else .error .invalid
      | some _ => .error .attribute

structure Record where
  sourceTransactionId : String
  targetTransactionId : String
  sourceWalletId : Option String
  sourceWalletLabel : Option String
  targetWalletId : Option String
  targetWalletLabel : Option String
  sourceNetwork : String
  targetNetwork : String
  sourceRail : String
  targetRail : String
  sourceAsset : String
  targetAsset : String
  amountMsat : Int
  custodyState : String
  basisState : String
  basisBarrierAt : Option String
  reason : String
  atomicGroupId : Option String
  componentId : Option String
  occurredAt : Option String
  targetOccurredAt : Option String
  createdAt : String

structure Page where
  records : List Record
  count : Nat
  returned : Nat
  truncated : Bool
  nextCursor : Option String
  observationCommitmentsIncluded : Bool := false
  replicated : Bool := false

def walletLabel (tables : Tables) (walletId : Option String) : Option String :=
  walletId.bind fun id => (tables.walletLabels.find? fun wallet => wallet.1 = id).map Prod.snd

def record (tables : Tables) (row : Decision) : Record where
  sourceTransactionId := row.sourceTransactionId
  targetTransactionId := row.targetTransactionId
  sourceWalletId := row.sourceWalletId
  sourceWalletLabel := walletLabel tables row.sourceWalletId
  targetWalletId := row.targetWalletId
  targetWalletLabel := walletLabel tables row.targetWalletId
  sourceNetwork := row.sourceNetwork
  targetNetwork := row.targetNetwork
  sourceRail := row.sourceRail
  targetRail := row.targetRail
  sourceAsset := row.sourceAsset
  targetAsset := row.targetAsset
  amountMsat := row.sourceEndMsat - row.sourceStartMsat
  custodyState := row.state
  basisState := row.basisState
  basisBarrierAt := row.basisBarrierAt
  reason := row.reason
  atomicGroupId := row.atomicGroupId
  componentId := row.componentId
  occurredAt := row.occurredAt
  targetOccurredAt := row.targetOccurredAt
  createdAt := row.createdAt

def selectedIds (transactionIds : Option (List String)) : Option (List String) :=
  transactionIds.map fun ids => sortedSet (ids.filter fun id => id ≠ "")

def inScope (profileId : String) (selected : Option (List String)) (row : Decision) : Bool :=
  row.profileId = profileId ∧ selected.all fun ids => row.sourceTransactionId ∈ ids ∨ row.targetTransactionId ∈ ids

def continues (key : CursorKey) (row : Decision) : Truth :=
  match key.occurredAt with
  | none => andAlso (isNull row.occurredAt) (less (some row.decisionId) key.decisionId)
  | some occurredAt =>
    orElse (orElse (less row.occurredAt occurredAt) (isNull row.occurredAt))
      (andAlso (equal row.occurredAt occurredAt) (less (some row.decisionId) key.decisionId))

def timeOrder : Option String → WithBot String
  | none => ⊥
  | some text => text

/-- The newest first and without a time last; then by descending id. -/
def descending (row : Decision) : (WithBot String)ᵒᵈ ×ₗ Stringᵒᵈ :=
  toLex (OrderDual.toDual (timeOrder row.occurredAt), OrderDual.toDual row.decisionId)

def boundedLimit (limit : Int) : Nat := (max 1 (min limit 500)).toNat

variable (sha256 : String → String)

def cursorFilters (profileId : String) (selected : Option (List String)) : CursorFilters where
  profileScopeHash := sha256 profileId
  transactionIds := selected

def cursorKey (row : Decision) : CursorKey where
  occurredAt := row.occurredAt
  decisionId := row.decisionId

def emptyPage : Page where
  records := []
  count := 0
  returned := 0
  truncated := false
  nextCursor := none

def custodyDecisionRows (tables : Tables) (profileId : String) (limit : Int) (transactionIds : Option (List String))
    (cursor : Option String) : Except CursorError Page :=
  let selected := selectedIds transactionIds
  if selected = some [] then .ok emptyPage
  else do
    let filters := cursorFilters sha256 profileId selected
    let cursorData ← decodeCustodyDecisionCursor numbers one cursor filters
    let scope := tables.decisions.filter (inScope profileId selected)
    let found := scope.filter fun row => cursorData.all fun key => continues key row = some true
    let rows := (sortedBy descending found).take (boundedLimit limit + 1)
    let hasMore := decide (boundedLimit limit < rows.length)
    let page := rows.take (boundedLimit limit)
    pure
      { records := page.map (record tables)
        count := scope.length
        returned := page.length
        truncated := hasMore
        nextCursor := if hasMore then
            page.getLast?.map fun row => encodeCustodyDecisionCursor numbers one (cursorKey row) filters
          else none }

theorem fromUTF8_toUTF8 (text : String) : String.fromUTF8? ⟨text.toUTF8.data.toList.toArray⟩ = some text := by
  rw [Array.toArray_toList]
  exact dif_pos text.isValidUTF8

omit [DecidableEq ν] in
theorem document_sorted (filters : CursorFilters) : Sorted (filters.document : Value ν) := by
  refine .fields (pairwise_pair.2 (show "profile_scope_hash" < "transaction_ids" by decide)) fun entry member => ?_
  rcases mem_cons.1 member with rfl | member
  · exact .text _
  · obtain rfl := mem_singleton.1 member
    cases filters.transactionIds with
    | none => exact .null
    | some ids =>
      refine .list fun item inside => ?_
      obtain ⟨id, -, rfl⟩ := mem_map.1 inside
      exact .text id

omit [DecidableEq ν] in
theorem payload_sorted (key : CursorKey) (filters : CursorFilters) : Sorted (cursorPayload one key filters) := by
  have names : ["decision_id", "filters", "occurred_at", "version"].Pairwise (· < ·) := by decide
  refine .fields (pairwise_map.1 (show (map Prod.fst _).Pairwise _ from names)) fun entry member => ?_
  simp only [mem_cons, not_mem_nil, or_false] at member
  rcases member with rfl | rfl | rfl | rfl
  · exact .text _
  · exact document_sorted filters
  · cases key.occurredAt with
    | none => exact .null
    | some text => exact .text text
  · exact .number one

omit [DecidableEq ν] in
theorem document_injective : Injective (CursorFilters.document : CursorFilters → Value ν) := by
  rintro ⟨hash, ids⟩ ⟨otherHash, others⟩ same
  simp only [CursorFilters.document, Value.fields.injEq, List.cons.injEq, Prod.mk.injEq, Value.text.injEq, true_and,
    and_true] at same
  obtain ⟨rfl, selected⟩ := same
  have texts : Injective (Value.text : String → Value ν) := fun a b => Value.text.inj
  cases ids with
  | none => cases others with
    | none => rfl
    | some others => exact absurd selected (by simp)
  | some ids => cases others with
    | none => exact absurd selected (by simp)
    | some others => rw [texts.list_map (Value.list.inj selected)]

omit [DecidableEq ν] in
theorem cursorDocument_encode (key : CursorKey) (filters : CursorFilters) :
    cursorDocument numbers (encodeCustodyDecisionCursor numbers one key filters) = some (cursorPayload one key filters) := by
  let bytes := (dumpsCompact numbers (cursorPayload one key filters)).toUTF8.data.toList
  have plain : (Lib.Base64.strip (encode bytes) ++
      padding (Lib.Base64.strip (encode bytes))).all (fun c => c.toNat < 128) = true := by
    rw [strip_padding]
    exact all_eq_true.2 fun c member => decide_eq_true (encode_ascii bytes c member)
  unfold cursorDocument encodeCustodyDecisionCursor
  simp only [String.toList_ofList]
  rw [if_pos plain, decode_strip, Option.bind_eq_bind, Option.bind_some, fromUTF8_toUTF8,
    Option.bind_eq_bind, Option.bind_some, loads_dumpsCompact numbers (payload_sorted one key filters)]

omit [DecidableEq ν] in
theorem encode_ne_empty (key : CursorKey) (filters : CursorFilters) :
    encodeCustodyDecisionCursor numbers one key filters ≠ "" := by
  intro empty
  have read := cursorDocument_encode numbers one key filters
  rw [empty] at read
  have nothing : cursorDocument numbers "" = loads numbers "" := by
    have decoded : String.fromUTF8? ⟨[].toArray⟩ = some "" := fromUTF8_toUTF8 ""
    simp [cursorDocument, padding, decode, decodeFrom, decoded]
  rw [nothing] at read
  exact absurd read (by simp [loads, readValue, skip])

theorem readKey_payload {key : CursorKey} (named : key.decisionId ≠ "") (filters : CursorFilters) :
    ∃ entries, cursorPayload one key filters = .fields entries ∧
      isVersion one (fieldOf entries "version") = true ∧ fieldOf entries "filters" = some filters.document ∧
      readKey entries = some key := by
  refine ⟨_, rfl, by simp [fieldOf, isVersion], by simp [fieldOf], ?_⟩
  obtain ⟨occurredAt, decisionId⟩ := key
  cases occurredAt with
  | none => simpa [readKey, fieldOf, textOrNull] using named
  | some text => simpa [readKey, fieldOf, textOrNull] using named

theorem decode_encode {key : CursorKey} (named : key.decisionId ≠ "") (filters others : CursorFilters) :
    decodeCustodyDecisionCursor numbers one (some (encodeCustodyDecisionCursor numbers one key filters)) others =
      if others = filters then .ok (some key) else .error .invalid := by
  obtain ⟨entries, shape, version, own, reads⟩ := readKey_payload one named filters
  unfold decodeCustodyDecisionCursor
  simp only [if_neg (encode_ne_empty numbers one key filters), cursorDocument_encode, shape, version, own, true_and]
  by_cases same : others = filters
  · rw [if_pos same, if_pos (by rw [same]), reads]
  · rw [if_neg same, if_neg fun equal => same (document_injective (Option.some.inj equal)).symm]

theorem decisionId_ne_empty (row : Decision) : row.decisionId ≠ "" := by
  intro empty
  have length := row.decisionId_length
  rw [empty] at length
  exact absurd length (by decide)

theorem continues_iff (last row : Decision) :
    continues (cursorKey last) row = some true ↔ descending last < descending row := by
  have order : descending last < descending row ↔ timeOrder row.occurredAt < timeOrder last.occurredAt ∨
      timeOrder row.occurredAt = timeOrder last.occurredAt ∧ row.decisionId < last.decisionId := by
    unfold descending
    rw [Prod.Lex.toLex_lt_toLex]
    simp only [OrderDual.toDual_lt_toDual, OrderDual.toDual_inj, eq_comm (a := timeOrder last.occurredAt)]
  rw [order]
  unfold continues cursorKey
  cases lastTime : last.occurredAt with
  | none =>
    simp only [andAlso_true, isNull_true, less_true, Option.some.injEq, exists_eq_left']
    cases rowTime : row.occurredAt <;> simp [timeOrder]
  | some time =>
    simp only [orElse_true, andAlso_true, isNull_true, less_true, equal_true, Option.some.injEq, exists_eq_left']
    cases rowTime : row.occurredAt with
    | none => simp [timeOrder]
    | some text =>
      simp only [timeOrder, WithBot.coe_lt_coe, WithBot.coe_inj, Option.some.injEq, exists_eq_left', reduceCtorEq, or_false]

def scopeRows (tables : Tables) (profileId : String) (transactionIds : Option (List String)) : List Decision :=
  sortedBy descending (tables.decisions.filter (inScope profileId (selectedIds transactionIds)))

theorem descending_inj {row other : Decision} (same : descending row = descending other) :
    row.decisionId = other.decisionId :=
  OrderDual.toDual_inj.1 (Prod.ext_iff.1 (toLex_inj.1 same)).2

theorem scope_distinct (tables : Tables) (profileId : String) (selected : Option (List String)) :
    ((tables.decisions.filter (inScope profileId selected)).map descending).Nodup := by
  refine pairwise_map.2 ?_
  refine ((pairwise_map.1 tables.keyed).filter _).imp_of_mem fun row_member other_member apart same => apart ?_
  have profile {row : Decision} (member : row ∈ tables.decisions.filter (inScope profileId selected)) :
      row.profileId = profileId :=
    (of_decide_eq_true (mem_filter.1 member).2).1
  rw [profile row_member, profile other_member, descending_inj same]

theorem found_left (tables : Tables) (profileId : String) (selected : Option (List String)) {before rest : List Decision}
    {last : Decision} (split : sortedBy descending (tables.decisions.filter (inScope profileId selected)) =
      before ++ last :: rest) :
    sortedBy descending ((tables.decisions.filter (inScope profileId selected)).filter fun row =>
      continues (cursorKey last) row = some true) = rest := by
  have distinct := scope_distinct tables profileId selected
  have strict := sortedBy_strict distinct
  rw [split] at strict
  simp only [continues_iff]
  rw [sortedBy_filter_distinct distinct, split]
  exact filter_behind strict

section
variable (tables : Tables) (profileId : String) (limit : Int) (transactionIds : Option (List String))

def issuedCursor (row : Decision) : String :=
  encodeCustodyDecisionCursor numbers one (cursorKey row) (cursorFilters sha256 profileId (selectedIds transactionIds))

theorem custodyDecisionRows_left (selects : selectedIds transactionIds ≠ some []) {cursor : Option String}
    {rest : List Decision} (left : Left (issuedCursor numbers one sha256 profileId transactionIds)
      (scopeRows tables profileId transactionIds) rest cursor) :
    ∃ page, custodyDecisionRows numbers one sha256 tables profileId limit transactionIds cursor = .ok page ∧
      page.records = (rest.take (boundedLimit limit)).map (record tables) ∧
      page.nextCursor = if boundedLimit limit < rest.length then
        (rest.take (boundedLimit limit)).getLast?.map (issuedCursor numbers one sha256 profileId transactionIds)
        else none := by
  let filters := cursorFilters sha256 profileId (selectedIds transactionIds)
  have decoded : ∃ key, decodeCustodyDecisionCursor numbers one cursor filters = .ok key ∧
      sortedBy descending ((tables.decisions.filter (inScope profileId (selectedIds transactionIds))).filter fun row =>
        key.all fun key => continues key row = some true) = rest := by
    cases cursor with
    | none =>
      refine ⟨none, rfl, ?_⟩
      rw [show rest = scopeRows tables profileId transactionIds from left, filter_eq_self.2 (by simp)]
      rfl
    | some cursor =>
      obtain ⟨before, last, split, rfl⟩ := left
      refine ⟨some (cursorKey last), ?_, found_left tables profileId _ split⟩
      unfold issuedCursor
      rw [decode_encode numbers one (decisionId_ne_empty last), if_pos rfl]
  obtain ⟨key, reads, found⟩ := decoded
  have full : (rest.take (boundedLimit limit + 1)).take (boundedLimit limit) = rest.take (boundedLimit limit) := by
    rw [take_take, Nat.min_eq_left (Nat.le_succ _)]
  have more : boundedLimit limit < (rest.take (boundedLimit limit + 1)).length ↔ boundedLimit limit < rest.length := by
    rw [length_take]
    omega
  unfold custodyDecisionRows
  simp only [if_neg selects]
  change ∃ page, (decodeCustodyDecisionCursor numbers one cursor filters >>= _) = .ok page ∧ _
  rw [reads]
  refine ⟨_, rfl, ?_, ?_⟩
  · simp only [found, full]
  · simp only [found, full, decide_eq_true_eq, more]
    rfl

/-- Following the cursors yields every row of the scope once, in the order of the query without a limit. A cursor is read
back under the filters it was issued for, and refused under all others. -/
theorem custody_decision_rows_pages :
    (∃ pages, Following (fun cursor =>
        (custodyDecisionRows numbers one sha256 tables profileId limit transactionIds cursor).toOption) Page.nextCursor
        none pages ∧
      pages.flatMap Page.records = (scopeRows tables profileId transactionIds).map (record tables)) ∧
    (scopeRows tables profileId transactionIds).Perm
      (tables.decisions.filter (inScope profileId (selectedIds transactionIds))) ∧
    ∀ (row : Decision) (filters others : CursorFilters),
      decodeCustodyDecisionCursor numbers one
          (some (encodeCustodyDecisionCursor numbers one (cursorKey row) filters)) others =
        if others = filters then .ok (some (cursorKey row)) else .error .invalid := by
  refine ⟨?_, sortedBy_perm _ _, fun row filters others => decode_encode numbers one (decisionId_ne_empty row) filters others⟩
  by_cases nothing : selectedIds transactionIds = some []
  · refine ⟨[emptyPage], .last ?_ rfl, ?_⟩
    · unfold custodyDecisionRows
      rw [if_pos nothing]
      rfl
    · rw [scopeRows, nothing, filter_eq_nil_iff.2 (by simp [inScope])]
      rfl
  · have positive : 0 < boundedLimit limit := by
      unfold boundedLimit
      omega
    have start : Left (issuedCursor numbers one sha256 profileId transactionIds) (scopeRows tables profileId transactionIds)
        (scopeRows tables profileId transactionIds) none := rfl
    refine exists_following positive (fun cursor rest left => ?_) start
    obtain ⟨page, answered, records, next⟩ :=
      custodyDecisionRows_left numbers one sha256 tables profileId limit transactionIds nothing left
    exact ⟨page, by rw [answered]; rfl, records, next⟩

end

end

end Kassiber.Custody.DecisionPages
