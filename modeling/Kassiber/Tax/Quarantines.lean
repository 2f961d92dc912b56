import Kassiber.Lib.JsonText
import Kassiber.Lib.Keyed
import Kassiber.Lib.Ranking

/-!
One quarantine for each transaction. Further reasons of a transaction are folded into the detail of
its primary one; a root cause outranks a downstream consequence.
-/

namespace Kassiber.Tax.Quarantines
open Lib.JsonText Lib.Keyed List
open Option (getD_some map_some some_or some.inj)
open Prod (fst snd)

inductive Category where
  | missingWalletHistory
  | missingChainEvidence
  | missingPrice
  | missingAcquisitionHistory
  | needsDecision
  | unsupported
  | downstream
  deriving DecidableEq

def reasons : List (String × Category) :=
  [("ownership_transfer_source_missing", .missingWalletHistory),
    ("ownership_transfer_destination_missing_ref", .missingWalletHistory),
    ("channel_open_unresolved", .missingWalletHistory),
    ("channel_close_unresolved", .missingWalletHistory),
    ("ownership_transfer_amount_mismatch", .missingChainEvidence),
    ("ownership_transfer_conservation_mismatch", .missingChainEvidence),
    ("ownership_transfer_fee_evidence_incomplete", .missingChainEvidence),
    ("ownership_transfer_asset_evidence_incomplete", .missingChainEvidence),
    ("liquid_transfer_graph_incomplete", .missingChainEvidence),
    ("recorded_transfer_authority_conflict", .missingChainEvidence),
    ("samourai_native_event_unverified", .missingChainEvidence),
    ("pending_onchain_confirmation", .missingChainEvidence),
    ("conflicting_spend", .missingChainEvidence),
    ("missing_spot_price", .missingPrice),
    ("pricing_review_required", .missingPrice),
    ("at_swap_price_required", .missingPrice),
    ("insufficient_lots", .missingAcquisitionHistory),
    ("missing_cost_basis", .missingAcquisitionHistory),
    ("ownership_transfer_source_ambiguous", .needsDecision),
    ("ownership_transfer_destination_ambiguous", .needsDecision),
    ("ownership_transfer_ambiguous_output", .needsDecision),
    ("ownership_transfer_duplicate_outbound", .needsDecision),
    ("owned_fanout_unresolved", .needsDecision),
    ("unscoped_transfer_review", .needsDecision),
    ("manual_multi_pair_ambiguous", .needsDecision),
    ("transfer_mismatch", .needsDecision),
    ("transfer_pair_chronology_mismatch", .needsDecision),
    ("transfer_network_mismatch", .needsDecision),
    ("transfer_fee_implausible", .needsDecision),
    ("privacy_hop_unresolved", .needsDecision),
    ("native_transition_ambiguous", .needsDecision),
    ("native_transition_amount_mismatch", .needsDecision),
    ("custody_authored_migration_incomplete", .needsDecision),
    ("custody_component_blocked", .needsDecision),
    ("custody_interpreter_blocked", .needsDecision),
    ("unclassified_income_kind", .needsDecision),
    ("non_sale_disposal_kind", .needsDecision),
    ("native_transition_fee_timing_unresolved", .unsupported),
    ("acquisition_valuation_unsupported", .unsupported),
    ("custody_basis_barrier", .downstream),
    ("transfer_pair_dependency_blocked", .downstream),
    ("basis_provenance_incomplete", .downstream),
    ("derived_transfer_group_blocked", .downstream),
    ("at_swap_basis_carry_unresolved", .downstream),
    ("bitcoin_rail_carry_basis_unresolved", .downstream)]

/-- The category of a reason without its detail; the umbrella of quantity blockers and an unknown reason need a
decision. -/
def reasonInfo (reason : String) : Category :=
  if reason = "custody_quantity_unresolved" then .needsDecision
  else ((reasons.find? fun entry => entry.1 = reason).map snd).getD .needsDecision

def isDownstream (reason : String) : Bool := reasonInfo reason = .downstream

structure Quarantine where
  transactionId : String
  workspaceId : String := ""
  profileId : String := ""
  reason : String
  detailJson : String
  deriving DecidableEq

section
variable {ν : Type} (numbers : Numbers ν)

def parsed (value : String) : Value ν := (loads numbers value).getD (.text value)

def fieldOf (entries : List (String × Value ν)) (key : String) : Option (Value ν) :=
  (entries.find? fun entry => entry.1 = key).map snd

def dropField (entries : List (String × Value ν)) (key : String) : List (String × Value ν) :=
  entries.filter fun entry => entry.1 ≠ key

/-- `list(value or [])`, or nothing where it raises. The keys of an object are listed in order. -/
def listOf : Value ν → Option (List (Value ν))
  | .null => some []
  | .bool value => if value then none else some []
  | .number n => if numbers.isZero n then some [] else none
  | .text text => some (text.toList.map fun c => .text (String.singleton c))
  | .list items => some items
  | .fields entries => some (entries.map fun entry => .text entry.1)

def additionalKey : String := "additional_reasons"

def additionalOf (entries : List (String × Value ν)) : Option (List (Value ν)) :=
  listOf numbers ((fieldOf entries additionalKey).getD (.list []))

def signalValue (signal : String × Value ν) : Value ν := .fields [("detail", signal.2), ("reason", .text signal.1)]

/-- The primary quarantine with the reason of the secondary one, and with the reasons folded into it. -/
def foldReason (primary secondary : Quarantine) : Option Quarantine := do
  let detail := match parsed numbers primary.detailJson with
    | .fields entries => entries
    | other => [("detail", other)]
  let additional ← additionalOf numbers detail
  let (secondaryDetail, carried) ← match parsed numbers secondary.detailJson with
    | .fields entries => (additionalOf numbers entries).map fun carried =>
        ((.fields (dropField entries additionalKey) : Value ν), carried)
    | other => some (other, [])
  let folded := additional ++ signalValue (secondary.reason, secondaryDetail) :: carried
  pure { primary with
    detailJson := dumps numbers (.fields (setField (dropField detail additionalKey) additionalKey (.list folded))) }

/-- One more quarantine. An exact duplicate of what is stored is discarded. -/
def addQuarantine (byId : List Quarantine) (quarantine : Quarantine) : Option (List Quarantine) :=
  match rowAt (·.transactionId) byId quarantine.transactionId with
  | none => some (putAt (·.transactionId) byId quarantine)
  | some existing =>
    if quarantine.reason = existing.reason ∧ quarantine.detailJson = existing.detailJson then some byId
    else if isDownstream existing.reason ∧ ¬ isDownstream quarantine.reason then
      (foldReason numbers quarantine existing).map (putAt (·.transactionId) byId)
    else (foldReason numbers existing quarantine).map (putAt (·.transactionId) byId)

def dedupeQuarantines (quarantines : List Quarantine) : Option (List Quarantine) :=
  quarantines.foldlM (addQuarantine numbers) []

theorem fieldOf_setField (entries : List (String × Value ν)) (key : String) (value : Value ν) :
    fieldOf (setField entries key value) key = some value := by
  induction entries with
  | nil => simp [setField, fieldOf]
  | cons entry rest ih =>
    obtain ⟨other, stored⟩ := entry
    rw [setField]
    split
    · simp [fieldOf]
    · split
      · simp [fieldOf]
      case isFalse different =>
        unfold fieldOf at ih ⊢
        rw [find?_cons_of_neg (by simpa using Ne.symm different)]
        exact ih

variable {entries : List (String × Value ν)} {key : String}

theorem dropField_setField (absent : key ∉ entries.map fst)
    (value : Value ν) : dropField (setField entries key value) key = entries := by
  induction entries with
  | nil => simp [setField, dropField]
  | cons entry rest ih =>
    obtain ⟨other, stored⟩ := entry
    have different : other ≠ key := fun same => absent (mem_map.2 ⟨_, .head _, same⟩)
    have later : key ∉ rest.map fst := fun member => absent (.tail _ member)
    have kept : (rest.filter fun entry => entry.1 ≠ key) = rest := by
      refine filter_eq_self.2 fun entry member => decide_eq_true fun same => ?_
      exact later (mem_map.2 ⟨entry, member, same⟩)
    rw [setField]
    unfold dropField at ih ⊢
    split
    · rw [filter_cons_of_neg (by simp), filter_cons, if_pos (decide_eq_true different), kept]
    · rw [if_neg (Ne.symm different), filter_cons, if_pos (decide_eq_true different), ih later]

theorem dropField_absent (entries : List (String × Value ν)) (key : String) :
    key ∉ (dropField entries key).map fst := by
  intro member
  obtain ⟨entry, kept, same⟩ := mem_map.1 member
  exact of_decide_eq_true (mem_filter.1 kept).2 same

theorem dropField_self (absent : key ∉ entries.map fst) : dropField entries key = entries := by
  refine filter_eq_self.2 fun entry member => decide_eq_true fun same => ?_
  exact absent (mem_map.2 ⟨entry, member, same⟩)

theorem fieldOf_absent (absent : key ∉ entries.map fst) : fieldOf entries key = none := by
  unfold fieldOf
  rw [Option.map_eq_none_iff, find?_eq_none]
  intro entry member same
  exact absent (mem_map.2 ⟨entry, member, of_decide_eq_true same⟩)

theorem mem_of_fieldOf {value : Value ν} (found : fieldOf entries key = some value) : (key, value) ∈ entries := by
  obtain ⟨entry, first, rfl⟩ := Option.map_eq_some_iff.1 found
  have same : entry.1 = key := of_decide_eq_true (find?_some (p := fun entry : String × Value ν => entry.1 = key) first)
  subst same
  exact mem_of_find?_eq_some first

structure Reads (detailJson : String) (own : List (String × Value ν)) (folded : List (String × Value ν)) : Prop where
  loaded : ∃ entries, loads numbers detailJson = some (.fields entries) ∧ dropField entries additionalKey = own ∧
    (fieldOf entries additionalKey = some (.list (folded.map signalValue)) ∨
      (fieldOf entries additionalKey = none ∧ folded = []))

variable {own folded : List (String × Value ν)} {quarantines byId out : List Quarantine}

theorem Reads.additional {detailJson : String} (reads : Reads numbers detailJson own folded) :
    ∃ entries, parsed numbers detailJson = .fields entries ∧ dropField entries additionalKey = own ∧
      additionalOf numbers entries = some (folded.map signalValue) := by
  obtain ⟨entries, loaded, dropped, field⟩ := reads.loaded
  refine ⟨entries, by rw [parsed, loaded, getD_some], dropped, ?_⟩
  unfold additionalOf
  rcases field with found | ⟨missing, rfl⟩
  · rw [found, getD_some]
    rfl
  · rw [missing, Option.getD_none]
    rfl

theorem Reads.sorted {detailJson : String} (reads : Reads numbers detailJson own folded) :
    Ordered own ∧ (∀ entry ∈ own, Sorted entry.2) ∧ ∀ signal ∈ folded, Sorted signal.2 := by
  obtain ⟨entries, loaded, rfl, field⟩ := reads.loaded
  cases sorted_of_loads numbers loaded with
  | fields ordered inside =>
    refine ⟨ordered.filter _, fun entry member => inside entry (mem_filter.1 member).1, fun signal member => ?_⟩
    rcases field with found | ⟨-, rfl⟩
    · cases inside _ (mem_of_fieldOf found) with
      | list items =>
        cases items _ (mem_map_of_mem member) with
        | fields _ parts => exact parts ("detail", signal.2) (.head _)
    · exact absurd member (by simp)

theorem signalValue_sorted {signal : String × Value ν} (sorted : Sorted signal.2) : Sorted (signalValue signal) := by
  refine .fields (pairwise_pair.2 (show "detail" < "reason" by decide)) fun entry member => ?_
  rcases mem_cons.1 member with rfl | member
  · exact sorted
  · obtain rfl := mem_singleton.1 member
    exact .text _

theorem foldReason_reads {primary secondary : Quarantine} {others first second : List (String × Value ν)}
    (left : Reads numbers primary.detailJson own first) (right : Reads numbers secondary.detailJson others second) :
    ∃ row, foldReason numbers primary secondary = some row ∧ row.transactionId = primary.transactionId ∧
      row.reason = primary.reason ∧
      Reads numbers row.detailJson own (first ++ (secondary.reason, .fields others) :: second) ∧
      ∃ entries, loads numbers row.detailJson = some (.fields entries) ∧ additionalKey ∈ entries.map fst := by
  obtain ⟨entries, primaryParsed, primaryOwn, primaryFolded⟩ := left.additional
  obtain ⟨otherEntries, secondaryParsed, secondaryOwn, secondaryFolded⟩ := right.additional
  obtain ⟨ownOrdered, ownSorted, firstSorted⟩ := left.sorted
  obtain ⟨othersOrdered, othersSorted, secondSorted⟩ := right.sorted
  let signals := first ++ (secondary.reason, .fields others) :: second
  have signalsSorted : ∀ signal ∈ signals, Sorted signal.2 := by
    intro signal member
    rcases mem_append.1 member with inFirst | member
    · exact firstSorted signal inFirst
    · rcases mem_cons.1 member with rfl | inSecond
      · exact .fields othersOrdered othersSorted
      · exact secondSorted signal inSecond
  have document : Sorted (.fields (setField own additionalKey (.list (signals.map signalValue)))) := by
    refine .fields (setField_ordered ownOrdered _ _) fun entry member => ?_
    rcases mem_setField member with rfl | inside
    · refine .list fun item member => ?_
      obtain ⟨signal, signalMember, rfl⟩ := mem_map.1 member
      exact signalValue_sorted (signalsSorted signal signalMember)
    · exact ownSorted entry inside
  have absent : additionalKey ∉ own.map fst := primaryOwn ▸ dropField_absent entries additionalKey
  refine ⟨{ primary with
    detailJson := dumps numbers (.fields (setField own additionalKey (.list (signals.map signalValue)))) }, ?_, rfl, rfl,
    ⟨_, loads_dumps numbers document, dropField_setField absent _, .inl (fieldOf_setField _ _ _)⟩,
    _, loads_dumps numbers document, ?_⟩
  · unfold foldReason
    rw [primaryParsed, secondaryParsed]
    simp only [primaryFolded, secondaryFolded, primaryOwn, secondaryOwn, map_some, Option.bind_eq_bind,
      Option.bind_some, signals, map_append, map_cons]
    rfl
  · exact mem_map.2 ⟨_, mem_of_fieldOf (fieldOf_setField _ _ _), rfl⟩

def Plain (quarantine : Quarantine) : Prop :=
  ∃ entries, loads numbers quarantine.detailJson = some (.fields entries) ∧ additionalKey ∉ entries.map fst

def signal (quarantine : Quarantine) : String × Value ν := (quarantine.reason, parsed numbers quarantine.detailJson)

def Same (a b : Quarantine) : Prop := a.reason = b.reason ∧ a.detailJson = b.detailJson

instance (a b : Quarantine) : Decidable (Same a b) := inferInstanceAs (Decidable (_ ∧ _))

/-- The rows that are folded: the first, and all from the first row that is not its textual duplicate. -/
def kept : List Quarantine → List Quarantine
  | [] => []
  | first :: rest => first :: rest.dropWhile fun row => Same row first

/-- The first reason that is no downstream consequence, or the first one. -/
def primaryReason (group : List Quarantine) : Option String :=
  ((group.find? fun row => !isDownstream row.reason).or group.head?).map (·.reason)

/-- What a stored row tells: its own reason and detail, and those folded into it. -/
def signals (row : Quarantine) : List (String × Value ν) :=
  match parsed numbers row.detailJson with
  | .fields entries =>
    (row.reason, .fields (dropField entries additionalKey)) ::
      match fieldOf entries additionalKey with
      | some (.list items) => items.filterMap fun item =>
          match item with
          | .fields parts =>
            match fieldOf parts "reason", fieldOf parts "detail" with
            | some (.text reason), some detail => some (reason, detail)
            | _, _ => none
          | _ => none
      | _ => []
  | other => [(row.reason, other)]

theorem Reads.signals_eq {row : Quarantine}
    (reads : Reads numbers row.detailJson own folded) : signals numbers row = (row.reason, .fields own) :: folded := by
  obtain ⟨entries, loaded, dropped, field⟩ := reads.loaded
  have document : parsed numbers row.detailJson = .fields entries := by rw [parsed, loaded, getD_some]
  unfold signals
  rw [document]
  simp only [dropped, List.cons.injEq, true_and]
  rcases field with found | ⟨missing, rfl⟩
  · rw [found]
    simp only [filterMap_map]
    refine (filterMap_congr fun signal _ => ?_).trans filterMap_some
    rfl
  · rw [missing]

theorem Plain.reads {quarantine : Quarantine} (plain : Plain numbers quarantine) :
    ∃ own, Reads numbers quarantine.detailJson own [] ∧ signal numbers quarantine = (quarantine.reason, .fields own) := by
  obtain ⟨entries, loaded, absent⟩ := plain
  refine ⟨entries, ⟨entries, loaded, dropField_self absent, .inr ⟨fieldOf_absent absent, rfl⟩⟩, ?_⟩
  rw [signal, parsed, loaded, getD_some]

theorem kept_snoc (first : Quarantine) (rest : List Quarantine) (row : Quarantine) :
    kept (first :: rest ++ [row]) =
      if kept (first :: rest) = [first] ∧ Same row first then [first] else kept (first :: rest) ++ [row] := by
  rw [cons_append, kept, kept, dropWhile_append]
  simp only [List.cons.injEq, true_and, List.isEmpty_iff, cons_append]
  by_cases all : (rest.dropWhile fun row => Same row first) = []
  · rw [if_pos all]
    by_cases same : Same row first
    · rw [if_pos ⟨all, same⟩, dropWhile_cons, if_pos (decide_eq_true same), dropWhile_nil]
    · rw [if_neg fun both => same both.2, dropWhile_cons, if_neg (by simpa using same), all, nil_append]
  · rw [if_neg all, if_neg fun both => all both.1]

structure Collapsed (first : Quarantine) (rest : List Quarantine) (row : Quarantine) : Prop where
  reason : primaryReason (first :: rest) = some row.reason
  single : kept (first :: rest) = [first] → row = first
  folded : kept (first :: rest) ≠ [first] →
    ∃ entries, loads numbers row.detailJson = some (.fields entries) ∧ additionalKey ∈ entries.map fst
  reads : ∃ own folded, Reads numbers row.detailJson own folded ∧
    ((row.reason, .fields own) :: folded).Perm ((kept (first :: rest)).map (signal numbers))

theorem collapsed_first {first : Quarantine} (plain : Plain numbers first) : Collapsed numbers first [] first where
  reason := by
    unfold primaryReason
    rw [find?_singleton]
    split <;> rfl
  single _ := rfl
  folded different := absurd rfl different
  reads := by
    obtain ⟨own, reads, same⟩ := plain.reads
    exact ⟨own, [], reads, by rw [kept, dropWhile_nil, map_singleton, same]⟩

theorem primaryReason_snoc {first : Quarantine} {rest : List Quarantine} {reason : String}
    (primary : primaryReason (first :: rest) = some reason) (row : Quarantine) :
    primaryReason (first :: rest ++ [row]) =
      if isDownstream reason ∧ ¬ isDownstream row.reason then some row.reason else some reason := by
  unfold primaryReason at primary ⊢
  rw [find?_append, find?_singleton]
  cases root : (first :: rest).find? fun row => !isDownstream row.reason with
  | some other =>
    rw [root, some_or, map_some] at primary
    have outranks := find?_some root
    rw [some.inj primary] at outranks
    rw [some_or, some_or, map_some, if_neg fun both => by simp [both.1] at outranks, primary]
  | none =>
    rw [root, Option.none_or] at primary
    have all := List.find?_eq_none.1 root first (.head _)
    have same : first.reason = reason := some.inj primary
    rw [same] at all
    rw [Option.none_or]
    by_cases downstream : isDownstream row.reason
    · rw [if_neg (by simp [downstream]), Option.none_or, if_neg fun both => both.2 downstream, ← primary]
      rfl
    · rw [if_pos (by simpa using downstream), some_or, map_some, if_pos ⟨by simpa using all, downstream⟩]

variable {first row quarantine : Quarantine} {rest : List Quarantine}

theorem Collapsed.same (collapsed : Collapsed numbers first rest row) (plain : Plain numbers quarantine)
    (same : Same quarantine row) : Collapsed numbers first (rest ++ [quarantine]) row := by
  have alone : kept (first :: rest) = [first] := by
    by_contra several
    obtain ⟨entries, loaded, inside⟩ := collapsed.folded several
    obtain ⟨others, loaded', absent⟩ := plain
    rw [same.2, loaded] at loaded'
    exact absent ((Value.fields.inj (some.inj loaded')) ▸ inside)
  obtain rfl := collapsed.single alone
  have still : kept (row :: (rest ++ [quarantine])) = [row] := by
    rw [← cons_append, kept_snoc, if_pos ⟨alone, same⟩]
  refine ⟨?_, fun _ => rfl, fun different => absurd still different, ?_⟩
  · rw [← cons_append, primaryReason_snoc collapsed.reason, if_neg fun both => both.2 (same.1 ▸ both.1)]
  · rw [still, ← alone]
    exact collapsed.reads

theorem Collapsed.fold (collapsed : Collapsed numbers first rest row) (plain : Plain numbers quarantine)
    (different : ¬ Same quarantine row) (anchored : quarantine.transactionId = row.transactionId) :
    ∃ merged, (if isDownstream row.reason ∧ ¬ isDownstream quarantine.reason then foldReason numbers quarantine row
      else foldReason numbers row quarantine) = some merged ∧ merged.transactionId = row.transactionId ∧
        Collapsed numbers first (rest ++ [quarantine]) merged := by
  obtain ⟨own, folded, reads, perm⟩ := collapsed.reads
  obtain ⟨fields, plainReads, told⟩ := plain.reads
  have more : kept (first :: (rest ++ [quarantine])) = kept (first :: rest) ++ [quarantine] := by
    rw [← cons_append, kept_snoc, if_neg]
    rintro ⟨alone, same⟩
    exact different ((collapsed.single alone).symm ▸ same)
  have several : kept (first :: (rest ++ [quarantine])) ≠ [first] := by
    rw [more]
    intro alone
    have short := congrArg length alone
    rw [length_append, kept, length_cons, length_singleton, length_singleton] at short
    omega
  have reason := primaryReason_snoc collapsed.reason quarantine
  by_cases outranks : isDownstream row.reason ∧ ¬ isDownstream quarantine.reason
  · obtain ⟨merged, foldedInto, id, primary, mergedReads, extra⟩ := foldReason_reads numbers plainReads reads
    rw [if_pos outranks] at reason ⊢
    refine ⟨merged, foldedInto, id.trans anchored, ?_, fun alone => absurd alone several, fun _ => extra, _, _, mergedReads, ?_⟩
    · rw [← cons_append, reason, primary]
    · rw [more, map_append, map_singleton, told, primary, nil_append]
      exact (List.Perm.cons _ perm).trans (perm_append_singleton _ _).symm
  · obtain ⟨merged, foldedInto, id, primary, mergedReads, extra⟩ := foldReason_reads numbers reads plainReads
    rw [if_neg outranks] at reason ⊢
    refine ⟨merged, foldedInto, id, ?_, fun alone => absurd alone several, fun _ => extra, _, _, mergedReads, ?_⟩
    · rw [← cons_append, reason, primary]
    · rw [more, map_append, map_singleton, told, primary, ← cons_append]
      exact perm.append_right _

def group (quarantines : List Quarantine) (transactionId : String) : List Quarantine :=
  quarantines.filter fun row => row.transactionId = transactionId

theorem group_snoc (quarantines : List Quarantine) (row : Quarantine) (transactionId : String) :
    group (quarantines ++ [row]) transactionId =
      group quarantines transactionId ++ if row.transactionId = transactionId then [row] else [] := by
  unfold group
  rw [filter_append, filter_singleton]
  by_cases here : row.transactionId = transactionId <;> simp [here]

structure Stored (quarantines byId : List Quarantine) : Prop where
  ids : byId.map (·.transactionId) = (quarantines.map (·.transactionId)).eraseDups
  rows : ∀ id row, rowAt (·.transactionId) byId id = some row →
    ∃ first rest, group quarantines id = first :: rest ∧ Collapsed numbers first rest row

theorem eraseDups_snoc (ids : List String) (id : String) :
    (ids ++ [id]).eraseDups = if id ∈ ids then ids.eraseDups else ids.eraseDups ++ [id] := by
  rw [eraseDups_append]
  by_cases known : id ∈ ids <;> simp [removeAll, known, eraseDups_cons]

theorem ids_putAt (byId : List Quarantine) (row : Quarantine) :
    (putAt (·.transactionId) byId row).map (·.transactionId) =
      if row.transactionId ∈ byId.map (·.transactionId) then byId.map (·.transactionId)
      else byId.map (·.transactionId) ++ [row.transactionId] := by
  unfold putAt
  cases found : rowAt (·.transactionId) byId row.transactionId with
  | none => rw [if_neg (by simp), if_neg (rowAt_eq_none.1 found), map_append, map_singleton]
  | some existing =>
    have known : row.transactionId ∈ byId.map (·.transactionId) := by
      by_contra missing
      rw [rowAt_eq_none.2 missing] at found
      exact absurd found (by simp)
    rw [if_pos (show (some existing).isSome = true from rfl), if_pos known]
    exact keys_editAt fun _ _ => rfl

theorem Stored.known (stored : Stored numbers quarantines byId) (id : String) :
    id ∈ byId.map (·.transactionId) ↔ id ∈ quarantines.map (·.transactionId) := by
  rw [stored.ids, mem_eraseDups]

theorem Stored.put (stored : Stored numbers quarantines byId)
    {quarantine row first : Quarantine} {rest : List Quarantine} (anchored : row.transactionId = quarantine.transactionId)
    (members : group (quarantines ++ [quarantine]) quarantine.transactionId = first :: rest)
    (collapsed : Collapsed numbers first rest row) :
    Stored numbers (quarantines ++ [quarantine]) (putAt (·.transactionId) byId row) where
  ids := by
    rw [ids_putAt, map_append, map_singleton, eraseDups_snoc, anchored]
    by_cases known : quarantine.transactionId ∈ quarantines.map (·.transactionId)
    · rw [if_pos known, if_pos ((stored.known numbers _).2 known), stored.ids]
    · rw [if_neg known, if_neg fun member => known ((stored.known numbers _).1 member), stored.ids]
  rows id other found := by
    by_cases here : id = quarantine.transactionId
    · subst here
      rw [← anchored, rowAt_putAt_same] at found
      obtain rfl := some.inj found
      exact ⟨first, rest, members, collapsed⟩
    · rw [rowAt_putAt_other (anchored ▸ here)] at found
      obtain ⟨first, rest, members, collapsed⟩ := stored.rows id other found
      exact ⟨first, rest, by rw [group_snoc, if_neg (Ne.symm here), append_nil, members], collapsed⟩

theorem addQuarantine_stored (stored : Stored numbers quarantines byId)
    {quarantine : Quarantine} (plain : Plain numbers quarantine) :
    ∃ after, addQuarantine numbers byId quarantine = some after ∧ Stored numbers (quarantines ++ [quarantine]) after := by
  have now := group_snoc quarantines quarantine quarantine.transactionId
  rw [if_pos rfl] at now
  unfold addQuarantine
  cases found : rowAt (·.transactionId) byId quarantine.transactionId with
  | none =>
    have alone : group quarantines quarantine.transactionId = [] := by
      refine filter_eq_nil_iff.2 fun row member same => ?_
      refine rowAt_eq_none.1 found ((stored.known numbers _).2 ?_)
      exact mem_map.2 ⟨row, member, of_decide_eq_true same⟩
    rw [alone, nil_append] at now
    exact ⟨_, rfl, stored.put numbers rfl now (collapsed_first numbers plain)⟩
  | some existing =>
    obtain ⟨first, rest, members, collapsed⟩ := stored.rows _ _ found
    have anchored : existing.transactionId = quarantine.transactionId := rowAt_key found
    rw [members, cons_append] at now
    by_cases same : Same quarantine existing
    · refine ⟨byId, if_pos same, ?_, fun id row stored_row => ?_⟩
      · have known : quarantine.transactionId ∈ quarantines.map (·.transactionId) := by
          rw [← stored.known numbers, ← anchored]
          exact mem_map_of_mem (rowAt_mem found)
        rw [map_append, map_singleton, eraseDups_snoc, if_pos known, stored.ids]
      · by_cases here : id = quarantine.transactionId
        · subst here
          rw [found] at stored_row
          obtain rfl := some.inj stored_row
          exact ⟨first, rest ++ [quarantine], now, collapsed.same numbers plain same⟩
        · obtain ⟨first, rest, members, collapsed⟩ := stored.rows id row stored_row
          exact ⟨first, rest, by rw [group_snoc, if_neg (Ne.symm here), append_nil, members], collapsed⟩
    · obtain ⟨merged, foldedInto, id, after⟩ := collapsed.fold numbers plain same anchored.symm
      refine ⟨putAt (·.transactionId) byId merged, ?_, stored.put numbers (id.trans anchored) now after⟩
      simp only
      rw [if_neg (show ¬ (_ ∧ _) from same)]
      split at foldedInto
      case isTrue outranks => rw [if_pos outranks, foldedInto, map_some]
      case isFalse stays => rw [if_neg stays, foldedInto, map_some]

theorem foldlM_stored {done : List Quarantine} (stored : Stored numbers done byId)
    (plain : ∀ quarantine ∈ quarantines, Plain numbers quarantine) :
    ∃ out, quarantines.foldlM (addQuarantine numbers) byId = some out ∧ Stored numbers (done ++ quarantines) out := by
  induction quarantines generalizing done byId with
  | nil => exact ⟨byId, rfl, by rw [append_nil]; exact stored⟩
  | cons quarantine rest ih =>
    obtain ⟨after, added, next⟩ := addQuarantine_stored numbers stored (plain quarantine (.head _))
    obtain ⟨out, run, final⟩ := ih next fun other member => plain other (.tail _ member)
    refine ⟨out, ?_, ?_⟩
    · rw [foldlM_cons, added]
      exact run
    · rw [List.append_assoc] at final
      exact final

theorem dedupe_distinct {rows : List Quarantine} (distinct : ((byId ++ rows).map (·.transactionId)).Nodup) :
    rows.foldlM (addQuarantine numbers) byId = some (byId ++ rows) := by
  induction rows generalizing byId with
  | nil => rw [append_nil]; rfl
  | cons row rest ih =>
    have fresh : rowAt (·.transactionId) byId row.transactionId = none := by
      rw [rowAt_eq_none]
      rw [map_append, map_cons] at distinct
      exact fun member => (nodup_append.1 distinct).2.2 _ member _ (.head _) rfl
    have split : byId ++ row :: rest = (byId ++ [row]) ++ rest := by simp
    have stored : putAt (·.transactionId) byId row = byId ++ [row] := by
      unfold putAt
      rw [fresh]
      rfl
    rw [foldlM_cons, addQuarantine, fresh]
    simp only [stored, Option.bind_eq_bind, Option.bind_some]
    rw [split] at distinct ⊢
    exact ih distinct

theorem mem_kept {first : Quarantine} {rest : List Quarantine} (told : String × Value ν) :
    told ∈ (kept (first :: rest)).map (signal numbers) ↔ told ∈ (first :: rest).map (signal numbers) := by
  constructor
  · intro member
    obtain ⟨row, inside, rfl⟩ := mem_map.1 member
    exact mem_map_of_mem (((dropWhile_sublist _).cons_cons first).subset inside)
  · intro member
    obtain ⟨row, inside, rfl⟩ := mem_map.1 member
    rcases mem_cons.1 inside with rfl | later
    · exact mem_map_of_mem (.head _)
    · rw [← takeWhile_append_dropWhile (p := fun row => decide (Same row first)) (l := rest)] at later
      rcases mem_append.1 later with duplicate | dropped
      · -- a textual duplicate of the first row tells what the first row tells
        obtain ⟨reason, detail⟩ := of_decide_eq_true
          (mem_takeWhile_imp (p := fun row => decide (Same row first)) duplicate)
        have same : signal numbers row = signal numbers first := by rw [signal, signal, reason, detail]
        rw [same]
        exact mem_map_of_mem (.head _)
      · exact mem_map_of_mem (.tail _ dropped)

/-- Every reason and detail of the rows of a transaction is told exactly once. -/
def ToldOnce (quarantines : List Quarantine) (row : Quarantine) : Prop :=
  (signals numbers row).Nodup ∧
    ∀ told, told ∈ signals numbers row ↔ told ∈ (group quarantines row.transactionId).map (signal numbers)

theorem dedupe_stored (plain : ∀ quarantine ∈ quarantines, Plain numbers quarantine) :
    ∃ out, dedupeQuarantines numbers quarantines = some out ∧ Stored numbers quarantines out := by
  have start : Stored numbers [] [] := ⟨rfl, fun id row found => absurd found (by simp)⟩
  obtain ⟨out, run, stored⟩ := foldlM_stored numbers start plain
  exact ⟨out, run, stored⟩

theorem Stored.distinct (stored : Stored numbers quarantines out) :
    (out.map (·.transactionId)).Nodup :=
  stored.ids ▸ Lib.Ranking.eraseDups_nodup _

theorem Stored.of_mem (stored : Stored numbers quarantines out) {row : Quarantine} (member : row ∈ out) :
    ∃ first rest, group quarantines row.transactionId = first :: rest ∧ Collapsed numbers first rest row :=
  stored.rows row.transactionId row (rowAt_of_mem (stored.distinct numbers) member)

theorem Stored.told (stored : Stored numbers quarantines out) {row : Quarantine} (member : row ∈ out) :
    (signals numbers row).Perm ((kept (group quarantines row.transactionId)).map (signal numbers)) := by
  obtain ⟨first, rest, members, collapsed⟩ := stored.of_mem numbers member
  obtain ⟨own, folded, reads, perm⟩ := collapsed.reads
  rw [reads.signals_eq, members]
  exact perm

/-- There is one row for each transaction, with its primary reason, and a second pass changes nothing. Each reason and
detail is told exactly once if and only if none is repeated after the first row that is not a duplicate of the first. -/
theorem dedupe_quarantines_keeps_signals {quarantines : List Quarantine}
    (plain : ∀ quarantine ∈ quarantines, Plain numbers quarantine) :
    ∃ out, dedupeQuarantines numbers quarantines = some out ∧
      out.map (·.transactionId) = (quarantines.map (·.transactionId)).eraseDups ∧
      (∀ row ∈ out, primaryReason (group quarantines row.transactionId) = some row.reason) ∧
      dedupeQuarantines numbers out = some out ∧
      ((∀ row ∈ out, ToldOnce numbers quarantines row) ↔
        ∀ quarantine ∈ quarantines, ((kept (group quarantines quarantine.transactionId)).map (signal numbers)).Nodup) := by
  obtain ⟨out, run, stored⟩ := dedupe_stored numbers plain
  refine ⟨out, run, stored.ids, fun row member => ?_, ?_, ?_⟩
  · obtain ⟨first, rest, members, collapsed⟩ := stored.of_mem numbers member
    rw [members]
    exact collapsed.reason
  · exact dedupe_distinct numbers (stored.distinct numbers)
  · constructor
    · intro once quarantine member
      have known : quarantine.transactionId ∈ out.map (·.transactionId) :=
        (stored.known numbers _).2 (mem_map_of_mem member)
      obtain ⟨row, inside, same⟩ := mem_map.1 known
      rw [← same, ← (stored.told numbers inside).nodup_iff]
      exact (once row inside).1
    · intro apart row member
      obtain ⟨first, rest, members, collapsed⟩ := stored.of_mem numbers member
      have inside : first ∈ group quarantines row.transactionId := by rw [members]; exact mem_cons_self
      obtain ⟨source, same⟩ := mem_filter.1 inside
      have unrepeated := apart first source
      rw [of_decide_eq_true same] at unrepeated
      refine ⟨(stored.told numbers member).nodup_iff.2 unrepeated, fun tale => ?_⟩
      rw [(stored.told numbers member).mem_iff, members, mem_kept]

end

theorem loads_empty : loads integers "\x7b\x7d" = some (.fields []) :=
  loads_dumps integers (.fields List.Pairwise.nil nofun)

theorem plain_empty {quarantine : Quarantine} (empty : quarantine.detailJson = "\x7b\x7d") : Plain integers quarantine :=
  ⟨[], empty ▸ loads_empty, not_mem_nil⟩

theorem signal_empty {quarantine : Quarantine} (empty : quarantine.detailJson = "\x7b\x7d") :
    signal integers quarantine = (quarantine.reason, .fields []) := by
  rw [signal, parsed, empty, loads_empty, getD_some]

/-- Two transactions, one of them with a root cause after a downstream reason. -/
theorem dedupe_quarantines_keeps_signals_root_cause :
    let barrier : Quarantine := { transactionId := "a", reason := "custody_basis_barrier", detailJson := "\x7b\x7d" }
    let price : Quarantine := { transactionId := "a", reason := "missing_spot_price", detailJson := "\x7b\x7d" }
    let lots : Quarantine := { transactionId := "b", reason := "insufficient_lots", detailJson := "\x7b\x7d" }
    ∃ out, dedupeQuarantines integers [barrier, price, lots] = some out ∧
      ∀ row ∈ out, ToldOnce integers [barrier, price, lots] row := by
  intro barrier price lots
  have empty : ∀ quarantine ∈ [barrier, price, lots], quarantine.detailJson = "\x7b\x7d" := by simp [barrier, price, lots]
  obtain ⟨out, run, -, -, -, once⟩ :=
    dedupe_quarantines_keeps_signals integers fun quarantine member => plain_empty (empty quarantine member)
  refine ⟨out, run, once.2 fun quarantine member => ?_⟩
  have reasons : (kept (group [barrier, price, lots] quarantine.transactionId)).map (signal integers) =
      (kept (group [barrier, price, lots] quarantine.transactionId)).map fun row => (row.reason, .fields []) := by
    refine map_congr_left fun row inside => signal_empty (empty row ?_)
    unfold kept at inside
    split at inside
    · exact absurd inside not_mem_nil
    case h_2 first rest members =>
      have among : row ∈ first :: rest := ((dropWhile_sublist _).cons_cons first).subset inside
      rw [← members] at among
      exact (mem_filter.1 among).1
  rw [reasons]
  refine List.Nodup.of_map fst ?_
  rw [map_map]
  simp only [mem_cons, not_mem_nil, or_false] at member
  rcases member with rfl | rfl | rfl <;> decide

/-- A reason that is repeated after another one was folded in is told twice. -/
theorem dedupe_quarantines_repeats_signal :
    let price : Quarantine := { transactionId := "a", reason := "missing_spot_price", detailJson := "\x7b\x7d" }
    let lots : Quarantine := { transactionId := "a", reason := "insufficient_lots", detailJson := "\x7b\x7d" }
    ∃ row, dedupeQuarantines integers [price, lots, price] = some [row] ∧ ¬ (signals integers row).Nodup := by
  intro price lots
  have empty : ∀ quarantine ∈ [price, lots, price], quarantine.detailJson = "\x7b\x7d" := by simp [price, lots]
  obtain ⟨out, run, stored⟩ := dedupe_stored integers fun quarantine member => plain_empty (empty quarantine member)
  have ids : out.map (·.transactionId) = ["a"] := stored.ids.trans (by decide)
  obtain ⟨row, rfl, same⟩ := map_eq_singleton_iff.1 ids
  refine ⟨row, run, fun once => ?_⟩
  rw [(stored.told integers mem_cons_self).nodup_iff, same] at once
  have repeated : kept (group [price, lots, price] "a") = [price, lots, price] := by decide
  rw [repeated] at once
  exact (nodup_cons.1 once).1 (.tail _ (.head _))

end Kassiber.Tax.Quarantines
