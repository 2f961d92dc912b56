import Kassiber.Lib.Dict

/-!
What the plan of a rollback reports to be removed with the transactions of an import run, and what the
cascading foreign keys remove.
-/

namespace Kassiber.Imports
open Lib.Dict
open List hiding lookup lookup_append lookup_singleton

inductive OnDelete where
  | noAction
  | restrict
  | setNull
  | setDefault
  | cascade
  deriving DecidableEq

structure ForeignKey where
  column : String
  table : String
  toColumn : Option String
  onDelete : OnDelete

structure Link where
  column : String
  parent : String
  parentKey : String
  deriving DecidableEq

/-- A stored row, as the value of each column by its name in lower case; `none` is NULL. -/
abbrev Row (V : Type) := String → Option V

def Row.get {V : Type} (row : Row V) (column : String) : Option V := row column.toLower

structure Table (V : Type) where
  name : String
  /-- Each column with its place in the primary key, 0 outside it. -/
  columns : List (String × Nat)
  foreignKeys : List ForeignKey
  rows : List (Row V)

/-- The database tells names apart without regard to the case of ASCII letters. -/
structure Database (V : Type) where
  tables : List (Table V)
  distinct : (tables.map fun table => table.name.toLower).Nodup

def maxCascadeDepth : Nat := 6

def uncounted : List String := ["transactions", "import_batch_transactions"]

/-- `name LIKE 'sqlite_%'`, where the underscore stands for any character. -/
def hidden (name : String) : Bool := "sqlite".isPrefixOf name.toLower && 6 < name.length

section
variable {V : Type} [DecidableEq V] (db : Database V) (staged : List V)

def Database.table (name : String) : Option (Table V) := db.tables.find? (·.name.toLower = name.toLower)

def Database.rows (name : String) : List (Row V) := ((db.table name).map Table.rows).getD []

def primaryKey (name : String) : Option String :=
  match (((db.table name).map Table.columns).getD []).filter (·.2 ≠ 0) with
  | [key] => some key.1
  | _ => none

def linkOf (key : ForeignKey) : Option Link :=
  -- SET NULL keeps the row.
  if key.onDelete ≠ .cascade then none
  else (((key.toColumn.filter (· ≠ "")).or (primaryKey db key.table)).filter (· ≠ "")).map fun parentKey =>
    { column := key.column, parent := key.table, parentKey }

def linksOf (table : Table V) : List Link := table.foreignKeys.filterMap (linkOf db)

def edges : List (String × List Link) :=
  ((db.tables.filter fun table => !hidden table.name).map fun table => (table.name, linksOf db table)).filter
    fun entry => entry.2 ≠ []

/-- The condition on the rows of one table: a staged id, or one of several columns among the keys of parent rows. -/
inductive Predicate where
  | staged
  | never
  | among (link : Link) (parent others : Predicate)
  deriving DecidableEq

def Link.Joins (link : Link) (row above : Row V) : Prop :=
  row.get link.column ≠ none ∧ row.get link.column = above.get link.parentKey

instance (link : Link) (row above : Row V) : Decidable (link.Joins row above) := inferInstanceAs (Decidable (_ ∧ _))

def Predicate.holds : Predicate → Row V → Bool
  | .staged, row => (row "id").any (· ∈ staged)
  | .never, _ => false
  | .among link parent others, row =>
    ((db.rows link.parent).any fun above => parent.holds above && decide (link.Joins row above)) || others.holds row

abbrev Resolved := List (String × Predicate)

def usable (resolved : Resolved) (table : String) (links : List Link) : List Link :=
  links.filter fun link => (lookup resolved link.parent).isSome ∧ link.parent ≠ table

def predicateOf (resolved : Resolved) (table : String) (links : List Link) : Predicate :=
  (usable resolved table links).foldr (fun link others => .among link ((lookup resolved link.parent).getD .never) others) .never

def resolveTable (state : Resolved × Bool) (entry : String × List Link) : Resolved × Bool :=
  let predicate := predicateOf state.1 entry.1 entry.2
  -- The link rows of the run are bookkeeping, and the transactions are what is deleted.
  if entry.1 ∈ uncounted then state
  else if usable state.1 entry.1 entry.2 = [] then state
  else if lookup state.1 entry.1 = some predicate then state
  else (state.1 ++ [(entry.1, predicate)], true)

def resolveRounds (edges : List (String × List Link)) : Nat → Resolved → Resolved
  | 0, resolved => resolved
  | rounds + 1, resolved =>
    let next := edges.foldl resolveTable (resolved, false)
    if next.2 then resolveRounds edges rounds next.1 else next.1

def resolvedTables : Resolved := resolveRounds (edges db) maxCascadeDepth [("transactions", .staged)]

def cascadePredicates : Resolved := (items (resolvedTables db)).filter (·.1 ≠ "transactions")

def countOf (entry : String × Predicate) : Option (String × Nat) :=
  let n := (db.rows entry.1).countP (entry.2.holds db staged)
  if n = 0 then none else some (entry.1, n)

def collateralCounts : List (String × Nat) :=
  if staged = [] then [] else (cascadePredicates db).filterMap (countOf db staged)

def stageBatchIds (batchId : V) : List V :=
  (((db.rows "import_batch_transactions").filter (· "batch_id" = some batchId)).filterMap (· "transaction_id")).dedup

structure RollbackPlan where
  transactionsToDelete : Nat
  alsoRemoved : List (String × Nat)
  journalsInvalidated : Bool

def planRollback (batchId : V) : RollbackPlan :=
  let staged := stageBatchIds db batchId
  { transactionsToDelete := staged.length, alsoRemoved := collateralCounts db staged, journalsInvalidated := staged ≠ [] }

/-! ### What the database removes -/

def Linked (table : String) (link : Link) : Prop := ∃ t ∈ db.tables, t.name = table ∧ link ∈ linksOf db t

def Staged (row : Row V) : Prop := row ∈ db.rows "transactions" ∧ ∃ id ∈ staged, row "id" = some id

/-- The rows that the cascade deletes, by the names of their tables in lower case. -/
inductive Removed : String → Row V → Prop
  | transaction {row : Row V} (first : Staged db staged row) : Removed "transactions" row
  | cascade {table : String} {row above : Row V} {link : Link} (linked : Linked db table link) (stored : row ∈ db.rows table)
    (gone : Removed link.parent.toLower above) (joined : link.Joins row above) : Removed table.toLower row

/-- A row joined to a staged transaction by at most so many links, each between two tables that it names as they are
named, through counted rows of listed tables. -/
inductive Chain : Nat → String → Row V → Prop
  | transaction {n : Nat} {row : Row V} (first : Staged db staged row) : Chain n "transactions" row
  | link {n : Nat} {table : String} {row above : Row V} {link : Link} (linked : Linked db table link)
    (listed : hidden table = false) (counts : table ∉ uncounted) (apart : link.parent ≠ table)
    (stored : row ∈ db.rows table) (gone : Chain n link.parent above) (joined : link.Joins row above) : Chain (n + 1) table row

open Classical in
noncomputable def removedCount (table : String) : Nat :=
  (db.rows table).countP fun row => Removed db staged table.toLower row

end

section
variable {V : Type} {db : Database V} {staged : List V} {resolved later : Resolved} {table : String}
  {row : Row V} {links : List Link} {visited : List (String × List Link)} {entry other : String × List Link}
  {n : Nat}

theorem edges_linked (member : entry ∈ edges db) {link : Link} (inside : link ∈ entry.2) :
    Linked db entry.1 link := by
  obtain ⟨table, listed, rfl⟩ := mem_map.1 (mem_filter.1 member).1
  exact ⟨table, (mem_filter.1 listed).1, rfl, inside⟩

theorem edges_unique (member : entry ∈ edges db) (member' : other ∈ edges db)
    (same : entry.1 = other.1) : entry = other := by
  obtain ⟨table, listed, rfl⟩ := mem_map.1 (mem_filter.1 member).1
  obtain ⟨table', listed', rfl⟩ := mem_map.1 (mem_filter.1 member').1
  rw [inj_on_of_nodup_map db.distinct (mem_filter.1 listed).1 (mem_filter.1 listed').1 (congrArg String.toLower same)]

theorem Chain.longer {m : Nat} (chain : Chain db staged n table row) (more : n ≤ m) : Chain db staged m table row := by
  induction chain generalizing m with
  | transaction first => exact .transaction first
  | link linked listed counts apart stored _ joined ih =>
    obtain ⟨m, rfl⟩ := Nat.exists_eq_add_of_le' (Nat.one_le_of_lt more)
    exact .link linked listed counts apart stored (ih (Nat.le_of_succ_le_succ more)) joined

theorem Chain.stored (chain : Chain db staged n table row) : row ∈ db.rows table := by
  cases chain with
  | transaction first => exact first.1
  | link _ _ _ _ stored _ _ => exact stored

theorem Removed.some_staged (gone : Removed db staged table row) : staged ≠ [] := by
  induction gone with
  | transaction first => exact ne_nil_of_mem first.2.choose_spec.1
  | cascade _ _ _ _ ih => exact ih

theorem removedCount_eq {p : Row V → Bool}
    (same : ∀ row ∈ db.rows table, p row = true ↔ Removed db staged table.toLower row) :
    (db.rows table).countP p = removedCount db staged table :=
  countP_congr fun row stored => by simpa using same row stored

theorem length_le_removedCount (gone : List (Row V)) (some : gone <+ db.rows table)
    (removed : ∀ row ∈ gone, Removed db staged table.toLower row) : gone.length ≤ removedCount db staged table := by
  classical
  rw [← countP_eq_length.2 fun row inside => decide_eq_true (removed row inside)]
  exact some.countP_le

theorem removedCount_zero (kept : ∀ row ∈ db.rows table, ¬Removed db staged table.toLower row) :
    removedCount db staged table = 0 := by
  rw [← removedCount_eq (p := fun _ => false) fun row stored => ⟨nofun, fun gone => (kept row stored gone).elim⟩]
  exact countP_eq_zero.2 fun _ _ => nofun

variable [DecidableEq V]

def Selects (db : Database V) (staged : List V) (resolved : Resolved) (table : String) (row : Row V) : Prop :=
  ∃ predicate, lookup resolved table = some predicate ∧ predicate.holds db staged row = true

theorem predicateOf_holds : (predicateOf resolved table links).holds db staged row = true ↔
    ∃ link ∈ links, link.parent ≠ table ∧ ∃ above ∈ db.rows link.parent, Selects db staged resolved link.parent above ∧
      link.Joins row above := by
  have run : ∀ kept : List Link, (kept.foldr (fun link others =>
      .among link ((lookup resolved link.parent).getD .never) others) .never : Predicate).holds db staged row = true ↔
      ∃ link ∈ kept, ∃ above ∈ db.rows link.parent,
        ((lookup resolved link.parent).getD .never).holds db staged above = true ∧ link.Joins row above := by
    intro kept
    induction kept with
    | nil => simp [Predicate.holds]
    | cons link rest ih =>
      rw [foldr_cons, Predicate.holds, Bool.or_eq_true, ih]
      simp
  rw [predicateOf, run]
  constructor
  · rintro ⟨link, inside, above, stored, held, joined⟩
    obtain ⟨member, found, apart⟩ : link ∈ links ∧ (lookup resolved link.parent).isSome ∧ link.parent ≠ table := by
      simpa [usable] using inside
    obtain ⟨predicate, found⟩ := Option.isSome_iff_exists.1 found
    rw [found] at held
    exact ⟨link, member, apart, above, stored, ⟨predicate, found, held⟩, joined⟩
  · rintro ⟨link, member, apart, above, stored, ⟨predicate, found, held⟩, joined⟩
    exact ⟨link, by simp [usable, member, found, apart], above, stored, by rwa [found], joined⟩

theorem predicateOf_grows (grows : ∀ table row, Selects db staged resolved table row → Selects db staged later table row)
    (held : (predicateOf resolved table links).holds db staged row = true) :
    (predicateOf later table links).holds db staged row = true := by
  obtain ⟨link, member, apart, above, stored, selected, joined⟩ := predicateOf_holds.1 held
  exact predicateOf_holds.2 ⟨link, member, apart, above, stored, grows _ _ selected, joined⟩

/-- What is resolved selects only removed rows, and no more than resolving its table again would. -/
structure Sound (db : Database V) (staged : List V) (resolved : Resolved) : Prop where
  removed : ∀ table row, row ∈ db.rows table → Selects db staged resolved table row → Removed db staged table.toLower row
  behind : ∀ entry ∈ edges db, entry.1 ∉ uncounted → ∀ row, Selects db staged resolved entry.1 row →
    (predicateOf resolved entry.1 entry.2).holds db staged row = true

/-- From one state of the loop to a later one, which has resolved the given tables again. -/
structure Steps (db : Database V) (staged : List V) (visited : List (String × List Link)) (resolved later : Resolved) : Prop where
  sound : Sound db staged later
  grows : ∀ table row, Selects db staged resolved table row → Selects db staged later table row
  fresh : ∀ entry ∈ visited, entry.1 ∉ uncounted → ∀ row,
    (predicateOf resolved entry.1 entry.2).holds db staged row = true → Selects db staged later entry.1 row

theorem resolveTable_steps (changed : Bool) (sound : Sound db staged resolved)
    (member : entry ∈ edges db) :
    Steps db staged [entry] resolved (resolveTable (resolved, changed) entry).1 := by
  have stays : ∀ table row, Selects db staged resolved table row → Selects db staged resolved table row :=
    fun _ _ selected => selected
  unfold resolveTable
  dsimp only
  split
  · rename_i skipped
    exact ⟨sound, stays, forall_mem_singleton.2 fun counts => absurd skipped counts⟩
  split
  · rename_i unused
    refine ⟨sound, stays, forall_mem_singleton.2 fun _ row held => ?_⟩
    rw [predicateOf, unused] at held
    cases held
  split
  · rename_i same
    exact ⟨sound, stays, forall_mem_singleton.2 fun _ row held => ⟨_, same, held⟩⟩
  rename_i counts _ _
  have read : ∀ table row, Selects db staged (resolved ++ [(entry.1, predicateOf resolved entry.1 entry.2)])
      table row ↔ if entry.1 = table then (predicateOf resolved entry.1 entry.2).holds db staged row = true
        else Selects db staged resolved table row := by
    intro table row
    simp only [Selects, lookup_append, lookup_singleton]
    split <;> simp
  have grows : ∀ table row, Selects db staged resolved table row →
      Selects db staged (resolved ++ [(entry.1, predicateOf resolved entry.1 entry.2)]) table row := by
    intro table row selected
    rw [read]
    split
    · rename_i own
      subst own
      exact sound.behind entry member counts row selected
    · exact selected
  refine ⟨⟨fun table row stored selected => ?_, fun other listed counts' row selected => ?_⟩, grows,
    forall_mem_singleton.2 fun _ row held => (read _ _).2 (by rwa [if_pos rfl])⟩
  · rw [read] at selected
    split at selected
    · rename_i own
      subst own
      obtain ⟨link, inside, -, above, here, held, joined⟩ := predicateOf_holds.1 selected
      exact .cascade (edges_linked member inside) stored (sound.removed _ _ here held) joined
    · exact sound.removed table row stored selected
  · refine predicateOf_grows grows ?_
    rw [read] at selected
    split at selected
    · rename_i own
      rw [← edges_unique member listed own]
      exact selected
    · exact sound.behind other listed counts' row selected

theorem round_steps (sound : Sound db staged resolved) (listed : ∀ entry ∈ visited, entry ∈ edges db)
    (changed : Bool) : Steps db staged visited resolved (visited.foldl resolveTable (resolved, changed)).1 := by
  induction visited generalizing resolved changed with
  | nil => exact ⟨sound, fun _ _ selected => selected, nofun⟩
  | cons entry rest ih =>
    have first := resolveTable_steps changed sound (listed entry (.head _))
    have onward := ih first.sound (fun other member => listed other (.tail _ member)) (resolveTable (resolved, changed) entry).2
    refine ⟨onward.sound, fun table row selected => onward.grows _ _ (first.grows _ _ selected), fun other member counts row held => ?_⟩
    rcases mem_cons.1 member with rfl | later
    · exact onward.grows _ _ (first.fresh other (.head _) counts row held)
    · exact onward.fresh other later counts row (predicateOf_grows first.grows held)

theorem resolve_unchanged {changed : Bool} (still : (visited.foldl resolveTable (resolved, changed)).2 = false) :
    changed = false ∧ (visited.foldl resolveTable (resolved, changed)).1 = resolved := by
  induction visited generalizing resolved changed with
  | nil => exact ⟨still, rfl⟩
  | cons entry rest ih =>
    rw [foldl_cons] at still ⊢
    have one : resolveTable (resolved, changed) entry = (resolved, changed) ∨ (resolveTable (resolved, changed) entry).2 = true := by
      unfold resolveTable
      dsimp only
      split_ifs <;> simp
    rcases one with same | moved
    · rw [same] at still ⊢
      exact ih still
    · cases (ih still).1.symm.trans moved

def Covers (db : Database V) (staged : List V) (n : Nat) (resolved : Resolved) : Prop :=
  ∀ table row, Chain db staged n table row → Selects db staged resolved table row

theorem round_covers (sound : Sound db staged resolved) (covers : Covers db staged n resolved) :
    Covers db staged (n + 1) ((edges db).foldl resolveTable (resolved, false)).1 := by
  have steps := round_steps sound (fun _ member => member) false
  intro table row chain
  cases chain with
  | transaction first => exact steps.grows _ _ (covers _ _ (.transaction first))
  | link linked shown counts apart stored gone joined =>
    obtain ⟨t, listed, rfl, inside⟩ := linked
    have member : (t.name, linksOf db t) ∈ edges db :=
      mem_filter.2 ⟨mem_map_of_mem (mem_filter.2 ⟨listed, by simpa using shown⟩), by simpa using ne_nil_of_mem inside⟩
    exact steps.fresh _ member counts row
      (predicateOf_holds.2 ⟨_, inside, apart, _, gone.stored, covers _ _ gone, joined⟩)

theorem rounds_cover {rounds : Nat} (sound : Sound db staged resolved) (covers : Covers db staged n resolved) :
    Sound db staged (resolveRounds (edges db) rounds resolved) ∧
      Covers db staged (n + rounds) (resolveRounds (edges db) rounds resolved) := by
  induction rounds generalizing resolved n with
  | zero => exact ⟨sound, covers⟩
  | succ rounds ih =>
    have steps := round_steps sound (fun _ member => member) false
    rw [resolveRounds]
    split
    · rw [show n + (rounds + 1) = n + 1 + rounds by omega]
      exact ih steps.sound (round_covers sound covers)
    · rename_i still
      have same := (resolve_unchanged (Bool.eq_false_iff.2 still)).2
      rw [same]
      -- Nothing changes any more, so every further round covers one more link.
      have all : ∀ more, Covers db staged (n + more) resolved := by
        intro more
        induction more with
        | zero => exact covers
        | succ more onward => exact same ▸ round_covers sound onward
      exact ⟨sound, all _⟩

theorem transactions_lower : "transactions".toLower = "transactions" := by decide +kernel

theorem final_resolved (db : Database V) (staged : List V) : Sound db staged (resolvedTables db) ∧
    Covers db staged maxCascadeDepth (resolvedTables db) := by
  have start : ∀ {table row}, Selects db staged [("transactions", .staged)] table row → table = "transactions" ∧
      ∃ id ∈ staged, row "id" = some id := by
    rintro table row ⟨predicate, found, held⟩
    rw [lookup_singleton] at found
    split at found
    · rename_i own
      cases found
      exact ⟨own.symm, by simpa [Predicate.holds, Option.any_eq_true, and_comm] using held⟩
    · cases found
  rw [← Nat.zero_add maxCascadeDepth]
  refine rounds_cover ⟨fun table row stored selected => ?_, fun entry _ counts row selected => ?_⟩ fun table row chain => ?_
  · obtain ⟨rfl, own⟩ := start selected
    rw [transactions_lower]
    exact .transaction ⟨stored, own⟩
  · exact absurd ((start selected).1 ▸ .head _) counts
  · cases chain with
    | transaction first =>
      obtain ⟨-, id, listed, own⟩ := first
      exact ⟨.staged, by rw [lookup_singleton, if_pos rfl], by simp [Predicate.holds, own, listed]⟩

open Classical in
/-- Whatever the schema, the plan reports no row that the cascade would leave. -/
theorem plan_counts_le (db : Database V) (batchId : V) (table : String) :
    (lookup (planRollback db batchId).alsoRemoved table).getD 0 ≤ removedCount db (stageBatchIds db batchId) table := by
  unfold planRollback
  dsimp only
  generalize stageBatchIds db batchId = staged
  cases there : lookup (collateralCounts db staged) table with
  | none => exact Nat.zero_le _
  | some m =>
    have listed := mem_of_lookup there
    unfold collateralCounts at listed
    split at listed
    · cases listed
    obtain ⟨⟨other, predicate⟩, inside, counted⟩ := mem_filterMap.1 listed
    have found := mem_items.1 (mem_filter.1 inside).1
    unfold countOf at counted
    dsimp only at counted
    split at counted
    · cases counted
    cases counted
    exact countP_mono_left fun row stored held =>
      decide_eq_true ((final_resolved db staged).1.removed _ row stored ⟨predicate, found, held⟩)

/-- Where every removed row of a counted table is joined to a staged transaction by a chain of at most six
links, each between two tables that it names as they are named and through counted rows of listed tables, the
plan reports as many rows of each table as the cascade removes. -/
theorem plan_counts_removed (db : Database V) (batchId : V)
    (near : ∀ table ∈ db.tables, table.name.toLower ∉ uncounted →
      ∀ row, Removed db (stageBatchIds db batchId) table.name.toLower row →
        Chain db (stageBatchIds db batchId) maxCascadeDepth table.name row) :
    ∀ table ∈ db.tables, table.name.toLower ∉ uncounted →
      (lookup (planRollback db batchId).alsoRemoved table.name).getD 0 =
        removedCount db (stageBatchIds db batchId) table.name := by
  intro table known counts
  unfold planRollback
  dsimp only
  generalize stageBatchIds db batchId = staged at near ⊢
  obtain ⟨sound, covers⟩ := final_resolved db staged
  have selected : ∀ row ∈ db.rows table.name, Selects db staged (resolvedTables db)
      table.name row ↔ Removed db staged table.name.toLower row := fun row stored =>
    ⟨sound.removed table.name row stored, fun gone => covers table.name row (near table known counts row gone)⟩
  unfold collateralCounts
  split
  · rename_i empty
    exact (removedCount_zero fun _ _ gone => gone.some_staged empty).symm
  have read : ∀ m, (table.name, m) ∈ (cascadePredicates db).filterMap (countOf db staged) ↔
        ∃ predicate, lookup (resolvedTables db) table.name = some predicate ∧
          (db.rows table.name).countP (predicate.holds db staged) = m ∧ m ≠ 0 := by
    intro m
    have apart : table.name ≠ "transactions" := by
      intro same
      rw [same, transactions_lower] at counts
      exact counts (.head _)
    rw [mem_filterMap]
    constructor
    · rintro ⟨⟨other, predicate⟩, inside, found⟩
      unfold countOf at found
      dsimp only at found
      split at found
      · cases found
      · cases found
        exact ⟨predicate, mem_items.1 (mem_filter.1 inside).1, rfl, ‹_›⟩
    · rintro ⟨predicate, found, rfl, positive⟩
      exact ⟨(table.name, predicate), mem_filter.2 ⟨mem_items.2 found, by simpa using apart⟩, by simp [countOf, positive]⟩
  cases there : lookup ((cascadePredicates db).filterMap (countOf db staged)) table.name with
  | some m =>
    obtain ⟨predicate, found, rfl, -⟩ := (read m).1 (mem_of_lookup there)
    refine removedCount_eq fun row stored => ?_
    rw [← selected row stored, Selects, found]
    simp
  | none =>
    refine (removedCount_zero fun row stored gone => ?_).symm
    obtain ⟨predicate, found, held⟩ := (selected row stored).2 gone
    exact lookup_eq_none.1 there
      (mem_map.2 ⟨_, (read _).2 ⟨predicate, found, rfl, (countP_pos_iff.2 ⟨row, stored, held⟩).ne'⟩, rfl⟩)

end

section

def cascadeKey (column table : String) : ForeignKey := { column, table, toColumn := some "id", onDelete := .cascade }

def storedRow (id : Nat) (values : List (String × Nat)) : Row Nat := lookup (("id", id) :: values)

def transactionTables : List (Table Nat) := [
  { name := "transactions", columns := [("id", 1)], foreignKeys := [], rows := [storedRow 1 [], storedRow 2 [], storedRow 3 []] },
  { name := "import_batch_transactions", columns := [], foreignKeys := [],
    rows := [lookup [("batch_id", 7), ("transaction_id", 1)], lookup [("batch_id", 7), ("transaction_id", 2)]] }]

/-- Notes that name two transactions, and answers to a note of a transaction. -/
def answerBook : Database Nat where
  tables := transactionTables ++ [
    { name := "notes", columns := [("id", 1)],
      foreignKeys := [cascadeKey "transaction_id" "transactions", cascadeKey "paired_id" "transactions"],
      rows := [storedRow 1 [("transaction_id", 1), ("paired_id", 2)], storedRow 2 [("transaction_id", 3)]] },
    { name := "answers", columns := [("id", 1)],
      foreignKeys := [cascadeKey "note_id" "notes", cascadeKey "transaction_id" "transactions"],
      rows := [storedRow 1 [("note_id", 1)], storedRow 2 [("note_id", 1), ("transaction_id", 1)],
        storedRow 3 [("note_id", 2)]] }]
  distinct := by decide +kernel

theorem answerBook_links {table : String} {link : Link} (linked : Linked answerBook table link) :
    (table, link.parent) ∈ [("notes", "transactions"), ("answers", "notes"), ("answers", "transactions")] := by
  obtain ⟨t, listed, rfl, inside⟩ := linked
  have all : ∀ t ∈ answerBook.tables, ∀ link ∈ linksOf answerBook t,
      (t.name, link.parent) ∈ [("notes", "transactions"), ("answers", "notes"), ("answers", "transactions")] := by
    decide +kernel
  exact all t listed link inside

theorem answerBook_chain {table : String} {row : Row Nat} (gone : Removed answerBook [1, 2] table row) :
    Chain answerBook [1, 2] (["transactions", "notes", "answers"].idxOf table) table row := by
  induction gone with
  | transaction first => exact .transaction first
  | @cascade table row above link linked stored gone joined ih =>
    have lower : "notes".toLower = "notes" ∧ "answers".toLower = "answers" := by decide +kernel
    have within := answerBook_links linked
    simp only [mem_cons, Prod.mk.injEq, not_mem_nil, or_false] at within
    rcases within with ⟨rfl, parent⟩ | ⟨rfl, parent⟩ | ⟨rfl, parent⟩ <;> rw [parent] at ih <;>
      simp only [lower, transactions_lower] at ih ⊢ <;>
      refine .link linked (by decide +kernel) (by decide) (by rw [parent]; decide) stored ?_ joined <;> rw [parent]
    · exact ih
    · exact ih
    · exact ih.longer (Nat.zero_le _)

/-- The name is in lower case. -/
theorem rows_import {V : Type} (db : Database V) : db.rows "import_batch_transactions" =
    ((db.tables.find? (·.name.toLower = "import_batch_transactions")).map Table.rows).getD [] := by
  rw [Database.rows, Database.table, show "import_batch_transactions".toLower = "import_batch_transactions" by decide +kernel]

theorem plan_counts_answers : (planRollback answerBook 7).alsoRemoved = [("notes", 1), ("answers", 2)] ∧
    ∀ table ∈ answerBook.tables, table.name.toLower ∉ uncounted →
      (lookup (planRollback answerBook 7).alsoRemoved table.name).getD 0 = removedCount answerBook [1, 2] table.name := by
  have staged : stageBatchIds answerBook 7 = [1, 2] := by
    rw [stageBatchIds, rows_import]
    decide +kernel
  have all := plan_counts_removed answerBook 7
  rw [staged] at all
  refine ⟨?_, all fun table known _ row gone => ?_⟩
  · rw [planRollback, staged]
    decide +kernel
  · have lower : ∀ table ∈ answerBook.tables, table.name.toLower = table.name := by decide +kernel
    rw [lower table known] at gone
    refine (answerBook_chain gone).longer ?_
    exact le_trans idxOf_le_length (by decide)

def noteRow : Row Nat := storedRow 1 [("transaction_id", 1)]

def answerRow : Row Nat := storedRow 2 [("note_id", 1)]

/-- One note on a transaction and one answer to it. -/
def noteTable (name parent : String) (foreignKeys : List ForeignKey) : Table Nat where
  name := name
  columns := [("id", 1)]
  foreignKeys := cascadeKey "transaction_id" parent :: foreignKeys
  rows := [noteRow, answerRow]

def noteBook (table : Table Nat) (apart : ((transactionTables ++ [table]).map fun table => table.name.toLower).Nodup) :
    Database Nat := { tables := transactionTables ++ [table], distinct := apart }

/-- Notes that answer notes of their own table. -/
def answeredBook : Database Nat :=
  noteBook (noteTable "notes" "transactions" [cascadeKey "note_id" "notes"]) (by decide +kernel)

/-- Notes that name their parent in another spelling. -/
def spelledBook : Database Nat := noteBook (noteTable "notes" "Transactions" []) (by decide +kernel)

/-- Notes in a table whose name keeps it off the listing. -/
def hiddenBook : Database Nat := noteBook (noteTable "sqlitex" "transactions" []) (by decide +kernel)

theorem rows_of_mem {V : Type} {db : Database V} {table : Table V} (member : table ∈ db.tables) : db.rows table.name = table.rows := by
  obtain ⟨found, there⟩ := Option.isSome_iff_exists.1
    (find?_isSome.2 ⟨table, member, decide_eq_true rfl⟩ : (db.table table.name).isSome)
  have same : found.name.toLower = table.name.toLower := by simpa using find?_some there
  rw [Database.rows, Database.table, there, inj_on_of_nodup_map db.distinct (mem_of_find?_eq_some there) member same]
  rfl

section
variable {table : Table Nat} {apart : ((transactionTables ++ [table]).map fun table => table.name.toLower).Nodup} {row : Row Nat}

theorem noteBook_rows (inside : row ∈ table.rows) : row ∈ (noteBook table apart).rows table.name := by
  rwa [rows_of_mem (mem_append_right _ (.head _))]

theorem noteRow_removed (parent : String) (inside : noteRow ∈ table.rows)
    (linked : { column := "transaction_id", parent, parentKey := "id" } ∈ linksOf (noteBook table apart) table)
    (above : parent.toLower = "transactions") : Removed (noteBook table apart) [1, 2] table.name.toLower noteRow := by
  have joined : noteRow.get "transaction_id" ≠ none ∧ noteRow.get "transaction_id" = (storedRow 1 []).get "id" := by decide +kernel
  refine .cascade ⟨table, mem_append_right _ (.head _), rfl, linked⟩ (noteBook_rows inside) ?_ joined
  rw [above]
  refine .transaction ⟨?_, 1, .head _, rfl⟩
  have first : transactionTables.head (by decide) ∈ (noteBook table apart).tables := .head _
  exact rows_of_mem first ▸ .head _

end

/-- Some table loses more rows to the cascade than the plan counts for it. -/
def Undercounted (db : Database Nat) : Prop :=
  ∃ table ∈ db.tables, table.name.toLower ∉ uncounted ∧
    (lookup (planRollback db 7).alsoRemoved table.name).getD 0 < removedCount db (stageBatchIds db 7) table.name

/-- The plan misses rows of a table whose links lead to itself, name their parent in another spelling or stand in a
table off the listing. -/
theorem reply_uncounted : Undercounted answeredBook ∧ Undercounted spelledBook ∧ Undercounted hiddenBook := by
  have staged : ∀ db ∈ [answeredBook, spelledBook, hiddenBook], stageBatchIds db 7 = [1, 2] := by
    simp only [stageBatchIds, rows_import]
    decide +kernel
  suffices all : ∀ db ∈ [answeredBook, spelledBook, hiddenBook], Undercounted db by simpa using all
  intro db listed
  rw [Undercounted, planRollback, staged db listed]
  fin_cases listed
  · refine ⟨noteTable "notes" "transactions" [cascadeKey "note_id" "notes"], mem_append_right _ (.head _), by decide +kernel, ?_⟩
    have first : Removed answeredBook [1, 2] "notes".toLower noteRow :=
      noteRow_removed "transactions" (.head _) (by decide +kernel) transactions_lower
    have all : answeredBook.rows "notes" = [noteRow, answerRow] := @rows_of_mem _ answeredBook _ (mem_append_right _ (.head _))
    refine lt_of_lt_of_le (b := 2) (by decide +kernel) (length_le_removedCount [noteRow, answerRow] (all ▸ .refl _) ?_)
    refine forall_mem_cons.2 ⟨first, forall_mem_singleton.2 ?_⟩
    have linked : Linked answeredBook "notes" ⟨"note_id", "notes", "id"⟩ :=
      ⟨_, mem_append_right _ (.head _), rfl, by decide +kernel⟩
    exact .cascade linked (noteBook_rows (.tail _ (.head _))) first (show _ ∧ _ by decide +kernel)
  · refine ⟨noteTable "notes" "Transactions" [], mem_append_right _ (.head _), by decide +kernel, ?_⟩
    refine lt_of_lt_of_le (b := 1) (by decide +kernel) (length_le_removedCount [noteRow] (singleton_sublist.2 (noteBook_rows (.head _))) ?_)
    exact forall_mem_singleton.2 (noteRow_removed "Transactions" (.head _) (by decide +kernel) (by decide +kernel))
  · refine ⟨noteTable "sqlitex" "transactions" [], mem_append_right _ (.head _), by decide +kernel, ?_⟩
    refine lt_of_lt_of_le (b := 1) (by decide +kernel) (length_le_removedCount [noteRow] (singleton_sublist.2 (noteBook_rows (.head _))) ?_)
    exact forall_mem_singleton.2 (noteRow_removed "transactions" (.head _) (by decide +kernel) transactions_lower)

end

end Kassiber.Imports
