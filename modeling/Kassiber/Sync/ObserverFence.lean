import Kassiber.Sync.ObserverStore

/-!
The epoch of an observer's row fences prepared updates: it grows with every write, so an update applies only
when nothing was written since it was prepared.
-/

namespace Kassiber.Sync.Observer
open Lib.Outcome Option

variable {sha256 : String → String} {isObject : String → Bool}

def Writes (sha256 : String → String) (isObject : String → Bool) (id : String) (world : World) (call : Call) : Prop :=
  (∃ next, world.exec sha256 isObject call = .ok next) ∧
    match call with
    | .apply handle _ => ∃ prepared, world.prepared[handle]? = some prepared ∧ prepared.identity.id sha256 = id
    | .persist identity _ _ _ => identity.id sha256 = id
    | _ => False

def Removes (sha256 : String → String) (isObject : String → Bool) (id : String) (world : World) (call : Call) : Prop :=
  (∃ stored, world.tables id = some stored) ∧ (world.step sha256 isObject call).tables id = none

theorem put_same (tables : Tables) (id : String) (stored : Option Stored) : (tables.put id stored) id = stored :=
  if_pos rfl

variable {tables next : Tables}

theorem put_other {id key : String} (different : key ≠ id) (stored : Option Stored) :
    (tables.put id stored) key = tables key :=
  if_neg different

variable {identity : ObserverIdentity}

theorem persist_ok {payload : Option String} {coverage : List CoveragePoint} {expected : Expectation}
    (persisted : persistObserverState sha256 tables identity payload coverage expected = .ok next) :
    ∃ stored epoch, nextEpoch (observerStateEpoch tables (identity.id sha256)) expected = some epoch ∧
      stored.row.stateEpoch = epoch ∧ next = tables.put (identity.id sha256) (some stored) := by
  cases payload with
  | none => cases persisted
  | some stateJson =>
    obtain ⟨rows, -, persisted⟩ := bind_ok.1 persisted
    split at persisted
    · cases persisted
    · rename_i epoch reached
      cases persisted
      exact ⟨_, epoch, reached, rfl, rfl⟩

theorem persistValues_ok {values : List (String × List UInt8)}
    (persisted : persistObserverValues sha256 tables identity values = .ok next) :
    (∀ key, key ≠ identity.id sha256 → next key = tables key) ∧
      observerStateEpoch next (identity.id sha256) = observerStateEpoch tables (identity.id sha256) := by
  obtain ⟨-, -, persisted⟩ := bind_ok.1 persisted
  cases persisted
  unfold observerStateEpoch
  cases found : tables (identity.id sha256) with
  | none => exact ⟨fun _ _ => rfl, by simp [found]⟩
  | some stored => exact ⟨fun key different => put_other different _, by simp [put_same]⟩

theorem apply_ok {prepared : PreparedObserverUpdate} {application : ObserverApplication}
    (applied : applyPreparedObserverUpdate sha256 tables prepared application = .ok next) :
    (∀ key, key ≠ prepared.identity.id sha256 → next key = tables key) ∧
      ∃ epoch, nextEpoch (observerStateEpoch tables (prepared.identity.id sha256)) (.epoch prepared.expectedEpoch) =
        some epoch ∧ observerStateEpoch next (prepared.identity.id sha256) = some epoch := by
  obtain ⟨-, -, applied⟩ := bind_ok.1 applied
  obtain ⟨-, -, applied⟩ := bind_ok.1 applied
  obtain ⟨persisted, first, applied⟩ := bind_ok.1 applied
  obtain ⟨stored, epoch, reached, kept, rfl⟩ := persist_ok first
  have written : observerStateEpoch (tables.put (prepared.identity.id sha256) (some stored)) (prepared.identity.id sha256) =
      some epoch := by
    rw [observerStateEpoch, put_same, map_some, kept]
  split at applied
  · cases applied
    exact ⟨fun key different => put_other different _, epoch, reached, written⟩
  · obtain ⟨others, same⟩ := persistValues_ok applied
    refine ⟨fun key different => (others key different).trans (put_other different _), epoch, reached, ?_⟩
    rw [same, written]

/-- Epochs in the order in which writes produce them: a missing row comes before every other. -/
def Below : Option Int → Option Int → Prop
  | none, some _ => True
  | some e, some f => e < f
  | _, none => False

theorem Below.trans {a b c : Option Int} (first : Below a b) (second : Below b c) : Below a c := by
  cases a <;> cases b <;> cases c <;> simp_all [Below]
  omega

theorem not_below_self (a : Option Int) : ¬Below a a := by
  cases a <;> simp [Below]

theorem below_nextEpoch {current : Option Int} {expected : Expectation} {epoch : Int}
    (reached : nextEpoch current expected = some epoch) : Below current (some epoch) := by
  cases current with
  | none => trivial
  | some e =>
    have next : epoch = e + 1 := by
      cases expected with
      | unconditional => exact (some.inj reached).symm
      | epoch captured =>
        cases captured with
        | none => cases reached
        | some f =>
          simp only [nextEpoch] at reached
          split at reached
          · exact (some.inj reached).symm
          · cases reached
    show e < epoch
    omega

theorem fence_holds {current captured : Option Int} {epoch : Int}
    (reached : nextEpoch current (.epoch captured) = some epoch) : current = captured := by
  cases current with
  | none =>
    cases captured with
    | none => rfl
    | some f => cases reached
  | some e =>
    cases captured with
    | none => cases reached
    | some f =>
      simp only [nextEpoch] at reached
      split at reached
      · rename_i same
        rw [same]
      · cases reached

theorem step_epoch {id : String} {world : World} {call : Call} (kept : ¬Removes sha256 isObject id world call) :
    (Writes sha256 isObject id world call ∧
        Below (observerStateEpoch world.tables id) (observerStateEpoch (world.step sha256 isObject call).tables id)) ∨
      (¬Writes sha256 isObject id world call ∧ (world.step sha256 isObject call).tables id = world.tables id) := by
  have refused : ∀ {error : ObserverError}, world.exec sha256 isObject call = .error error →
      ¬Writes sha256 isObject id world call ∧ (world.step sha256 isObject call).tables id = world.tables id := by
    intro error raised
    refine ⟨fun writes => ?_, ?_⟩
    · obtain ⟨⟨next, succeeded⟩, -⟩ := writes
      rw [raised] at succeeded
      cases succeeded
    · rw [World.step, raised]
  have deleted : ∀ matched : Instance → Bool, (world.step sha256 isObject call).tables = deleteWhere matched world.tables →
      (world.step sha256 isObject call).tables id = world.tables id := by
    intro matched after
    cases found : world.tables id with
    | none => rw [after, deleteWhere, found, filter_none]
    | some stored =>
      by_contra changed
      refine kept ⟨⟨stored, found⟩, ?_⟩
      rw [after, deleteWhere, found] at changed ⊢
      cases survives : matched stored.row with
      | true => simp [survives]
      | false => simp [survives] at changed
  cases outcome : world.exec sha256 isObject call with
  | error error => exact .inr (refused outcome)
  | ok next =>
    have stepped : world.step sha256 isObject call = next := by rw [World.step, outcome]
    rw [stepped]
    cases call with
    | prepare identity forceFull =>
      obtain ⟨prepared, -, same⟩ := bind_ok.1 outcome
      cases same
      exact .inr ⟨fun writes => writes.2, rfl⟩
    | discard handle =>
      cases outcome
      exact .inr ⟨fun writes => writes.2, rfl⟩
    | deleteWallet walletId =>
      cases outcome
      exact .inr ⟨fun writes => writes.2, (congrFun (congrArg World.tables stepped) id).symm.trans
        (deleted (fun row => row.identity.logicalWalletId = walletId || row.identity.sourceWalletId = walletId)
          (congrArg World.tables stepped))⟩
    | deleteProfile profileId =>
      cases outcome
      exact .inr ⟨fun writes => writes.2, (congrFun (congrArg World.tables stepped) id).symm.trans
        (deleted (fun row => row.identity.profileId = profileId) (congrArg World.tables stepped))⟩
    | persist identity payload coverage expected =>
      obtain ⟨tables, persisted, same⟩ := bind_ok.1 outcome
      cases same
      obtain ⟨stored, epoch, reached, written, rfl⟩ := persist_ok persisted
      by_cases own : identity.id sha256 = id
      · subst own
        refine .inl ⟨⟨⟨_, outcome⟩, rfl⟩, ?_⟩
        have after : observerStateEpoch (world.tables.put (identity.id sha256) (some stored)) (identity.id sha256) =
            some epoch := by
          rw [observerStateEpoch, put_same, map_some, written]
        rw [after]
        exact below_nextEpoch reached
      · exact .inr ⟨fun writes => own writes.2, put_other (Ne.symm own) _⟩
    | apply handle application =>
      have succeeded := outcome
      unfold World.exec at outcome
      dsimp only at outcome
      split at outcome
      · cases outcome
      · rename_i prepared held
        obtain ⟨tables, applied, same⟩ := bind_ok.1 outcome
        cases same
        obtain ⟨others, epoch, reached, written⟩ := apply_ok applied
        by_cases own : prepared.identity.id sha256 = id
        · subst own
          refine .inl ⟨⟨⟨_, succeeded⟩, prepared, held, rfl⟩, ?_⟩
          rw [written]
          exact below_nextEpoch reached
        · refine .inr ⟨?_, others id (Ne.symm own)⟩
          rintro ⟨-, other, found, same⟩
          rw [held] at found
          cases found
          exact own same

def Throughout (sha256 : String → String) (isObject : String → Bool) (holds : World → Call → Prop) :
    World → List Call → Prop
  | _, [] => True
  | world, call :: rest => holds world call ∧ Throughout sha256 isObject holds (world.step sha256 isObject call) rest

def Kept (sha256 : String → String) (isObject : String → Bool) (id : String) : World → List Call → Prop :=
  Throughout sha256 isObject fun world call => ¬Removes sha256 isObject id world call

def Untouched (sha256 : String → String) (isObject : String → Bool) (id : String) : World → List Call → Prop :=
  Throughout sha256 isObject fun world call => ¬Writes sha256 isObject id world call ∧ ¬Removes sha256 isObject id world call

theorem run_epoch {id : String} {world : World} {calls : List Call} (kept : Kept sha256 isObject id world calls) :
    (Untouched sha256 isObject id world calls ∧ (world.run sha256 isObject calls).tables id = world.tables id) ∨
      Below (observerStateEpoch world.tables id) (observerStateEpoch (world.run sha256 isObject calls).tables id) := by
  induction calls generalizing world with
  | nil => exact .inl ⟨trivial, rfl⟩
  | cons call rest ih =>
    obtain ⟨first, later⟩ := kept
    have unfolded : world.run sha256 isObject (call :: rest) = (world.step sha256 isObject call).run sha256 isObject rest := rfl
    rw [unfolded]
    rcases step_epoch first with ⟨-, grows⟩ | ⟨silent, stays⟩
    · rcases ih later with ⟨-, same⟩ | grown
      · refine .inr ?_
        have final : observerStateEpoch ((world.step sha256 isObject call).run sha256 isObject rest).tables id =
            observerStateEpoch (world.step sha256 isObject call).tables id := congrArg (Option.map _) same
        rwa [final]
      · exact .inr (grows.trans grown)
    · have start : observerStateEpoch (world.step sha256 isObject call).tables id = observerStateEpoch world.tables id :=
        congrArg (Option.map _) stays
      rcases ih later with ⟨untouched, same⟩ | grown
      · exact .inl ⟨⟨⟨silent, first⟩, untouched⟩, same.trans stays⟩
      · exact .inr (start ▸ grown)

theorem prepare_captures {forceFull : Bool} {prepared : PreparedObserverUpdate}
    (captured : prepareObserverUpdate sha256 isObject tables identity forceFull = .ok prepared) :
    prepared.identity = identity ∧ prepared.expectedEpoch = observerStateEpoch tables (identity.id sha256) := by
  unfold prepareObserverUpdate at captured
  split at captured
  · rename_i prior loaded
    cases captured
    refine ⟨rfl, ?_⟩
    unfold loadObserverState at loaded
    unfold observerStateEpoch
    split at loaded
    · rename_i missing
      cases loaded
      rw [missing]
      rfl
    · rename_i stored found
      obtain ⟨-, -, loaded⟩ := bind_ok.1 loaded
      obtain ⟨-, -, loaded⟩ := bind_ok.1 loaded
      obtain ⟨-, -, loaded⟩ := bind_ok.1 loaded
      obtain ⟨-, -, loaded⟩ := bind_ok.1 loaded
      cases loaded
      rw [found]
      rfl
  · split at captured
    · cases captured
      exact ⟨rfl, rfl⟩
    · cases captured

def SameHandle (handle : Nat) (world later : World) : Prop :=
  ∀ prepared, world.prepared[handle]? = some prepared → ∃ held, later.prepared[handle]? = some held ∧
    held.identity = prepared.identity ∧ held.expectedEpoch = prepared.expectedEpoch

theorem step_handle (handle : Nat) (world : World) (call : Call) :
    SameHandle handle world (world.step sha256 isObject call) := by
  intro prepared held
  have bound : handle < world.prepared.length := (List.getElem?_eq_some_iff.1 held).1
  cases outcome : world.exec sha256 isObject call with
  | error error =>
    refine ⟨prepared, ?_, rfl, rfl⟩
    rw [World.step, outcome]
    exact held
  | ok next =>
    rw [World.step, outcome]
    cases call with
    | prepare identity forceFull =>
      obtain ⟨added, -, same⟩ := bind_ok.1 outcome
      cases same
      exact ⟨prepared, (List.getElem?_append_left bound).trans held, rfl, rfl⟩
    | discard other =>
      cases outcome
      by_cases same : other = handle
      · subst same
        exact ⟨{ prepared with discarded := true }, by simp [held], rfl, rfl⟩
      · exact ⟨prepared, by simp [same, held], rfl, rfl⟩
    | deleteWallet walletId =>
      cases outcome
      exact ⟨prepared, held, rfl, rfl⟩
    | deleteProfile profileId =>
      cases outcome
      exact ⟨prepared, held, rfl, rfl⟩
    | persist identity payload coverage expected =>
      obtain ⟨tables, -, same⟩ := bind_ok.1 outcome
      cases same
      exact ⟨prepared, held, rfl, rfl⟩
    | apply other application =>
      unfold World.exec at outcome
      dsimp only at outcome
      split at outcome
      · cases outcome
      · rename_i used found
        obtain ⟨tables, -, same⟩ := bind_ok.1 outcome
        cases same
        by_cases same : other = handle
        · subst same
          obtain rfl : used = prepared := some.inj (found.symm.trans held)
          exact ⟨{ used with applied := true }, by simp [bound], rfl, rfl⟩
        · exact ⟨prepared, by simp [same, held], rfl, rfl⟩

theorem run_handle (handle : Nat) (world : World) (calls : List Call) :
    SameHandle handle world (world.run sha256 isObject calls) := by
  induction calls generalizing world with
  | nil => exact fun prepared held => ⟨prepared, held, rfl, rfl⟩
  | cons call rest ih =>
    intro prepared held
    obtain ⟨next, found, identity, epoch⟩ := step_handle handle world call prepared held
    obtain ⟨last, kept, identity', epoch'⟩ := ih _ next found
    exact ⟨last, kept, identity'.trans identity, epoch'.trans epoch⟩

/-- What the fence guarantees over a window of calls: an update prepared right before it applies right after it only when
nothing touched the observer in between, and no epoch stands for two stored states. -/
structure Fenced (sha256 : String → String) (isObject : String → Bool) (id : String) (world : World) (calls : List Call) :
    Prop where
  updates : ∀ earlier identity forceFull, identity.id sha256 = id →
    World.exec sha256 isObject earlier (.prepare identity forceFull) = .ok world →
    ∀ application next, (world.run sha256 isObject calls).exec sha256 isObject (.apply earlier.prepared.length application) =
      .ok next → Untouched sha256 isObject id world calls
  epochs : ∀ stored later, world.tables id = some stored → (world.run sha256 isObject calls).tables id = some later →
    stored.row.stateEpoch = later.row.stateEpoch → stored = later

/-- The fence holds over every window that does not remove the observer's row. -/
theorem fenced_of_kept (id : String) (world : World) (calls : List Call) (kept : Kept sha256 isObject id world calls) :
    Fenced sha256 isObject id world calls := by
  refine ⟨?_, ?_⟩
  · intro earlier identity forceFull own captured application next applied
    subst own
    obtain ⟨prepared, made, same⟩ := bind_ok.1 captured
    obtain ⟨named, epoch⟩ := prepare_captures made
    have world_is : world = { earlier with prepared := earlier.prepared ++ [prepared] } := by
      cases same
      rfl
    have held : world.prepared[earlier.prepared.length]? = some prepared := by
      rw [world_is]
      simp
    obtain ⟨last, found, identity', epoch'⟩ := run_handle _ world calls prepared held
    rcases run_epoch kept with ⟨untouched, -⟩ | grown
    · exact untouched
    · -- The epoch moved on, so the captured one is stale.
      unfold World.exec at applied
      dsimp only at applied
      rw [found] at applied
      obtain ⟨tables, fenced, -⟩ := bind_ok.1 applied
      obtain ⟨-, reachedEpoch, reached, -⟩ := apply_ok fenced
      rw [identity', named] at reached
      have start : observerStateEpoch world.tables (identity.id sha256) = observerStateEpoch earlier.tables (identity.id sha256) := by
        rw [world_is]
      rw [fence_holds reached, epoch', epoch, start] at grown
      exact absurd grown (not_below_self _)
  · intro stored later first last same
    rcases run_epoch kept with ⟨-, stays⟩ | grown
    · exact some.inj (first.symm.trans (stays.symm.trans last))
    · rw [observerStateEpoch, observerStateEpoch, first, last, map_some, map_some, same] at grown
      exact absurd grown (not_below_self _)

def sampleDigest (_ : String) : String := "b174a7ef1af965962d4a652dac3a29f9a99aa0946b80898e790ac1a26f0722fa"

def sampleIdentity : ObserverIdentity :=
  { workspaceId := "ws", profileId := "p", logicalWalletId := "w", sourceWalletId := "w", sourceKey := "descriptor:default"
    observerKind := "compatibility", chain := "bitcoin", network := "main", branchKeys := ["receive"], placed := by decide }

def emptyWorld : World := { tables := fun _ => none, prepared := [] }

/-- One refresh has stored its state, and another one is prepared against it. -/
def preparedWorld : World :=
  emptyWorld.run sampleDigest (fun _ => true)
    [.persist sampleIdentity (some "\x7b\"tip\":1\x7d") [] .unconditional, .prepare sampleIdentity false]

theorem sample_fenced :
    Kept sampleDigest (fun _ => true) (sampleDigest "") preparedWorld
        [.persist sampleIdentity (some "\x7b\"tip\":2\x7d") [] .unconditional] ∧
      Fenced sampleDigest (fun _ => true) (sampleDigest "") preparedWorld
        [.persist sampleIdentity (some "\x7b\"tip\":2\x7d") [] .unconditional] := by
  have kept : Kept sampleDigest (fun _ => true) (sampleDigest "") preparedWorld
      [.persist sampleIdentity (some "\x7b\"tip\":2\x7d") [] .unconditional] :=
    ⟨fun removed => some_ne_none _ removed.2, trivial⟩
  exact ⟨kept, fenced_of_kept _ _ _ kept⟩

/-- After a deletion the epoch of the next state is that of the first, and a stale update replaces it. -/
theorem deleted_observer_update_lost :
    ¬∀ (sha256 : String → String) (isObject : String → Bool) (id : String) (world : World) (calls : List Call),
      Fenced sha256 isObject id world calls := by
  intro every
  have fenced := every sampleDigest (fun _ => true) (sampleDigest "") preparedWorld
    [.deleteWallet "w", .persist sampleIdentity (some "\x7b\"tip\":2\x7d") [] .unconditional]
  have untouched := fenced.updates
    (emptyWorld.run sampleDigest (fun _ => true) [.persist sampleIdentity (some "\x7b\"tip\":1\x7d") [] .unconditional])
    sampleIdentity false rfl rfl { state := some "\x7b\"tip\":1\x7d", coverage := [] } _ rfl
  exact untouched.1.2 ⟨⟨_, rfl⟩, rfl⟩

end Kassiber.Sync.Observer
