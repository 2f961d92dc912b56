import Kassiber.Austrian.Regimes

/-!
A move settles exactly the flows it reports, no wallet is overdrawn and nothing changes its regime on the way.
-/

namespace Kassiber.Austrian
open Lib.Outcome Lib.Dict Transfers List Function

variable {available : Availability}

variable {key : String}

theorem depleteAvailable_taken {regime : Regime} (amount : Int)
    (nonneg : 0 ≤ available regime key) :
    0 ≤ (depleteAvailable available regime key amount).2 ∧
      (depleteAvailable available regime key amount).2 ≤ available regime key ∧
      (0 ≤ amount → (depleteAvailable available regime key amount).2 ≤ amount) := by
  unfold depleteAvailable
  split
  · exact ⟨le_refl 0, nonneg, id⟩
  · rename_i positive
    exact ⟨le_min nonneg (by omega), min_le_left .., fun _ => min_le_right ..⟩

theorem depleteAvailable_left {regime : Regime} (amount : Int)
    (nonneg : 0 ≤ available regime key) (r : Regime) (k : String) :
    (depleteAvailable available regime key amount).1 r k =
      if r = regime ∧ k = key then available r k - (depleteAvailable available regime key amount).2
      else available r k := by
  unfold depleteAvailable
  split
  · simp
  · dsimp only
    split
    · rename_i same
      obtain ⟨rfl, rfl⟩ := same
      rw [max_eq_right]
      exact Int.sub_nonneg.2 (min_le_left ..)
    · rfl

/-- What was taken from each regime was there, is gone now and stays within the amount asked for. -/
structure Depletes (key : String) (order : List Regime) (remaining : Int) (available : Availability)
    (result : Availability) (taken : Regime → Int) : Prop where
  left : ∀ r k, result r k = if k = key then available r k - taken r else available r k
  nonneg : ∀ r, 0 ≤ taken r
  held : ∀ r, taken r ≤ available r key
  outside : ∀ r, r ∉ order → taken r = 0
  within : (order.map taken).sum ≤ remaining

theorem depleteInOrder_depletes {order : List Regime} (nodup : order.Nodup) {remaining : Int}
    (positive : 0 ≤ remaining) (nonneg : ∀ r, 0 ≤ available r key) (moved : Regime → Int) :
    Depletes key order remaining available (depleteInOrder key order remaining available moved).1
      fun r => (depleteInOrder key order remaining available moved).2 r - moved r := by
  induction order generalizing remaining available moved with
  | nil =>
    simp only [depleteInOrder, sub_self]
    exact ⟨fun r k => by split <;> simp, fun _ => le_refl 0, nonneg, fun _ _ => rfl, by simpa using positive⟩
  | cons regime rest ih =>
    obtain ⟨notin, nodupRest⟩ := nodup_cons.1 nodup
    obtain ⟨takenNonneg, takenHeld, takenWithin⟩ := depleteAvailable_taken remaining (nonneg regime)
    have after := depleteAvailable_left remaining (nonneg regime)
    simp only [depleteInOrder]
    generalize depleteAvailable available regime key remaining = step at takenNonneg takenHeld takenWithin after
    obtain ⟨stepped, taken⟩ := step
    dsimp only at takenNonneg takenHeld takenWithin after ⊢
    split
    · -- the amount is reached, so no other regime is touched
      refine ⟨?_, ?_, ?_, ?_, ?_⟩
      · intro r k
        dsimp only
        rw [after r k]
        by_cases same : r = regime
        · subst same
          simp
        · simp [same]
      · intro r
        by_cases same : r = regime
        · subst same
          simpa using takenNonneg
        · simp [same]
      · intro r
        by_cases same : r = regime
        · subst same
          simpa using takenHeld
        · simpa [same] using nonneg r
      · intro r outside
        have other : r ≠ regime := fun same => outside (by simp [same])
        simp [other]
      · rw [map_cons, sum_cons, sum_eq_zero]
        · simpa using takenWithin positive
        · intro x member
          obtain ⟨r, inside, rfl⟩ := mem_map.1 member
          have other : r ≠ regime := fun same => notin (same ▸ inside)
          simp [other]
    · rename_i more
      have steppedNonneg : ∀ r, 0 ≤ stepped r key := by
        intro r
        rw [after r key]
        split
        · rename_i same
          rw [same.1]
          omega
        · exact nonneg r
      have later := ih nodupRest (by omega : 0 ≤ remaining - taken) steppedNonneg
        (update moved regime (moved regime + taken))
      generalize depleteInOrder key rest (remaining - taken) stepped
        (update moved regime (moved regime + taken)) = final at later
      obtain ⟨finalAvailable, finalMoved⟩ := final
      dsimp only at later ⊢
      have untouched : finalMoved regime = moved regime + taken := by
        have zero := later.outside regime notin
        simp only [update_self] at zero
        omega
      have others : ∀ r, r ≠ regime → finalMoved r - update moved regime (moved regime + taken) r =
          finalMoved r - moved r := by
        intro r other
        rw [update_of_ne other]
      refine ⟨?_, ?_, ?_, ?_, ?_⟩
      · intro r k
        rw [later.left r k, after r k]
        by_cases same : r = regime
        · subst same
          simp only [update_self, true_and]
          split <;> omega
        · rw [others r same]
          simp [same]
      · intro r
        by_cases same : r = regime
        · subst same
          omega
        · rw [← others r same]
          exact later.nonneg r
      · intro r
        by_cases same : r = regime
        · subst same
          omega
        · rw [← others r same]
          refine (later.held r).trans ?_
          rw [after r key]
          simp [same]
      · intro r outside
        have other : r ≠ regime := fun same => outside (by simp [same])
        rw [← others r other]
        exact later.outside r fun inside => outside (.tail _ inside)
      · have sums : (rest.map fun r => finalMoved r - moved r) =
            rest.map fun r => finalMoved r - update moved regime (moved regime + taken) r :=
          map_congr_left fun r inside => (others r fun same => notin (same ▸ inside)).symm
        rw [map_cons, sum_cons, sums]
        have bound := later.within
        omega

/-- The slices of an amount fill the pools in order until the amount is reached. -/
structure Slices (pools : Regime → Int) (order : List Regime) (remaining : Int) (taken : Regime → Int) : Prop where
  nonneg : ∀ r, 0 ≤ taken r
  held : ∀ r, taken r ≤ pools r
  outside : ∀ r, r ∉ order → taken r = 0
  total : (order.map taken).sum = min (order.map pools).sum remaining

theorem slicesInOrder_slices {pools : Regime → Int} (nonneg : ∀ r, 0 ≤ pools r) {order : List Regime}
    (nodup : order.Nodup) {remaining : Int} (positive : 0 ≤ remaining) (slices : Regime → Int) :
    Slices pools order remaining fun r => slicesInOrder pools order remaining slices r - slices r := by
  induction order generalizing remaining slices with
  | nil =>
    simp only [slicesInOrder, sub_self]
    exact ⟨fun _ => le_refl 0, nonneg, fun _ _ => rfl, by simpa using positive⟩
  | cons regime rest ih =>
    obtain ⟨notin, nodupRest⟩ := nodup_cons.1 nodup
    have poolNonneg := nonneg regime
    have restNonneg : 0 ≤ (rest.map pools).sum := sum_nonneg fun x member => by
      obtain ⟨r, -, rfl⟩ := mem_map.1 member
      exact nonneg r
    simp only [slicesInOrder]
    split
    · rename_i empty
      have later := ih nodupRest positive slices
      refine ⟨later.nonneg, later.held, fun r outside => later.outside r fun inside =>
        outside (.tail _ inside), ?_⟩
      have zero := later.outside regime notin
      have total := later.total
      simp only [map_cons, sum_cons, zero, total]
      omega
    · rename_i some
      split
      · rename_i reached
        have others : ∀ r, r ≠ regime →
            update slices regime (slices regime + min (pools regime) remaining) r - slices r = 0 := by
          intro r other
          rw [update_of_ne other]
          omega
        have own : update slices regime (slices regime + min (pools regime) remaining) regime -
            slices regime = min (pools regime) remaining := by
          rw [update_self]
          omega
        refine ⟨?_, ?_, ?_, ?_⟩
        · intro r
          by_cases same : r = regime
          · subst same
            omega
          · exact (others r same).ge
        · intro r
          by_cases same : r = regime
          · subst same
            omega
          · rw [others r same]
            exact nonneg r
        · intro r outside
          exact others r fun same => outside (by simp [same])
        · rw [map_cons, sum_cons, own, sum_eq_zero]
          · rw [map_cons, sum_cons]
            omega
          · intro x member
            obtain ⟨r, inside, rfl⟩ := mem_map.1 member
            exact others r fun same => notin (same ▸ inside)
      · rename_i more
        have later := ih nodupRest (by omega : 0 ≤ remaining - min (pools regime) remaining)
          (update slices regime (slices regime + min (pools regime) remaining))
        generalize slicesInOrder pools rest (remaining - min (pools regime) remaining)
          (update slices regime (slices regime + min (pools regime) remaining)) = final at later
        have own : final regime - slices regime = min (pools regime) remaining := by
          have zero := later.outside regime notin
          rw [update_self] at zero
          omega
        have others : ∀ r, r ≠ regime →
            final r - update slices regime (slices regime + min (pools regime) remaining) r =
              final r - slices r := by
          intro r other
          rw [update_of_ne other]
        refine ⟨?_, ?_, ?_, ?_⟩
        · intro r
          by_cases same : r = regime
          · subst same
            omega
          · rw [← others r same]
            exact later.nonneg r
        · intro r
          by_cases same : r = regime
          · subst same
            omega
          · rw [← others r same]
            exact later.held r
        · intro r outside
          rw [← others r fun same => outside (by simp [same])]
          exact later.outside r fun inside => outside (.tail _ inside)
        · have sums : (rest.map fun r => final r - slices r) = rest.map fun r =>
              final r - update slices regime (slices regime + min (pools regime) remaining) r :=
            map_congr_left fun r inside => (others r fun same => notin (same ▸ inside)).symm
          rw [map_cons, sum_cons, own, sums, later.total, map_cons, sum_cons]
          omega

theorem regimeOrder_nodup (regime : Regime) : (regimeOrder regime).Nodup := by
  cases regime <;> decide

theorem sum_regimeOrder (regime : Regime) (f : Regime → Int) :
    ((regimeOrder regime).map f).sum = f .alt + f .neu := by
  cases regime <;> simp [regimeOrder, add_comm]

/-- A move takes from its source exactly what flows out and adds to its destination exactly what flows in. -/
structure MovesExactly (action : TransferAction) (before after : Availability) (flows : Flows) : Prop where
  settled : ∀ r k, after r k = before r k - (if k = action.fromKey then flows.out r else 0) +
    (if k = action.toKey then flows.into r else 0)
  nonneg : ∀ r, 0 ≤ flows.into r
  carried : ∀ r, flows.into r ≤ flows.out r
  held : ∀ r, flows.out r ≤ before r action.fromKey
  lost : (flows.out .alt + flows.out .neu) - (flows.into .alt + flows.into .neu) ≤ action.fee

theorem moveAvailability_exact (nonneg : ∀ r k, 0 ≤ available r k)
    (action : TransferAction) (dated : Regime) :
    MovesExactly action available (moveAvailability available action dated).available
      (moveAvailability available action dated).flows := by
  unfold moveAvailability
  split
  · refine ⟨?_, fun _ => le_refl 0, fun _ => le_refl 0, fun r => nonneg r _, ?_⟩
    · intro r k
      simp [emptyFlows]
    · simp [emptyFlows, TransferAction.fee]
  · rename_i amounts
    obtain ⟨sent, received⟩ := not_or.1 amounts
    dsimp only
    generalize moveRegime available action dated = preferred
    have nodup := regimeOrder_nodup preferred
    have depleted := depleteInOrder_depletes nodup (by omega : 0 ≤ action.sent) (fun r => nonneg r action.fromKey)
      fun _ => 0
    generalize depleteInOrder action.fromKey (regimeOrder preferred) action.sent available (fun _ => 0) = taken
      at depleted
    obtain ⟨after, moved⟩ := taken
    simp only [sub_zero] at depleted
    have feeNonneg : 0 ≤ action.fee := le_max_left ..
    have fees := slicesInOrder_slices depleted.nonneg nodup feeNonneg fun _ => 0
    simp only [sub_zero] at fees
    generalize slicesInOrder moved (regimeOrder preferred) action.fee (fun _ => 0) = feeBy at fees
    have leftNonneg : ∀ r, 0 ≤ moved r - feeBy r := fun r => Int.sub_nonneg.2 (fees.held r)
    have carried := slicesInOrder_slices leftNonneg nodup (by omega : 0 ≤ action.received) fun _ => 0
    simp only [sub_zero] at carried
    generalize slicesInOrder (fun r => moved r - feeBy r) (regimeOrder preferred) action.received (fun _ => 0) =
      carriedBy at carried
    have within := depleted.within
    have feeTotal := fees.total
    have carriedTotal := carried.total
    rw [sum_regimeOrder] at within feeTotal carriedTotal
    rw [sum_regimeOrder] at feeTotal carriedTotal
    have altFee := fees.nonneg .alt
    have neuFee := fees.nonneg .neu
    have altHeld := carried.held .alt
    have neuHeld := carried.held .neu
    -- the fee and the receipt together use up all that was taken
    have spent : ∀ r, feeBy r + carriedBy r = moved r := by
      unfold TransferAction.fee at feeTotal
      intro r
      cases r <;> omega
    refine ⟨?_, carried.nonneg, fun r => ?_, fun r => ?_, ?_⟩
    · intro r k
      dsimp only
      rw [spent r, depleted.left r k]
      split <;> split <;> simp
    · exact le_add_of_nonneg_left (fees.nonneg r)
    · exact (spent r).le.trans (depleted.held r)
    · dsimp only
      omega

/-- No wallet is overdrawn, and no wallets together hold more than was acquired. -/
structure Conserved (available : Availability) (acquired : Regime → Int) : Prop where
  nonneg : ∀ r k, 0 ≤ available r k
  bounded : ∀ r (wallets : Finset String), ∑ k ∈ wallets, available r k ≤ acquired r

theorem Conserved.weaken {acquired more : Regime → Int}
    (conserved : Conserved available acquired) (grown : ∀ r, acquired r ≤ more r) : Conserved available more :=
  ⟨conserved.nonneg, fun r wallets => (conserved.bounded r wallets).trans (grown r)⟩

theorem Conserved.move {action : TransferAction} {before after : Availability} {flows : Flows}
    {acquired : Regime → Int} (conserved : Conserved before acquired)
    (exact : MovesExactly action before after flows) : Conserved after acquired := by
  constructor
  · intro r k
    rw [exact.settled r k]
    have held := exact.held r
    have into := exact.nonneg r
    have start := conserved.nonneg r k
    split <;> split <;> simp_all <;> omega
  · intro r wallets
    simp only [exact.settled, Finset.sum_add_distrib, Finset.sum_sub_distrib, Finset.sum_ite_eq']
    have bound := conserved.bounded r wallets
    have carried := exact.carried r
    have into := exact.nonneg r
    by_cases source : action.fromKey ∈ wallets
    · simp only [source, if_true]
      split <;> omega
    · -- the source is outside, so what flows in was counted there before
      have wider := conserved.bounded r (insert action.fromKey wallets)
      rw [Finset.sum_insert source] at wider
      have held := exact.held r
      simp only [source, if_false]
      split <;> omega

theorem Conserved.deplete {acquired : Regime → Int} (conserved : Conserved available acquired)
    (regime : Regime) (key : String) (amount : Int) :
    Conserved (depleteAvailable available regime key amount).1 acquired := by
  obtain ⟨taken, held, -⟩ := depleteAvailable_taken amount (conserved.nonneg regime key)
  have left := depleteAvailable_left amount (conserved.nonneg regime key)
  generalize depleteAvailable available regime key amount = step at taken held left
  have smaller : ∀ r k, step.1 r k ≤ available r k := by
    intro r k
    rw [left r k]
    split <;> omega
  constructor
  · intro r k
    rw [left r k]
    split
    · rename_i same
      rw [same.1, same.2]
      omega
    · exact conserved.nonneg r k
  · intro r wallets
    exact (Finset.sum_le_sum fun k _ => smaller r k).trans (conserved.bounded r wallets)

theorem Conserved.acquire {acquired : Regime → Int}
    (conserved : Conserved available acquired) (regime : Regime) (key : String) {amount : Int} (nonneg : 0 ≤ amount) :
    Conserved (available.change regime key amount) fun r => acquired r + if r = regime then amount else 0 := by
  have changed : ∀ r k, available.change regime key amount r k =
      available r k + if k = key then (if r = regime then amount else 0) else 0 := by
    intro r k
    unfold Availability.change
    split <;> rename_i same
    · rw [if_pos same.2, if_pos same.1]
    · split
      · rename_i key
        rw [if_neg fun regime => same ⟨regime, key⟩, add_zero]
      · rw [add_zero]
  constructor
  · intro r k
    have start := conserved.nonneg r k
    rw [changed]
    split <;> (try split) <;> omega
  · intro r wallets
    have bound := conserved.bounded r wallets
    simp only [changed, Finset.sum_add_distrib, Finset.sum_ite_eq']
    split <;> split <;> omega

section
variable (parseOccurredAt : String → Option Int)

/-- What inbound rows of one regime brought in, apart from the legs of transfer pairs. -/
def acquired (transferRowIds : List String) (rows : List Row) (regime : Regime) : Int :=
  ((rows.filter fun row => transferRowIds.contains row.id = false ∧ direction row = "inbound" ∧
    (inferRegimeFromTimestamp parseOccurredAt row.occurredAt).toOption = some regime).map
      fun row => msat row.amount).sum

variable {transferRowIds : List String}

theorem acquired_append (before after : List Row) (regime : Regime) :
    acquired parseOccurredAt transferRowIds (before ++ after) regime =
      acquired parseOccurredAt transferRowIds before regime + acquired parseOccurredAt transferRowIds after regime := by
  unfold acquired
  rw [filter_append, map_append, sum_append]

variable {rows : List Row}

theorem acquired_nonneg (nonneg : ∀ row ∈ rows, 0 ≤ msat row.amount) (regime : Regime) :
    0 ≤ acquired parseOccurredAt transferRowIds rows regime := by
  refine sum_nonneg fun x member => ?_
  obtain ⟨row, inside, rfl⟩ := mem_map.1 member
  exact nonneg row (mem_filter.1 inside).1

variable {parseOccurredAt} {base : Regime → Int}

variable {s t : Inference}

theorem processAction_conserved {action : TransferAction}
    (conserved : Conserved s.available base) (run : processAction parseOccurredAt s action = .ok t) :
    Conserved t.available base := by
  obtain ⟨moved, step, result⟩ := bind_ok.1 run
  obtain ⟨dated, -, taken⟩ := bind_ok.1 step
  cases taken
  cases result
  exact conserved.move (moveAvailability_exact conserved.nonneg action dated)

theorem processActions_conserved {actions : List TransferAction}
    (conserved : Conserved s.available base) (run : actions.foldlM (processAction parseOccurredAt) s = .ok t) :
    Conserved t.available base :=
  foldlM_invariant (fun s => Conserved s.available base)
    conserved (fun _ _ _ _ before step => processAction_conserved before step) run

theorem processRow_conserved {actions : TriggeredActions} {row : Row}
    (conserved : Conserved s.available base) (nonneg : 0 ≤ msat row.amount)
    (run : processRow parseOccurredAt actions transferRowIds s row = .ok t) :
    Conserved t.available fun r => base r + acquired parseOccurredAt transferRowIds [row] r := by
  have grown : ∀ r, base r ≤ base r + acquired parseOccurredAt transferRowIds [row] r := fun r =>
    le_add_of_nonneg_right (acquired_nonneg parseOccurredAt (by simpa using nonneg) r)
  unfold processRow at run
  split at run
  · exact (processActions_conserved conserved run).weaken grown
  split at run
  · cases run
    exact conserved.weaken grown
  split at run
  · rename_i unpaired inbound
    obtain ⟨regime, dated, result⟩ := bind_ok.1 run
    cases result
    refine (conserved.acquire regime (availabilityKey row.walletId) nonneg).weaken fun r => ?_
    have known : (inferRegimeFromTimestamp parseOccurredAt row.occurredAt).toOption = some regime := by
      rw [dated]
      rfl
    have apart := Bool.eq_false_iff.2 unpaired
    by_cases same : r = regime
    · simp only [acquired, filter_cons, apart, inbound, known, same, and_self, decide_true]
      simp
    · simp only [acquired, filter_cons, apart, inbound, known]
      simp [same, Ne.symm same]
  split at run
  · obtain ⟨dated, -, result⟩ := bind_ok.1 run
    cases result
    refine Conserved.weaken ?_ grown
    dsimp only
    split
    · exact conserved
    · exact conserved.deplete ..
  · cases run
    exact conserved.weaken grown

theorem processRows_conserved {actions : TriggeredActions}
    (conserved : Conserved s.available base) (nonneg : ∀ row ∈ rows, 0 ≤ msat row.amount)
    (run : rows.foldlM (processRow parseOccurredAt actions transferRowIds) s = .ok t) :
    Conserved t.available fun r => base r + acquired parseOccurredAt transferRowIds rows r := by
  induction rows generalizing s base with
  | nil =>
    cases run
    simpa [acquired] using conserved
  | cons row rest ih =>
    rw [foldlM_cons, bind_ok] at run
    obtain ⟨next, first, later⟩ := run
    have step := processRow_conserved conserved (nonneg row (.head _)) first
    refine (ih step (fun other member => nonneg other (.tail _ member)) later).weaken fun r => ?_
    rw [add_assoc, ← acquired_append, singleton_append]

theorem start_conserved : Conserved ({} : Inference).available fun _ => 0 :=
  ⟨fun _ _ => le_refl 0, fun _ _ => by simp⟩

variable {pairs : List Pair} {rowIds : List String}

theorem inferRows_conserved (nonneg : ∀ row ∈ rows, 0 ≤ msat row.amount)
    (run : inferRows parseOccurredAt pairs rowIds rows = .ok s) :
    Conserved s.available (acquired parseOccurredAt (transferActionsForIntraPairs pairs rowIds).2 rows) := by
  have conserved := processRows_conserved start_conserved nonneg run
  simp only [zero_add] at conserved
  exact conserved

theorem inferRows_split {before after : List Row} {final : Inference}
    (run : inferRows parseOccurredAt pairs rowIds (before ++ after) = .ok final) :
    ∃ s, inferRows parseOccurredAt pairs rowIds before = .ok s := by
  unfold inferRows at run
  dsimp only at run
  rw [foldlM_append, bind_ok] at run
  exact ⟨run.choose, run.choose_spec.1⟩

/-- Between any two moves of the inference no wallet is overdrawn and the wallets hold no more of a regime than
inbound rows outside the transfer pairs brought in so far, and every move settles exactly the flows it reports. An
inference that ends passes through such a state at every prefix of its rows and ends in one. -/
theorem inference_conserves (rows : List Row) (pairs : List Pair) (nonneg : ∀ row ∈ rows, 0 ≤ msat row.amount) :
    (∀ processed rest s, rows = processed ++ rest → inferRows parseOccurredAt pairs (rows.map Row.id) processed = .ok s →
      Conserved s.available (acquired parseOccurredAt (transferActionsForIntraPairs pairs (rows.map Row.id)).2 processed) ∧
        ∀ row later, rest = row :: later → ∀ done action pending,
          actionsAt (transferActionsForIntraPairs pairs (rows.map Row.id)).1 row.id = done ++ action :: pending →
          ∀ t, done.foldlM (processAction parseOccurredAt) s = .ok t →
            Conserved t.available
                (acquired parseOccurredAt (transferActionsForIntraPairs pairs (rows.map Row.id)).2 processed) ∧
              ∀ u, processAction parseOccurredAt t action = .ok u →
                ∃ flows, u.transferFlows = t.transferFlows ++ [((action.outRow.id, action.inRow.id), flows)] ∧
                  MovesExactly action t.available u.available flows) ∧
    ∀ final, inferOutboundRegimes parseOccurredAt rows pairs = .ok final →
      (∀ processed rest, rows = processed ++ rest →
        ∃ s, inferRows parseOccurredAt pairs (rows.map Row.id) processed = .ok s) ∧
      Conserved final.available
        (acquired parseOccurredAt (transferActionsForIntraPairs pairs (rows.map Row.id)).2 rows) := by
  constructor
  · intro processed rest s walk run
    have conserved := inferRows_conserved (fun row member => nonneg row (walk ▸ mem_append_left _ member)) run
    refine ⟨conserved, ?_⟩
    intro row later _ done action pending _ t reached
    have still := processActions_conserved conserved reached
    refine ⟨still, ?_⟩
    intro u step
    obtain ⟨moved, taken, result⟩ := bind_ok.1 step
    obtain ⟨dated, -, same⟩ := bind_ok.1 taken
    cases same
    cases result
    exact ⟨_, rfl, moveAvailability_exact still.nonneg action dated⟩
  · intro final run
    refine ⟨fun processed rest walk => ?_, inferRows_conserved nonneg run⟩
    unfold inferOutboundRegimes at run
    generalize rows.map Row.id = ids at run ⊢
    rw [walk] at run
    exact inferRows_split run

def sampleBought : Row :=
  { id := "bought", walletId := some "cold", direction := some "inbound", occurredAt := "2020", amount := some 100 }

def sampleLeft : Row :=
  { id := "left", walletId := some "cold", direction := some "outbound", occurredAt := "2020", amount := some 60,
    fee := some 5 }

def sampleArrived : Row :=
  { id := "arrived", walletId := some "hot", direction := some "inbound", occurredAt := "2020", amount := some 60 }

def samplePair : Pair := { outRow := sampleLeft, inRow := sampleArrived, pairId := some "reviewed" }

def sampleClock (text : String) : Option Int := if text = "2020" then some 1577836800000000 else none

def sampleMove : TransferAction := { outRow := sampleLeft, inRow := sampleArrived, regimeRowId := "left" }

def sampleHeld : Inference := { available := Availability.change (fun _ _ => 0) .alt "cold" 100 }

theorem inference_conserves_transfer :
    inferRows sampleClock [samplePair] ["bought", "left", "arrived"] [sampleBought] = .ok sampleHeld ∧
      ∃ u flows, processAction sampleClock sampleHeld sampleMove = .ok u ∧
        u.transferFlows = [(("left", "arrived"), flows)] ∧ MovesExactly sampleMove sampleHeld.available u.available flows := by
  have quiet : actionsAt (transferActionsForIntraPairs [samplePair] ["bought", "left", "arrived"]).1 "bought" = [] := by
    decide +kernel
  have plain : (transferActionsForIntraPairs [samplePair] ["bought", "left", "arrived"]).2.contains "bought" = false := by
    decide +kernel
  have inbound : direction sampleBought = "inbound" := by decide +kernel
  have first : inferRows sampleClock [samplePair] ["bought", "left", "arrived"] [sampleBought] = .ok sampleHeld := by
    have named : sampleBought.id = "bought" := rfl
    simp only [inferRows, foldlM_cons, foldlM_nil, processRow, named, quiet, plain, inbound]
    rfl
  obtain ⟨u, moved⟩ : ∃ u, processAction sampleClock sampleHeld sampleMove = .ok u := ⟨_, rfl⟩
  have settled := (((@inference_conserves sampleClock [sampleBought, sampleLeft, sampleArrived] [samplePair]
    (by decide)).1 [sampleBought] [sampleLeft, sampleArrived] sampleHeld rfl first).2 sampleLeft [sampleArrived] rfl []
      sampleMove [] (by decide +kernel) sampleHeld rfl)
  obtain ⟨flows, reported, exact⟩ := settled.2 u moved
  exact ⟨first, u, flows, moved, reported, exact⟩

end

end Kassiber.Austrian
