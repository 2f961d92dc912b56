import Kassiber.Lib.Overlaps

/-!
The shared allocation of a quantity over ordered buckets.
-/

namespace Kassiber.Custody.Fifo
open Lib.Outcome Lib.Overlaps List Option
open Prod (fst)

structure DeterministicAllocationCell where
  sourceId : String
  sinkId : String
  amountMsat : Int
  sourceStartMsat : Int
  sinkStartMsat : Int
  deriving DecidableEq

structure DeterministicAllocationResult where
  cells : List DeterministicAllocationCell
  allocatedMsat : Int
  sourceRemaining : List (String × Int)
  sinkRemaining : List (String × Int)
  deriving DecidableEq

inductive AllocationError where
  | custodyAllocationError (code message : String)
  | indexError
  deriving DecidableEq

abbrev Buckets := List (String × Int)

def allocationBuckets (kind : String) (raw : Buckets) : Except AllocationError Buckets :=
  if ∃ bucket ∈ raw, bucket.1 = "" ∨ bucket.2 < 0 then
    .error (.custodyAllocationError "custody_allocation_invalid_bucket"
      (kind ++ " allocation bucket ids and amounts must be exact"))
  else if ¬ (raw.map fst).Nodup then
    .error (.custodyAllocationError "custody_allocation_duplicate_bucket"
      (kind ++ " allocation bucket ids must be unique"))
  else .ok raw

structure Cursors where
  sourceUsed : List Int
  sinkUsed : List Int
  sourceIndex : Nat := 0
  sinkIndex : Nat := 0
  remaining : Int
  cells : List DeterministicAllocationCell := []

/-- Moves an index past full buckets. It leaves the list within one round more than there are buckets. -/
def skipFull (buckets : Buckets) (used : List Int) : Nat → Nat → Except AllocationError Nat
  | 0, _ => .error .indexError
  | rounds + 1, index =>
    match buckets[index]?, used[index]? with
    | some bucket, some taken => if taken = bucket.2 then skipFull buckets used rounds (index + 1) else .ok index
    | _, _ => .error .indexError

section
variable (sources sinks : Buckets)

def cutCell (s : Cursors) : Except AllocationError Cursors := do
  let sourceIndex ← skipFull sources s.sourceUsed (sources.length + 1) s.sourceIndex
  let sinkIndex ← skipFull sinks s.sinkUsed (sinks.length + 1) s.sinkIndex
  match sources[sourceIndex]?, s.sourceUsed[sourceIndex]?, sinks[sinkIndex]?, s.sinkUsed[sinkIndex]? with
  | some source, some sourceTaken, some sink, some sinkTaken =>
    let amount := min s.remaining (min (source.2 - sourceTaken) (sink.2 - sinkTaken))
    .ok {
      sourceUsed := s.sourceUsed.set sourceIndex (sourceTaken + amount)
      sinkUsed := s.sinkUsed.set sinkIndex (sinkTaken + amount)
      sourceIndex, sinkIndex
      remaining := s.remaining - amount
      cells := s.cells ++ [{ sourceId := source.1, sinkId := sink.1, amountMsat := amount,
                             sourceStartMsat := sourceTaken, sinkStartMsat := sinkTaken }] }
  | _, _, _, _ => .error .indexError

/-- Every cell takes at least one unit, so the amount bounds the rounds. -/
def cutCells : Nat → Cursors → Except AllocationError Cursors
  | 0, s => .ok s
  | rounds + 1, s => if s.remaining = 0 then .ok s else cutCell sources sinks s >>= cutCells rounds

end

def remainingOf (buckets : Buckets) (used : List Int) : List (String × Int) :=
  (buckets.zip used).map fun (bucket, taken) => (bucket.1, bucket.2 - taken)

def allocateMsatFifo (sources sinks : Buckets) (amountMsat : Option Int) :
    Except AllocationError DeterministicAllocationResult := do
  let sourceBuckets ← allocationBuckets "source" sources
  let sinkBuckets ← allocationBuckets "sink" sinks
  let requested := amountMsat.getD (total sinkBuckets)
  raiseIf (requested < 0) (.custodyAllocationError "custody_allocation_invalid_amount"
    "allocation amount must be an exact non-negative integer")
  raiseIf (total sourceBuckets < requested ∨ total sinkBuckets < requested)
    (.custodyAllocationError "custody_allocation_insufficient_capacity"
      "allocation boundaries cannot satisfy the requested quantity")
  let final ← cutCells sourceBuckets sinkBuckets requested.toNat
    { sourceUsed := replicate sourceBuckets.length 0, sinkUsed := replicate sinkBuckets.length 0,
      remaining := requested }
  return {
    cells := final.cells
    allocatedMsat := requested
    sourceRemaining := remainingOf sourceBuckets final.sourceUsed
    sinkRemaining := remainingOf sinkBuckets final.sinkUsed }

def cellOf (shared : Overlap String String) : DeterministicAllocationCell :=
  { sourceId := shared.left, sinkId := shared.right, amountMsat := shared.length
    sourceStartMsat := shared.leftStart, sinkStartMsat := shared.rightStart }

/-- What of each bucket lies inside the first `amount` units. -/
def taken (amount : Int) (buckets : Buckets) : List Int :=
  (intervals 0 buckets).map fun bucket => max 0 (min bucket.2.2 amount - bucket.2.1)

/-- The allocation by overlaps of the consecutive intervals of the sources and of the sinks. -/
def overlapAllocation (sources sinks : Buckets) (amount : Int) : DeterministicAllocationResult where
  cells := (overlaps amount sources sinks).map cellOf
  allocatedMsat := amount
  sourceRemaining := remainingOf sources (taken amount sources)
  sinkRemaining := remainingOf sinks (taken amount sinks)

structure Proper (buckets : Buckets) : Prop where
  named : ∀ bucket ∈ buckets, bucket.1 ≠ ""
  nonneg : ∀ bucket ∈ buckets, 0 ≤ bucket.2
  distinct : (buckets.map fst).Nodup

theorem Proper.accepted {buckets : Buckets} (proper : Proper buckets) (kind : String) :
    allocationBuckets kind buckets = .ok buckets := by
  have valid : ¬ ∃ bucket ∈ buckets, bucket.1 = "" ∨ bucket.2 < 0 := by
    rintro ⟨bucket, member, unnamed | negative⟩
    · exact proper.named bucket member unnamed
    · exact absurd (proper.nonneg bucket member) (not_le.2 negative)
  rw [allocationBuckets, if_neg valid, if_neg (not_not.2 proper.distinct)]

section
variable {buckets : Buckets} (nonneg : ∀ bucket ∈ buckets, 0 ≤ bucket.2)
include nonneg

omit nonneg in
theorem taken_getElem? (amount : Int) (i : Nat) : (taken amount buckets)[i]? =
    buckets[i]?.map fun bucket =>
      max 0 (min (total (buckets.take i) + bucket.2) amount - total (buckets.take i)) := by
  unfold taken
  rw [getElem?_map, intervals_getElem?, Option.map_map]
  simp [Function.comp_def]

theorem taken_zero : taken 0 buckets = replicate buckets.length 0 := by
  refine ext_getElem? fun i => ?_
  rw [taken_getElem?, getElem?_replicate]
  split
  · rename_i inside
    rw [getElem?_eq_getElem inside, map_some]
    have before := total_nonneg fun bucket member => nonneg bucket (mem_of_mem_take (i := i) member)
    congr 1
    omega
  · rename_i outside
    rw [getElem?_eq_none (not_lt.1 outside), map_none]

theorem taken_set {i : Nat} {bucket : String × Int} (found : buckets[i]? = some bucket) {amount later : Int}
    (less : amount ≤ later) (starts : total (buckets.take i) ≤ amount) (ends : later ≤ total (buckets.take i) + bucket.2) :
    (taken amount buckets).set i (later - total (buckets.take i)) = taken later buckets := by
  refine ext_getElem? fun k => ?_
  rw [getElem?_set, taken_getElem?, taken_getElem?]
  split
  · rename_i same
    subst same
    have inside : i < (taken amount buckets).length := by
      rw [taken, length_map, intervals_length]
      exact (List.getElem?_eq_some_iff.1 found).1
    rw [if_pos inside, found, map_some]
    congr 1
    omega
  · rename_i different
    cases other : buckets[k]? with
    | none => rfl
    | some entry =>
      have own := nonneg entry (mem_of_getElem? other)
      rw [map_some, map_some]
      congr 1
      rcases Nat.lt_or_gt_of_ne different with after | before
      · have apart := total_take_mono nonneg after
        rw [Nat.succ_eq_add_one, total_take_succ found] at apart
        omega
      · have apart := total_take_mono nonneg before
        rw [Nat.succ_eq_add_one, total_take_succ other] at apart
        omega

theorem skipFull_spec {amount : Int} (room : amount < total buckets) {rounds index : Nat}
    (enough : buckets.length < rounds + index) (reached : total (buckets.take index) ≤ amount) :
    ∃ j bucket, skipFull buckets (taken amount buckets) rounds index = .ok j ∧ index ≤ j ∧ buckets[j]? = some bucket ∧
      (taken amount buckets)[j]? = some (amount - total (buckets.take j)) ∧
      total (buckets.take j) ≤ amount ∧ amount < total (buckets.take j) + bucket.2 := by
  have inside : index < buckets.length := by
    by_contra beyond
    rw [total_take_length _ (not_lt.1 beyond)] at reached
    omega
  induction rounds generalizing index with
  | zero => omega
  | succ rounds ih =>
    have found := getElem?_eq_getElem inside
    generalize buckets[index] = bucket at found
    have used := @taken_getElem? buckets amount index
    rw [found, map_some] at used
    have own := nonneg bucket (mem_of_getElem? found)
    by_cases full : total (buckets.take index) + bucket.2 ≤ amount
    · have filled : max 0 (min (total (buckets.take index) + bucket.2) amount - total (buckets.take index)) = bucket.2 := by
        omega
      have next : total (buckets.take (index + 1)) ≤ amount := by rw [total_take_succ found]; exact full
      have further : index + 1 < buckets.length := by
        by_contra beyond
        rw [total_take_length _ (not_lt.1 beyond)] at next
        omega
      obtain ⟨j, last, skips, le, rest⟩ := ih (by omega) next further
      refine ⟨j, last, ?_, by omega, rest⟩
      rw [skipFull, found, used]
      dsimp only
      rw [if_pos filled, skips]
    · have partly : max 0 (min (total (buckets.take index) + bucket.2) amount - total (buckets.take index)) =
          amount - total (buckets.take index) := by
        omega
      refine ⟨index, bucket, ?_, le_rfl, found, by rw [used, partly], reached, not_le.1 full⟩
      rw [skipFull, found, used]
      dsimp only
      rw [if_neg (by omega)]

end

section
variable {sources sinks : Buckets} {requested : Int}

/-- After some rounds, the cells are the overlaps inside what is placed, which ends at a bucket's end while anything
remains. -/
structure Placed (sources sinks : Buckets) (requested placed : Int) (s : Cursors) : Prop where
  nonneg : 0 ≤ placed
  within : placed ≤ requested
  remaining : s.remaining = requested - placed
  sourceUsed : s.sourceUsed = taken placed sources
  sinkUsed : s.sinkUsed = taken placed sinks
  cells : s.cells = (overlaps placed sources sinks).map cellOf
  sourceReached : total (sources.take s.sourceIndex) ≤ placed
  sinkReached : total (sinks.take s.sinkIndex) ≤ placed
  atEnd : placed = 0 ∨ placed = requested ∨ placed = total (sources.take (s.sourceIndex + 1)) ∨
    placed = total (sinks.take (s.sinkIndex + 1))

variable {placed : Int}

theorem starts_of_ended {buckets : Buckets} (nonneg : ∀ bucket ∈ buckets, 0 ≤ bucket.2) {index j : Nat}
    {bucket : String × Int} (le : index ≤ j) (found : buckets[j]? = some bucket)
    (starts : total (buckets.take j) ≤ placed) (open' : placed < total (buckets.take j) + bucket.2)
    (ended : placed = total (buckets.take (index + 1))) : placed = total (buckets.take j) := by
  rcases Nat.eq_or_lt_of_le le with same | less
  · rw [ended, same, total_take_succ found] at open'
    exact absurd open' (lt_irrefl _)
  · have later := total_take_mono nonneg less
    rw [Nat.succ_eq_add_one] at later
    omega

theorem Placed.step (proper : Proper sources) (proper' : Proper sinks) {s : Cursors}
    (room : requested ≤ total sources) (room' : requested ≤ total sinks) (state : Placed sources sinks requested placed s)
    (running : s.remaining ≠ 0) :
    ∃ next later, cutCell sources sinks s = .ok next ∧ placed < later ∧ Placed sources sinks requested later next := by
  have less : placed < requested := lt_of_le_of_ne state.within fun same => running (by rw [state.remaining]; omega)
  have short : sources.length < sources.length + 1 + s.sourceIndex := by omega
  have short' : sinks.length < sinks.length + 1 + s.sinkIndex := by omega
  obtain ⟨i, source, skips, le, found, used, starts, opens⟩ :=
    skipFull_spec proper.nonneg (lt_of_lt_of_le less room) short state.sourceReached
  obtain ⟨j, sink, skips', le', found', used', starts', opens'⟩ :=
    skipFull_spec proper'.nonneg (lt_of_lt_of_le less room') short' state.sinkReached
  rw [← state.sourceUsed] at skips used
  rw [← state.sinkUsed] at skips' used'
  have begins : placed = max (total (sources.take i)) (total (sinks.take j)) := by
    rcases state.atEnd with zero | done | ended | ended
    · have first := total_nonneg fun bucket member => proper.nonneg bucket (mem_of_mem_take (i := i) member)
      omega
    · omega
    · have same := starts_of_ended proper.nonneg le found starts opens ended
      omega
    · have same := starts_of_ended proper'.nonneg le' found' starts' opens' ended
      omega
  obtain ⟨amount, isCut⟩ : ∃ amount, amount = min s.remaining
      (min (source.2 - (placed - total (sources.take i))) (sink.2 - (placed - total (sinks.take j)))) := ⟨_, rfl⟩
  have rest := state.remaining
  have grows : placed < placed + amount := by omega
  have inSource : placed + amount ≤ total (sources.take i) + source.2 := by omega
  have inSink : placed + amount ≤ total (sinks.take j) + sink.2 := by omega
  refine ⟨{ sourceUsed := s.sourceUsed.set i (placed - total (sources.take i) + amount)
            sinkUsed := s.sinkUsed.set j (placed - total (sinks.take j) + amount)
            sourceIndex := i, sinkIndex := j
            remaining := s.remaining - amount
            cells := s.cells ++ [{ sourceId := source.1, sinkId := sink.1, amountMsat := amount,
                                   sourceStartMsat := placed - total (sources.take i)
                                   sinkStartMsat := placed - total (sinks.take j) }] },
    placed + amount, ?_, grows, ?_⟩
  · unfold cutCell
    rw [skips, skips']
    simp only [bind, Except.bind, found, used, found', used', ← isCut]
  · have moved : placed - total (sources.take i) + amount = placed + amount - total (sources.take i) := by omega
    have moved' : placed - total (sinks.take j) + amount = placed + amount - total (sinks.take j) := by omega
    refine { nonneg := by have low := state.nonneg; omega
             within := by omega
             remaining := by dsimp only; omega
             sourceUsed := ?_, sinkUsed := ?_, cells := ?_
             sourceReached := by dsimp only; omega
             sinkReached := by dsimp only; omega
             atEnd := ?_ }
    · dsimp only
      rw [state.sourceUsed, moved, taken_set proper.nonneg found grows.le starts inSource]
    · dsimp only
      rw [state.sinkUsed, moved', taken_set proper'.nonneg found' grows.le starts' inSink]
    · dsimp only
      rw [overlaps_snoc proper.nonneg proper'.nonneg found found' grows begins inSource inSink, map_append,
        ← state.cells, map_singleton, cellOf, add_sub_cancel_left]
    · dsimp only
      rw [total_take_succ found, total_take_succ found']
      omega

theorem Placed.run (proper : Proper sources) (proper' : Proper sinks) (room : requested ≤ total sources)
    (room' : requested ≤ total sinks) {rounds : Nat} {s : Cursors}
    (state : Placed sources sinks requested placed s) (enough : s.remaining ≤ rounds) :
    ∃ final, cutCells sources sinks rounds s = .ok final ∧ Placed sources sinks requested requested final := by
  have rest := state.remaining
  have within := state.within
  induction rounds generalizing placed s with
  | zero =>
    have done : placed = requested := by omega
    exact ⟨s, rfl, done ▸ state⟩
  | succ rounds ih =>
    by_cases done : s.remaining = 0
    · have all : placed = requested := by omega
      exact ⟨s, if_pos done, all ▸ state⟩
    · obtain ⟨next, later, cut, grows, placed'⟩ := state.step proper proper' room room' done
      have rest' := placed'.remaining
      obtain ⟨final, runs, all⟩ := ih placed' (by omega) rest' placed'.within
      refine ⟨final, ?_, all⟩
      rw [cutCells, if_neg done, cut]
      exact runs

theorem Placed.start (proper : Proper sources) (proper' : Proper sinks) (nonneg : 0 ≤ requested) :
    Placed sources sinks requested 0
      { sourceUsed := replicate sources.length 0, sinkUsed := replicate sinks.length 0
        remaining := requested } where
  nonneg := le_rfl
  within := nonneg
  remaining := (sub_zero _).symm
  sourceUsed := (taken_zero proper.nonneg).symm
  sinkUsed := (taken_zero proper'.nonneg).symm
  cells := by rw [overlaps_zero proper.nonneg, map_nil]
  sourceReached := le_rfl
  sinkReached := le_rfl
  atEnd := .inl rfl

end

section
variable {sources sinks : Buckets}

theorem allocationBuckets_unnamed (kind : String) {buckets : Buckets} (unnamed : ∃ bucket ∈ buckets, bucket.1 = "") :
    ∃ code message, allocationBuckets kind buckets = .error (.custodyAllocationError code message) := by
  obtain ⟨bucket, member, empty⟩ := unnamed
  exact ⟨_, _, if_pos ⟨bucket, member, .inl empty⟩⟩

theorem allocateMsatFifo_ok (proper : Proper sources) (proper' : Proper sinks) {amountMsat : Option Int}
    (nonneg : 0 ≤ amountMsat.getD (total sinks)) (room : amountMsat.getD (total sinks) ≤ total sources)
    (room' : amountMsat.getD (total sinks) ≤ total sinks) :
    allocateMsatFifo sources sinks amountMsat =
      .ok (overlapAllocation sources sinks (amountMsat.getD (total sinks))) := by
  generalize named : amountMsat.getD (total sinks) = requested at *
  obtain ⟨final, runs, placed⟩ := (Placed.start proper proper' nonneg).run proper proper' room room'
    (Int.self_le_toNat requested)
  have inside : ¬ (total sources < requested ∨ total sinks < requested) := by omega
  unfold allocateMsatFifo
  rw [proper.accepted, proper'.accepted]
  simp only [bind, Except.bind, named, raiseIf, if_neg (not_lt.2 nonneg), if_neg inside, runs]
  rw [placed.cells, placed.sourceUsed, placed.sinkUsed]
  rfl

theorem allocateMsatFifo_refused (proper : Proper sources) (proper' : Proper sinks) {amountMsat : Option Int}
    (refused : amountMsat.getD (total sinks) < 0 ∨ total sources < amountMsat.getD (total sinks) ∨
      total sinks < amountMsat.getD (total sinks)) :
    ∃ code message, allocateMsatFifo sources sinks amountMsat = .error (.custodyAllocationError code message) := by
  unfold allocateMsatFifo
  rw [proper.accepted, proper'.accepted]
  simp only [bind, Except.bind, raiseIf]
  by_cases negative : amountMsat.getD (total sinks) < 0
  · exact ⟨_, _, by rw [if_pos negative]⟩
  · rw [if_neg negative, if_pos (refused.resolve_left negative)]
    exact ⟨_, _, rfl⟩

theorem allocate_msat_fifo_unnamed_bucket :
    let sources : Buckets := [("", 1)]
    let sinks : Buckets := [("sink", 1)]
    ((sources.map fst).Nodup ∧ (sinks.map fst).Nodup) ∧
      (∀ bucket ∈ sources ++ sinks, 0 ≤ bucket.2) ∧ 0 ≤ (1 : Int) ∧ 1 ≤ total sources ∧ 1 ≤ total sinks ∧
      allocateMsatFifo sources sinks (some 1) =
        .error (.custodyAllocationError "custody_allocation_invalid_bucket"
          "source allocation bucket ids and amounts must be exact") := by
  decide

/-- The allocation raises on an empty id and on an amount outside the totals, and otherwise is the one by overlaps. -/
theorem allocate_msat_fifo_overlaps (amountMsat : Option Int) (distinct : (sources.map fst).Nodup)
    (distinct' : (sinks.map fst).Nodup) (nonneg : ∀ bucket ∈ sources, 0 ≤ bucket.2)
    (nonneg' : ∀ bucket ∈ sinks, 0 ≤ bucket.2) :
    let requested := amountMsat.getD (total sinks)
    let refused := (∃ bucket ∈ sources ++ sinks, bucket.1 = "") ∨ requested < 0 ∨ total sources < requested ∨
      total sinks < requested
    ((∃ error, allocateMsatFifo sources sinks amountMsat = .error error) ↔ refused) ∧
      (refused → ∃ code message,
        allocateMsatFifo sources sinks amountMsat = .error (.custodyAllocationError code message)) ∧
      (¬ refused → allocateMsatFifo sources sinks amountMsat = .ok (overlapAllocation sources sinks requested)) := by
  intro requested refused
  have raises : refused → ∃ code message,
      allocateMsatFifo sources sinks amountMsat = .error (.custodyAllocationError code message) := by
    intro isRefused
    by_cases unnamed : ∃ bucket ∈ sources, bucket.1 = ""
    · obtain ⟨code, message, fails⟩ := allocationBuckets_unnamed "source" unnamed
      exact ⟨code, message, by rw [allocateMsatFifo, fails]; rfl⟩
    · have proper : Proper sources := ⟨fun bucket member empty => unnamed ⟨bucket, member, empty⟩, nonneg, distinct⟩
      by_cases unnamed' : ∃ bucket ∈ sinks, bucket.1 = ""
      · obtain ⟨code, message, fails⟩ := allocationBuckets_unnamed "sink" unnamed'
        exact ⟨code, message, by rw [allocateMsatFifo, proper.accepted, fails]; rfl⟩
      · have proper' : Proper sinks := ⟨fun bucket member empty => unnamed' ⟨bucket, member, empty⟩, nonneg', distinct'⟩
        refine allocateMsatFifo_refused proper proper' (isRefused.resolve_left ?_)
        rintro ⟨bucket, member, empty⟩
        rcases mem_append.1 member with inSources | inSinks
        · exact unnamed ⟨bucket, inSources, empty⟩
        · exact unnamed' ⟨bucket, inSinks, empty⟩
  have succeeds : ¬ refused →
      allocateMsatFifo sources sinks amountMsat = .ok (overlapAllocation sources sinks requested) := by
    intro accepted
    obtain ⟨named, inside⟩ := not_or.1 accepted
    have proper : Proper sources :=
      ⟨fun bucket member empty => named ⟨bucket, mem_append_left _ member, empty⟩, nonneg, distinct⟩
    have proper' : Proper sinks :=
      ⟨fun bucket member empty => named ⟨bucket, mem_append_right _ member, empty⟩, nonneg', distinct'⟩
    exact allocateMsatFifo_ok proper proper' (by omega) (by omega) (by omega)
  refine ⟨⟨fun ⟨error, fails⟩ => by_contra fun accepted => ?_, fun isRefused => ?_⟩, raises, succeeds⟩
  · rw [succeeds accepted] at fails
    cases fails
  · obtain ⟨code, message, fails⟩ := raises isRefused
    exact ⟨_, fails⟩

/-- A partial request over empty buckets in front, in the middle and at the end. -/
theorem allocate_msat_fifo_overlaps_empty_buckets :
    allocateMsatFifo [("a", 0), ("b", 3), ("c", 0), ("d", 4)] [("x", 2), ("y", 0), ("z", 5)] (some 6) =
      .ok (overlapAllocation [("a", 0), ("b", 3), ("c", 0), ("d", 4)] [("x", 2), ("y", 0), ("z", 5)] 6) :=
  (allocate_msat_fifo_overlaps (some 6) (by decide) (by decide) (by decide) (by decide)).2.2 (by decide)

end

end Kassiber.Custody.Fifo
