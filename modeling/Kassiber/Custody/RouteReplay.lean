import Kassiber.Custody.Routes

/-!
Replaying a location: whether its spends stay within its credits is a matter of the totals up to each spend, so the
verdict does not depend on the order in which the legs were read.
-/

namespace Kassiber.Custody.Book
open Lib.Outcome Lib.Dict Lib.Sorting Lib.UnionFind List

def Movement.signed (movement : Movement) : Int :=
  if movement.spends then - movement.leg.amountMsat else movement.leg.amountMsat

def net (movements : List Movement) : Int := (movements.map Movement.signed).sum

/-- At the time of some spend, the spends so far exceed the credits so far. -/
def Overdrawn (movements : List Movement) : Prop :=
  ∃ spend ∈ movements, spend.spends ∧ net (movements.filter fun movement => movement.moment ≤ spend.moment) < 0

instance (movements : List Movement) : Decidable (Overdrawn movements) :=
  inferInstanceAs (Decidable (∃ spend ∈ movements, _))

theorem net_append (xs ys : List Movement) : net (xs ++ ys) = net xs + net ys := by
  unfold net
  rw [map_append, sum_append]

theorem net_cons (x : Movement) (xs : List Movement) : net (x :: xs) = x.signed + net xs := by
  unfold net
  rw [map_cons, sum_cons]

theorem net_perm {xs ys : List Movement} (perm : xs.Perm ys) : net xs = net ys := (perm.map _).sum_eq

variable {movements : List Movement}

theorem net_nonpos (falls : ∀ movement ∈ movements, movement.signed ≤ 0) : net movements ≤ 0 := by
  induction movements with
  | nil => exact le_refl _
  | cons first rest ih =>
    have := falls first (.head _)
    have := ih fun movement member => falls movement (.tail _ member)
    rw [net_cons]
    omega

theorem overdrawn_perm {xs ys : List Movement} (perm : xs.Perm ys) : Overdrawn xs ↔ Overdrawn ys := by
  have same : ∀ spend : Movement, net (xs.filter fun movement => movement.moment ≤ spend.moment) =
      net (ys.filter fun movement => movement.moment ≤ spend.moment) := fun spend => net_perm (perm.filter _)
  constructor
  · rintro ⟨spend, member, spends, short⟩
    exact ⟨spend, perm.mem_iff.1 member, spends, (same spend) ▸ short⟩
  · rintro ⟨spend, member, spends, short⟩
    exact ⟨spend, perm.mem_iff.2 member, spends, (same spend).symm ▸ short⟩

theorem overspend_none_iff {available : Int} :
    overspend available movements = none ↔
      ∀ before spend after, movements = before ++ spend :: after → spend.spends = true →
        0 ≤ available + net before + spend.signed := by
  induction movements generalizing available with
  | nil =>
    constructor
    · intro _ before spend after split
      cases before <;> cases split
    · intro _
      rfl
  | cons movement rest ih =>
    by_cases spends : movement.spends = true
    · have signed : movement.signed = - movement.leg.amountMsat := if_pos spends
      by_cases short : available < movement.leg.amountMsat
      · have found : overspend available (movement :: rest) = some movement := by
          simp only [overspend, spends, short, if_true]
        rw [found]
        refine ⟨fun none => absurd none (by simp), fun covered => ?_⟩
        have := covered [] movement rest rfl spends
        rw [signed] at this
        simp only [net, map_nil, sum_nil] at this
        omega
      · have step : overspend available (movement :: rest) = overspend (available - movement.leg.amountMsat) rest := by
          simp only [overspend, spends, short, if_true, if_false]
        rw [step, ih]
        constructor
        · intro covered before spend after split own
          rcases before with _ | ⟨first, before⟩
          · simp only [nil_append, List.cons.injEq] at split
            rw [← split.1, signed]
            simp only [net, map_nil, sum_nil]
            omega
          · simp only [cons_append, List.cons.injEq] at split
            have := covered before spend after split.2 own
            rw [net_cons, ← split.1, signed]
            omega
        · intro covered before spend after split own
          have := covered (movement :: before) spend after (by rw [split]; rfl) own
          rw [net_cons, signed] at this
          omega
    · have signed : movement.signed = movement.leg.amountMsat := if_neg spends
      have step : overspend available (movement :: rest) = overspend (available + movement.leg.amountMsat) rest := by
        simp only [overspend, spends, Bool.false_eq_true, if_false]
      rw [step, ih]
      constructor
      · intro covered before spend after split own
        rcases before with _ | ⟨first, before⟩
        · simp only [nil_append, List.cons.injEq] at split
          exact absurd (split.1 ▸ own) spends
        · simp only [cons_append, List.cons.injEq] at split
          have := covered before spend after split.2 own
          rw [net_cons, ← split.1, signed]
          omega
      · intro covered before spend after split own
        have := covered (movement :: before) spend after (by rw [split]; rfl) own
        rw [net_cons, signed] at this
        omega

theorem net_prefix_nonneg (amounts : ∀ movement ∈ movements, 0 ≤ movement.leg.amountMsat)
    (covered : overspend 0 movements = none) : ∀ start, start <+: movements → 0 ≤ net start := by
  intro start
  induction start using reverseRecOn with
  | nil =>
    intro _
    exact le_refl _
  | append_singleton start last ih =>
    rintro ⟨after, split⟩
    have whole : movements = start ++ last :: after := by rw [← split, List.append_assoc]; rfl
    by_cases spends : last.spends = true
    · have := overspend_none_iff.1 covered start last after whole spends
      rw [net_append, net_cons]
      simp only [net, map_nil, sum_nil] at this ⊢
      omega
    · have before := ih ⟨last :: after, whole.symm⟩
      have amount := amounts last (by rw [whole]; simp)
      have signed : last.signed = last.leg.amountMsat := if_neg spends
      rw [net_append, net_cons, signed]
      simp only [net, map_nil, sum_nil] at before ⊢
      omega

theorem earlier_initial (ordered : movements.Pairwise fun x y => x.moment ≤ y.moment)
    (moment : Int) : (movements.filter fun movement => movement.moment ≤ moment) <+: movements := by
  induction movements with
  | nil => exact prefix_refl _
  | cons first rest ih =>
    rw [pairwise_cons] at ordered
    by_cases early : first.moment ≤ moment
    · rw [filter_cons_of_pos (by simpa using early)]
      exact (prefix_cons_inj _).2 (ih ordered.2)
    · have late : (first :: rest).filter (fun movement => movement.moment ≤ moment) = [] := by
        rw [filter_eq_nil_iff]
        intro movement member
        rcases mem_cons.1 member with rfl | later
        · simpa using early
        · have := ordered.1 movement later
          simp only [decide_eq_true_eq]
          omega
      rw [late]
      exact nil_prefix

theorem key_le {x y : Movement} (le : x.key ≤ y.key) :
    x.moment < y.moment ∨ (x.moment = y.moment ∧ (x.spends = true → y.spends = true)) := by
  unfold Movement.key at le
  rw [Prod.Lex.toLex_le_toLex] at le
  rcases le with less | ⟨same, le⟩
  · exact .inl less
  · refine .inr ⟨same, fun spends => ?_⟩
    rw [Prod.Lex.toLex_le_toLex] at le
    by_contra credit
    simp only [Bool.not_eq_true] at credit
    simp [spends, credit] at le

theorem overspend_sorted (amounts : ∀ movement ∈ movements, 0 ≤ movement.leg.amountMsat) :
    (overspend 0 (sortedBy Movement.key movements)).isSome ↔ Overdrawn movements := by
  have perm := sortedBy_perm Movement.key movements
  have sorted := sortedBy_pairwise Movement.key movements
  rw [← overdrawn_perm perm]
  have own : ∀ movement ∈ sortedBy Movement.key movements, 0 ≤ movement.leg.amountMsat := fun movement member =>
    amounts movement (perm.mem_iff.1 member)
  generalize sortedBy Movement.key movements = ordered at sorted own
  have times : ordered.Pairwise fun x y => x.moment ≤ y.moment := sorted.imp fun le => by
    rcases key_le le with less | ⟨same, _⟩
    · exact less.le
    · exact same.le
  rw [Option.isSome_iff_ne_none, ne_eq, ← not_iff_not, not_not]
  constructor
  · rintro covered ⟨spend, member, spends, short⟩
    have := net_prefix_nonneg own covered _ (earlier_initial times spend.moment)
    omega
  · intro within
    rw [overspend_none_iff]
    intro before spend after split spends
    rw [split] at sorted own within
    rw [pairwise_append, pairwise_cons] at sorted
    obtain ⟨_, ⟨later, _⟩, earlier⟩ := sorted
    -- The movements up to the time of the spend are those before it, itself and spends at the same time.
    have beforeKept : before.filter (fun movement => movement.moment ≤ spend.moment) = before := by
      rw [filter_eq_self]
      intro movement member
      rcases key_le (earlier movement member spend (.head _)) with less | ⟨same, _⟩
      · exact decide_eq_true less.le
      · exact decide_eq_true same.le
    have afterSpends : net (after.filter fun movement => movement.moment ≤ spend.moment) ≤ 0 := by
      refine net_nonpos ?_
      intro movement kept
      rw [mem_filter] at kept
      have le := of_decide_eq_true kept.2
      rcases key_le (later movement kept.1) with less | ⟨_, follows⟩
      · omega
      · have amount := own movement (mem_append_right _ (.tail _ kept.1))
        unfold Movement.signed
        rw [if_pos (follows spends)]
        omega
    have covered : ¬ net ((before ++ spend :: after).filter fun movement => movement.moment ≤ spend.moment) < 0 :=
      fun short => within ⟨spend, by simp, spends, short⟩
    rw [filter_append, filter_cons_of_pos (by simp), beforeKept, net_append, net_cons] at covered
    omega

section
variable (clock : String → Option Int)

def Leg.known (leg : Leg) : Int := (leg.moment clock).getD 0

def sourcesOf (legs : List Leg) : List Leg := legs.filter fun leg => leg.role = .source

def creditsOf (legs : List Leg) : List Leg := legs.filter fun leg => leg.role = .destination ∨ leg.role = .retained

/-- A location is replayed when it has sources and credits and all their times are known. -/
def Replayed (legs : List Leg) : Prop :=
  sourcesOf legs ≠ [] ∧ creditsOf legs ≠ [] ∧
    (∀ leg ∈ creditsOf legs, leg.moment clock ≠ none) ∧ ∀ leg ∈ sourcesOf legs, leg.moment clock ≠ none

/-- A source without a transaction so late that the tolerance cannot be added to its time. -/
def Overflows (leg : Leg) : Prop := leg.transactionId = none ∧ latestMoment < leg.known clock + chronologySkewTolerance

instance (legs : List Leg) : Decidable (Replayed clock legs) := inferInstanceAs (Decidable (_ ∧ _ ∧ _ ∧ _))

instance (leg : Leg) : Decidable (Overflows clock leg) := inferInstanceAs (Decidable (_ ∧ _))

/-- A spend that must be covered by the location, at the time it counts. -/
def spendOf (legs : List Leg) (source : Leg) : Option Movement :=
  if source.transactionId = none then
    some { moment := source.known clock + chronologySkewTolerance, spends := true, leg := source }
  else if ∃ credit ∈ creditsOf legs, credit.known clock < source.known clock then
    some { moment := source.known clock, spends := true, leg := source }
  else none

def movementsOf (legs : List Leg) : List Movement :=
  (creditsOf legs).map (fun credit => { moment := credit.known clock, spends := false, leg := credit }) ++
    (sourcesOf legs).filterMap (spendOf clock legs)

variable {legs : List Leg}

theorem timed_known (known : ∀ leg ∈ legs, leg.moment clock ≠ none) :
    timed clock legs = some (legs.map fun leg => (leg.known clock, leg)) := by
  unfold timed
  induction legs with
  | nil => rfl
  | cons first rest ih =>
    obtain ⟨moment, own⟩ := Option.ne_none_iff_exists'.1 (known first (.head _))
    rw [mapM_cons, ih fun leg member => known leg (mem_cons_of_mem _ member), own]
    simp [Leg.known, own]

theorem timed_unknown {leg : Leg} (member : leg ∈ legs) (unknown : leg.moment clock = none) :
    timed clock legs = none := by
  unfold timed
  induction legs with
  | nil => cases member
  | cons first rest ih =>
    rw [mapM_cons]
    rcases mem_cons.1 member with rfl | later
    · rw [unknown]
      rfl
    · rw [ih later]
      cases first.moment clock <;> rfl

theorem intermediateSpend_known (legs : List Leg) (source : Leg) :
    intermediateSpend ((creditsOf legs).map fun leg => (leg.known clock, leg)) (source.known clock, source) =
      if Overflows clock source then .error .overflowError else .ok (spendOf clock legs source) := by
  unfold intermediateSpend spendOf Overflows afterTolerance
  by_cases free : source.transactionId = none
  · by_cases late : latestMoment < source.known clock + chronologySkewTolerance <;> simp [free, late]
  · simp only [free, if_false, false_and, mem_map, exists_exists_and_eq_and]
    split <;> rfl

theorem continuityMovements_known (legs : List Leg) :
    continuityMovements ((creditsOf legs).map fun leg => (leg.known clock, leg))
        ((sourcesOf legs).map fun leg => (leg.known clock, leg)) =
      if ∃ leg ∈ sourcesOf legs, Overflows clock leg then .error .overflowError else .ok (movementsOf clock legs) := by
  have spends : ((sourcesOf legs).map fun leg => (leg.known clock, leg)).mapM
        (intermediateSpend ((creditsOf legs).map fun leg => (leg.known clock, leg))) =
      if ∃ leg ∈ sourcesOf legs, Overflows clock leg then .error .overflowError
      else .ok ((sourcesOf legs).map (spendOf clock legs)) := by
    rw [List.mapM_map]
    exact mapM_uniform (intermediateSpend_known clock legs) _
  unfold continuityMovements
  rw [spends]
  split
  · rfl
  · show Except.ok _ = Except.ok _
    unfold movementsOf
    rw [filterMap_map, map_map]
    rfl

theorem continuityIssue_verdict (amounts : ∀ leg ∈ legs, 0 ≤ leg.amountMsat) :
    (continuityIssue clock legs).map Option.isSome =
      if ¬ Replayed clock legs then .ok false
      else if ∃ leg ∈ sourcesOf legs, Overflows clock leg then .error .overflowError
      else .ok (decide (Overdrawn (movementsOf clock legs))) := by
  have sides : legs.filter (fun leg => leg.role = .source) = sourcesOf legs ∧
      legs.filter (fun leg => leg.role = .destination ∨ leg.role = .retained) = creditsOf legs := ⟨rfl, rfl⟩
  unfold continuityIssue
  dsimp only
  rw [sides.1, sides.2]
  by_cases empty : sourcesOf legs = [] ∨ creditsOf legs = []
  · have idle : ¬ Replayed clock legs := by
      rintro ⟨sources, credits, _⟩
      rcases empty with none | none
      · exact sources none
      · exact credits none
    rw [if_pos empty, if_pos idle]
    rfl
  rw [if_neg empty]
  rw [not_or] at empty
  by_cases credits : ∀ leg ∈ creditsOf legs, leg.moment clock ≠ none
  · by_cases sources : ∀ leg ∈ sourcesOf legs, leg.moment clock ≠ none
    · have replayed : Replayed clock legs := ⟨empty.1, empty.2, credits, sources⟩
      rw [if_neg (not_not.2 replayed), timed_known clock credits, timed_known clock sources]
      dsimp only
      rw [continuityMovements_known]
      by_cases overflows : ∃ leg ∈ sourcesOf legs, Overflows clock leg
      · rw [if_pos overflows, if_pos overflows]
        rfl
      · rw [if_neg overflows, if_neg overflows]
        have own : ∀ movement ∈ movementsOf clock legs, 0 ≤ movement.leg.amountMsat := by
          intro movement member
          rcases mem_append.1 member with credit | spend
          · obtain ⟨leg, kept, rfl⟩ := mem_map.1 credit
            exact amounts leg (mem_filter.1 kept).1
          · obtain ⟨leg, kept, made⟩ := mem_filterMap.1 spend
            have same : movement.leg = leg := by
              unfold spendOf at made
              split at made
              · cases made; rfl
              · split at made <;> cases made
                rfl
            rw [same]
            exact amounts leg (mem_filter.1 kept).1
        have verdict := overspend_sorted own
        dsimp only [Bind.bind, Except.bind]
        cases found : overspend 0 (sortedBy Movement.key (movementsOf clock legs)) with
        | none =>
          rw [found] at verdict
          rw [decide_eq_false (fun drawn => absurd (verdict.2 drawn) (by simp))]
          rfl
        | some movement =>
          rw [found] at verdict
          rw [decide_eq_true (verdict.1 rfl)]
          rfl
    · push Not at sources
      obtain ⟨leg, member, unknown⟩ := sources
      have idle : ¬ Replayed clock legs := fun replayed => replayed.2.2.2 leg member unknown
      rw [if_pos idle, timed_known clock credits, timed_unknown clock member unknown]
      rfl
  · push Not at credits
    obtain ⟨leg, member, unknown⟩ := credits
    have idle : ¬ Replayed clock legs := fun replayed => replayed.2.2.1 leg member unknown
    rw [if_pos idle, timed_unknown clock member unknown]
    rfl

end

end Kassiber.Custody.Book
