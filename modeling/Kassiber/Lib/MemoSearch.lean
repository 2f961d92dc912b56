import Mathlib

/-!
A memoised depth-first evaluation with an explicit stack and a budget.
-/

namespace Lib.MemoSearch
open List Function
open Option (bind_eq_some_iff ne_none_iff_exists' bind_some some_ne_none)

inductive Kind (ε β : Type*) where
  | refused
  | leaf (value : β)
  | through (edges : List ε)

/-- Nodes with their kinds, and how the values behind the edges of a node add up. -/
structure Graph (ν ε β σ : Type*) where
  classify : ν → Kind ε β
  target : ε → ν
  start : σ
  carry : σ → ε → β → σ
  close : σ → Option β

variable {ν ε β σ : Type*}

structure Frame (ν ε σ : Type*) where
  node : ν
  path : List ν
  edges : Option (List ε) := none
  index : Nat := 0
  carried : σ

structure State (ν ε β σ : Type*) where
  stack : List (Frame ν ε σ)
  memo : ν → Option (Option β)
  budget : Int

section
variable [DecidableEq ν] (G : Graph ν ε β σ)

/-- The top frame is done: its result is stored and it leaves the stack. -/
def State.finish (s : State ν ε β σ) (frame : Frame ν ε σ) (rest : List (Frame ν ε σ)) (result : Option β) :
    State ν ε β σ :=
  { s with stack := rest, memo := update s.memo frame.node (some result) }

def step (s : State ν ε β σ) : State ν ε β σ :=
  match s.stack with
  | [] => s
  | frame :: rest =>
    match frame.edges with
    | none =>
      let spent : State ν ε β σ := { s with budget := s.budget - 1 }
      if spent.budget < 0 then spent.finish frame rest none
      else match G.classify frame.node with
        | .refused => spent.finish frame rest none
        | .leaf value => spent.finish frame rest (some value)
        | .through edges => { spent with stack := { frame with edges := some edges } :: rest }
    | some edges =>
      match edges[frame.index]? with
      | none => s.finish frame rest (G.close frame.carried)
      | some edge =>
        match s.memo (G.target edge) with
        | none =>
          if G.target edge = frame.node ∨ G.target edge ∈ frame.path then
            -- A cycle: the child has no value, and so the frame has none.
            { s with memo := update s.memo (G.target edge) (some none) }.finish frame rest none
          else
            { s with stack := { node := G.target edge, path := frame.node :: frame.path, carried := G.start } :: s.stack }
        | some none => s.finish frame rest none
        | some (some value) =>
          { s with
            stack := { frame with carried := G.carry frame.carried edge value, index := frame.index + 1 } :: rest }

def turns : Nat → State ν ε β σ → State ν ε β σ
  | 0, s => s
  | n + 1, s => turns n (step G s)

def initial (memo : ν → Option (Option β)) (budget : Int) (node : ν) : State ν ε β σ :=
  { stack := [{ node, path := [], carried := G.start }], memo, budget }

end

section
variable (G : Graph ν ε β σ)

/-- The value of a node whose chain of edges is shorter than the given height. -/
def value : Nat → ν → Option β
  | 0, _ => none
  | height + 1, node =>
    match G.classify node with
    | .refused => none
    | .leaf own => some own
    | .through edges =>
      (edges.foldlM (fun carried edge => (value height (G.target edge)).map (G.carry carried edge)) G.start).bind G.close

def gather (height : Nat) (carried : σ) (edges : List ε) : Option σ :=
  edges.foldlM (fun carried edge => (value G height (G.target edge)).map (G.carry carried edge)) carried

def Answers (node : ν) : Option β → Prop
  | some own => ∃ height, value G height node = some own
  | none => ∀ height, value G height node = none

def Needs (node other : ν) : Prop := ∃ edges, G.classify node = .through edges ∧ ∃ edge ∈ edges, G.target edge = other

/-- What is looked at behind a node: an edge comes up only when all edges before it have a value. -/
def NeedsNext (node other : ν) : Prop :=
  ∃ front edge back, G.classify node = .through (front ++ edge :: back) ∧ G.target edge = other ∧
    ∀ earlier ∈ front, ∃ own, Answers G (G.target earlier) (some own)

variable {G} {height : Nat} {node : ν} {edges : List ε}

theorem value_through (kind : G.classify node = .through edges) :
    value G (height + 1) node = (gather G height G.start edges).bind G.close := by
  rw [value, kind]
  rfl

theorem gather_cons (height : Nat) (carried : σ) (edge : ε) (rest : List ε) :
    gather G height carried (edge :: rest) =
      (value G height (G.target edge)).bind fun own => gather G height (G.carry carried edge own) rest := by
  unfold gather
  rw [foldlM_cons]
  cases value G height (G.target edge) <;> rfl

theorem gather_append (height : Nat) (carried : σ) (front back : List ε) :
    gather G height carried (front ++ back) = (gather G height carried front).bind fun c => gather G height c back := by
  unfold gather
  rw [foldlM_append]
  rfl

mutual

theorem value_succ {height : Nat} {node : ν} {own : β} (found : value G height node = some own) :
    value G (height + 1) node = some own := by
  match height with
  | 0 => cases found
  | height + 1 =>
    rw [value] at found ⊢
    cases kind : G.classify node with
    | refused => rw [kind] at found; exact found
    | leaf given => rw [kind] at found; exact found
    | through edges =>
      rw [kind] at found
      obtain ⟨carried, gathered, closed⟩ := bind_eq_some_iff.1 found
      exact bind_eq_some_iff.2 ⟨carried, gather_succ gathered, closed⟩
termination_by (height, 0)

theorem gather_succ {height : Nat} {start carried : σ} {edges : List ε}
    (gathered : gather G height start edges = some carried) :
    gather G (height + 1) start edges = some carried := by
  match edges with
  | [] => exact gathered
  | edge :: rest =>
    rw [gather_cons] at gathered ⊢
    obtain ⟨own, found, later⟩ := bind_eq_some_iff.1 gathered
    exact bind_eq_some_iff.2 ⟨own, value_succ found, gather_succ later⟩
termination_by (height, edges.length + 1)

end

theorem value_mono {low high : Nat} (le : low ≤ high) {own : β} (found : value G low node = some own) :
    value G high node = some own := by
  induction le with
  | refl => exact found
  | step _ ih => exact value_succ ih

variable {start carried : σ}

theorem gather_mono {low high : Nat} (le : low ≤ high)
    (gathered : gather G low start edges = some carried) : gather G high start edges = some carried := by
  induction le with
  | refl => exact gathered
  | step _ ih => exact gather_succ ih

theorem Answers.unique {first second : Option β} (left : Answers G node first) (right : Answers G node second) :
    first = second := by
  have apart : ∀ {own : β}, Answers G node (some own) → Answers G node none → False := by
    rintro own ⟨height, found⟩ never
    rw [never height] at found
    cases found
  cases first with
  | none =>
    cases second with
    | none => rfl
    | some own => exact (apart right left).elim
  | some own =>
    cases second with
    | none => exact (apart left right).elim
    | some other =>
      obtain ⟨height, found⟩ := left
      obtain ⟨height', found'⟩ := right
      have low := value_mono (le_max_left height height') found
      have high := value_mono (le_max_right height height') found'
      exact low.symm.trans high

theorem gather_each (gathered : gather G height start edges = some carried) :
    ∀ edge ∈ edges, ∃ own, value G height (G.target edge) = some own := by
  induction edges generalizing start with
  | nil => simp
  | cons edge rest ih =>
    rw [gather_cons] at gathered
    obtain ⟨own, found, later⟩ := bind_eq_some_iff.1 gathered
    intro other member
    rcases mem_cons.1 member with rfl | inside
    · exact ⟨own, found⟩
    · exact ih later other inside

theorem value_needs {node other : ν} {own : β} (found : value G height node = some own)
    (needs : Needs G node other) : ∃ lower, lower < height ∧ ∃ owned, value G lower other = some owned := by
  obtain ⟨edges, kind, edge, member, rfl⟩ := needs
  cases height with
  | zero => cases found
  | succ height =>
    rw [value_through kind] at found
    obtain ⟨carried, gathered, -⟩ := bind_eq_some_iff.1 found
    exact ⟨height, Nat.lt_succ_self _, gather_each gathered edge member⟩

theorem none_of_needs {node other : ν} (needs : Needs G node other) (never : Answers G other none) : Answers G node none := by
  intro height
  by_contra some
  obtain ⟨own, found⟩ := ne_none_iff_exists'.1 some
  obtain ⟨lower, -, owned, reached⟩ := value_needs found needs
  rw [never lower] at reached
  cases reached

theorem none_of_cycle (cycle : Relation.TransGen (Needs G) node node) : Answers G node none := by
  have descend : ∀ {first last : ν}, Relation.TransGen (Needs G) first last → ∀ {height : Nat} {own : β},
      value G height first = some own → ∃ lower, lower < height ∧ ∃ owned, value G lower last = some owned := by
    intro first last chain
    induction chain with
    | single needs => exact fun found => value_needs found needs
    | tail _ needs ih =>
      intro height own found
      obtain ⟨middle, less, owned, reached⟩ := ih found
      obtain ⟨lower, further, last, end_reached⟩ := value_needs reached needs
      exact ⟨lower, further.trans less, last, end_reached⟩
  intro height
  induction height using Nat.strong_induction_on with
  | _ height ih =>
    by_contra some
    obtain ⟨own, found⟩ := ne_none_iff_exists'.1 some
    obtain ⟨lower, less, owned, reached⟩ := descend cycle found
    rw [ih lower less] at reached
    cases reached

theorem answers_of_gather (kind : G.classify node = .through edges)
    (gathered : gather G height G.start edges = some carried) : Answers G node (G.close carried) := by
  have closed : value G (height + 1) node = G.close carried := by
    rw [value_through kind, gathered]
    rfl
  cases result : G.close carried with
  | some own => exact ⟨height + 1, closed.trans result⟩
  | none =>
    intro other
    by_contra some
    obtain ⟨own, found⟩ := ne_none_iff_exists'.1 some
    have high := value_mono (le_max_left other (height + 1)) found
    cases tall : max other (height + 1) with
    | zero => omega
    | succ top =>
      rw [tall, value_through kind, gather_mono (by omega) gathered, bind_some, result] at high
      cases high

end

section
variable [DecidableEq ν] {G : Graph ν ε β σ}

/-- What a frame has gathered so far is what its first edges are worth. -/
structure Frame.Backed (G : Graph ν ε β σ) (frame : Frame ν ε σ) : Prop where
  fresh : frame.edges = none → frame.index = 0 ∧ frame.carried = G.start
  gathered : ∀ edges ∈ frame.edges, G.classify frame.node = .through edges ∧
    ∃ height, gather G height G.start (edges.take frame.index) = some frame.carried

/-- What holds of every frame: its path needs it, and it has gathered its edges up to its index. -/
structure Frame.Sound (G : Graph ν ε β σ) (frame : Frame ν ε σ) : Prop extends frame.Backed G where
  path : ∀ other ∈ frame.path, Relation.TransGen (Needs G) other frame.node

def Piled : List (Frame ν ε σ) → Prop
  | [] => True
  | frame :: rest => frame.path = rest.map (·.node) ∧ Piled rest

/-- The nodes looked at so far: few enough for the budget, and each stored or on the stack. -/
structure Seen (reach : List ν) (limit : Nat) (s : State ν ε β σ) (seen : List ν) : Prop where
  nodup : seen.Nodup
  inside : ∀ node ∈ seen, node ∈ reach
  paid : (limit : Int) ≤ s.budget + seen.length
  kept : ∀ node ∈ seen, s.memo node ≠ none ∨ ∃ frame ∈ s.stack, frame.node = node ∧ frame.edges ≠ none
  fresh : ∀ frame ∈ s.stack, frame.edges = none → s.memo frame.node = none ∧ frame.node ∉ seen

/-- The memo tells what nodes are worth, and the stack is one path of sound frames of which only the top is fresh. -/
structure State.Sound (G : Graph ν ε β σ) (reach : List ν) (limit : Nat) (s : State ν ε β σ) : Prop where
  memo : ∀ node result, s.memo node = some result → Answers G node result
  frames : ∀ frame ∈ s.stack, frame.Sound G ∧ frame.node ∈ reach
  piled : Piled s.stack
  inner : ∀ frame ∈ s.stack.tail, frame.edges ≠ none
  seen : ∃ seen, Seen reach limit s seen

variable {reach : List ν} {limit : Nat} {s : State ν ε β σ} {frame : Frame ν ε σ} {memo : ν → Option (Option β)}
  {budget : Int} {node : ν} {width : Nat}

variable {seen : List ν} {edges : List ε}

omit [DecidableEq ν] in
theorem seen_fits (few : reach.length ≤ limit)
    (nodup : seen.Nodup) (inside : ∀ node ∈ seen, node ∈ reach) (paid : (limit : Int) ≤ s.budget + seen.length) :
    0 ≤ s.budget := by
  have fits : seen.length ≤ reach.length := (nodup.subperm inside).length_le
  omega

inductive Turn (G : Graph ν ε β σ) (s : State ν ε β σ) (frame : Frame ν ε σ) (rest : List (Frame ν ε σ)) :
    State ν ε β σ → Prop where
  | broke (look : frame.edges = none) (broke : s.budget - 1 < 0) :
    Turn G s frame rest (State.finish { s with budget := s.budget - 1 } frame rest none)
  | refused (look : frame.edges = none) (kind : G.classify frame.node = .refused) :
    Turn G s frame rest (State.finish { s with budget := s.budget - 1 } frame rest none)
  | leaf {own : β} (look : frame.edges = none) (kind : G.classify frame.node = .leaf own) :
    Turn G s frame rest (State.finish { s with budget := s.budget - 1 } frame rest (some own))
  | opened {edges : List ε} (look : frame.edges = none) (kind : G.classify frame.node = .through edges) :
    Turn G s frame rest { s with budget := s.budget - 1, stack := { frame with edges := some edges } :: rest }
  | closed {edges : List ε} (look : frame.edges = some edges) (at_index : edges[frame.index]? = none) :
    Turn G s frame rest (State.finish { s with budget := s.budget } frame rest (G.close frame.carried))
  | cyclic {edges : List ε} {edge : ε} (look : frame.edges = some edges) (at_index : edges[frame.index]? = some edge)
      (cycle : G.target edge = frame.node ∨ G.target edge ∈ frame.path) :
    Turn G s frame rest
      (State.finish { s with memo := update s.memo (G.target edge) (some none), budget := s.budget } frame rest none)
  | visits {edges : List ε} {edge : ε} (look : frame.edges = some edges) (at_index : edges[frame.index]? = some edge)
      (known : s.memo (G.target edge) = none) (acyclic : ¬(G.target edge = frame.node ∨ G.target edge ∈ frame.path)) :
    Turn G s frame rest { s with
      stack := { node := G.target edge, path := frame.node :: frame.path, carried := G.start } :: frame :: rest }
  | failed {edges : List ε} {edge : ε} (look : frame.edges = some edges) (at_index : edges[frame.index]? = some edge)
      (known : s.memo (G.target edge) = some none) :
    Turn G s frame rest (State.finish { s with budget := s.budget } frame rest none)
  | carried {edges : List ε} {edge : ε} {own : β} (look : frame.edges = some edges)
      (at_index : edges[frame.index]? = some edge) (known : s.memo (G.target edge) = some (some own)) :
    Turn G s frame rest { s with
      stack := { frame with carried := G.carry frame.carried edge own, index := frame.index + 1 } :: rest }

variable {rest : List (Frame ν ε σ)}

theorem step_turn (stack : s.stack = frame :: rest) : Turn G s frame rest (step G s) := by
  rw [step, stack]
  cases look : frame.edges with
  | none =>
    by_cases broke : s.budget - 1 < 0
    · simp only [look, if_pos broke]
      exact .broke look broke
    · cases kind : G.classify frame.node with
      | refused =>
        simp only [look, if_neg broke, kind]
        exact .refused look kind
      | leaf own =>
        simp only [look, if_neg broke, kind]
        exact .leaf look kind
      | through edges =>
        simp only [look, if_neg broke, kind]
        exact .opened look kind
  | some edges =>
    cases at_index : edges[frame.index]? with
    | none =>
      simp only [look, at_index]
      exact .closed look at_index
    | some edge =>
      rcases known : s.memo (G.target edge) with _ | _ | own
      · by_cases cycle : G.target edge = frame.node ∨ G.target edge ∈ frame.path
        · simp only [look, at_index, known, if_pos cycle]
          exact .cyclic look at_index cycle
        · simp only [look, at_index, known, if_neg cycle]
          exact .visits look at_index known cycle
      · simp only [look, at_index, known]
        exact .failed look at_index known
      · simp only [look, at_index, known]
        simpa only [look] using (.carried look at_index known : Turn G s frame rest _)

omit [DecidableEq ν] in
theorem Frame.Backed.unlooked (node : ν) (path : List ν) :
    ({ node, path, carried := G.start } : Frame ν ε σ).Backed G where
  fresh _ := ⟨rfl, rfl⟩
  gathered _ looked := (Option.not_mem_none _ looked).elim

omit [DecidableEq ν] in
theorem Frame.Backed.opens (backed : frame.Backed G) (look : frame.edges = none)
    (kind : G.classify frame.node = .through edges) : ({ frame with edges := some edges } : Frame ν ε σ).Backed G where
  fresh unlooked := (some_ne_none _ unlooked).elim
  gathered given same := by
    obtain ⟨start, empty⟩ := backed.fresh look
    obtain rfl : edges = given := Option.some.inj same
    refine ⟨kind, 0, ?_⟩
    simp [start, empty, gather]

omit [DecidableEq ν] in
theorem Frame.Backed.carries (backed : frame.Backed G) {edge : ε} {own : β}
    (look : frame.edges = some edges) (at_index : edges[frame.index]? = some edge)
    (worth : Answers G (G.target edge) (some own)) :
    ({ frame with carried := G.carry frame.carried edge own, index := frame.index + 1 } : Frame ν ε σ).Backed G where
  fresh unlooked := (some_ne_none _ (look.symm.trans unlooked)).elim
  gathered given same := by
    obtain rfl : edges = given := Option.some.inj (look.symm.trans same)
    obtain ⟨kind, height, gathered⟩ := backed.gathered edges look
    obtain ⟨height', found⟩ := worth
    refine ⟨kind, max height height', ?_⟩
    have longer : edges.take (frame.index + 1) = edges.take frame.index ++ [edge] := by
      rw [take_add_one, at_index]
      rfl
    rw [longer, gather_append, gather_mono (le_max_left _ _) gathered, bind_some, gather_cons,
      value_mono (le_max_right _ _) found]
    rfl

omit [DecidableEq ν] in
theorem Frame.Backed.closes (backed : frame.Backed G) (look : frame.edges = some edges)
    (at_index : edges[frame.index]? = none) : Answers G frame.node (G.close frame.carried) := by
  obtain ⟨kind, height, gathered⟩ := backed.gathered edges look
  rw [take_of_length_le (List.getElem?_eq_none_iff.1 at_index)] at gathered
  exact answers_of_gather kind gathered

omit [DecidableEq ν] in
theorem Frame.Backed.next (backed : frame.Backed G) {edge : ε} (look : frame.edges = some edges)
    (at_index : edges[frame.index]? = some edge) : NeedsNext G frame.node (G.target edge) := by
  obtain ⟨kind, height, gathered⟩ := backed.gathered edges look
  obtain ⟨inside, rfl⟩ := List.getElem?_eq_some_iff.1 at_index
  have cut : edges = edges.take frame.index ++ edges[frame.index] :: edges.drop (frame.index + 1) := by
    rw [← drop_eq_getElem_cons inside, take_append_drop]
  refine ⟨_, _, _, kind.trans (congrArg _ cut), rfl, fun earlier member => ?_⟩
  obtain ⟨own, found⟩ := gather_each gathered earlier member
  exact ⟨own, height, found⟩

omit [DecidableEq ν] in
theorem NeedsNext.needs {other : ν} (next : NeedsNext G node other) : Needs G node other := by
  obtain ⟨front, edge, back, kind, same, -⟩ := next
  exact ⟨_, kind, edge, by simp, same⟩

theorem settle_sound (sound : s.Sound G reach limit) (stack : s.stack = frame :: rest)
    {result : Option β} (answers : ∀ node result, memo node = some result → Answers G node result)
    (grown : ∀ node, s.memo node ≠ none → memo node ≠ none) (answer : Answers G frame.node result)
    (nodup : seen.Nodup) (inside : ∀ node ∈ seen, node ∈ reach) (paid : (limit : Int) ≤ budget + seen.length)
    (kept : ∀ node ∈ seen, node = frame.node ∨ s.memo node ≠ none ∨
      ∃ other ∈ rest, other.node = node ∧ other.edges ≠ none) :
    State.Sound G reach limit (State.finish { stack := s.stack, memo, budget } frame rest result) := by
  obtain ⟨-, frames, piled, inner, -⟩ := sound
  rw [stack] at frames piled inner
  have classified : ∀ other ∈ rest, other.edges ≠ none := inner
  refine ⟨?_, fun other member => frames other (.tail _ member), piled.2, ?_, seen, nodup, inside, paid, ?_, ?_⟩
  · intro node found
    by_cases same : node = frame.node
    · subst same
      simp only [State.finish, update_self, Option.some.injEq]
      rintro rfl
      exact answer
    · simp only [State.finish, update_of_ne same]
      exact answers node found
  · exact fun other member => classified other (mem_of_mem_tail member)
  · intro node member
    by_cases same : node = frame.node
    · subst same
      exact .inl (by simp [State.finish])
    · rcases kept node member with own | stored | ⟨other, held, rest⟩
      · exact absurd own same
      · refine .inl ?_
        simp only [State.finish, update_of_ne same]
        exact grown node stored
      · exact .inr ⟨other, held, rest⟩
  · exact fun other member unseen => absurd unseen (classified other member)

omit [DecidableEq ν] in
theorem visit_sound {other : ν} (sound : s.Sound G reach limit) (stack : s.stack = frame :: rest)
    (reached : other ∈ reach) (needs : Needs G frame.node other) (looked : frame.edges ≠ none) (known : s.memo other = none)
    (acyclic : ¬(other = frame.node ∨ other ∈ frame.path)) :
    State.Sound G reach limit
      { s with stack := { node := other, path := frame.node :: frame.path, carried := G.start } :: frame :: rest } := by
  obtain ⟨answers, frames, piled, inner, seen, nodup, inside, paid, kept, fresh⟩ := sound
  rw [stack] at frames kept fresh piled inner
  refine ⟨answers, forall_mem_cons.2 ⟨⟨⟨.unlooked _ _, ?_⟩, reached⟩, frames⟩, ?_, ?_, seen, nodup, inside, paid, ?_, ?_⟩
  · intro above listed
    rcases mem_cons.1 listed with rfl | further
    · exact .single needs
    · exact .tail ((frames frame (.head _)).1.path _ further) needs
  · refine ⟨?_, piled⟩
    rw [map_cons, ← piled.1]
  · exact forall_mem_cons.2 ⟨looked, inner⟩
  · intro node found
    exact (kept node found).imp id fun ⟨below, held, rest⟩ => ⟨below, .tail _ held, rest⟩
  · refine forall_mem_cons.2 ⟨fun _ => ⟨known, fun seen_before => ?_⟩, forall_mem_cons.2 ⟨fun unlooked => ?_, ?_⟩⟩
    · -- Every node on the stack is the frame's own or on its path.
      rcases kept other seen_before with stored | ⟨below, held, rfl, -⟩
      · exact stored known
      · rcases mem_cons.1 held with rfl | lower
        · exact acyclic (.inl rfl)
        · refine acyclic (.inr ?_)
          rw [piled.1]
          exact mem_map_of_mem lower
    · exact absurd unlooked looked
    · exact fun below held unlooked => absurd unlooked (inner below held)

theorem step_sound (few : reach.length ≤ limit)
    (closed : ∀ node ∈ reach, ∀ other, NeedsNext G node other → other ∈ reach)
    (sound : s.Sound G reach limit) : (step G s).Sound G reach limit := by
  have whole := sound
  obtain ⟨answers, frames, piled, inner, seen, nodup, inside, paid, kept, fresh⟩ := sound
  cases stack : s.stack with
  | nil =>
    have idle : step G s = s := by rw [step, stack]
    rw [idle]
    exact whole
  | cons frame rest =>
    obtain ⟨sound, reached⟩ := frames frame (stack ▸ mem_cons_self)
    rw [stack] at kept fresh piled inner
    have kept' : ∀ node ∈ seen, node = frame.node ∨ s.memo node ≠ none ∨
        ∃ other ∈ rest, other.node = node ∧ other.edges ≠ none := by
      intro node member
      rcases kept node member with stored | ⟨other, held, named, classified⟩
      · exact .inr (.inl stored)
      · rcases mem_cons.1 held with rfl | below
        · exact .inl named.symm
        · exact .inr (.inr ⟨other, below, named, classified⟩)
    -- The first look at a node costs one resolution.
    have spends (look : frame.edges = none) : (frame.node :: seen).Nodup ∧ (∀ node ∈ frame.node :: seen, node ∈ reach) ∧
        (limit : Int) ≤ s.budget - 1 + (frame.node :: seen).length ∧ ∀ node ∈ frame.node :: seen,
          node = frame.node ∨ s.memo node ≠ none ∨ ∃ other ∈ rest, other.node = node ∧ other.edges ≠ none := by
      refine ⟨nodup_cons.2 ⟨(fresh frame (.head _) look).2, nodup⟩, forall_mem_cons.2 ⟨reached, inside⟩,
        ?_, forall_mem_cons.2 ⟨.inl rfl, kept'⟩⟩
      rw [length_cons]
      push_cast
      omega
    have needs {edges : List ε} {edge : ε} (look : frame.edges = some edges) (at_index : edges[frame.index]? = some edge) :
        Needs G frame.node (G.target edge) := (sound.next look at_index).needs
    have turn := step_turn (G := G) stack
    generalize step G s = t at turn ⊢
    cases turn with
    | broke look broke =>
      obtain ⟨nodup', inside', paid', -⟩ := spends look
      have funded := seen_fits (s := { s with budget := s.budget - 1 }) few nodup' inside' paid'
      exact absurd broke (not_lt.2 funded)
    | refused look kind =>
      obtain ⟨nodup', inside', paid', looked⟩ := spends look
      refine settle_sound whole stack answers (fun _ stored => stored) ?_ nodup' inside' paid' looked
      rintro (_ | height)
      · rfl
      · rw [value, kind]
    | leaf look kind =>
      obtain ⟨nodup', inside', paid', looked⟩ := spends look
      exact settle_sound whole stack answers (fun _ stored => stored) ⟨1, by rw [value, kind]⟩ nodup' inside' paid' looked
    | opened look kind =>
      obtain ⟨nodup', inside', paid', looked⟩ := spends look
      refine ⟨answers, ?_, piled, inner, frame.node :: seen, nodup', inside', paid', ?_, ?_⟩
      · intro other member
        rcases mem_cons.1 member with rfl | below
        · exact ⟨⟨sound.toBacked.opens look kind, sound.path⟩, reached⟩
        · exact frames other (stack ▸ mem_cons_of_mem _ below)
      · intro node member
        rcases looked node member with rfl | stored | ⟨other, below, rest⟩
        · exact .inr ⟨_, mem_cons_self, rfl, by simp⟩
        · exact .inl stored
        · exact .inr ⟨other, .tail _ below, rest⟩
      · intro other member unclassified
        rcases mem_cons.1 member with rfl | below
        · cases unclassified
        · exact absurd unclassified (inner other below)
    | closed look at_index =>
      exact settle_sound whole stack answers (fun _ stored => stored) (sound.toBacked.closes look at_index) nodup inside paid kept'
    | @cyclic edges edge look at_index cycle =>
      have loops : Answers G (G.target edge) none := by
        refine none_of_cycle ?_
        rcases cycle with same | above
        · exact .single (same ▸ needs look at_index)
        · exact .tail (sound.path _ above) (needs look at_index)
      refine settle_sound whole stack ?_ ?_ (none_of_needs (needs look at_index) loops) nodup inside paid kept'
      · intro node result found
        by_cases same : node = G.target edge
        · subst same
          obtain rfl : none = result := by simpa using found
          exact loops
        · exact answers node result (by simpa [update_of_ne same] using found)
      · intro node stored
        by_cases same : node = G.target edge
        · subst same
          simp
        · simpa [update_of_ne same] using stored
    | visits look at_index known acyclic =>
      exact visit_sound whole stack (closed _ reached _ (sound.next look at_index)) (needs look at_index) (by simp [look]) known
        acyclic
    | failed look at_index known =>
      exact settle_sound whole stack answers (fun _ stored => stored)
        (none_of_needs (needs look at_index) (answers _ none known)) nodup inside paid kept'
    | carried look at_index known =>
      refine ⟨answers, ?_, piled, inner, seen, nodup, inside, paid, ?_, ?_⟩
      · intro other held
        rcases mem_cons.1 held with rfl | below
        · exact ⟨⟨sound.toBacked.carries look at_index (answers _ _ known), sound.path⟩, reached⟩
        · exact frames other (stack ▸ mem_cons_of_mem _ below)
      · intro node found
        rcases kept' node found with rfl | saved | ⟨other, below, rest⟩
        · exact .inr ⟨_, mem_cons_self, rfl, by simp [look]⟩
        · exact .inl saved
        · exact .inr ⟨other, .tail _ below, rest⟩
      · intro other held unclassified
        rcases mem_cons.1 held with rfl | below
        · exact absurd (look.symm.trans unclassified) (some_ne_none _)
        · exact absurd unclassified (inner other below)

theorem step_cases (stack : s.stack = frame :: rest) :
    (∃ next, next.node = frame.node ∧ step G s = { s with budget := s.budget - 1, stack := next :: rest } ∧
        frame.edges = none ∧ ∃ edges, next.edges = some edges ∧ G.classify frame.node = .through edges) ∨
      (∃ memo budget result, step G s = State.finish { s with memo, budget } frame rest result ∧
        (∀ node, s.memo node ≠ none → memo node ≠ none) ∧
        (frame.edges = none ∧ budget = s.budget - 1 ∨ frame.edges ≠ none ∧ budget = s.budget)) ∨
      (∃ next : Frame ν ε σ, step G s = { s with stack := next :: frame :: rest } ∧ frame.edges ≠ none ∧ next.edges = none) ∨
      (∃ next edges, frame.edges = some edges ∧ next.edges = some edges ∧ next.node = frame.node ∧
        frame.index < edges.length ∧ next.index = frame.index + 1 ∧ step G s = { s with stack := next :: rest }) := by
  have turn := step_turn (G := G) stack
  have stays : ∀ node, s.memo node ≠ none → s.memo node ≠ none := fun _ stored => stored
  generalize step G s = t at turn ⊢
  cases turn with
  | broke look | refused look | leaf look => exact .inr (.inl ⟨_, _, _, rfl, stays, .inl ⟨look, rfl⟩⟩)
  | opened look kind => exact .inl ⟨{ frame with edges := some _ }, rfl, rfl, look, _, rfl, kind⟩
  | closed look | failed look => exact .inr (.inl ⟨_, _, _, rfl, stays, .inr ⟨by simp [look], rfl⟩⟩)
  | @cyclic edges edge look =>
    refine .inr (.inl ⟨_, _, _, rfl, fun node stored => ?_, .inr ⟨by simp [look], rfl⟩⟩)
    by_cases same : node = G.target edge
    · subst same
      simp
    · simpa [update_of_ne same] using stored
  | visits look => exact .inr (.inr (.inl ⟨_, rfl, by simp [look], rfl⟩))
  | carried look at_index =>
    exact .inr (.inr (.inr ⟨{ frame with carried := _, index := frame.index + 1 }, _, look, look, rfl,
      (List.getElem?_eq_some_iff.1 at_index).1, rfl, rfl⟩))

theorem step_keeps (held : s.memo node ≠ none ∨ ∃ frame ∈ s.stack, frame.node = node) :
    (step G s).memo node ≠ none ∨ ∃ frame ∈ (step G s).stack, frame.node = node := by
  cases stack : s.stack with
  | nil =>
    have idle : step G s = s := by rw [step, stack]
    rwa [idle]
  | cons frame rest =>
    rw [stack] at held
    rcases step_cases (G := G) stack with ⟨next, named, turn, -⟩ | ⟨memo, budget, result, turn, grown, -⟩ | ⟨next, turn, -⟩ |
        ⟨next, edges, -, -, named, -, -, turn⟩
    · rw [turn]
      refine held.imp id ?_
      rintro ⟨other, inside, rfl⟩
      rcases mem_cons.1 inside with rfl | below
      · exact ⟨next, .head _, named⟩
      · exact ⟨other, .tail _ below, rfl⟩
    · rw [turn]
      by_cases same : node = frame.node
      · subst same
        exact .inl (by simp [State.finish])
      · rcases held with stored | ⟨other, inside, rfl⟩
        · refine .inl ?_
          simp only [State.finish, update_of_ne same]
          exact grown node stored
        · rcases mem_cons.1 inside with rfl | below
          · exact absurd rfl same
          · exact .inr ⟨other, below, rfl⟩
    · rw [turn]
      exact held.imp id fun ⟨other, inside, named⟩ => ⟨other, .tail _ inside, named⟩
    · rw [turn]
      refine held.imp id ?_
      rintro ⟨other, inside, rfl⟩
      rcases mem_cons.1 inside with rfl | below
      · exact ⟨next, .head _, named⟩
      · exact ⟨other, .tail _ below, rfl⟩

/-- The turns a frame still needs: a fresh one is paid for by the budget it is about to spend. -/
def Frame.weight (frame : Frame ν ε σ) : Int :=
  match frame.edges with
  | none => -1
  | some edges => ((edges.length - frame.index : Nat) : Int) + 1

def State.weight (width : Nat) (s : State ν ε β σ) : Int := s.budget * (width + 3) + (s.stack.map Frame.weight).sum

omit [DecidableEq ν] in
theorem weight_pos (classified : frame.edges ≠ none) : 1 ≤ frame.weight := by
  unfold Frame.weight
  cases look : frame.edges with
  | none => exact absurd look classified
  | some edges =>
    dsimp only
    omega

theorem step_weight (narrow : ∀ node edges, G.classify node = .through edges → edges.length ≤ width)
    (nonempty : s.stack ≠ []) : (step G s).weight width + 1 ≤ s.weight width := by
  cases stack : s.stack with
  | nil => exact absurd stack nonempty
  | cons frame rest =>
    have before : s.weight width = s.budget * (width + 3) + (frame.weight + (rest.map Frame.weight).sum) := by
      rw [State.weight, stack, map_cons, sum_cons]
    rw [before]
    rcases step_cases (G := G) stack with ⟨next, -, turn, fresh, edges, looked, kind⟩ |
        ⟨memo, budget, result, turn, -, ⟨fresh, spent⟩ | ⟨classified, same⟩⟩ | ⟨next, turn, -, fresh⟩ |
        ⟨next, edges, look, looked, -, inside, index, turn⟩
    · have few := narrow _ _ kind
      have own : frame.weight = -1 := by rw [Frame.weight, fresh]
      have after : next.weight = ((edges.length - next.index : Nat) : Int) + 1 := by rw [Frame.weight, looked]
      rw [turn, State.weight, map_cons, sum_cons, after, own]
      have bound : ((edges.length - next.index : Nat) : Int) ≤ width := by omega
      nlinarith
    · have own : frame.weight = -1 := by rw [Frame.weight, fresh]
      rw [turn, State.finish, State.weight, own, spent]
      have : (0 : Int) ≤ width := Int.natCast_nonneg _
      nlinarith
    · have own := weight_pos classified
      rw [turn, State.finish, State.weight, same]
      linarith
    · have own : next.weight = -1 := by rw [Frame.weight, fresh]
      rw [turn, State.weight, map_cons, sum_cons, map_cons, sum_cons, own]
      linarith
    · have own : frame.weight = ((edges.length - frame.index : Nat) : Int) + 1 := by rw [Frame.weight, look]
      have after : next.weight = ((edges.length - next.index : Nat) : Int) + 1 := by rw [Frame.weight, looked]
      rw [turn, State.weight, map_cons, sum_cons, own, after, index]
      have less : ((edges.length - (frame.index + 1) : Nat) : Int) + 1 = ((edges.length - frame.index : Nat) : Int) := by omega
      linarith

omit [DecidableEq ν] in
theorem weight_ge (funded : 0 ≤ s.budget) (inner : ∀ frame ∈ s.stack.tail, frame.edges ≠ none) :
    -1 ≤ s.weight width := by
  have positive : ∀ frames : List (Frame ν ε σ), (∀ frame ∈ frames, frame.edges ≠ none) → 0 ≤ (frames.map Frame.weight).sum := by
    intro frames classified
    refine sum_nonneg fun x member => ?_
    obtain ⟨frame, inside, rfl⟩ := mem_map.1 member
    exact le_trans (by decide) (weight_pos (classified frame inside))
  have paid : 0 ≤ s.budget * ((width : Int) + 3) := Int.mul_nonneg funded (by omega)
  unfold State.weight
  cases stack : s.stack with
  | nil => simp only [map_nil, sum_nil]; omega
  | cons frame rest =>
    rw [stack] at inner
    have below := positive rest inner
    have top : -1 ≤ frame.weight := by
      by_cases fresh : frame.edges = none
      · rw [Frame.weight, fresh]
      · exact le_trans (by decide) (weight_pos fresh)
    rw [map_cons, sum_cons]
    omega

/-- The turns that suffice for a budget when no node has more edges than the width. -/
def enough (width : Nat) (budget : Int) : Nat := budget.toNat * (width + 3) + 4

theorem turns_done (done : s.stack = []) (n : Nat) : turns G n s = s := by
  have idle : step G s = s := by rw [step, done]
  induction n with
  | zero => rfl
  | succ n ih => rw [turns, idle, ih]

theorem turns_sound (few : reach.length ≤ limit)
    (closed : ∀ node ∈ reach, ∀ other, NeedsNext G node other → other ∈ reach)
    (narrow : ∀ node edges, G.classify node = .through edges → edges.length ≤ width) {n : Nat} (sound : s.Sound G reach limit)
    (held : s.memo node ≠ none ∨ ∃ frame ∈ s.stack, frame.node = node) (room : s.weight width + 2 ≤ n) :
    (turns G n s).Sound G reach limit ∧ (turns G n s).stack = [] ∧ (turns G n s).memo node ≠ none := by
  have funded : ∀ {t : State ν ε β σ}, t.Sound G reach limit → 0 ≤ t.budget := by
    rintro t ⟨-, -, -, -, seen, nodup, inside, paid, -⟩
    exact seen_fits few nodup inside paid
  induction n generalizing s with
  | zero =>
    have : -1 ≤ s.weight width := weight_ge (funded sound) sound.inner
    omega
  | succ n ih =>
    rw [turns]
    by_cases done : s.stack = []
    · have idle : step G s = s := by rw [step, done]
      rw [idle, turns_done done]
      refine ⟨sound, done, ?_⟩
      rcases held with stored | ⟨frame, inside, -⟩
      · exact stored
      · rw [done] at inside
        cases inside
    · have lower := step_weight narrow done
      exact ih (step_sound few closed sound) (step_keeps held) (by omega)

/-- Evaluates a node unless the memo knows it; the memo and the remaining budget are carried on. -/
def evaluate (G : Graph ν ε β σ) (width : Nat) (memo : ν → Option (Option β)) (budget : Int) (node : ν) : State ν ε β σ :=
  match memo node with
  | some _ => { stack := [], memo, budget }
  | none => turns G (enough width budget) (initial G memo budget node)

/-- The nodes that evaluations have looked at, all stored, against what is left of the budget. -/
structure Spent (reach : List ν) (limit : Nat) (memo : ν → Option (Option β)) (budget : Int) (seen : List ν) : Prop where
  nodup : seen.Nodup
  inside : ∀ node ∈ seen, node ∈ reach
  paid : (limit : Int) ≤ budget + seen.length
  stored : ∀ node ∈ seen, memo node ≠ none

theorem evaluate_sound (few : reach.length ≤ limit)
    (closed : ∀ node ∈ reach, ∀ other, NeedsNext G node other → other ∈ reach)
    (narrow : ∀ node edges, G.classify node = .through edges → edges.length ≤ width)
    (answers : ∀ node result, memo node = some result → Answers G node result)
    (reached : node ∈ reach) (spent : Spent reach limit memo budget seen) :
    (∃ result, (evaluate G width memo budget node).memo node = some result ∧ Answers G node result) ∧
      (∀ other result, (evaluate G width memo budget node).memo other = some result → Answers G other result) ∧
      ∃ seen, Spent reach limit (evaluate G width memo budget node).memo (evaluate G width memo budget node).budget seen := by
  cases known : memo node with
  | some result =>
    have idle : evaluate G width memo budget node = { stack := [], memo, budget } := by
      rw [evaluate, known]
    rw [idle]
    exact ⟨⟨result, known, answers node result known⟩, answers, seen, spent⟩
  | none =>
    have run : evaluate G width memo budget node = turns G (enough width budget) (initial G memo budget node) := by
      rw [evaluate, known]
    rw [run]
    have funded : 0 ≤ budget := seen_fits (s := ({ stack := [], memo, budget } : State ν ε β σ)) few spent.nodup spent.inside
      spent.paid
    have start : (initial G memo budget node).Sound G reach limit := by
      refine ⟨answers, ?_, ⟨rfl, trivial⟩, ?_, seen, spent.nodup, spent.inside, spent.paid, ?_, ?_⟩
      · intro frame member
        rw [mem_singleton.1 member]
        exact ⟨⟨.unlooked _ _, fun other above => (not_mem_nil above).elim⟩, reached⟩
      · exact fun frame below => (not_mem_nil below).elim
      · exact fun node member => .inl (spent.stored node member)
      · intro frame member _
        rw [mem_singleton.1 member]
        exact ⟨known, fun looked => spent.stored node looked known⟩
    have room : (initial G memo budget node).weight width + 2 ≤ enough width budget := by
      have same : ((budget.toNat : Nat) : Int) = budget := Int.toNat_of_nonneg funded
      unfold enough State.weight initial
      push_cast
      rw [same]
      simp only [map_cons, map_nil, sum_cons, sum_nil, Frame.weight]
      omega
    obtain ⟨sound, done, stored⟩ := turns_sound few closed narrow start (.inr ⟨_, mem_singleton_self _, rfl⟩) room
    obtain ⟨result, found⟩ := ne_none_iff_exists'.1 stored
    obtain ⟨memo', -, -, -, later, nodup, inside, paid, kept, -⟩ := sound
    refine ⟨⟨result, found, memo' _ _ found⟩, memo', later, nodup, inside, paid, ?_⟩
    intro other member
    rcases kept other member with saved | ⟨frame, held, -⟩
    · exact saved
    · rw [done] at held
      cases held

/-- What is stored as a value is one, whether or not the budget lasts. -/
structure State.Backed (G : Graph ν ε β σ) (s : State ν ε β σ) : Prop where
  memo : ∀ node own, s.memo node = some (some own) → Answers G node (some own)
  frames : ∀ frame ∈ s.stack, frame.Backed G

theorem step_backed (backed : s.Backed G) : (step G s).Backed G := by
  cases stack : s.stack with
  | nil =>
    have idle : step G s = s := by rw [step, stack]
    rwa [idle]
  | cons frame rest =>
    obtain ⟨answers, frames⟩ := backed
    rw [stack, forall_mem_cons] at frames
    obtain ⟨top, below⟩ := frames
    have settles {memo : ν → Option (Option β)} {budget : Int} {result : Option β}
        (told : ∀ node own, memo node = some (some own) → Answers G node (some own))
        (worth : ∀ own, result = some own → Answers G frame.node (some own)) :
        (State.finish { stack := s.stack, memo, budget } frame rest result).Backed G := by
      refine ⟨fun node own found => ?_, below⟩
      by_cases same : node = frame.node
      · subst same
        exact worth own (by simpa [State.finish] using found)
      · exact told node own (by simpa [State.finish, update_of_ne same] using found)
    have turn := step_turn (G := G) stack
    generalize step G s = t at turn ⊢
    cases turn with
    | broke | refused | failed => exact settles answers fun _ none => by cases none
    | leaf look kind => exact settles answers fun _ same => ⟨1, by rw [value, kind, ← same]⟩
    | opened look kind => exact ⟨answers, forall_mem_cons.2 ⟨top.opens look kind, below⟩⟩
    | closed look at_index => exact settles answers fun _ same => same ▸ top.closes look at_index
    | @cyclic edges edge =>
      refine settles (fun node own found => ?_) fun _ none => by cases none
      by_cases same : node = G.target edge
      · subst same
        simp at found
      · exact answers node own (by simpa [update_of_ne same] using found)
    | visits =>
      exact ⟨answers, forall_mem_cons.2 ⟨Frame.Backed.unlooked _ _, forall_mem_cons.2 ⟨top, below⟩⟩⟩
    | carried look at_index known =>
      exact ⟨answers, forall_mem_cons.2 ⟨top.carries look at_index (answers _ _ known), below⟩⟩

theorem evaluate_backed (told : ∀ node own, memo node = some (some own) → Answers G node (some own)) :
    ∀ other own, (evaluate G width memo budget node).memo other = some (some own) → Answers G other (some own) := by
  unfold evaluate
  split
  · exact told
  · have start : (initial G memo budget node).Backed G := by
      refine ⟨told, fun frame member => ?_⟩
      rw [mem_singleton.1 member]
      exact Frame.Backed.unlooked node []
    have run : ∀ n, ∀ {t : State ν ε β σ}, t.Backed G → (turns G n t).Backed G := by
      intro n
      induction n with
      | zero => exact id
      | succ n ih => exact fun backed => ih (step_backed backed)
    exact (run _ start).memo

theorem evaluate_known {result : Option β}
    (known : memo node = some result) : evaluate G width memo budget node = { stack := [], memo, budget } := by
  rw [evaluate, known]

theorem evaluate_leaf {own : β}
    (fresh : memo node = none) (funded : 0 < budget) (leaf : G.classify node = .leaf own) :
    evaluate G width memo budget node =
      { stack := [], memo := update memo node (some (some own)), budget := budget - 1 } := by
  have first : step G (initial G memo budget node) =
      { stack := [], memo := update memo node (some (some own)), budget := budget - 1 } := by
    have left : ¬budget - 1 < 0 := by omega
    simp only [step, initial, leaf, if_neg left, State.finish]
  rw [evaluate, fresh]
  dsimp only
  rw [enough, turns, first, turns_done rfl]

theorem evaluate_broke (fresh : memo node = none) (broke : budget ≤ 0) :
    evaluate G width memo budget node =
      { stack := [], memo := update memo node (some none), budget := budget - 1 } := by
  have first : step G (initial G memo budget node) =
      { stack := [], memo := update memo node (some none), budget := budget - 1 } := by
    have left : budget - 1 < 0 := by omega
    simp only [step, initial, State.finish]
    exact if_pos left
  rw [evaluate, fresh]
  dsimp only
  rw [enough, turns, first, turns_done rfl]

end

open Classical in
noncomputable def worth (G : Graph ν ε β σ) (node : ν) : Option β :=
  if found : ∃ own, Answers G node (some own) then some found.choose else none

theorem answers_worth (G : Graph ν ε β σ) (node : ν) : Answers G node (worth G node) := by
  unfold worth
  split
  · rename_i found
    exact found.choose_spec
  · rename_i missing
    intro height
    by_contra some
    obtain ⟨own, reached⟩ := ne_none_iff_exists'.1 some
    exact missing ⟨own, height, reached⟩

theorem Answers.worth_eq {G : Graph ν ε β σ} {node : ν} {result : Option β} (answer : Answers G node result) :
    result = worth G node :=
  answer.unique (answers_worth G node)

end Lib.MemoSearch
