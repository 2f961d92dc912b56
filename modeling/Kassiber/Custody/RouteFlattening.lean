import Kassiber.Lib.Sums
import Kassiber.Custody.Components

/-!
What collapsing the hops of a route keeps: every amount that leaves an observed leg, and every amount
that reaches an endpoint.
-/

namespace Kassiber.Custody
open Lib.Outcome Lib.Sums List

def fromLeg (id : String) (allocations : List ComponentAllocation) : Int :=
  ((allocations.filter fun a => a.sourceLegId = id).map (·.sourceAmountMsat)).sum

def intoLeg (id : String) (allocations : List ComponentAllocation) : Int :=
  ((allocations.filter fun a => a.sinkLegId = id).map (·.sinkAmountMsat)).sum

def carriedFrom (id : String) (tokens : List RouteToken) : Int :=
  ((tokens.filter fun t => t.origin = id).map (·.amount)).sum

theorem fromLeg_append (id : String) (xs ys : List ComponentAllocation) :
    fromLeg id (xs ++ ys) = fromLeg id xs + fromLeg id ys := by
  simp [fromLeg, filter_append]

theorem intoLeg_append (id : String) (xs ys : List ComponentAllocation) :
    intoLeg id (xs ++ ys) = intoLeg id xs + intoLeg id ys := by
  simp [intoLeg, filter_append]

theorem carriedFrom_append (id : String) (xs ys : List RouteToken) :
    carriedFrom id (xs ++ ys) = carriedFrom id xs + carriedFrom id ys := by
  simp [carriedFrom, filter_append]

theorem carriedFrom_cons (id : String) (token : RouteToken) (tokens : List RouteToken) :
    carriedFrom id (token :: tokens) = (if token.origin = id then token.amount else 0) + carriedFrom id tokens := by
  unfold carriedFrom
  by_cases own : token.origin = id <;> simp [own]

theorem fromLeg_erase (id : String) {a : ComponentAllocation} {xs : List ComponentAllocation} (member : a ∈ xs) :
    fromLeg id xs = (if a.sourceLegId = id then a.sourceAmountMsat else 0) + fromLeg id (xs.erase a) := by
  unfold fromLeg
  rw [sum_filter, sum_filter]
  exact (sum_map_erase (fun a => if a.sourceLegId = id then a.sourceAmountMsat else 0) member).symm

theorem intoLeg_erase (id : String) {a : ComponentAllocation} {xs : List ComponentAllocation} (member : a ∈ xs) :
    intoLeg id xs = (if a.sinkLegId = id then a.sinkAmountMsat else 0) + intoLeg id (xs.erase a) := by
  unfold intoLeg
  rw [sum_filter, sum_filter]
  exact (sum_map_erase (fun a => if a.sinkLegId = id then a.sinkAmountMsat else 0) member).symm

namespace RoutePools
variable {pools : RoutePools} {key : LocationKey} {queue : List RouteToken}

def holding (pools : RoutePools) (id : String) : Int := carriedFrom id (pools.flatMap Prod.snd)

theorem holding_put (id : String) :
    (pools.put key queue).holding id + carriedFrom id (pools.tokens key) = pools.holding id + carriedFrom id queue := by
  induction pools with
  | nil => simp [holding, put, tokens, carriedFrom]
  | cons entry rest ih =>
    unfold put
    by_cases here : entry.1 = key
    · rw [if_pos here]
      simp only [holding, tokens, flatMap_cons, carriedFrom_append, find?_cons, here, decide_true,
        Option.map_some, Option.getD_some]
      ring
    · rw [if_neg here]
      have later : tokens (entry :: rest) key = tokens rest key := by
        simp [tokens, here]
      rw [later]
      simp only [holding, flatMap_cons, carriedFrom_append] at ih ⊢
      linarith

theorem mem_put {entry : LocationKey × List RouteToken} (member : entry ∈ pools.put key queue) :
    entry ∈ pools ∨ entry = (key, queue) := by
  induction pools with
  | nil =>
    rw [put, mem_singleton] at member
    exact .inr member
  | cons first rest ih =>
    unfold put at member
    split at member
    · rcases mem_cons.1 member with same | old
      · exact .inr same
      · exact .inl (.tail _ old)
    · rcases mem_cons.1 member with same | later
      · exact .inl (same ▸ mem_cons_self)
      · exact (ih later).imp_left (mem_cons_of_mem _)

theorem keys_put (distinct : (pools.map Prod.fst).Nodup) : ((pools.put key queue).map Prod.fst).Nodup := by
  induction pools with
  | nil => simp [put]
  | cons first rest ih =>
    rw [map_cons, nodup_cons] at distinct
    unfold put
    split
    · rename_i here
      rw [map_cons, nodup_cons]
      exact ⟨here ▸ distinct.1, distinct.2⟩
    · rename_i other
      rw [map_cons, nodup_cons]
      refine ⟨fun repeated => ?_, ih distinct.2⟩
      obtain ⟨entry, member, same⟩ := mem_map.1 repeated
      rcases mem_put member with old | rfl
      · exact distinct.1 (mem_map.2 ⟨entry, old, same⟩)
      · exact other same.symm

theorem mem_of_tokens {token : RouteToken} (member : token ∈ pools.tokens key) : ∃ entry ∈ pools, token ∈ entry.2 := by
  unfold tokens at member
  cases found : pools.find? fun entry => entry.1 = key with
  | none =>
    rw [found] at member
    cases member
  | some entry =>
    rw [found] at member
    exact ⟨entry, mem_of_find?_eq_some found, member⟩

theorem tokens_of_mem (distinct : (pools.map Prod.fst).Nodup) {entry : LocationKey × List RouteToken}
    (member : entry ∈ pools) : pools.tokens entry.1 = entry.2 := by
  induction pools with
  | nil => cases member
  | cons first rest ih =>
    rw [map_cons, nodup_cons] at distinct
    rcases mem_cons.1 member with rfl | later
    · simp [tokens]
    · have other : first.1 ≠ entry.1 := fun same => distinct.1 (mem_map.2 ⟨entry, later, same.symm⟩)
      rw [← ih distinct.2 later]
      simp [tokens, other]

end RoutePools

theorem takeTokens_zero (queue : List RouteToken) : takeTokens queue 0 = .ok ([], queue) := by
  cases queue <;> simp [takeTokens]

theorem takeTokens_cons {token : RouteToken} {rest : List RouteToken} {amount : Int} (some_left : amount ≠ 0) :
    takeTokens (token :: rest) amount =
      if min amount token.amount < token.amount then
        .ok ([{ token with amount }], { token with amount := token.amount - amount } :: rest)
      else (do
        let (taken, left) ← takeTokens rest (amount - token.amount)
        pure (token :: taken, left)) := by
  rw [takeTokens]
  exact some_left

theorem takeTokens_spec {queue taken left : List RouteToken} {amount : Int} (nonneg : 0 ≤ amount)
    (positive : ∀ t ∈ queue, 0 < t.amount) (run : takeTokens queue amount = .ok (taken, left)) :
    (∀ id, carriedFrom id taken + carriedFrom id left = carriedFrom id queue) ∧
      (taken.map (·.amount)).sum = amount ∧
      (∀ t ∈ taken ++ left, 0 < t.amount ∧ ∃ old ∈ queue, old.origin = t.origin) := by
  induction queue generalizing amount taken left with
  | nil =>
    by_cases zero : amount = 0
    · subst zero
      rw [takeTokens_zero] at run
      cases run
      simp [carriedFrom]
    · simp [takeTokens] at run
  | cons token rest ih =>
    have own := positive token (.head _)
    have later : ∀ t ∈ rest, 0 < t.amount := fun t member => positive t (.tail _ member)
    by_cases zero : amount = 0
    · subst zero
      rw [takeTokens_zero] at run
      cases run
      exact ⟨fun id => by simp [carriedFrom], rfl, fun t member => ⟨positive t member, t, member, rfl⟩⟩
    · rw [takeTokens_cons zero] at run
      split at run
      · rename_i part
        cases run
        refine ⟨fun id => ?_, by simp, fun t member => ?_⟩
        · rw [carriedFrom_cons, carriedFrom_cons, carriedFrom_cons]
          by_cases own : token.origin = id
          · simp only [own, if_true, carriedFrom, filter_nil, map_nil, sum_nil]
            ring
          · simp [own, carriedFrom]
        · rcases mem_cons.1 member with first | inside
          · rw [first]
            exact ⟨by dsimp only; omega, token, .head _, rfl⟩
          · rcases mem_cons.1 inside with second | old
            · rw [second]
              exact ⟨by dsimp only; omega, token, .head _, rfl⟩
            · exact ⟨later t old, t, .tail _ old, rfl⟩
      · rename_i whole
        rw [bind_ok] at run
        obtain ⟨⟨taken', left'⟩, tail, done⟩ := run
        cases done
        obtain ⟨split, total, kept⟩ := ih (by omega) later tail
        refine ⟨fun id => ?_, ?_, fun t member => ?_⟩
        · rw [carriedFrom_cons, carriedFrom_cons, ← split id]
          ring
        · rw [map_cons, sum_cons, total]
          ring
        · rcases mem_cons.1 member with first | inside
          · rw [first]
            exact ⟨own, token, .head _, rfl⟩
          · obtain ⟨amount, old, before, origin⟩ := kept t inside
            exact ⟨amount, old, .tail _ before, origin⟩

namespace Component

/-- A source leg that a transaction observes: where the amounts of a route start. -/
def ObservedSource (component : Component) (id : String) : Prop :=
  ∃ leg, component.leg id = some leg ∧ leg.role = .source ∧ leg.observedBy ≠ ""

/-- A sink leg where a route ends: observed, classified, or finalized as retained. -/
def Endpoint (component : Component) (finalizedRetainedLegIds : List String) (id : String) : Prop :=
  ∃ leg, component.leg id = some leg ∧
    ((leg.role ≠ .destination ∧ leg.role ≠ .retained) ∨ leg.observedBy ≠ "" ∨ id ∈ finalizedRetainedLegIds)

end Component

def RouteToken.Sound (component : Component) (token : RouteToken) : Prop :=
  0 < token.amount ∧ component.ObservedSource token.origin

structure RoutePools.Sound (component : Component) (pools : RoutePools) : Prop where
  distinct : (pools.map Prod.fst).Nodup
  tokens : ∀ entry ∈ pools, ∀ token ∈ entry.2, token.Sound component

theorem RoutePools.Sound.put {component : Component} {pools : RoutePools} {key : LocationKey} {queue : List RouteToken}
    (sound : pools.Sound component) (queued : ∀ token ∈ queue, token.Sound component) :
    (pools.put key queue).Sound component where
  distinct := keys_put sound.distinct
  tokens := by
    intro entry member token inside
    rcases mem_put member with old | rfl
    · exact sound.tokens entry old token inside
    · exact queued token inside

theorem RoutePools.Sound.queue {component : Component} {pools : RoutePools} {key : LocationKey} {token : RouteToken}
    (sound : pools.Sound component) (member : token ∈ pools.tokens key) : token.Sound component := by
  obtain ⟨entry, old, inside⟩ := mem_of_tokens member
  exact sound.tokens entry old token inside

section
variable {component : Component} {finalizedRetainedLegIds : List String} {allocations : List ComponentAllocation}
  {state next : RouteState} {a : ComponentAllocation}

def ComponentAllocation.Conserving (a : ComponentAllocation) : Prop :=
  0 < a.sourceAmountMsat ∧ a.sourceAmountMsat = a.sinkAmountMsat

def ComponentAllocation.Unlike (a : ComponentAllocation) : Prop :=
  ¬(a.sourceAmountMsat ≤ 0 ∧ a.sinkAmountMsat ≤ 0) ∧ a.sourceAmountMsat ≠ a.sinkAmountMsat

def ComponentAllocation.Nonneg (a : ComponentAllocation) : Prop := 0 ≤ a.sourceAmountMsat ∧ 0 ≤ a.sinkAmountMsat

theorem routeAllocation_cases (run : routeAllocation component finalizedRetainedLegIds state a = .ok next) :
    ∃ source sink, component.leg a.sourceLegId = some source ∧ component.leg a.sinkLegId = some sink ∧
      source.role = .source ∧
      ((a.sourceAmountMsat ≤ 0 ∧ a.sinkAmountMsat ≤ 0 ∧
          next = { state with pending := state.pending.erase a, progressed := true }) ∨
        (a.Unlike ∧ source.observedBy ≠ "" ∧
          next =
            { state with
              pending := state.pending.erase a, progressed := true, flattened := state.flattened ++ [a] }) ∨
        (a.Conserving ∧ (next = state ∨ ∃ tokens pools, routeTokens state a source = .ok (some (tokens, pools)) ∧
          routeArrive finalizedRetainedLegIds state a sink tokens pools = .ok next))) := by
  unfold routeAllocation at run
  split at run
  · rename_i source sink sourceFound sinkFound
    rw [bind_ok] at run
    obtain ⟨_, checked, run⟩ := run
    refine ⟨source, sink, sourceFound, sinkFound, not_not.1 (raiseIf_ok.1 checked), ?_⟩
    split at run
    · rename_i empty
      cases run
      exact .inl ⟨empty.1, empty.2, rfl⟩
    · rename_i filled
      split at run
      · rename_i unlike
        obtain ⟨-, -, run⟩ := bind_ok.1 run
        obtain ⟨_, observed, run⟩ := bind_ok.1 run
        cases run
        exact .inr (.inl ⟨⟨filled, unlike⟩, raiseIf_ok.1 observed, rfl⟩)
      · rename_i alike
        have equal := not_not.1 alike
        obtain ⟨moved, tokens, run⟩ := bind_ok.1 run
        refine .inr (.inr ⟨⟨by omega, equal⟩, ?_⟩)
        cases moved with
        | none =>
          cases run
          exact .inl rfl
        | some pair => exact .inr ⟨pair.1, pair.2, tokens, run⟩
  · cases run

theorem routeAllocation_progress (run : routeAllocation component finalizedRetainedLegIds state a = .ok next) :
    next = state ∨ (next.pending = state.pending.erase a ∧ next.progressed = true) := by
  obtain ⟨source, sink, -, -, -, ⟨-, -, rfl⟩ | ⟨-, -, rfl⟩ | ⟨-, waits | ⟨tokens, pools, -, arrived⟩⟩⟩ :=
    routeAllocation_cases run
  · exact .inr ⟨rfl, rfl⟩
  · exact .inr ⟨rfl, rfl⟩
  · exact .inl waits
  · right
    unfold routeArrive at arrived
    split at arrived
    · obtain ⟨key, -, done⟩ := bind_ok.1 arrived
      cases done
      exact ⟨rfl, rfl⟩
    · cases arrived
      exact ⟨rfl, rfl⟩

theorem carriedFrom_path (id allocationId : String) (tokens : List RouteToken) :
    carriedFrom id (tokens.map fun token => { token with path := token.path ++ [allocationId] }) =
      carriedFrom id tokens := by
  induction tokens with
  | nil => rfl
  | cons token rest ih => rw [map_cons, carriedFrom_cons, carriedFrom_cons, ih]

variable {tokens : List RouteToken} {pools : RoutePools}

theorem routeTokens_spec {source : ComponentLeg}
    (sound : state.pools.Sound component) (conserving : a.Conserving)
    (found : component.leg a.sourceLegId = some source) (role : source.role = .source)
    (run : routeTokens state a source = .ok (some (tokens, pools))) :
    pools.Sound component ∧ (∀ token ∈ tokens, token.Sound component) ∧
      (tokens.map (·.amount)).sum = a.sourceAmountMsat ∧
      ∀ id, component.ObservedSource id →
        carriedFrom id tokens + pools.holding id =
          state.pools.holding id + if a.sourceLegId = id then a.sourceAmountMsat else 0 := by
  unfold routeTokens at run
  extract_lets allocationId at run
  split at run
  · rename_i observed
    cases run
    refine ⟨sound, fun token member => ?_, by simp, fun id _ => ?_⟩
    · rw [mem_singleton] at member
      subst member
      exact ⟨conserving.1, source, found, role, observed⟩
    · rw [carriedFrom_cons]
      simp only [carriedFrom, filter_nil, map_nil, sum_nil]
      ring
  · rename_i unobserved
    rw [bind_ok] at run
    obtain ⟨key, -, run⟩ := run
    split at run
    · cases run
    · rw [bind_ok] at run
      obtain ⟨⟨taken, left⟩, taking, done⟩ := run
      cases done
      have queued := fun token member => @RoutePools.Sound.queue _ _ key token sound member
      obtain ⟨parts, total, kept⟩ := takeTokens_spec conserving.1.le (fun token member => (queued token member).1) taking
      have inherited : ∀ token ∈ taken ++ left, token.Sound component := by
        intro token member
        obtain ⟨positive, old, before, origin⟩ := kept token member
        exact ⟨positive, origin ▸ (queued old before).2⟩
      refine ⟨sound.put fun token member => inherited token (mem_append_right _ member), fun token member => ?_,
        ?_, fun id observed => ?_⟩
      · obtain ⟨old, before, rfl⟩ := mem_map.1 member
        exact inherited old (mem_append_left _ before)
      · rw [map_map]
        exact total
      · have elsewhere : a.sourceLegId ≠ id := by
          rintro rfl
          obtain ⟨leg, same, -, seen⟩ := observed
          rw [found] at same
          cases same
          exact unobserved seen
        rw [carriedFrom_path, if_neg elsewhere]
        have put := @RoutePools.holding_put state.pools key left id
        have part := parts id
        linarith

/-- What a route state keeps: what was emitted starts at an observed source and is a reviewed conversion or ends
at an endpoint, and at both ends nothing is lost or added. -/
structure RouteState.Balanced (component : Component) (finalizedRetainedLegIds : List String)
    (allocations : List ComponentAllocation) (state : RouteState) : Prop where
  pools : state.pools.Sound component
  waiting : ∀ a ∈ state.pending, a ∈ allocations
  emitted : ∀ a ∈ state.flattened, component.ObservedSource a.sourceLegId ∧
    ((a ∈ allocations ∧ a.Unlike) ∨ (a.Conserving ∧ component.Endpoint finalizedRetainedLegIds a.sinkLegId))
  sources : ∀ id, component.ObservedSource id →
    fromLeg id state.flattened + state.pools.holding id + fromLeg id state.pending = fromLeg id allocations
  sinks : ∀ id, component.Endpoint finalizedRetainedLegIds id →
    intoLeg id state.flattened + intoLeg id state.pending = intoLeg id allocations

/-- The flows an allocation emits for the tokens that reach its sink. -/
def endpointFlows (a : ComponentAllocation) (tokens : List RouteToken) : List ComponentAllocation :=
  tokens.zipIdx.map fun entry =>
    { a with
      id := if 1 < entry.1.path.length then "route:" ++ ":".intercalate entry.1.path ++ ":" ++ toString entry.2
        else a.id
      sourceLegId := entry.1.origin
      sourceAmountMsat := entry.1.amount
      sinkAmountMsat := entry.1.amount }

theorem mem_endpointFlows {flow : ComponentAllocation}
    (member : flow ∈ endpointFlows a tokens) : ∃ token ∈ tokens, flow.sourceLegId = token.origin ∧
      flow.sinkLegId = a.sinkLegId ∧ flow.sourceAmountMsat = token.amount ∧ flow.sinkAmountMsat = token.amount := by
  obtain ⟨entry, indexed, rfl⟩ := mem_map.1 member
  exact ⟨entry.1, fst_mem_of_mem_zipIdx indexed, rfl, rfl, rfl, rfl⟩

theorem fromLeg_endpointFlows (id : String) (tokens : List RouteToken) :
    fromLeg id (endpointFlows a tokens) = carriedFrom id tokens := by
  unfold fromLeg endpointFlows carriedFrom
  rw [sum_filter, sum_filter, map_map]
  conv_rhs => rw [← zipIdx_map_fst 0 tokens, map_map]
  rfl

theorem intoLeg_endpointFlows (id : String) (tokens : List RouteToken) :
    intoLeg id (endpointFlows a tokens) = if a.sinkLegId = id then (tokens.map (·.amount)).sum else 0 := by
  unfold intoLeg endpointFlows
  rw [sum_filter, map_map]
  conv_rhs => rw [← zipIdx_map_fst 0 tokens, map_map]
  by_cases own : a.sinkLegId = id
  · rw [if_pos own]
    exact congrArg sum (map_congr_left fun entry _ => if_pos own)
  · rw [if_neg own]
    refine sum_eq_zero fun amount member => ?_
    obtain ⟨entry, -, rfl⟩ := mem_map.1 member
    exact if_neg own

theorem intoLeg_erase_other {id : String} (other : a.sinkLegId ≠ id) {xs : List ComponentAllocation} (member : a ∈ xs) :
    intoLeg id xs = intoLeg id (xs.erase a) := by
  rw [intoLeg_erase id member, if_neg other, zero_add]

theorem fromLeg_singleton (id : String) : fromLeg id [a] = if a.sourceLegId = id then a.sourceAmountMsat else 0 := by
  unfold fromLeg
  by_cases own : a.sourceLegId = id <;> simp [own]

theorem intoLeg_singleton (id : String) : intoLeg id [a] = if a.sinkLegId = id then a.sinkAmountMsat else 0 := by
  unfold intoLeg
  by_cases own : a.sinkLegId = id <;> simp [own]

theorem RouteState.Balanced.step (balanced : state.Balanced component finalizedRetainedLegIds allocations)
    (nonneg : ∀ a ∈ allocations, a.Nonneg) (member : a ∈ state.pending)
    (run : routeAllocation component finalizedRetainedLegIds state a = .ok next) :
    next.Balanced component finalizedRetainedLegIds allocations := by
  have waiting : ∀ b ∈ state.pending.erase a, b ∈ allocations := fun b inside =>
    balanced.waiting b (mem_of_mem_erase inside)
  obtain ⟨source, sink, sourceFound, sinkFound, role, ⟨sent, received, rfl⟩ | ⟨unlike, observed, rfl⟩ |
    ⟨conserving, moves⟩⟩ := routeAllocation_cases run
  · -- an empty allocation vanishes
    have zero := nonneg a (balanced.waiting a member)
    refine ⟨balanced.pools, waiting, balanced.emitted, fun id observed => ?_, fun id ends => ?_⟩
    · rw [← balanced.sources id observed, fromLeg_erase id member, le_antisymm sent zero.1]
      simp
    · rw [← balanced.sinks id ends, intoLeg_erase id member, le_antisymm received zero.2]
      simp
  · -- a reviewed conversion passes as authored
    refine ⟨balanced.pools, waiting, fun flow inside => ?_, fun id observed => ?_, fun id ends => ?_⟩
    · rcases mem_append.1 inside with old | new
      · exact balanced.emitted flow old
      · rw [mem_singleton] at new
        subst new
        exact ⟨⟨source, sourceFound, role, observed⟩, .inl ⟨balanced.waiting flow member, unlike⟩⟩
    · rw [← balanced.sources id observed, fromLeg_erase id member, fromLeg_append, fromLeg_singleton]
      ring
    · rw [← balanced.sinks id ends, intoLeg_erase id member, intoLeg_append, intoLeg_singleton]
      ring
  rcases moves with rfl | ⟨tokens, pools, moved, arrived⟩
  · exact balanced
  obtain ⟨sound, fresh, total, origins⟩ := routeTokens_spec balanced.pools conserving sourceFound role moved
  unfold routeArrive at arrived
  split at arrived
  · -- a place without a transaction: the tokens wait there
    rename_i passing
    rw [bind_ok] at arrived
    obtain ⟨key, -, done⟩ := arrived
    cases done
    refine ⟨sound.put fun token inside => ?_, waiting, balanced.emitted, fun id observed => ?_, fun id ends => ?_⟩
    · rcases mem_append.1 inside with old | new
      · exact sound.queue old
      · exact fresh token new
    · have before := balanced.sources id observed
      rw [fromLeg_erase id member] at before
      have put := @RoutePools.holding_put pools key (pools.tokens key ++ tokens) id
      rw [carriedFrom_append] at put
      have moved := origins id observed
      dsimp only
      linarith
    · have other : a.sinkLegId ≠ id := by
        rintro rfl
        obtain ⟨leg, same, ended⟩ := ends
        rw [sinkFound] at same
        cases same
        obtain ⟨hop, unobserved, open_⟩ := passing
        rcases ended with classified | seen | finalized
        · exact hop.elim classified.1 classified.2
        · exact seen unobserved
        · exact open_ finalized
      rw [← balanced.sinks id ends, intoLeg_erase_other other member]
  · -- an endpoint: one flow for each token
    rename_i ending
    cases arrived
    change RouteState.Balanced component finalizedRetainedLegIds allocations
      ⟨state.pending.erase a, pools, state.flattened ++ endpointFlows a tokens, true⟩
    have ends : component.Endpoint finalizedRetainedLegIds a.sinkLegId := by
      refine ⟨sink, sinkFound, ?_⟩
      by_contra none
      push Not at none
      obtain ⟨hop, unobserved, open_⟩ := none
      exact ending ⟨or_iff_not_imp_left.2 hop, unobserved, open_⟩
    refine ⟨sound, waiting, fun flow inside => ?_, fun id observed => ?_, fun id _ => ?_⟩
    · rcases mem_append.1 inside with old | new
      · exact balanced.emitted flow old
      · obtain ⟨token, carrier, origin, target, sent, received⟩ := mem_endpointFlows new
        refine ⟨origin ▸ (fresh token carrier).2, .inr ⟨⟨?_, sent.trans received.symm⟩, target ▸ ends⟩⟩
        exact sent ▸ (fresh token carrier).1
    · have before := balanced.sources id observed
      rw [fromLeg_erase id member] at before
      have moved := origins id observed
      rw [fromLeg_append, fromLeg_endpointFlows]
      dsimp only
      linarith
    · rw [intoLeg_append, intoLeg_endpointFlows, total, ← balanced.sinks id ‹_›, intoLeg_erase id member,
        conserving.2]
      ring

/-- A pass over what is pending, as a copy taken at its start: it keeps the invariant, and a pass that
progressed settled an allocation. -/
theorem RouteState.Balanced.pass {copy : List ComponentAllocation}
    (balanced : state.Balanced component finalizedRetainedLegIds allocations) (nonneg : ∀ a ∈ allocations, a.Nonneg)
    (left : copy.Subperm state.pending)
    (run : copy.foldlM (routeAllocation component finalizedRetainedLegIds) state = .ok next) :
    next.Balanced component finalizedRetainedLegIds allocations ∧ next.pending.length ≤ state.pending.length ∧
      (next.progressed = true → state.progressed = true ∨ next.pending.length < state.pending.length) := by
  induction copy generalizing state with
  | nil =>
    cases run
    exact ⟨balanced, le_rfl, .inl⟩
  | cons a rest ih =>
    rw [foldlM_cons, bind_ok] at run
    obtain ⟨middle, first, run⟩ := run
    have member : a ∈ state.pending := left.subset (.head _)
    have kept := balanced.step nonneg member first
    rcases routeAllocation_progress first with rfl | ⟨settled, -⟩
    · exact ih kept ((sublist_cons_self a rest).subperm.trans left) run
    · have fewer : middle.pending.length + 1 = state.pending.length := by
        rw [settled, length_erase_add_one member]
      have remaining : rest.Subperm middle.pending := by
        have erased := left.erase a
        rw [erase_cons_head] at erased
        exact settled ▸ erased
      obtain ⟨final, bound, -⟩ := ih kept remaining run
      exact ⟨final, by omega, fun _ => .inr (by omega)⟩

theorem routePasses_empty (fuel : Nat) (empty : state.pending = []) :
    routePasses component finalizedRetainedLegIds fuel state = .ok state := by
  cases fuel with
  | zero => rfl
  | succ fuel => rw [routePasses, if_pos empty]

theorem RouteState.Balanced.restart (balanced : state.Balanced component finalizedRetainedLegIds allocations) :
    RouteState.Balanced component finalizedRetainedLegIds allocations { state with progressed := false } :=
  ⟨balanced.pools, balanced.waiting, balanced.emitted, balanced.sources, balanced.sinks⟩

theorem RouteState.Balanced.passes_enough {fuel : Nat}
    (balanced : state.Balanced component finalizedRetainedLegIds allocations) (nonneg : ∀ a ∈ allocations, a.Nonneg)
    (enough : state.pending.length ≤ fuel) (more : Nat) :
    routePasses component finalizedRetainedLegIds (fuel + more) state =
      routePasses component finalizedRetainedLegIds fuel state := by
  induction fuel generalizing state with
  | zero =>
    have empty : state.pending = [] := length_eq_zero_iff.1 (by omega)
    rw [routePasses_empty _ empty, routePasses_empty _ empty]
  | succ fuel ih =>
    rw [show fuel + 1 + more = fuel + more + 1 by omega, routePasses, routePasses]
    split
    · rfl
    · cases pass : state.pending.foldlM (routeAllocation component finalizedRetainedLegIds)
        { state with progressed := false } with
      | error raised => rfl
      | ok next =>
        obtain ⟨kept, -, progress⟩ := balanced.restart.pass nonneg (List.Subperm.refl _) pass
        change (raiseIf _ _ >>= fun _ => _) = (raiseIf _ _ >>= fun _ => _)
        by_cases stuck : next.progressed = false
        · rw [raiseIf, if_pos stuck]
          rfl
        · have fewer : next.pending.length < state.pending.length :=
            (progress (by simpa using stuck)).resolve_left Bool.false_ne_true
          rw [ih kept (by omega)]

theorem RouteState.Balanced.passes {fuel : Nat}
    (balanced : state.Balanced component finalizedRetainedLegIds allocations) (nonneg : ∀ a ∈ allocations, a.Nonneg)
    (enough : state.pending.length ≤ fuel)
    (run : routePasses component finalizedRetainedLegIds fuel state = .ok next) :
    next.Balanced component finalizedRetainedLegIds allocations ∧ next.pending = [] := by
  induction fuel generalizing state with
  | zero =>
    cases run
    exact ⟨balanced, length_eq_zero_iff.1 (by omega)⟩
  | succ fuel ih =>
    rw [routePasses] at run
    split at run
    · rename_i empty
      cases run
      exact ⟨balanced, empty⟩
    · rw [bind_ok] at run
      obtain ⟨middle, pass, run⟩ := run
      rw [bind_ok] at run
      obtain ⟨_, checked, run⟩ := run
      obtain ⟨kept, -, progress⟩ := balanced.restart.pass nonneg (List.Subperm.refl _) pass
      have progressed := raiseIf_ok.1 checked
      have fewer : middle.pending.length < state.pending.length :=
        (progress (by simpa using progressed)).resolve_left Bool.false_ne_true
      exact ih kept (by omega) run

def RouteState.start (allocations : List ComponentAllocation) : RouteState :=
  { pending := allocations, pools := [], flattened := [], progressed := false }

theorem RouteState.Balanced.start :
    (RouteState.start allocations).Balanced component finalizedRetainedLegIds allocations where
  pools := ⟨nodup_nil, fun entry member => by cases member⟩
  waiting := fun a member => member
  emitted := fun flow member => by cases member
  sources := fun id _ => by simp [RouteState.start, RoutePools.holding, fromLeg, carriedFrom]
  sinks := fun id _ => by simp [RouteState.start, intoLeg]

theorem RouteToken.Sound.sum_pos {token : RouteToken} (member : token ∈ tokens)
    (sound : ∀ t ∈ tokens, t.Sound component) : 0 < (tokens.map (·.amount)).sum := by
  refine List.sum_pos _ (fun amount inside => ?_) ?_
  · obtain ⟨t, old, rfl⟩ := mem_map.1 inside
    exact (sound t old).1
  · exact ne_nil_of_mem (mem_map_of_mem member)

theorem RoutePools.Sound.spent (sound : pools.Sound component)
    (settled : ¬∃ entry ∈ pools, 0 < pools.available entry.1) : ∀ entry ∈ pools, entry.2 = [] := by
  intro entry inside
  refine eq_nil_iff_forall_not_mem.2 fun token carried => settled ⟨entry, inside, ?_⟩
  rw [available, tokens_of_mem sound.distinct inside]
  exact RouteToken.Sound.sum_pos carried (sound.tokens entry inside)

theorem RoutePools.holding_spent (spent : ∀ entry ∈ pools, entry.2 = []) (id : String) :
    pools.holding id = 0 := by
  have empty : pools.flatMap Prod.snd = [] := flatMap_eq_nil_iff.2 spent
  rw [holding, empty]
  rfl

theorem flattened_balanced {flattened : List ComponentAllocation} (nonneg : ∀ a ∈ allocations, a.Nonneg)
    (run : flattenTransactionlessRoutes component finalizedRetainedLegIds allocations = .ok flattened) :
    ∃ done, routePasses component finalizedRetainedLegIds allocations.length (RouteState.start allocations) = .ok done ∧
      done.flattened = flattened ∧ (∀ entry ∈ done.pools, entry.2 = []) ∧
      (∀ a ∈ flattened, component.ObservedSource a.sourceLegId ∧
        ((a ∈ allocations ∧ a.Unlike) ∨ (a.Conserving ∧ component.Endpoint finalizedRetainedLegIds a.sinkLegId))) ∧
      (∀ id, component.ObservedSource id → fromLeg id flattened = fromLeg id allocations) ∧
      (∀ id, component.Endpoint finalizedRetainedLegIds id → intoLeg id flattened = intoLeg id allocations) := by
  unfold flattenTransactionlessRoutes at run
  obtain ⟨done, passes, run⟩ := bind_ok.1 run
  obtain ⟨_, checked, run⟩ := bind_ok.1 run
  cases run
  obtain ⟨kept, none⟩ := RouteState.Balanced.start.passes nonneg le_rfl passes
  have spent := kept.pools.spent (raiseIf_ok.1 checked)
  refine ⟨done, passes, rfl, spent, kept.emitted, fun id observed => ?_, fun id ends => ?_⟩
  · have total := kept.sources id observed
    rw [none, RoutePools.holding_spent spent] at total
    simpa [fromLeg] using total
  · have total := kept.sinks id ends
    rw [none] at total
    simpa [intoLeg] using total

/-- Collapsing the hops of a route ends after at most one pass for each allocation; it returns only when every
allocation is settled and no place holds a rest, and then each flow runs from an observed source to an endpoint,
with the amounts that the allocations send out of that source and bring into that endpoint. -/
theorem flattening_conserves (component : Component) (finalizedRetainedLegIds : List String)
    (allocations : List ComponentAllocation)
    (conserving : ∀ a ∈ allocations, 0 < a.sourceAmountMsat ∧ a.sourceAmountMsat = a.sinkAmountMsat) :
    (∀ more, routePasses component finalizedRetainedLegIds (allocations.length + more) (RouteState.start allocations) =
      routePasses component finalizedRetainedLegIds allocations.length (RouteState.start allocations)) ∧
    (∀ done, routePasses component finalizedRetainedLegIds allocations.length (RouteState.start allocations) = .ok done →
      done.pending = []) ∧
    ∀ flattened, flattenTransactionlessRoutes component finalizedRetainedLegIds allocations = .ok flattened →
      (∃ done, routePasses component finalizedRetainedLegIds allocations.length (RouteState.start allocations) = .ok done ∧
        done.flattened = flattened ∧ ∀ entry ∈ done.pools, entry.2 = []) ∧
      (∀ flow ∈ flattened, 0 < flow.sourceAmountMsat ∧ flow.sourceAmountMsat = flow.sinkAmountMsat ∧
        component.ObservedSource flow.sourceLegId ∧ component.Endpoint finalizedRetainedLegIds flow.sinkLegId) ∧
      (∀ id, component.ObservedSource id → fromLeg id flattened = fromLeg id allocations) ∧
      (∀ id, component.Endpoint finalizedRetainedLegIds id → intoLeg id flattened = intoLeg id allocations) := by
  have nonneg : ∀ a ∈ allocations, a.Nonneg := fun a member =>
    ⟨(conserving a member).1.le, (conserving a member).2 ▸ (conserving a member).1.le⟩
  have balanced : (RouteState.start allocations).Balanced component finalizedRetainedLegIds allocations := .start
  refine ⟨balanced.passes_enough nonneg le_rfl, fun done run => (balanced.passes nonneg le_rfl run).2,
    fun flattened run => ?_⟩
  obtain ⟨done, passes, rfl, spent, emitted, sources, sinks⟩ := flattened_balanced nonneg run
  refine ⟨⟨done, passes, rfl, spent⟩, fun flow member => ?_, sources, sinks⟩
  obtain ⟨origin, ⟨authored, unlike⟩ | ⟨⟨positive, equal⟩, target⟩⟩ := emitted flow member
  · exact absurd (conserving flow authored).2 unlike.2
  · exact ⟨positive, equal, origin, target⟩

end

/-- Two sources that meet in an unobserved wallet before one observed destination. -/
def meetingRoute : Component where
  id := "c"
  effectiveState := "active"
  legs :=
    [{ id := "s1", role := .source, amountMsat := 5, transactionId := "t1" },
      { id := "s2", role := .source, amountMsat := 3, transactionId := "t2" },
      { id := "hop", role := .destination, amountMsat := 8, walletId := "w" },
      { id := "on", role := .source, amountMsat := 8, walletId := "w" },
      { id := "d", role := .destination, amountMsat := 8, transactionId := "t3" }]
  allocations :=
    [{ id := "a1", sourceLegId := "on", sinkLegId := "d", sourceAmountMsat := 8, sinkAmountMsat := 8 },
      { id := "a2", sourceLegId := "s1", sinkLegId := "hop", sourceAmountMsat := 5, sinkAmountMsat := 5 },
      { id := "a3", sourceLegId := "s2", sinkLegId := "hop", sourceAmountMsat := 3, sinkAmountMsat := 3 }]
  economicTerms := []

theorem meeting_route_conserves :
    ∃ flattened, flattenTransactionlessRoutes meetingRoute [] meetingRoute.allocations = .ok flattened ∧
      fromLeg "s1" flattened = 5 ∧ fromLeg "s2" flattened = 3 ∧ intoLeg "d" flattened = 8 := by
  obtain ⟨-, -, conserves⟩ := flattening_conserves meetingRoute [] meetingRoute.allocations (by decide)
  have returns : (flattenTransactionlessRoutes meetingRoute [] meetingRoute.allocations).isOk := by decide +kernel
  obtain ⟨flattened, run⟩ := exists_of_isOk returns
  obtain ⟨-, -, sources, sinks⟩ := conserves flattened run
  refine ⟨flattened, run, (sources "s1" ?_).trans (by decide), (sources "s2" ?_).trans (by decide),
    (sinks "d" ?_).trans (by decide)⟩
  · exact ⟨_, rfl, rfl, by decide⟩
  · exact ⟨_, rfl, rfl, by decide⟩
  · exact ⟨_, rfl, .inr (.inl (by decide))⟩

end Kassiber.Custody
