import Kassiber.Lib.PathCompression
import Kassiber.Custody.RouteGraph

/-!
The connected routes of a component, by a union-find over its legs, and the routes that reach two known
network domains.
-/

namespace Kassiber.Custody.Book.ScopeConnectivity
open Lib.Dict Lib.Sorting Lib.UnionFind List

/-! ### The routes by union-find -/

structure LaunderingIssue where
  code : String
  message : String
  networkDomains : List String
  legIdsByDomain : List (String × List String)
  componentIds : List String

def joinLegs (ids : List String) (parent : String → String) (edge : String × String) : String → String :=
  if edge.1 ∈ ids ∧ edge.2 ∈ ids then joinRoots ids.length parent edge else parent

/-- The parent map once value edges and shared locations are joined. -/
def joinedLegs (legs : List Leg) (allocations : List Allocation) : String → String :=
  let ids := legs.map Leg.id
  let valued := ((allocationPairs legs allocations .quantity).filter fun edge =>
    0 < edge.sourceAmountMsat ∨ 0 < edge.sinkAmountMsat).foldl
      (fun parent edge => joinLegs ids parent (edge.source.id, edge.sink.id)) id
  (groupBy Leg.place (legs.filter Leg.moves)).foldl (fun parent place =>
    match place.2 with
    | [] => parent
    | anchor :: rest => rest.foldl (fun parent leg => joinLegs ids parent (anchor.id, leg.id)) parent) valued

/-- The legs by their roots. The lookups go on rewriting the parent map. -/
def legsByRoot (ids : List String) (parent : String → String) (legs : List Leg) : List (String × List Leg) :=
  (legs.foldl (fun (state : (String → String) × List (String × List Leg)) leg =>
    let found := lookupRoot ids.length state.1 leg.id
    (found.1, appendTo found.2 leg state.2)) (parent, [])).2

def legIdsByDomain (route : List Leg) : List (String × List String) :=
  (domainsOf route).map fun domain =>
    (domain, sortedBy id ((route.filter fun leg => leg.domain = some domain).map Leg.id))

def launderingIssue (route : List Leg) : LaunderingIssue where
  code := launderingCode
  message := "unknown custody legs cannot connect incompatible known Bitcoin network domains"
  networkDomains := domainsOf route
  legIdsByDomain := legIdsByDomain route
  componentIds := namedComponents route

def quantityScopeConnectivityIssues (legs : List Leg) (allocations : List Allocation) :
    ConservationMode → List LaunderingIssue
  | .conversion => []
  | .quantity =>
    let materialLegs := material legs
    let byId := (items (materialLegs.map fun leg => (leg.id, leg))).map Prod.snd
    let routes := legsByRoot (byId.map Leg.id) (joinedLegs materialLegs allocations) byId
    routes.filterMap fun route => if (domainsOf route.2).length ≤ 1 then none else some (launderingIssue route.2)

/-! ### The lookups find the routes -/

theorem eraseDups_distinct {names : List String} (distinct : names.Nodup) : names.eraseDups = names := by
  induction names with
  | nil => rfl
  | cons name rest ih =>
    obtain ⟨fresh, later⟩ := nodup_cons.1 distinct
    have kept : rest.filter (fun other => !other == name) = rest :=
      filter_eq_self.2 fun other member => by
        simpa using fun same : other = name => fresh (same ▸ member)
    rw [eraseDups_cons, kept, ih later]

theorem items_distinct {β : Type} {entries : List (String × β)} (distinct : (entries.map Prod.fst).Nodup) :
    items entries = entries := by
  unfold items
  rw [eraseDups_distinct distinct, filterMap_map]
  refine (filterMap_congr fun entry member => ?_).trans filterMap_some
  rw [Function.comp_apply, lookup_of_mem distinct member]
  rfl

section
variable {legs : List Leg} {allocations : List Allocation}

theorem joinLegs_inside {ids : List String} {edges : List (String × String)}
    (ends : ∀ edge ∈ edges, edge.1 ∈ ids ∧ edge.2 ∈ ids) (parent : String → String) :
    edges.foldl (joinLegs ids) parent = edges.foldl (joinRoots ids.length) parent := by
  induction edges generalizing parent with
  | nil => rfl
  | cons edge rest ih =>
    rw [foldl_cons, foldl_cons, joinLegs, if_pos (ends edge mem_cons_self)]
    exact ih (fun other member => ends other (.tail _ member)) _

theorem joinedLegs_eq (legs : List Leg) (allocations : List Allocation) :
    joinedLegs legs allocations =
      (allocationEdges legs allocations .quantity ++ placeEdges legs).foldl (joinLegs (legs.map Leg.id)) id := by
  unfold joinedLegs allocationEdges placeEdges
  rw [foldl_append, foldl_map, foldl_flatMap]
  refine foldl_ext _ _ _ fun parent place _ => ?_
  obtain ⟨place, members⟩ := place
  cases members with
  | nil => rfl
  | cons anchor rest => exact foldl_map.symm

theorem edges_inside (distinct : (legs.map Leg.id).Nodup) :
    ∀ edge ∈ allocationEdges legs allocations .quantity ++ placeEdges legs,
      edge.1 ∈ legs.map Leg.id ∧ edge.2 ∈ legs.map Leg.id := by
  intro edge member
  rcases mem_append.1 member with value | place
  · rcases (mem_allocationEdges distinct).1 value with ⟨flow, -, -, -, inside⟩ | ⟨-, pair, inferred, -, rfl⟩
    · exact inside
    · obtain ⟨source, sinks⟩ := mem_inferred.1 inferred
      have sink : pair.2 ∈ positiveSinks legs := by
        rcases sinks with ⟨-, sink⟩ | ⟨-, -, -, owned⟩
        · exact sink
        · exact (mem_filter.1 owned).1
      exact ⟨mem_map_of_mem (mem_filter.1 source).1, mem_map_of_mem (mem_filter.1 sink).1⟩
  · obtain ⟨left, leftMember, right, rightMember, -, first, second⟩ := mem_placeEdges place
    exact ⟨mem_map.2 ⟨left, (mem_filter.1 leftMember).1, first.symm⟩,
      mem_map.2 ⟨right, (mem_filter.1 rightMember).1, second.symm⟩⟩

theorem legsByRoot_eq {ids : List String} {root parent : String → String} (state : Represents ids root parent)
    (idem : ∀ x, root (root x) = root x) (low : ∀ x, root x ≤ x) (inside : ∀ leg ∈ legs, leg.id ∈ ids) :
    legsByRoot ids parent legs = groupBy (fun leg => root leg.id) legs := by
  unfold legsByRoot groupBy
  generalize ([] : List (String × List Leg)) = groups
  induction legs generalizing parent groups with
  | nil => rfl
  | cons leg rest ih =>
    obtain ⟨found, -, next⟩ := state.lookupRoot_spec idem low (inside leg (.head _))
    rw [foldl_cons, foldl_cons]
    dsimp only
    rw [found]
    exact ih next (fun other member => inside other (.tail _ member)) _

def routes (legs : List Leg) (allocations : List Allocation) : List (String × List Leg) :=
  groupBy (fun leg => unions (routeEdges legs allocations) leg.id) (material legs)

theorem material_distinct (distinct : (legs.map Leg.id).Nodup) : ((material legs).map Leg.id).Nodup :=
  distinct.sublist (filter_sublist.map _)

theorem issues_eq (distinct : (legs.map Leg.id).Nodup) :
    quantityScopeConnectivityIssues legs allocations .quantity =
      (routes legs allocations).filterMap fun route =>
        if (domainsOf route.2).length ≤ 1 then none else some (launderingIssue route.2) := by
  have distinctMaterial := material_distinct distinct
  have byId : (items ((material legs).map fun leg => (leg.id, leg))).map Prod.snd = material legs := by
    rw [items_distinct (by rw [map_map]; exact distinctMaterial), map_map]
    exact map_id _
  have ends := @edges_inside _ allocations distinctMaterial
  have state := joinsRoots_spec ends
  rw [← joinLegs_inside ends, ← joinedLegs_eq] at state
  have grouped := legsByRoot_eq state (unions_idem _) (unions_le _) fun leg member => mem_map_of_mem member
  unfold quantityScopeConnectivityIssues
  dsimp only
  rw [byId, grouped]
  rfl

open Classical in
noncomputable def connectedLegs (legs : List Leg) (allocations : List Allocation) (leg : Leg) : List Leg :=
  (material legs).filter fun other => Routed legs allocations leg.id other.id

open Classical in
theorem mem_connectedLegs {leg other : Leg} :
    other ∈ connectedLegs legs allocations leg ↔ other ∈ material legs ∧ Routed legs allocations leg.id other.id := by
  unfold connectedLegs
  rw [mem_filter, decide_eq_true_eq]

theorem root_eq_iff {x y : String} : unions (routeEdges legs allocations) x = unions (routeEdges legs allocations) y ↔
    Routed legs allocations x y :=
  (unions_same _ x y).trans connected_iff_routed

open Classical in
theorem connectedLegs_eq (leg : Leg) : (material legs).filter (fun other =>
    unions (routeEdges legs allocations) other.id = unions (routeEdges legs allocations) leg.id) =
      connectedLegs legs allocations leg := by
  unfold connectedLegs
  refine filter_congr fun other _ => ?_
  rw [decide_eq_decide, ← root_eq_iff, eq_comm]

theorem mem_routes {route : List Leg} : (∃ root, (root, route) ∈ routes legs allocations) ↔
    ∃ leg ∈ material legs, route = connectedLegs legs allocations leg := by
  constructor
  · rintro ⟨root, member⟩
    obtain ⟨rfl, present⟩ := mem_groupBy.1 member
    obtain ⟨leg, own, rfl⟩ := mem_map.1 present
    exact ⟨leg, own, connectedLegs_eq leg⟩
  · rintro ⟨leg, own, rfl⟩
    exact ⟨_, (connectedLegs_eq leg).symm ▸ exists_group _ own⟩

theorem mem_issues (distinct : (legs.map Leg.id).Nodup) {issue : LaunderingIssue} :
    issue ∈ quantityScopeConnectivityIssues legs allocations .quantity ↔
      ∃ leg ∈ material legs, ¬ (domainsOf (connectedLegs legs allocations leg)).length ≤ 1 ∧
        issue = launderingIssue (connectedLegs legs allocations leg) := by
  rw [issues_eq distinct, mem_filterMap]
  constructor
  · rintro ⟨⟨root, route⟩, member, made⟩
    obtain ⟨leg, own, rfl⟩ := mem_routes.1 ⟨root, member⟩
    split at made
    · cases made
    case isFalse many => exact ⟨leg, own, many, (Option.some.inj made).symm⟩
  · rintro ⟨leg, own, many, rfl⟩
    obtain ⟨root, member⟩ := mem_routes.2 ⟨leg, own, rfl⟩
    exact ⟨_, member, if_neg many⟩

theorem mem_legIdsByDomain {route : List Leg} {id : String} :
    (∃ entry ∈ legIdsByDomain route, id ∈ entry.2) ↔ ∃ leg ∈ route, leg.domain ≠ none ∧ leg.id = id := by
  unfold legIdsByDomain
  constructor
  · rintro ⟨entry, listed, named⟩
    obtain ⟨domain, -, rfl⟩ := mem_map.1 listed
    obtain ⟨leg, own, rfl⟩ := mem_map.1 (mem_sortedBy.1 named)
    obtain ⟨member, same⟩ := mem_filter.1 own
    refine ⟨leg, member, ?_, rfl⟩
    rw [of_decide_eq_true same]
    exact Option.some_ne_none domain
  · rintro ⟨leg, member, known, rfl⟩
    obtain ⟨domain, same⟩ := Option.ne_none_iff_exists'.1 known
    refine ⟨_, mem_map.2 ⟨domain, ?_, rfl⟩, ?_⟩
    · unfold domainsOf
      exact mem_sortedSet.2 (mem_filterMap.2 ⟨leg, member, same⟩)
    · exact mem_sortedBy.2 (mem_map_of_mem (mem_filter.2 ⟨member, decide_eq_true same⟩))

theorem issues_nodup (distinct : (legs.map Leg.id).Nodup) :
    (quantityScopeConnectivityIssues legs allocations .quantity).Nodup := by
  rw [issues_eq distinct]
  refine pairwise_filterMap.2 ?_
  have keys : (routes legs allocations).Pairwise fun a b => a.1 ≠ b.1 := pairwise_map.1 (groupBy_keys_nodup _ _)
  refine keys.imp_of_mem fun {a b} aMember bMember apart issue made other madeOther same => apart ?_
  have root {route : String × List Leg} (member : route ∈ routes legs allocations) {leg : Leg} (own : leg ∈ route.2) :
      unions (routeEdges legs allocations) leg.id = route.1 := by
    obtain ⟨content, -⟩ := mem_groupBy.1 member
    rw [content] at own
    exact of_decide_eq_true (mem_filter.1 own).2
  split at made
  · cases made
  case isFalse many =>
    split at madeOther
    · cases madeOther
    · cases made
      cases madeOther
      obtain ⟨leg, own, -, -, domain, -, known, -⟩ := two_domains.1 many
      have named := mem_legIdsByDomain.2 ⟨leg, own, by rw [known]; exact Option.some_ne_none domain, rfl⟩
      rw [show legIdsByDomain a.2 = legIdsByDomain b.2 from congrArg LaunderingIssue.legIdsByDomain same] at named
      obtain ⟨twin, twinOwn, -, twinId⟩ := mem_legIdsByDomain.1 named
      rw [← root aMember own, ← root bMember twinOwn, twinId]

theorem issues_nonempty (distinct : (legs.map Leg.id).Nodup) :
    quantityScopeConnectivityIssues legs allocations .quantity ≠ [] ↔
      ∃ left ∈ material legs, ∃ right ∈ material legs, ∃ leftDomain rightDomain, left.domain = some leftDomain ∧
        right.domain = some rightDomain ∧ leftDomain ≠ rightDomain ∧ Routed legs allocations left.id right.id := by
  constructor
  · intro nonempty
    obtain ⟨issue, member⟩ := exists_mem_of_ne_nil _ nonempty
    obtain ⟨leg, -, many, -⟩ := (mem_issues distinct).1 member
    obtain ⟨left, leftMember, right, rightMember, leftDomain, rightDomain, leftKnown, rightKnown, different⟩ :=
      two_domains.1 many
    obtain ⟨leftOwn, leftRoute⟩ := mem_connectedLegs.1 leftMember
    obtain ⟨rightOwn, rightRoute⟩ := mem_connectedLegs.1 rightMember
    exact ⟨left, leftOwn, right, rightOwn, leftDomain, rightDomain, leftKnown, rightKnown, different,
      .trans _ _ _ (.symm _ _ leftRoute) rightRoute⟩
  · rintro ⟨left, leftOwn, right, rightOwn, leftDomain, rightDomain, leftKnown, rightKnown, different, route⟩
    have many := two_domains.2 ⟨left, mem_connectedLegs.2 ⟨leftOwn, .refl left.id⟩, right,
      mem_connectedLegs.2 ⟨rightOwn, route⟩, leftDomain, rightDomain, leftKnown, rightKnown, different⟩
    exact ne_nil_of_mem ((mem_issues distinct).2 ⟨left, leftOwn, many, rfl⟩)

end

/-! ### Legs and allocations in another order -/

theorem domainsOf_perm {route other : List Leg} (perm : route.Perm other) : domainsOf route = domainsOf other :=
  sortedSet_eq_of_mem fun _ => (perm.filterMap _).mem_iff

theorem launderingIssue_perm {route other : List Leg} (perm : route.Perm other) :
    launderingIssue route = launderingIssue other := by
  have byDomain : legIdsByDomain route = legIdsByDomain other := by
    unfold legIdsByDomain
    rw [domainsOf_perm perm]
    refine map_congr_left fun domain _ => ?_
    exact congrArg (Prod.mk domain) (sortedBy_eq_of_perm ((perm.filter _).map Leg.id) fun _ _ _ _ same => same)
  unfold launderingIssue
  rw [domainsOf_perm perm, byDomain, namedComponents_perm perm]

section
variable {legs others : List Leg} {allocations otherAllocations : List Allocation}

theorem issues_perm (distinct : (legs.map Leg.id).Nodup) (legsPerm : legs.Perm others)
    (allocationsPerm : allocations.Perm otherAllocations) :
    (quantityScopeConnectivityIssues legs allocations .quantity).Perm
      (quantityScopeConnectivityIssues others otherAllocations .quantity) := by
  have otherDistinct := (legsPerm.map Leg.id).nodup_iff.1 distinct
  have same := routed_perm legsPerm distinct fun flow => (allocationsPerm.map Allocation.flow).mem_iff (a := flow)
  have connected (leg : Leg) : (connectedLegs legs allocations leg).Perm (connectedLegs others otherAllocations leg) := by
    unfold connectedLegs
    rw [same]
    exact (material_perm legsPerm).filter _
  refine (perm_ext_iff_of_nodup (issues_nodup distinct) (issues_nodup otherDistinct)).2 fun issue => ?_
  rw [mem_issues distinct, mem_issues otherDistinct]
  simp only [(material_perm legsPerm).mem_iff, domainsOf_perm (connected _), launderingIssue_perm (connected _)]

end

/-- There is an issue exactly if legs of two known domains are connected. The issues are those of the connected
components with two domains, each once, in whatever order legs and allocations come. -/
theorem quantity_scope_connectivity {legs : List Leg} (distinct : (legs.map Leg.id).Nodup) (allocations : List Allocation) :
    (quantityScopeConnectivityIssues legs allocations .quantity ≠ [] ↔
      ∃ left ∈ material legs, ∃ right ∈ material legs, ∃ leftDomain rightDomain, left.domain = some leftDomain ∧
        right.domain = some rightDomain ∧ leftDomain ≠ rightDomain ∧ Routed legs allocations left.id right.id) ∧
    (∀ issue, issue ∈ quantityScopeConnectivityIssues legs allocations .quantity ↔
      ∃ leg ∈ material legs, 2 ≤ (domainsOf (connectedLegs legs allocations leg)).length ∧
        issue = launderingIssue (connectedLegs legs allocations leg)) ∧
    (quantityScopeConnectivityIssues legs allocations .quantity).Nodup ∧
    ∀ others otherAllocations, legs.Perm others → allocations.Perm otherAllocations →
      (quantityScopeConnectivityIssues legs allocations .quantity).Perm
        (quantityScopeConnectivityIssues others otherAllocations .quantity) := by
  refine ⟨issues_nonempty distinct, fun issue => ?_, issues_nodup distinct, fun others otherAllocations legsPerm
    allocationsPerm => issues_perm distinct legsPerm allocationsPerm⟩
  rw [mem_issues distinct]
  simp only [not_le, Nat.lt_iff_add_one_le, Nat.reduceAdd]

/-- A wallet whose network is unknown between two legs that name one, read in two orders. -/
theorem quantity_scope_connectivity_unknown_wallet :
    let leg (id : String) (role : LegRole) (network : Option String) : Leg :=
      { id := id, componentId := "c", profileId := "p", role := role, rail := "bitcoin", network := network, asset := "BTC",
        exposure := "BTC", conservationUnit := "msat", amountMsat := 5, walletId := some "w" }
    let paid := leg "a" .source (some "main")
    let kept := leg "b" .retained none
    let received := leg "c" .destination (some "test")
    (quantityScopeConnectivityIssues [paid, kept, received] [] .quantity).Perm
      (quantityScopeConnectivityIssues [received, paid, kept] [] .quantity) := by
  intro leg paid kept received
  have distinct : ([paid, kept, received].map Leg.id).Nodup := by decide
  have rotated : [paid, kept, received].Perm [received, paid, kept] :=
    perm_append_comm.trans (List.Perm.refl ([received] ++ [paid, kept]))
  exact (quantity_scope_connectivity distinct []).2.2.2 _ _ rotated (List.Perm.refl [])

end Kassiber.Custody.Book.ScopeConnectivity
