import Kassiber.Lib.Sums
import Kassiber.Transfers.Augmentation

/-!
The network of a transfer component: what its links can carry, and the sums over its nodes.
-/

namespace Kassiber.Transfers
open Lib.Dict Lib.Flows Lib.Sums
open List hiding lookup

structure Amounts where
  entries : List (String × Int)
  distinct : (entries.map Prod.fst).Nodup

namespace Amounts

def ids (amounts : Amounts) : Finset String := (amounts.entries.map Prod.fst).toFinset

def of (amounts : Amounts) (id : String) : Int := (lookup amounts.entries id).getD 0

def total (amounts : Amounts) : Int := (amounts.entries.map Prod.snd).sum

variable {amounts : Amounts}

theorem mem_ids {id : String} : id ∈ amounts.ids ↔ ∃ amount, (id, amount) ∈ amounts.entries := by
  simp [ids]

theorem of_entry {entry : String × Int} (member : entry ∈ amounts.entries) : amounts.of entry.1 = entry.2 := by
  rw [of, lookup_of_mem amounts.distinct member]
  rfl

theorem of_unknown {id : String} (unknown : id ∉ amounts.ids) : amounts.of id = 0 := by
  have absent : lookup amounts.entries id = none := lookup_eq_none.2 fun member => unknown (mem_toFinset.2 member)
  rw [of, absent]
  rfl

theorem forall_ids {p : String → Int → Prop} :
    (∀ entry ∈ amounts.entries, p entry.1 entry.2) ↔ ∀ id ∈ amounts.ids, p id (amounts.of id) := by
  constructor
  · intro all id member
    obtain ⟨amount, inside⟩ := mem_ids.1 member
    rw [show amounts.of id = amount from of_entry inside]
    exact all _ inside
  · intro all entry member
    rw [← of_entry member]
    exact all entry.1 (mem_ids.2 ⟨entry.2, member⟩)

theorem of_nonneg (nonneg : ∀ entry ∈ amounts.entries, 0 ≤ entry.2) (id : String) : 0 ≤ amounts.of id := by
  by_cases known : id ∈ amounts.ids
  · exact (forall_ids (p := fun _ amount => 0 ≤ amount)).1 nonneg id known
  · rw [of_unknown known]

theorem sum_of : ∑ id ∈ amounts.ids, amounts.of id = amounts.total := by
  rw [ids, sum_toFinset _ amounts.distinct, map_map, total]
  exact congrArg sum (map_congr_left fun entry member => of_entry member)

theorem card_ids : amounts.ids.card = amounts.entries.length := by
  rw [ids, toFinset_card_of_nodup amounts.distinct, length_map]

theorem sum_entries (weight : Int → Int) (zero : weight 0 = 0) (id : String) :
    ((amounts.entries.filter fun entry => entry.1 = id).map fun entry => weight entry.2).sum =
      weight (amounts.of id) := by
  by_cases known : id ∈ amounts.ids
  · obtain ⟨amount, inside⟩ := mem_ids.1 known
    rw [sum_filter, show amounts.of id = amount from of_entry inside]
    have rest : ∀ entry ∈ amounts.entries,
        (if entry.1 = id then weight entry.2 else 0) = if id = entry.1 then weight amount else 0 := by
      intro entry member
      by_cases same : entry.1 = id
      · rw [if_pos same, if_pos same.symm, ← of_entry member, same, show amounts.of id = amount from of_entry inside]
      · rw [if_neg same, if_neg (Ne.symm same)]
    rw [map_congr_left rest]
    have single := sum_indicator amounts.distinct (mem_map.2 ⟨_, inside, rfl⟩) (weight amount)
    rw [map_map] at single
    exact single
  · have none : amounts.entries.filter (fun entry => entry.1 = id) = [] := by
      refine filter_eq_nil_iff.2 fun entry member same => known ?_
      rw [← of_decide_eq_true same]
      exact mem_ids.2 ⟨entry.2, member⟩
    rw [none, of_unknown known, zero]
    rfl

end Amounts

def limitOf (links : List (Node × Node × Int)) (u v : Node) : Int :=
  ((links.filter fun link => link.1 = u ∧ link.2.1 = v).map fun link => max 0 link.2.2).sum

def addLinks (net : Network) (links : List (Node × Node × Int)) : Network :=
  links.foldl (fun net link => net.addEdge link.1 link.2.1 link.2.2) net

theorem addLinks_tables (links : List (Node × Node × Int)) (net : Network) (u v : Node) :
    (addLinks net links).capacity u v = net.capacity u v + limitOf links u v ∧
      (addLinks net links).residual u v = net.residual u v + limitOf links u v := by
  induction links generalizing net with
  | nil => simp [addLinks, limitOf]
  | cons link rest ih =>
    obtain ⟨capacity, residual⟩ := ih (net.addEdge link.1 link.2.1 link.2.2)
    have split : limitOf (link :: rest) u v =
        (if link.1 = u ∧ link.2.1 = v then max 0 link.2.2 else 0) + limitOf rest u v := by
      unfold limitOf
      by_cases here : link.1 = u ∧ link.2.1 = v
      · rw [filter_cons_of_pos (by simpa using here), map_cons, sum_cons, if_pos here]
      · rw [filter_cons_of_neg (by simpa using here), if_neg here, zero_add]
    rw [split]
    change (addLinks _ rest).capacity u v = _ ∧ (addLinks _ rest).residual u v = _
    rw [capacity, residual, Network.addEdge]
    dsimp only
    rw [bump_apply, bump_apply]
    constructor <;> ring

theorem mem_link {adjacency : Node → List Node} {left right u v : Node} :
    v ∈ link adjacency left right u ↔ v ∈ adjacency u ∨ u = left ∧ v = right := by
  unfold link
  split
  · rename_i fresh
    rw [mem_append, mem_singleton]
    exact or_congr_right ⟨fun same => ⟨fresh.1, same⟩, fun same => same.2⟩
  · rename_i known
    refine ⟨.inl, fun cases => cases.elim id ?_⟩
    rintro ⟨rfl, rfl⟩
    by_contra absent
    exact known ⟨rfl, absent⟩

theorem mem_adjacency {links : List (Node × Node × Int)} {net : Network} {u v : Node} :
    v ∈ (addLinks net links).adjacency u ↔ v ∈ net.adjacency u ∨
      ∃ link ∈ links, link.1 = u ∧ link.2.1 = v ∨ link.1 = v ∧ link.2.1 = u := by
  induction links generalizing net with
  | nil => simp [addLinks]
  | cons link rest ih =>
    change v ∈ (addLinks (net.addEdge link.1 link.2.1 link.2.2) rest).adjacency u ↔ _
    rw [ih]
    dsimp only [Network.addEdge]
    rw [mem_link, mem_link, exists_mem_cons_iff]
    constructor
    · rintro (((old | ⟨rfl, rfl⟩) | ⟨rfl, rfl⟩) | later)
      · exact .inl old
      · exact .inr (.inl (.inl ⟨rfl, rfl⟩))
      · exact .inr (.inl (.inr ⟨rfl, rfl⟩))
      · exact .inr (.inr later)
    · rintro (old | (⟨rfl, rfl⟩ | ⟨rfl, rfl⟩) | later)
      · exact .inl (.inl (.inl old))
      · exact .inl (.inl (.inr ⟨rfl, rfl⟩))
      · exact .inl (.inr ⟨rfl, rfl⟩)
      · exact .inr later

section
variable (supplies demands : Amounts) (reviewed : List (String × String)) (total : Int)

def links : List (Node × Node × Int) :=
  supplies.entries.map (fun entry => (.source, .out entry.1, entry.2)) ++
    demands.entries.map (fun entry => (.into entry.1, .sink, entry.2)) ++
    reviewed.map fun edge => (.out edge.1, .into edge.2, total)

theorem network_eq : network supplies.entries demands.entries reviewed total =
    addLinks {} (links supplies demands reviewed total) := by
  simp only [network, addLinks, links, foldl_append, foldl_map]

def limit : Node → Node → Int
  | .source, .out id => supplies.of id
  | .into id, .sink => demands.of id
  | .out outId, .into inId => if (outId, inId) ∈ reviewed then total else 0
  | _, _ => 0

theorem sum_reviewed (distinct : reviewed.Nodup) (nonneg : 0 ≤ total) (outId inId : String) :
    ((reviewed.filter fun edge => edge.1 = outId ∧ edge.2 = inId).map fun _ => max 0 total).sum =
      if (outId, inId) ∈ reviewed then total else 0 := by
  have same : (fun edge : String × String => decide (edge.1 = outId ∧ edge.2 = inId)) =
      fun edge => decide (edge = (outId, inId)) := by
    funext edge
    simp only [Prod.ext_iff]
  rw [same, max_eq_right nonneg, sum_filter]
  by_cases member : (outId, inId) ∈ reviewed
  · rw [if_pos member]
    simp only [eq_comm (b := (outId, inId))]
    exact sum_indicator distinct member total
  · rw [if_neg member]
    refine sum_eq_zero fun amount inside => ?_
    obtain ⟨edge, present, rfl⟩ := mem_map.1 inside
    exact if_neg fun same : edge = (outId, inId) => member (same ▸ present)

variable {supplies demands reviewed total}

theorem limitOf_links (distinct : reviewed.Nodup) (nonneg : 0 ≤ total)
    (suppliesNonneg : ∀ entry ∈ supplies.entries, 0 ≤ entry.2)
    (demandsNonneg : ∀ entry ∈ demands.entries, 0 ≤ entry.2) (u v : Node) :
    limitOf (links supplies demands reviewed total) u v = limit supplies demands reviewed total u v := by
  have fromSource := fun id => supplies.sum_entries (max 0 ·) (max_self 0) id
  have intoSink := fun id => demands.sum_entries (max 0 ·) (max_self 0) id
  have between := sum_reviewed reviewed total distinct nonneg
  simp only [max_eq_right (Amounts.of_nonneg suppliesNonneg _)] at fromSource
  simp only [max_eq_right (Amounts.of_nonneg demandsNonneg _)] at intoSink
  cases u <;> cases v <;>
    simp [limitOf, links, limit, filter_append, filter_map, Function.comp_def, fromSource, intoSink, ← between]

def nodesOf (supplies demands : Amounts) : Finset Node :=
  {.source, .sink} ∪ (supplies.ids.image .out ∪ demands.ids.image .into)

theorem sum_nodes (f : Node → Int) :
    ∑ node ∈ nodesOf supplies demands, f node =
      f .source + f .sink + (∑ id ∈ supplies.ids, f (.out id) + ∑ id ∈ demands.ids, f (.into id)) := by
  rw [nodesOf, Finset.sum_union, Finset.sum_union, Finset.sum_image, Finset.sum_image, Finset.sum_pair (by decide)]
  · exact fun a _ b _ same => Node.into.inj same
  · exact fun a _ b _ same => Node.out.inj same
  · rw [Finset.disjoint_left]
    simp
  · rw [Finset.disjoint_left]
    simp

theorem card_nodes : (nodesOf supplies demands).card ≤ supplies.entries.length + demands.entries.length + 2 := by
  have pair : ({.source, .sink} : Finset Node).card = 2 := by decide
  have ends := Finset.card_union_le ({.source, .sink} : Finset Node)
    (supplies.ids.image .out ∪ demands.ids.image .into)
  have middle := Finset.card_union_le (supplies.ids.image Node.out) (demands.ids.image Node.into)
  have outs : (supplies.ids.image Node.out).card ≤ supplies.ids.card := Finset.card_image_le
  have intos : (demands.ids.image Node.into).card ≤ demands.ids.card := Finset.card_image_le
  rw [Amounts.card_ids] at outs intos
  unfold nodesOf
  omega

end

end Kassiber.Transfers
