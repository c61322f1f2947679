import FeatureAtlas.Arena
import Mathlib.Data.List.Nodup

/-!
# Lists of what nodes own

The nodes of an arena list things, and every thing has one owner at most. `Arena.Lists` says that a
node has nothing on its list but what it owns, and that only once; it speaks of one node at a time,
and yet nothing can be on two lists then. `Arena.ListsAll` says that nothing which has an owner is
missing. Arenas only grow at their end, and both are kept if the new nodes list their own.
-/

namespace FeatureAtlas

namespace Arena

variable {kind : NodeKind} {α β : Type} {nodes : Arena kind α} {list : α → List β}
  {owner? wider? : β → Option (NodeId kind)}

/-- Nodes list nothing but what they own, and each thing once. -/
structure Lists (nodes : Arena kind α) (list : α → List β) (owner? : β → Option (NodeId kind)) :
    Prop where
  nodup : ∀ id node, nodes.get? id = some node → (list node).Nodup
  owner_eq : ∀ id node, nodes.get? id = some node → ∀ x ∈ list node, owner? x = some id

/-- All that has an owner is on some list. -/
def ListsAll (nodes : Arena kind α) (list : α → List β) (owner? : β → Option (NodeId kind)) :
    Prop :=
  ∀ x id, owner? x = some id → x ∈ nodes.toList.flatMap list

theorem exists_of_mem_flatMap {x : β} (h : x ∈ nodes.toList.flatMap list) :
    ∃ id node, nodes.get? id = some node ∧ x ∈ list node := by
  obtain ⟨node, hnode, hx⟩ := List.mem_flatMap.1 h
  obtain ⟨i, hi⟩ := List.getElem?_of_mem hnode
  exact ⟨⟨i⟩, node, by rwa [get?_eq_toList], hx⟩

/-- Two kinds of lists that agree on every node. -/
theorem flatMap_toList_congr {other : α → List β}
    (h : ∀ id node, nodes.get? id = some node → list node = other node) :
    nodes.toList.flatMap list = nodes.toList.flatMap other := by
  refine List.flatMap_congr fun node hnode => ?_
  obtain ⟨i, hi⟩ := List.getElem?_of_mem hnode
  exact h ⟨i⟩ node (by rwa [get?_eq_toList])

namespace Lists

/-- As owners differ from node to node, nothing is on two lists. -/
theorem nodup_flatMap (h : nodes.Lists list owner?) : (nodes.toList.flatMap list).Nodup := by
  have hget (i : Nat) (hi : i < nodes.toList.length) : nodes.get? ⟨i⟩ = some nodes.toList[i] := by
    rw [get?_eq_toList, List.getElem?_eq_getElem hi]
  rw [List.nodup_flatMap]
  constructor
  · intro node hnode
    obtain ⟨i, hi, rfl⟩ := List.mem_iff_getElem.1 hnode
    exact h.nodup ⟨i⟩ _ (hget i hi)
  · rw [List.pairwise_iff_getElem]
    intro i j hi hj hij x hx hx'
    have hsame : some (⟨i⟩ : NodeId kind) = some ⟨j⟩ :=
      (h.owner_eq ⟨i⟩ _ (hget i hi) x hx).symm.trans (h.owner_eq ⟨j⟩ _ (hget j hj) x hx')
    cases hsame
    exact Nat.lt_irrefl _ hij

/-- What is listed at all is on the list of its owner. -/
theorem exists_of_owner (h : nodes.Lists list owner?) (hall : nodes.ListsAll list owner?) {x : β}
    {id : NodeId kind} (hx : owner? x = some id) :
    ∃ node, nodes.get? id = some node ∧ x ∈ list node := by
  obtain ⟨other, node, hnode, hmem⟩ := exists_of_mem_flatMap (hall x id hx)
  rw [h.owner_eq other node hnode x hmem] at hx
  cases hx
  exact ⟨node, hnode, hmem⟩

theorem exists_owner (h : nodes.Lists list owner?) {x : β} (hx : x ∈ nodes.toList.flatMap list) :
    ∃ id, owner? x = some id := by
  obtain ⟨id, node, hnode, hmem⟩ := exists_of_mem_flatMap hx
  exact ⟨id, h.owner_eq id node hnode x hmem⟩

theorem not_mem_flatMap (h : nodes.Lists list owner?) {x : β} (hx : owner? x = none) :
    x ∉ nodes.toList.flatMap list := by
  intro hmem
  obtain ⟨id, hid⟩ := h.exists_owner hmem
  rw [hid] at hx
  cases hx

variable [DecidableEq β]

theorem count_le_one (h : nodes.Lists list owner?) (x : β) :
    (nodes.toList.flatMap list).count x ≤ 1 :=
  List.nodup_iff_count_le_one.1 h.nodup_flatMap x

theorem count_eq_one (h : nodes.Lists list owner?) (hall : nodes.ListsAll list owner?) {x : β}
    {id : NodeId kind} (hx : owner? x = some id) : (nodes.toList.flatMap list).count x = 1 :=
  List.count_eq_one_of_mem h.nodup_flatMap (hall x id hx)

end Lists

theorem lists_empty : (empty : Arena kind α).Lists list owner? :=
  ⟨fun _ _ h => (by cases h), fun _ _ h => (by cases h)⟩

/-- Things that had no owner may get one. -/
theorem Lists.mono (h : nodes.Lists list owner?)
    (hwider : ∀ x id, owner? x = some id → wider? x = some id) : nodes.Lists list wider? where
  nodup := h.nodup
  owner_eq id node hnode x hx := hwider x id (h.owner_eq id node hnode x hx)

theorem lists_append_iff {more : List α} : (nodes.append more).Lists list owner? ↔
    nodes.Lists list owner? ∧ ∀ k node, more[k]? = some node →
      (list node).Nodup ∧ ∀ x ∈ list node, owner? x = some (nodes.nextId.shift k) := by
  constructor
  · intro h
    refine ⟨⟨?_, ?_⟩, ?_⟩
    · exact fun id node hnode => h.nodup id node (get?_append_of_some hnode more)
    · exact fun id node hnode => h.owner_eq id node (get?_append_of_some hnode more)
    · exact fun k node hnode =>
        ⟨h.nodup _ node (get?_append_shift hnode), h.owner_eq _ node (get?_append_shift hnode)⟩
  · rintro ⟨hold, hnew⟩
    constructor
    case nodup =>
      intro id node hnode
      rcases cases_get?_append hnode with hearlier | ⟨k, hmore, -⟩
      · exact hold.nodup id node hearlier
      · exact (hnew k node hmore).1
    case owner_eq =>
      intro id node hnode
      rcases cases_get?_append hnode with hearlier | ⟨k, hmore, rfl⟩
      · exact hold.owner_eq id node hearlier
      · exact (hnew k node hmore).2

theorem lists_push_iff {node : α} : (nodes.push node).Lists list owner? ↔
    nodes.Lists list owner? ∧ (list node).Nodup ∧
      ∀ x ∈ list node, owner? x = some nodes.nextId := by
  have h : (nodes.append [node]).Lists list owner? ↔ _ := lists_append_iff
  rw [← push_append, append_nil] at h
  rw [h]
  refine and_congr_right fun _ => ⟨fun hnew => hnew 0 node rfl, fun hnew k x hx => ?_⟩
  cases k with
  | zero =>
    cases hx
    exact hnew
  | succ k => cases hx

/-- What is owned in the end was owned before, or is listed by a node that was appended. -/
theorem ListsAll.append (h : nodes.ListsAll list owner?) {more : List α}
    (hmore : ∀ x id, wider? x = some id → owner? x = some id ∨ x ∈ more.flatMap list) :
    (nodes.append more).ListsAll list wider? := by
  intro x id hx
  rw [toList_append, List.flatMap_append, List.mem_append]
  exact (hmore x id hx).imp_left (h x id)

end Arena

end FeatureAtlas
