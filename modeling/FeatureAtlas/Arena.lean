/-!
# Arenas

Nodes refer to each other by number. A `NodeId` is a position among the nodes of one kind, so the
id of a step cannot be used to look up a scenario, and an `Arena` holds the nodes of one kind in
the order in which they were made. Nodes are never removed, so an id keeps its meaning.
-/

namespace FeatureAtlas

/-- The kinds of nodes that ids refer to. -/
inductive NodeKind where
  | feature
  | scenario
  | step
  | tag
deriving DecidableEq, Repr

/-- The position of a node among those of its kind. -/
@[ext] structure NodeId (kind : NodeKind) where
  index : Nat
deriving DecidableEq, Repr

abbrev FeatureId := NodeId .feature
abbrev ScenarioId := NodeId .scenario
abbrev StepId := NodeId .step
abbrev TagId := NodeId .tag

namespace NodeId

variable {kind : NodeKind}

/-- The id that is `n` places further on. -/
def shift (id : NodeId kind) (n : Nat) : NodeId kind :=
  ⟨id.index + n⟩

/-- The `n` ids from the given one on. -/
def run (id : NodeId kind) (n : Nat) : List (NodeId kind) :=
  (List.range n).map id.shift

@[simp] theorem index_shift (id : NodeId kind) (n : Nat) : (id.shift n).index = id.index + n := rfl

@[simp] theorem shift_zero (id : NodeId kind) : id.shift 0 = id := rfl

@[simp] theorem length_run (id : NodeId kind) (n : Nat) : (id.run n).length = n := by
  simp [run]

theorem mem_run {id other : NodeId kind} {n : Nat} :
    other ∈ id.run n ↔ id.index ≤ other.index ∧ other.index < id.index + n := by
  simp only [run, List.mem_map, List.mem_range]
  constructor
  · rintro ⟨k, hk, rfl⟩
    simp only [index_shift]
    omega
  · rintro ⟨h₁, h₂⟩
    refine ⟨other.index - id.index, by omega, ?_⟩
    cases other
    simp only [shift, NodeId.mk.injEq] at *
    omega

@[simp] theorem shift_shift (id : NodeId kind) (m n : Nat) :
    (id.shift m).shift n = id.shift (m + n) := by
  simp [shift, Nat.add_assoc]

@[simp] theorem run_zero (id : NodeId kind) : id.run 0 = [] := rfl

theorem run_add (id : NodeId kind) (m n : Nat) :
    id.run (m + n) = id.run m ++ (id.shift m).run n := by
  simp only [run, List.range_add, List.map_append, List.map_map]
  congr 1
  refine List.map_congr_left fun k _ => ?_
  simp

theorem run_succ (id : NodeId kind) (n : Nat) : id.run (n + 1) = id :: (id.shift 1).run n := by
  rw [Nat.add_comm, run_add]
  rfl

end NodeId

/-- The nodes of one kind, in the order in which they were made. -/
structure Arena (kind : NodeKind) (α : Type) where
  nodes : Array α
deriving DecidableEq, Repr

namespace Arena

variable {kind : NodeKind} {α : Type}

/-- The arena without nodes. -/
def empty : Arena kind α := ⟨#[]⟩

instance : Inhabited (Arena kind α) := ⟨empty⟩

/-- How many nodes there are. -/
def size (a : Arena kind α) : Nat := a.nodes.size

/-- The node of an id, if it exists. -/
def get? (a : Arena kind α) (id : NodeId kind) : Option α := a.nodes[id.index]?

/-- The nodes in order. -/
def toList (a : Arena kind α) : List α := a.nodes.toList

/-- The nodes in order, each with its id. -/
def entries (a : Arena kind α) : List (NodeId kind × α) :=
  a.toList.zipIdx.map fun (node, index) => (⟨index⟩, node)

/-- The id that the next node will get. -/
def nextId (a : Arena kind α) : NodeId kind := ⟨a.size⟩

/-- Add a node; its id is `nextId`. -/
def push (a : Arena kind α) (node : α) : Arena kind α := ⟨a.nodes.push node⟩

/-- Add nodes in order; the first one's id is `nextId`. -/
def append (a : Arena kind α) (nodes : List α) : Arena kind α := ⟨a.nodes ++ nodes⟩

/-- Change the node of an id; an id without a node changes nothing. -/
def modify (a : Arena kind α) (id : NodeId kind) (change : α → α) : Arena kind α :=
  ⟨a.nodes.modify id.index change⟩

@[ext] theorem ext {a b : Arena kind α} (h : a.toList = b.toList) : a = b := by
  cases a; cases b
  simpa [toList] using h

@[simp] theorem index_nextId (a : Arena kind α) : a.nextId.index = a.size := rfl

@[simp] theorem toList_empty : (empty : Arena kind α).toList = [] := rfl

@[simp] theorem toList_push (a : Arena kind α) (node : α) :
    (a.push node).toList = a.toList ++ [node] := by
  simp [push, toList]

@[simp] theorem toList_append (a : Arena kind α) (nodes : List α) :
    (a.append nodes).toList = a.toList ++ nodes := by
  simp [append, toList]

@[simp] theorem length_toList (a : Arena kind α) : a.toList.length = a.size := by
  simp [toList, size]

@[simp] theorem size_empty : (empty : Arena kind α).size = 0 := rfl

@[simp] theorem size_push (a : Arena kind α) (node : α) : (a.push node).size = a.size + 1 := by
  simp [push, size]

@[simp] theorem size_append (a : Arena kind α) (nodes : List α) :
    (a.append nodes).size = a.size + nodes.length := by
  rw [← length_toList, toList_append, List.length_append, length_toList]

@[simp] theorem toList_modify (a : Arena kind α) (id : NodeId kind) (change : α → α) :
    (a.modify id change).toList = a.toList.modify id.index change := by
  simp [modify, toList]

@[simp] theorem size_modify (a : Arena kind α) (id : NodeId kind) (change : α → α) :
    (a.modify id change).size = a.size := by
  simp [modify, size]

theorem get?_eq_toList (a : Arena kind α) (id : NodeId kind) :
    a.get? id = a.toList[id.index]? := by
  simp [get?, toList]

theorem ext_get? {a b : Arena kind α} (h : ∀ id, a.get? id = b.get? id) : a = b := by
  ext1
  refine List.ext_getElem? fun i => ?_
  simpa only [get?_eq_toList] using h ⟨i⟩

theorem get?_push (a : Arena kind α) (node : α) (id : NodeId kind) :
    (a.push node).get? id = if id = a.nextId then some node else a.get? id := by
  obtain ⟨i⟩ := id
  simp [get?, push, nextId, size, Array.getElem?_push]

theorem get?_append (a : Arena kind α) (nodes : List α) (id : NodeId kind) :
    (a.append nodes).get? id =
      if id.index < a.size then a.get? id else nodes[id.index - a.size]? := by
  simp only [get?_eq_toList, toList_append, List.getElem?_append, length_toList]

theorem get?_modify (a : Arena kind α) (id other : NodeId kind) (change : α → α) :
    (a.modify id change).get? other =
      if id = other then (a.get? other).map change else a.get? other := by
  obtain ⟨i⟩ := id
  obtain ⟨j⟩ := other
  simp [get?, modify, Array.getElem?_modify]

@[simp] theorem nextId_push (a : Arena kind α) (node : α) :
    (a.push node).nextId = a.nextId.shift 1 := by
  simp [nextId, NodeId.shift]

@[simp] theorem nextId_append (a : Arena kind α) (nodes : List α) :
    (a.append nodes).nextId = a.nextId.shift nodes.length := by
  simp [nextId, NodeId.shift]

@[simp] theorem nextId_modify (a : Arena kind α) (id : NodeId kind) (change : α → α) :
    (a.modify id change).nextId = a.nextId := by
  simp [nextId]

@[simp] theorem get?_push_nextId (a : Arena kind α) (node : α) :
    (a.push node).get? a.nextId = some node := by
  simp [get?_push]

@[simp] theorem append_nil (a : Arena kind α) : a.append [] = a := by
  ext1
  simp

theorem append_append (a : Arena kind α) (nodes more : List α) :
    (a.append nodes).append more = a.append (nodes ++ more) := by
  ext1
  simp

theorem push_append (a : Arena kind α) (node : α) (nodes : List α) :
    (a.push node).append nodes = a.append (node :: nodes) := by
  ext1
  simp

/-- A change of the node that comes first after those of `a`. -/
theorem modify_append_cons (a : Arena kind α) (node : α) (nodes : List α) (change : α → α) :
    (a.append (node :: nodes)).modify a.nextId change = a.append (change node :: nodes) := by
  refine ext_get? fun id => ?_
  simp only [get?_modify, get?_append, NodeId.ext_iff, index_nextId]
  rcases Nat.lt_trichotomy id.index a.size with h | h | h
  · simp [h, Nat.ne_of_gt h]
  · simp [h]
  · obtain ⟨k, hk⟩ : ∃ k, id.index - a.size = k + 1 := ⟨id.index - a.size - 1, by omega⟩
    simp [hk, Nat.not_lt_of_gt h, Nat.ne_of_lt h]

theorem modify_push (a : Arena kind α) (node : α) (change : α → α) :
    (a.push node).modify a.nextId change = a.push (change node) := by
  have h := a.modify_append_cons node [] change
  rwa [← push_append, ← push_append, append_nil, append_nil] at h

/-- A change of an earlier node and the addition of later ones do not touch each other. -/
theorem modify_append_of_lt {a : Arena kind α} {id : NodeId kind} (h : id.index < a.size)
    (nodes : List α) (change : α → α) :
    (a.append nodes).modify id change = (a.modify id change).append nodes := by
  refine ext_get? fun other => ?_
  simp only [get?_modify, get?_append, size_modify, NodeId.ext_iff]
  by_cases ho : id.index = other.index
  · rw [if_pos ho, if_pos (ho ▸ h), if_pos (ho ▸ h), if_pos ho]
  · simp only [if_neg ho]

theorem modify_push_of_lt {a : Arena kind α} {id : NodeId kind} (h : id.index < a.size)
    (node : α) (change : α → α) :
    (a.push node).modify id change = (a.modify id change).push node := by
  have h' := modify_append_of_lt h [node] change
  rwa [← push_append, ← push_append, append_nil, append_nil] at h'

@[simp] theorem modify_id (a : Arena kind α) (id : NodeId kind) :
    a.modify id (fun node => node) = a := by
  ext1
  exact (a.toList_modify id _).trans (List.modify_id id.index a.toList)

theorem modify_modify (a : Arena kind α) (id : NodeId kind) (f g : α → α) :
    (a.modify id f).modify id g = a.modify id (g ∘ f) := by
  ext1
  simp [List.modify_modify_eq]

/-- The ids from the next one on are those of the nodes appended first. -/
theorem map_get?_run (a : Arena kind α) (nodes more : List α) :
    (a.nextId.run nodes.length).map (a.append (nodes ++ more)).get? = nodes.map some := by
  induction nodes generalizing a with
  | nil => rfl
  | cons node nodes ih =>
    have h := ih (a.push node)
    rw [nextId_push, push_append] at h
    have hhead : (a.append (node :: (nodes ++ more))).get? a.nextId = some node := by
      simp [get?_append]
    rw [List.length_cons, NodeId.run_succ, List.map_cons, List.map_cons, List.cons_append, hhead, h]

theorem filterMap_get?_run (a : Arena kind α) (nodes more : List α) :
    (a.nextId.run nodes.length).filterMap (a.append (nodes ++ more)).get? = nodes := by
  have h := congrArg (List.filterMap fun node? => node?) (a.map_get?_run nodes more)
  rw [List.filterMap_map, List.filterMap_map] at h
  exact h.trans List.filterMap_some

theorem get?_eq_none_iff (a : Arena kind α) (id : NodeId kind) :
    a.get? id = none ↔ a.size ≤ id.index := by
  simp [get?, size]

theorem lt_size_of_get? {a : Arena kind α} {id : NodeId kind} {node : α}
    (h : a.get? id = some node) : id.index < a.size := by
  by_cases hlt : id.index < a.size
  · exact hlt
  · rw [(a.get?_eq_none_iff id).2 (Nat.le_of_not_lt hlt)] at h
    cases h

theorem get?_append_of_some {a : Arena kind α}
    {id : NodeId kind} {node : α} (h : a.get? id = some node) (nodes : List α) :
    (a.append nodes).get? id = some node := by
  rw [get?_append, if_pos (lt_size_of_get? h), h]

/-- A node that was appended. -/
theorem get?_append_shift {a : Arena kind α} {nodes : List α} {k : Nat} {node : α}
    (h : nodes[k]? = some node) : (a.append nodes).get? (a.nextId.shift k) = some node := by
  have hlt : ¬a.size + k < a.size := by omega
  simp only [get?_append, NodeId.index_shift, index_nextId, if_neg hlt, Nat.add_sub_cancel_left, h]

theorem cases_get?_append {a : Arena kind α} {nodes : List α} {id : NodeId kind} {node : α}
    (h : (a.append nodes).get? id = some node) :
    a.get? id = some node ∨ ∃ k, nodes[k]? = some node ∧ id = a.nextId.shift k := by
  rw [get?_append] at h
  split at h
  · exact Or.inl h
  · next hlt =>
    refine Or.inr ⟨_, h, ?_⟩
    rw [NodeId.ext_iff, NodeId.index_shift, index_nextId]
    omega

end Arena

end FeatureAtlas
