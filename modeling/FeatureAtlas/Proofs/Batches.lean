import FeatureAtlas.Proofs.Failure
import Mathlib.Data.List.Nodup

/-!
# Batches of deliveries

Deliveries that share an atlas are called in any order, any number of times, and are copied in
between. `Batch.run` does what the moves say. `Register.run` does not look at the atlas: it keeps
which deliveries were called, in the order of their first calls, and for each delivery the number of
the one that its calls count for. `Batch.run_eq` says that calling each registered delivery once,
in that order, comes to the same.
-/

namespace FeatureAtlas

namespace Delivery

/-- How a call ends. -/
abbrev Outcome := Except RaggedError (Option FeatureId)

/-- The document can be added to some atlas without an error. -/
def Succeeds (d : Delivery) : Prop :=
  ∃ (a : Atlas) (result : Option FeatureId),
    (a.addDocument d.document d.filter).outcome = .ok result

/-- A document that can be added to one atlas can be added to all. -/
theorem Succeeds.exists_outcome {d : Delivery} (h : d.Succeeds) (a : Atlas) :
    ∃ result, (a.addDocument d.document d.filter).outcome = .ok result := by
  obtain ⟨other, result, hother⟩ := h
  cases houtcome : (a.addDocument d.document d.filter).outcome with
  | ok result => exact ⟨result, rfl⟩
  | error e =>
    rw [Atlas.outcome_addDocument_eq_error_iff,
      ← other.outcome_addDocument_eq_error_iff] at houtcome
    cases hother.symm.trans houtcome

/-- A call succeeds and its result is kept. -/
theorem Succeeds.exists_perform {d : Delivery} (h : d.Succeeds) (a : Atlas) :
    ∃ result, (d.perform a).1 = { d with result? := some result } ∧
      (d.perform a).2.outcome = .ok result := by
  obtain ⟨document, filter, result?⟩ := d
  cases result? with
  | some result => exact ⟨result, rfl, rfl⟩
  | none =>
    obtain ⟨result, hresult⟩ := h.exists_outcome a
    refine ⟨result, ?_⟩
    dsimp only at hresult
    simp only [perform, hresult, and_self]

end Delivery

/-- Deliveries for one atlas. Copies join them at the end. -/
structure Batch where
  deliveries : List Delivery
  atlas : Atlas

namespace Batch

/-! ## Moves -/

/-- A delivery is called or copied. If there is none of that number, nothing happens. -/
inductive Move where
  | perform (i : Nat)
  | copy (i : Nat)
deriving DecidableEq, Repr

/-- How a call of the delivery of a number ended. -/
structure Answer where
  number : Nat
  outcome : Delivery.Outcome

/-- Make a move, which has an answer if it is a call. -/
def step (b : Batch) : Move → Batch × Option Answer
  | .perform i =>
    match b.deliveries[i]? with
    | none => (b, none)
    | some d =>
      let (d, addition) := d.perform b.atlas
      (⟨b.deliveries.set i d, addition.atlas⟩, some ⟨i, addition.outcome⟩)
  | .copy i =>
    match b.deliveries[i]? with
    | none => (b, none)
    | some d => (⟨b.deliveries ++ [d], b.atlas⟩, none)

/-- Make moves in order. -/
def run (b : Batch) : List Move → Batch × List Answer
  | [] => (b, [])
  | move :: moves =>
    let (b, answer?) := b.step move
    let (b, answers) := b.run moves
    (b, answer?.toList ++ answers)

/-! ## First calls -/

/-- A delivery as it was before its first call, and the number that its calls count for. -/
structure Entry where
  number : Nat
  delivery : Delivery
deriving DecidableEq, Repr

end Batch

/-- Call deliveries in order, each once. -/
def Atlas.callEach (a : Atlas) : List Batch.Entry → Atlas × List Batch.Answer
  | [] => (a, [])
  | e :: es =>
    let addition := (e.delivery.perform a).2
    let (a, answers) := addition.atlas.callEach es
    (a, ⟨e.number, addition.outcome⟩ :: answers)

namespace Batch

/-- The entries of the deliveries of a batch, and those that were called, in the order of their
first calls. -/
structure Register where
  entries : List Entry
  called : List Entry

namespace Register

/-- The numbers that were called. -/
def numbers (r : Register) : List Nat := r.called.map (·.number)

/-- At first each delivery counts for itself. -/
def start (deliveries : List Delivery) : Register :=
  ⟨deliveries.mapIdx fun i d => ⟨i, d⟩, []⟩

/-- A call is registered if it is the first. A copy counts for the delivery that it is a copy of, if
that was called before, and otherwise for itself. -/
def step (r : Register) : Move → Register
  | .perform i =>
    match r.entries[i]? with
    | none => r
    | some e => if e.number ∈ r.numbers then r else { r with called := r.called ++ [e] }
  | .copy i =>
    match r.entries[i]? with
    | none => r
    | some e =>
      let number := if e.number ∈ r.numbers then e.number else r.entries.length
      { r with entries := r.entries ++ [⟨number, e.delivery⟩] }

/-- Register moves in order. -/
def run (r : Register) (moves : List Move) : Register :=
  moves.foldl step r

end Register

/-! ## Calling each once -/

theorem callEach_append_singleton (a : Atlas) (es : List Entry) (e : Entry) :
    a.callEach (es ++ [e]) =
      let (a, answers) := a.callEach es
      let addition := (e.delivery.perform a).2
      (addition.atlas, answers ++ [⟨e.number, addition.outcome⟩]) := by
  induction es generalizing a with
  | nil => rfl
  | cons first es ih =>
    rw [List.cons_append, Atlas.callEach, ih, Atlas.callEach]
    rfl

theorem map_number_callEach (a : Atlas) (es : List Entry) :
    (a.callEach es).2.map (·.number) = es.map (·.number) := by
  induction es generalizing a with
  | nil => rfl
  | cons e es ih =>
    rw [Atlas.callEach, List.map_cons, List.map_cons, ih]

theorem outcome_of_mem_callEach {a : Atlas} {es : List Entry}
    (h : ∀ e ∈ es, e.delivery.Succeeds) {x : Answer} (hx : x ∈ (a.callEach es).2) :
    ∃ result, x.outcome = .ok result := by
  induction es generalizing a with
  | nil => cases hx
  | cons e es ih =>
    rcases List.mem_cons.1 hx with rfl | hmem
    · obtain ⟨result, -, houtcome⟩ := (h e List.mem_cons_self).exists_perform a
      exact ⟨result, houtcome⟩
    · exact ih (fun e he => h e (List.mem_cons_of_mem _ he)) hmem

/-- A delivery after some calls were answered. -/
def Entry.after (answers : List Answer) (e : Entry) : Delivery :=
  match answers.find? (·.number == e.number) with
  | some ⟨_, .ok result⟩ => { e.delivery with result? := some result }
  | _ => e.delivery

theorem find?_eq_none {answers : List Answer} {number : Nat}
    (h : number ∉ answers.map (·.number)) : answers.find? (·.number == number) = none := by
  rw [List.find?_eq_none]
  intro x hx heq
  exact h (List.mem_map.2 ⟨x, hx, by simpa using heq⟩)

theorem Entry.after_of_notMem {answers : List Answer} {e : Entry}
    (h : e.number ∉ answers.map (·.number)) : e.after answers = e.delivery := by
  rw [after, find?_eq_none h]

theorem Entry.after_append_of_ne {answers : List Answer} {x : Answer} {e : Entry}
    (h : x.number ≠ e.number) : e.after (answers ++ [x]) = e.after answers := by
  have hnone : [x].find? (·.number == e.number) = none := find?_eq_none (by simpa using h.symm)
  rw [after, after, List.find?_append, hnone, Option.or_none]

theorem Entry.after_append_self {answers : List Answer} {e : Entry}
    (h : e.number ∉ answers.map (·.number)) (result : Option FeatureId) :
    e.after (answers ++ [⟨e.number, .ok result⟩]) =
      { e.delivery with result? := some result } := by
  have hhere : [(⟨e.number, .ok result⟩ : Answer)].find? (·.number == e.number) =
      some ⟨e.number, .ok result⟩ := by simp
  rw [after, List.find?_append, find?_eq_none h, Option.none_or, hhere]

/-! ## The register tells the batch -/

namespace Register

/-- The batch in which the registered deliveries were called once. -/
def batch (r : Register) (a : Atlas) : Batch :=
  let (a, answers) := a.callEach r.called
  ⟨r.entries.map (·.after answers), a⟩

/-- A register in which every delivery that was not called yet counts for itself. -/
structure IsSound (r : Register) : Prop where
  number_eq : ∀ (i : Nat) (e : Entry), r.entries[i]? = some e → e.number ∉ r.numbers → e.number = i
  number_lt : ∀ e ∈ r.entries, e.number < r.entries.length
  mem_entries : ∀ e ∈ r.called, e ∈ r.entries
  nodup : r.numbers.Nodup
  succeeds : ∀ e ∈ r.entries, e.delivery.Succeeds

theorem getElem?_entries_start (deliveries : List Delivery) (i : Nat) :
    (start deliveries).entries[i]? = deliveries[i]?.map fun d => ⟨i, d⟩ :=
  List.getElem?_mapIdx

theorem isSound_start {deliveries : List Delivery} (h : ∀ d ∈ deliveries, d.Succeeds) :
    (start deliveries).IsSound := by
  constructor
  case number_eq =>
    intro i e he _
    rw [getElem?_entries_start] at he
    obtain ⟨d, -, rfl⟩ := Option.map_eq_some_iff.1 he
    rfl
  case number_lt =>
    intro e he
    obtain ⟨i, hi, rfl⟩ := List.mem_mapIdx.1 he
    simpa [start] using hi
  case mem_entries => exact fun e he => by cases he
  case nodup => exact List.nodup_nil
  case succeeds =>
    intro e he
    obtain ⟨i, hi, rfl⟩ := List.mem_mapIdx.1 he
    exact h _ (List.getElem_mem hi)

theorem batch_start (deliveries : List Delivery) (a : Atlas) :
    (start deliveries).batch a = ⟨deliveries, a⟩ := by
  have hafter : (start deliveries).entries.map (·.after []) = deliveries := by
    refine List.ext_getElem? fun i => ?_
    rw [List.getElem?_map, getElem?_entries_start]
    cases deliveries[i]? <;> rfl
  exact congrArg (Batch.mk · a) hafter

variable {r : Register} {i : Nat} {e : Entry}

theorem step_perform_of_mem (he : r.entries[i]? = some e) (h : e.number ∈ r.numbers) :
    r.step (.perform i) = r := by
  simp only [step, he, if_pos h]

theorem step_perform_of_notMem (he : r.entries[i]? = some e) (h : e.number ∉ r.numbers) :
    r.step (.perform i) = { r with called := r.called ++ [e] } := by
  simp only [step, he, if_neg h]

theorem step_copy_of_mem (he : r.entries[i]? = some e) (h : e.number ∈ r.numbers) :
    r.step (.copy i) = { r with entries := r.entries ++ [e] } := by
  simp only [step, he, if_pos h]

theorem step_copy_of_notMem (he : r.entries[i]? = some e) (h : e.number ∉ r.numbers) :
    r.step (.copy i) = { r with entries := r.entries ++ [⟨r.entries.length, e.delivery⟩] } := by
  simp only [step, he, if_neg h]

theorem step_of_none (he : r.entries[i]? = none) :
    r.step (.perform i) = r ∧ r.step (.copy i) = r := by
  simp only [step, he, and_self]

/-- A move changes nothing, registers a first call, or adds an entry, under a number that was called
or under the next one. -/
theorem step_cases (r : Register) (move : Move) :
    r.step move = r ∨
      (∃ e ∈ r.entries, e.number ∉ r.numbers ∧
        r.step move = { r with called := r.called ++ [e] }) ∨
      ∃ e ∈ r.entries, ∃ number, (number ∈ r.numbers ∨ number = r.entries.length) ∧
        r.step move = { r with entries := r.entries ++ [⟨number, e.delivery⟩] } := by
  cases move with
  | perform i =>
    cases he : r.entries[i]? with
    | none => exact .inl (step_of_none he).1
    | some e =>
      by_cases hcalled : e.number ∈ r.numbers
      · exact .inl (step_perform_of_mem he hcalled)
      · have hmem := List.mem_of_getElem? he
        exact .inr (.inl ⟨e, hmem, hcalled, step_perform_of_notMem he hcalled⟩)
  | copy i =>
    cases he : r.entries[i]? with
    | none => exact .inl (step_of_none he).2
    | some e =>
      have hmem := List.mem_of_getElem? he
      by_cases hcalled : e.number ∈ r.numbers
      · exact .inr (.inr ⟨e, hmem, _, .inl hcalled, step_copy_of_mem he hcalled⟩)
      · exact .inr (.inr ⟨e, hmem, _, .inr rfl, step_copy_of_notMem he hcalled⟩)

namespace IsSound

/-- A delivery may be called that was not called yet. -/
theorem call (h : r.IsSound) (he : e ∈ r.entries) (hfirst : e.number ∉ r.numbers) :
    IsSound { r with called := r.called ++ [e] } := by
  have hnumbers : numbers { r with called := r.called ++ [e] } = r.numbers ++ [e.number] := by
    simp [numbers]
  constructor
  case number_eq =>
    intro j other hother hnot
    rw [hnumbers, List.mem_append, not_or] at hnot
    exact h.number_eq j other hother hnot.1
  case number_lt => exact h.number_lt
  case mem_entries =>
    intro other hother
    rcases List.mem_append.1 hother with hold | hnew
    · exact h.mem_entries other hold
    · rwa [List.mem_singleton.1 hnew]
  case nodup =>
    rw [hnumbers, List.nodup_append]
    refine ⟨h.nodup, List.nodup_singleton _, fun n hn m hm heq => ?_⟩
    rw [List.mem_singleton.1 hm] at heq
    exact hfirst (heq ▸ hn)
  case succeeds => exact h.succeeds

theorem number_lt_of_mem (h : r.IsSound) {number : Nat} (hnumber : number ∈ r.numbers) :
    number < r.entries.length := by
  obtain ⟨e, he, rfl⟩ := List.mem_map.1 hnumber
  exact h.number_lt e (h.mem_entries e he)

/-- An entry may be added under a number that was called, or under the next one. -/
theorem add (h : r.IsSound) {number : Nat} (he : e ∈ r.entries)
    (hnumber : number ∈ r.numbers ∨ number = r.entries.length) :
    IsSound { r with entries := r.entries ++ [⟨number, e.delivery⟩] } := by
  constructor
  case number_eq =>
    intro j other hother hnot
    rw [List.getElem?_append] at hother
    split at hother
    · exact h.number_eq j other hother hnot
    · next hj =>
      obtain ⟨hj', rfl⟩ := List.getElem?_eq_some_iff.1 hother
      rcases hnumber with hcalled | rfl
      · exact absurd hcalled (by simpa [numbers] using hnot)
      · simp at hj' ⊢
        omega
  case number_lt =>
    intro other hother
    rw [List.length_append, List.length_singleton]
    rcases List.mem_append.1 hother with hold | hnew
    · exact Nat.lt_succ_of_lt (h.number_lt other hold)
    · have hle : number ≤ r.entries.length := by
        rcases hnumber with hcalled | rfl
        · exact Nat.le_of_lt (h.number_lt_of_mem hcalled)
        · exact Nat.le_refl _
      rw [List.mem_singleton.1 hnew]
      exact Nat.lt_succ_of_le hle
  case mem_entries => exact fun other hother => List.mem_append_left _ (h.mem_entries other hother)
  case nodup => exact h.nodup
  case succeeds =>
    intro other hother
    rcases List.mem_append.1 hother with hold | hnew
    · exact h.succeeds other hold
    · rw [List.mem_singleton.1 hnew]
      exact h.succeeds e he

theorem step (h : r.IsSound) (move : Move) : (r.step move).IsSound := by
  rcases r.step_cases move with hsame | ⟨e, he, hfirst, hstep⟩ | ⟨e, he, number, hnumber, hstep⟩
  · rwa [hsame]
  · rw [hstep]
    exact h.call he hfirst
  · rw [hstep]
    exact h.add he hnumber

/-- What was called has an answer, which its delivery keeps. -/
theorem exists_answer (h : r.IsSound) (a : Atlas) (hcalled : e.number ∈ r.numbers) :
    ∃ result, ⟨e.number, .ok result⟩ ∈ (a.callEach r.called).2 ∧
      e.after (a.callEach r.called).2 = { e.delivery with result? := some result } := by
  rw [numbers, ← map_number_callEach a] at hcalled
  obtain ⟨x, hx, hnumber⟩ := List.mem_map.1 hcalled
  have hsome : ((a.callEach r.called).2.find? (·.number == e.number)).isSome :=
    List.find?_isSome.2 ⟨x, hx, by simpa using hnumber⟩
  obtain ⟨⟨number, outcome⟩, hfind⟩ := Option.isSome_iff_exists.1 hsome
  have hmem := List.mem_of_find?_eq_some hfind
  obtain rfl : number = e.number := by simpa using List.find?_some hfind
  obtain ⟨result, hresult⟩ :=
    outcome_of_mem_callEach (fun e he => h.succeeds e (h.mem_entries e he)) hmem
  dsimp only at hresult
  subst hresult
  refine ⟨result, hmem, ?_⟩
  rw [Entry.after, hfind]

end IsSound

/-- What was not called is as it was. -/
theorem after_eq (a : Atlas) (hfirst : e.number ∉ r.numbers) :
    e.after (a.callEach r.called).2 = e.delivery := by
  rw [numbers, ← map_number_callEach a] at hfirst
  exact Entry.after_of_notMem hfirst

theorem getElem?_deliveries_batch (r : Register) (a : Atlas) (i : Nat) :
    (r.batch a).deliveries[i]? = r.entries[i]?.map (·.after (a.callEach r.called).2) :=
  List.getElem?_map

/-- A call of what was called before has its answer, and changes nothing. -/
theorem IsSound.step_batch_of_mem (h : r.IsSound) (a : Atlas) (he : r.entries[i]? = some e)
    (hcalled : e.number ∈ r.numbers) :
    ∃ result, ⟨e.number, .ok result⟩ ∈ (a.callEach r.called).2 ∧
      (r.batch a).step (.perform i) = (r.batch a, some ⟨i, .ok result⟩) := by
  obtain ⟨result, hmem, hafter⟩ := h.exists_answer a hcalled
  refine ⟨result, hmem, ?_⟩
  have hget : (r.batch a).deliveries[i]? = some { e.delivery with result? := some result } := by
    rw [getElem?_deliveries_batch, he, Option.map_some, hafter]
  have hset : (r.batch a).deliveries.set i { e.delivery with result? := some result } =
      (r.batch a).deliveries := by
    obtain ⟨hi, heq⟩ := List.getElem?_eq_some_iff.1 hget
    rw [← heq, List.set_getElem_self]
  rw [Batch.step, hget]
  simp only [Delivery.perform, hset]

/-- The answer to a first call changes the delivery that was called and no other. -/
theorem IsSound.map_after (h : r.IsSound) (a : Atlas) (he : r.entries[i]? = some e)
    (hfirst : e.number ∉ r.numbers) (result : Option FeatureId) :
    r.entries.map (·.after ((a.callEach r.called).2 ++ [⟨e.number, .ok result⟩])) =
      (r.batch a).deliveries.set i { e.delivery with result? := some result } := by
  refine List.ext_getElem? fun j => ?_
  rw [List.getElem?_map]
  by_cases hij : i = j
  · subst hij
    have hanswers : e.number ∉ (a.callEach r.called).2.map (·.number) := by
      rwa [map_number_callEach]
    have hlength : i < (r.batch a).deliveries.length := by
      obtain ⟨hi, -⟩ := List.getElem?_eq_some_iff.1 he
      simpa [batch] using hi
    rw [List.getElem?_set_self hlength, he, Option.map_some, Entry.after_append_self hanswers]
  · rw [List.getElem?_set_ne hij, getElem?_deliveries_batch]
    cases hother : r.entries[j]? with
    | none => rfl
    | some other =>
      -- Two deliveries that count for the same number were called, or are the same.
      have hne : e.number ≠ other.number := by
        intro heq
        have hi := h.number_eq i e he hfirst
        have hj := h.number_eq j other hother (heq ▸ hfirst)
        exact hij (hi.symm.trans (heq.trans hj))
      rw [Option.map_some, Option.map_some, Entry.after_append_of_ne hne]

/-- A first call is the last of the registered calls. -/
theorem IsSound.step_batch_of_notMem (h : r.IsSound) (a : Atlas) (he : r.entries[i]? = some e)
    (hfirst : e.number ∉ r.numbers) :
    ∃ result, ⟨e.number, .ok result⟩ ∈ (a.callEach (r.called ++ [e])).2 ∧
      (r.batch a).step (.perform i) =
        (batch { r with called := r.called ++ [e] } a, some ⟨i, .ok result⟩) := by
  have hget : (r.batch a).deliveries[i]? = some e.delivery := by
    rw [getElem?_deliveries_batch, he, Option.map_some, after_eq a hfirst]
  obtain ⟨result, hdelivery, houtcome⟩ :=
    (h.succeeds e (List.mem_of_getElem? he)).exists_perform (r.batch a).atlas
  have hcall : a.callEach (r.called ++ [e]) =
      ((e.delivery.perform (r.batch a).atlas).2.atlas,
        (a.callEach r.called).2 ++ [⟨e.number, .ok result⟩]) := by
    rw [callEach_append_singleton, ← houtcome]
    rfl
  have hbatch : batch { r with called := r.called ++ [e] } a =
      ⟨(r.batch a).deliveries.set i { e.delivery with result? := some result },
        (e.delivery.perform (r.batch a).atlas).2.atlas⟩ := by
    rw [← h.map_after a he hfirst, batch, hcall]
  refine ⟨result, by simp [hcall], ?_⟩
  rw [Batch.step, hget, hbatch, ← hdelivery, ← houtcome]

/-- A copy is as its original, which counts for another number unless it was called. -/
theorem IsSound.step_batch_copy (h : r.IsSound) (a : Atlas) (i : Nat) :
    (r.batch a).step (.copy i) = ((r.step (.copy i)).batch a, none) := by
  rw [Batch.step, getElem?_deliveries_batch]
  cases he : r.entries[i]? with
  | none =>
    rw [(step_of_none he).2]
    rfl
  | some e =>
    rw [Option.map_some]
    by_cases hcalled : e.number ∈ r.numbers
    · rw [step_copy_of_mem he hcalled]
      simp only [batch, List.map_append, List.map_cons, List.map_nil]
    · have hnew : r.entries.length ∉ r.numbers := fun hmem =>
        Nat.lt_irrefl _ (h.number_lt_of_mem hmem)
      rw [step_copy_of_notMem he hcalled]
      simp only [batch, List.map_append, List.map_cons, List.map_nil, after_eq a hcalled]
      rw [after_eq (r := r) (e := ⟨r.entries.length, e.delivery⟩) a hnew]

/-! ## Runs -/

/-- An answer is that of the one call of the registered delivery that it counts for. -/
def Answers (r : Register) (a : Atlas) (x : Answer) : Prop :=
  ∃ e result, r.entries[x.number]? = some e ∧ x.outcome = .ok result ∧
    ⟨e.number, .ok result⟩ ∈ (a.callEach r.called).2

/-- Answers stay right as the batch goes on. -/
theorem Answers.step {a : Atlas} {x : Answer} (h : r.Answers a x) (move : Move) :
    (r.step move).Answers a x := by
  obtain ⟨e, result, he, houtcome, hmem⟩ := h
  rcases r.step_cases move with hsame | ⟨called, -, -, hstep⟩ | ⟨original, -, number, -, hstep⟩
  · rw [hsame]
    exact ⟨e, result, he, houtcome, hmem⟩
  · refine ⟨e, result, hstep ▸ he, houtcome, ?_⟩
    rw [hstep, callEach_append_singleton]
    exact List.mem_append_left _ hmem
  · refine ⟨e, result, ?_, houtcome, hstep ▸ hmem⟩
    obtain ⟨hlt, -⟩ := List.getElem?_eq_some_iff.1 he
    rw [hstep, List.getElem?_append_left hlt]
    exact he

theorem Answers.run {a : Atlas} {x : Answer} (h : r.Answers a x) (moves : List Move) :
    (r.run moves).Answers a x := by
  induction moves generalizing r with
  | nil => exact h
  | cons move moves ih => exact ih (h.step move)

theorem IsSound.run (h : r.IsSound) (moves : List Move) : (r.run moves).IsSound := by
  induction moves generalizing r with
  | nil => exact h
  | cons move moves ih => exact ih (h.step move)

/-- The register tells the batch after each move, and the answer to a call. -/
theorem IsSound.step_batch (h : r.IsSound) (a : Atlas) (move : Move) :
    ∃ answer?, (r.batch a).step move = ((r.step move).batch a, answer?) ∧
      ∀ x ∈ answer?, (r.step move).Answers a x := by
  cases move with
  | copy i => exact ⟨none, h.step_batch_copy a i, by simp⟩
  | perform i =>
    cases he : r.entries[i]? with
    | none =>
      refine ⟨none, ?_, by simp⟩
      rw [(step_of_none he).1, Batch.step, getElem?_deliveries_batch, he]
      rfl
    | some e =>
      by_cases hcalled : e.number ∈ r.numbers
      · obtain ⟨result, hmem, hstep⟩ := h.step_batch_of_mem a he hcalled
        rw [step_perform_of_mem he hcalled]
        refine ⟨_, hstep, ?_⟩
        rintro x ⟨⟩
        exact ⟨e, result, he, rfl, hmem⟩
      · obtain ⟨result, hmem, hstep⟩ := h.step_batch_of_notMem a he hcalled
        rw [step_perform_of_notMem he hcalled]
        refine ⟨_, hstep, ?_⟩
        rintro x ⟨⟩
        exact ⟨e, result, he, rfl, hmem⟩

theorem IsSound.run_batch (h : r.IsSound) (a : Atlas) (moves : List Move) :
    ((r.batch a).run moves).1 = (r.run moves).batch a ∧
      ∀ x ∈ ((r.batch a).run moves).2, (r.run moves).Answers a x := by
  induction moves generalizing r with
  | nil => exact ⟨rfl, fun x hx => by cases hx⟩
  | cons move moves ih =>
    obtain ⟨answer?, hstep, hanswer⟩ := h.step_batch a move
    obtain ⟨hbatch, hanswers⟩ := ih (h.step move)
    have hrun : r.run (move :: moves) = (r.step move).run moves := rfl
    simp only [Batch.run, hstep, hrun]
    refine ⟨hbatch, fun x hx => ?_⟩
    rcases List.mem_append.1 hx with hfirst | hrest
    · exact (hanswer x (Option.mem_toList.1 hfirst)).run moves
    · exact hanswers x hrest

end Register

/-- If all documents of a batch can be added, then after any moves the atlas is as if only the first
calls had been made, one for each delivery that was called and counts for itself, in their order.
All calls of a delivery return what that one call returns, and so do all calls of the copies that
were made of it later; a copy made before counts for itself. Any more such calls change nothing. -/
theorem run_eq_callEach {deliveries : List Delivery} (h : ∀ d ∈ deliveries, d.Succeeds) (a : Atlas)
    (moves : List Move) :
    let register := (Register.start deliveries).run moves
    let ran := (⟨deliveries, a⟩ : Batch).run moves
    let calls := a.callEach register.called
    ran.1.atlas = calls.1 ∧ (calls.2.map (·.number)).Nodup ∧
      (∀ x ∈ ran.2, ∃ e result, register.entries[x.number]? = some e ∧
        x.outcome = .ok result ∧ ⟨e.number, .ok result⟩ ∈ calls.2) ∧
      (∀ x ∈ ran.2, ∀ y ∈ ran.2, x.number = y.number → x.outcome = y.outcome) ∧
      ∀ (i : Nat) (e : Entry), register.entries[i]? = some e → e.number ∈ register.numbers →
        ∃ result, ⟨e.number, .ok result⟩ ∈ calls.2 ∧
          ran.1.step (.perform i) = (ran.1, some ⟨i, .ok result⟩) := by
  intro register ran calls
  have hsound : register.IsSound := (Register.isSound_start h).run moves
  obtain ⟨hbatch, hanswers⟩ := (Register.isSound_start h).run_batch a moves
  rw [Register.batch_start] at hbatch hanswers
  have hnodup : (calls.2.map (·.number)).Nodup := by
    rw [map_number_callEach]
    exact hsound.nodup
  refine ⟨congrArg Batch.atlas hbatch, hnodup, hanswers, ?_, ?_⟩
  · intro x hx y hy hnumber
    obtain ⟨e, result, he, houtcome, hmem⟩ := hanswers x hx
    obtain ⟨e', result', he', houtcome', hmem'⟩ := hanswers y hy
    rw [← hnumber] at he'
    cases he.symm.trans he'
    have hsame := List.inj_on_of_nodup_map hnodup hmem hmem' rfl
    rw [houtcome, houtcome']
    exact congrArg Answer.outcome hsame
  · intro i e he hcalled
    obtain ⟨result, hmem, hstep⟩ := hsound.step_batch_of_mem a he hcalled
    refine ⟨result, hmem, ?_⟩
    rw [show ran.1 = register.batch a from hbatch]
    exact hstep

/-- A document with one scenario. -/
def snacks : Document where
  path := ⟨"snacks.feature"⟩
  feature? := some
    { keyword := "Feature", title := "Snacks", description := "", comments := [],
      position := ⟨2, 1⟩, tags := [⟨"@snacks", ⟨1, 1⟩⟩],
      children := [.scenario ⟨"Scenario", "Apple", "", [], ⟨3, 3⟩, [], [], []⟩] }

/-- A document, the same under a filter that excludes it, and one without a feature, with a copy
of the first delivery from before its first call and one from after it. -/
theorem run_eq_callEach_snacks :
    let deliveries : List Delivery :=
      [.new snacks .keepAll, .new snacks (.ofTags ["snacks"]),
        .new ⟨⟨"empty.feature"⟩, none⟩ .keepAll]
    let moves : List Move :=
      [.copy 0, .perform 1, .perform 0, .copy 0, .perform 4, .perform 3, .perform 2, .perform 0]
    let register := (Register.start deliveries).run moves
    let ran := (⟨deliveries, .empty⟩ : Batch).run moves
    (∀ d ∈ deliveries, d.Succeeds) ∧ register.numbers = [1, 0, 3, 2] ∧
      ran.2.map (·.outcome) =
        [.ok none, .ok (some ⟨0⟩), .ok (some ⟨0⟩), .ok (some ⟨1⟩), .ok none, .ok (some ⟨0⟩)] ∧
      ran.1.atlas = (Atlas.empty.callEach register.called).1 ∧
      (ran.1.step (.perform 4)).1 = ran.1 := by
  intro deliveries moves register ran
  have hsucceeds : ∀ d ∈ deliveries, d.Succeeds := by
    intro d hd
    simp only [deliveries, List.mem_cons, List.not_mem_nil, or_false] at hd
    rcases hd with rfl | rfl | rfl
    · exact ⟨.empty, _, rfl⟩
    · exact ⟨.empty, _, rfl⟩
    · exact ⟨.empty, _, rfl⟩
  obtain ⟨hatlas, -, -, -, hlater⟩ := run_eq_callEach hsucceeds .empty moves
  have hnumbers : register.numbers = [1, 0, 3, 2] := by decide
  have hlate : register.entries[4]? = some ⟨0, .new snacks .keepAll⟩ := by decide
  have hcalled : 0 ∈ register.numbers := by decide
  obtain ⟨result, -, hstep⟩ := hlater 4 _ hlate hcalled
  refine ⟨hsucceeds, hnumbers, by decide, hatlas, ?_⟩
  rw [hstep]

end Batch

end FeatureAtlas
