import Mathlib.Data.List.Range
import Mathlib.Data.List.Perm.Subperm
import Mathlib.Data.List.Nodup
import Mathlib.Data.Nat.ModEq
import Mathlib.Logic.Function.Basic

/-!
# Ring buffers

A ring buffer is an array of `capacity` slots of which the `count` slots from `head` on, taken
cyclically, hold the queue; `tail` is the slot after the last one. `push` writes the slot at
`tail`, `pop` empties the slot at `head`.

`Wf` is the invariant of the representation and `toList` the queue it stands for:
`push` appends to it (`toList_push`), `pop` takes its first element (`exists_pop`), and the
non-empty slots are the queue's elements in some order (`perm_slotList`). `slotsFrom` is what a loop
over all slots has still before it.
-/

namespace NativeSync.Foundations

/-- A ring buffer: its slots and the cursors into them. -/
structure RingBuffer (α : Type*) where
  slots : ℕ → Option α
  capacity : ℕ
  head : ℕ
  tail : ℕ
  count : ℕ

namespace RingBuffer

variable {α : Type*}

/-- The ring with `capacity` empty slots. -/
def empty (capacity : ℕ) : RingBuffer α := ⟨fun _ => none, capacity, 0, 0, 0⟩

/-- Write `x` at the tail. -/
def push (r : RingBuffer α) (x : α) : RingBuffer α :=
  { r with
    slots := Function.update r.slots r.tail (some x)
    tail := (r.tail + 1) % r.capacity
    count := r.count + 1 }

/-- Empty the slot at the head. -/
def pop (r : RingBuffer α) : RingBuffer α :=
  { r with
    slots := Function.update r.slots r.head none
    head := (r.head + 1) % r.capacity
    count := r.count - 1 }

/-- The slot `i` places after the head. -/
def index (r : RingBuffer α) (i : ℕ) : ℕ := (r.head + i) % r.capacity

/-- The queue the ring stands for. -/
def toList (r : RingBuffer α) : List α :=
  (List.range r.count).filterMap fun i => r.slots (r.index i)

/-- What the slots hold, slot after slot. -/
def slotList (r : RingBuffer α) : List α := (List.range r.capacity).filterMap r.slots

/-- What the slots from `i` on hold. -/
def slotsFrom (r : RingBuffer α) (i : ℕ) : List α :=
  ((List.range r.capacity).drop i).filterMap r.slots

/-- The invariant of the representation: the cursors are in range, and the slots in use are the
`count` slots from `head` on. -/
structure Wf (r : RingBuffer α) : Prop where
  head_lt : r.head < r.capacity
  count_le : r.count ≤ r.capacity
  tail_eq : r.tail = r.index r.count
  slot_isSome : ∀ i < r.capacity, (r.slots (r.index i)).isSome = true ↔ i < r.count

theorem wf_empty {capacity : ℕ} (h : 0 < capacity) : (empty capacity : RingBuffer α).Wf :=
  ⟨h, Nat.zero_le _, by simp [empty, index], by simp [empty]⟩

@[simp] theorem toList_empty (capacity : ℕ) : (empty capacity : RingBuffer α).toList = [] := rfl

@[simp] theorem capacity_push (r : RingBuffer α) (x : α) : (r.push x).capacity = r.capacity := rfl

@[simp] theorem count_push (r : RingBuffer α) (x : α) : (r.push x).count = r.count + 1 := rfl

@[simp] theorem capacity_pop (r : RingBuffer α) : r.pop.capacity = r.capacity := rfl

@[simp] theorem count_pop (r : RingBuffer α) : r.pop.count = r.count - 1 := rfl

theorem index_zero {r : RingBuffer α} (h : r.Wf) : r.index 0 = r.head := Nat.mod_eq_of_lt h.head_lt

theorem index_lt {r : RingBuffer α} (h : r.Wf) (i : ℕ) : r.index i < r.capacity :=
  Nat.mod_lt _ (Nat.zero_lt_of_lt h.head_lt)

theorem Wf.tail_lt {r : RingBuffer α} (h : r.Wf) : r.tail < r.capacity := by
  rw [h.tail_eq]; exact index_lt h _

/-- Different places of the window are different slots. -/
theorem index_inj {r : RingBuffer α} {i j : ℕ} (hi : i < r.capacity) (hj : j < r.capacity)
    (h : r.index i = r.index j) : i = j := by
  have hmod : i ≡ j [MOD r.capacity] := Nat.ModEq.add_left_cancel' r.head h
  rwa [Nat.ModEq, Nat.mod_eq_of_lt hi, Nat.mod_eq_of_lt hj] at hmod

theorem index_pop (r : RingBuffer α) (i : ℕ) : r.pop.index i = r.index (i + 1) := by
  simp only [index, pop, Nat.mod_add_mod]
  congr 1
  omega

/-! ## Push -/

theorem wf_push {r : RingBuffer α} (h : r.Wf) (hc : r.count < r.capacity) (x : α) :
    (r.push x).Wf := by
  refine ⟨h.head_lt, hc, ?_, fun i hi => ?_⟩
  · show (r.tail + 1) % r.capacity = (r.head + (r.count + 1)) % r.capacity
    rw [h.tail_eq, index, Nat.mod_add_mod, Nat.add_assoc]
  · show (Function.update r.slots r.tail (some x) (r.index i)).isSome = true ↔ i < r.count + 1
    by_cases hi' : i = r.count
    · subst hi'
      rw [h.tail_eq, Function.update_self]
      simp
    · have hne : r.index i ≠ r.tail := fun e => hi' (index_inj hi hc (e.trans h.tail_eq))
      rw [Function.update_of_ne hne, h.slot_isSome i hi]
      omega

/-- **`push` appends to the queue.** -/
theorem toList_push {r : RingBuffer α} (h : r.Wf) (hc : r.count < r.capacity) (x : α) :
    (r.push x).toList = r.toList ++ [x] := by
  show (List.range (r.count + 1)).filterMap
    (fun i => Function.update r.slots r.tail (some x) (r.index i)) = _
  rw [List.range_succ, List.filterMap_append]
  congr 1
  · refine List.filterMap_congr fun i hi => ?_
    have hi' := List.mem_range.1 hi
    have hne : r.index i ≠ r.tail := fun e =>
      hi'.ne (index_inj (hi'.trans hc) hc (e.trans h.tail_eq))
    rw [Function.update_of_ne hne]
  · rw [h.tail_eq]
    simp

/-! ## Pop -/

theorem wf_pop {r : RingBuffer α} (h : r.Wf) (hc : r.count ≠ 0) : r.pop.Wf := by
  have hcap := Nat.zero_lt_of_lt h.head_lt
  have hle := h.count_le
  refine ⟨Nat.mod_lt _ hcap, by simp; omega, ?_, fun i hi => ?_⟩
  · rw [index_pop]
    show r.tail = r.index (r.count - 1 + 1)
    rw [h.tail_eq, Nat.sub_add_cancel (by omega)]
  · rw [index_pop]
    show (Function.update r.slots r.head none (r.index (i + 1))).isSome = true ↔ i < r.count - 1
    rw [capacity_pop] at hi
    by_cases hi' : i + 1 = r.capacity
    · have hz : r.index (i + 1) = r.head := by
        rw [index, hi', Nat.add_mod_right, Nat.mod_eq_of_lt h.head_lt]
      rw [hz, Function.update_self]
      simp
      omega
    · have hne : r.index (i + 1) ≠ r.head := fun e => by
        have := index_inj (by omega) hcap (e.trans (index_zero h).symm)
        omega
      rw [Function.update_of_ne hne, h.slot_isSome (i + 1) (by omega)]
      omega

/-- **`pop` takes the first element of the queue**, which the slot at the head holds. -/
theorem exists_pop {r : RingBuffer α} (h : r.Wf) (hc : r.count ≠ 0) :
    ∃ x, r.slots r.head = some x ∧ r.toList = x :: r.pop.toList := by
  have hcap := Nat.zero_lt_of_lt h.head_lt
  have hle := h.count_le
  obtain ⟨x, hx⟩ := Option.isSome_iff_exists.1 ((h.slot_isSome 0 hcap).2 (by omega))
  refine ⟨x, by rwa [index_zero h] at hx, ?_⟩
  obtain ⟨n, hn⟩ : ∃ n, r.count = n + 1 := ⟨r.count - 1, by omega⟩
  have hpop : r.pop.toList = (List.range n).filterMap fun i => r.slots (r.index (i + 1)) := by
    rw [toList, count_pop, hn, Nat.add_sub_cancel]
    refine List.filterMap_congr fun i hi => ?_
    have hi' := List.mem_range.1 hi
    have hne : r.index (i + 1) ≠ r.head := fun e => by
      have := index_inj (by omega) hcap (e.trans (index_zero h).symm)
      omega
    rw [index_pop]
    exact Function.update_of_ne hne _ _
  rw [hpop, toList, hn, List.range_succ_eq_map, List.filterMap_cons, hx, List.filterMap_map]
  rfl

/-! ## The queue and the slots -/

theorem length_toList {r : RingBuffer α} (h : r.Wf) : r.toList.length = r.count := by
  suffices ∀ n ≤ r.count, ((List.range n).filterMap fun i => r.slots (r.index i)).length = n from
    this r.count le_rfl
  intro n hn
  induction n with
  | zero => rfl
  | succ n ih =>
    have hle := h.count_le
    obtain ⟨x, hx⟩ := Option.isSome_iff_exists.1 ((h.slot_isSome n (by omega)).2 (by omega))
    rw [List.range_succ, List.filterMap_append, List.length_append, ih (by omega)]
    simp [hx]

theorem toList_eq_nil_iff {r : RingBuffer α} (h : r.Wf) : r.toList = [] ↔ r.count = 0 := by
  rw [← length_toList h, List.length_eq_zero_iff]

theorem map_index_perm {r : RingBuffer α} (h : r.Wf) :
    ((List.range r.capacity).map r.index).Perm (List.range r.capacity) := by
  have hinj : ((List.range r.capacity).map r.index).Nodup :=
    List.Nodup.map_on (fun i hi j hj =>
      index_inj (List.mem_range.1 hi) (List.mem_range.1 hj)) List.nodup_range
  refine ((List.subperm_of_subset hinj fun k hk => ?_).perm_of_length_le (by simp))
  obtain ⟨i, -, rfl⟩ := List.mem_map.1 hk
  exact List.mem_range.2 (index_lt h i)

/-- **The slots hold exactly the queue**, in some order. -/
theorem perm_slotList {r : RingBuffer α} (h : r.Wf) : r.slotList.Perm r.toList := by
  have hwin : ∀ n, r.count ≤ n → n ≤ r.capacity →
      (List.range n).filterMap (fun i => r.slots (r.index i)) = r.toList := by
    intro n hn
    induction n, hn using Nat.le_induction with
    | base => exact fun _ => rfl
    | succ n hn ih =>
      intro hcap
      have hnone : r.slots (r.index n) = none := by
        rw [← Option.not_isSome_iff_eq_none, h.slot_isSome n hcap]
        omega
      rw [List.range_succ, List.filterMap_append, ih (by omega)]
      simp [hnone]
  rw [← hwin r.capacity h.count_le le_rfl, slotList]
  refine ((map_index_perm h).symm.filterMap r.slots).trans (.of_eq ?_)
  rw [List.filterMap_map]
  rfl

/-! ## Going through the slots -/

theorem slotsFrom_zero (r : RingBuffer α) : r.slotsFrom 0 = r.slotList := rfl

theorem slotsFrom_of_lt {r : RingBuffer α} {i : ℕ} (h : i < r.capacity) :
    r.slotsFrom i = (r.slots i).toList ++ r.slotsFrom (i + 1) := by
  have hlen : i < (List.range r.capacity).length := by rwa [List.length_range]
  rw [slotsFrom, List.drop_eq_getElem_cons hlen, List.getElem_range, List.filterMap_cons]
  cases r.slots i <;> rfl

theorem slotsFrom_of_le {r : RingBuffer α} {i : ℕ} (h : r.capacity ≤ i) : r.slotsFrom i = [] := by
  rw [slotsFrom, List.drop_eq_nil_of_le (by rwa [List.length_range])]
  rfl

end RingBuffer

end NativeSync.Foundations
