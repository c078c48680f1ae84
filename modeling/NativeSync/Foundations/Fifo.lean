import NativeSync.Foundations.Runs
import Mathlib.Algebra.BigOperators.Group.List.Basic
import Mathlib.Algebra.GroupWithZero.Nat

/-!
# Bounded queues that can be closed

The abstract counterpart of a bounded channel: a queue of items, a closed flag and the number of
producers, the last of which closes the queue as it leaves. The queue is bounded by the number of
its items and by their total size.

`offer` is the attempt to add an item. It checks, in this order, that the item is not too large,
that the queue is not closed, that it is not full and that the item fits the remaining budget.
`poll` is the attempt to take the first item; a closed queue is drained before it reports that it
is closed.

`History.accepted_eq` is what makes any system that moves items this way a queue: what was taken
out is a prefix of what was put in, and the rest is still there.
-/

namespace NativeSync.Foundations

/-- The bounds of a queue of items that have a size. -/
structure Bounds (α : Type*) where
  capacity : ℕ
  maxSize : ℕ
  budget : ℕ
  size : α → ℕ

/-- A queue with a closed flag and a number of producers. -/
structure Fifo (α : Type*) where
  queue : List α
  closed : Bool
  producers : ℕ

/-- The answer to an offered item. -/
inductive Offer
  | accepted
  | tooLarge
  | closed
  | full
  | overBudget
  deriving DecidableEq

/-- The answer to a request for an item. -/
inductive Poll (α : Type*)
  | item (x : α)
  | empty
  | closed

namespace Fifo

variable {α : Type*} (B : Bounds α)

/-- The total size of the queue. -/
def total (q : Fifo α) : ℕ := (q.queue.map B.size).sum

/-- The answer to an offer of `x`. -/
def answer (q : Fifo α) (x : α) : Offer :=
  if B.maxSize < B.size x then .tooLarge
  else if q.closed then .closed
  else if q.queue.length = B.capacity then .full
  else if B.budget < q.total B + B.size x then .overBudget
  else .accepted

/-- Offer the item `x`. -/
def offer (q : Fifo α) (x : α) : Offer × Fifo α :=
  (q.answer B x, if q.answer B x = .accepted then { q with queue := q.queue ++ [x] } else q)

/-- Ask for the first item. -/
def poll (q : Fifo α) : Poll α × Fifo α :=
  match q.queue with
  | x :: rest => (.item x, { q with queue := rest })
  | [] => (if q.closed then .closed else .empty, q)

/-- Close the queue. -/
def close (q : Fifo α) : Fifo α := { q with closed := true }

/-- A producer joins. -/
def join (q : Fifo α) : Fifo α := { q with producers := q.producers + 1 }

/-- A producer leaves; the last one closes the queue. -/
def leave (q : Fifo α) : Fifo α :=
  { q with producers := q.producers - 1, closed := q.closed || decide (q.producers = 1) }

end Fifo

/-- **First in, first out**: if every move takes `rec e` from the front of the queue and adds
`acc e` at its end, then what was added is what was taken followed by the queue. -/
theorem History.accepted_eq {β ε δ : Type*} {A : β → ε → β → Prop} (queue : β → List δ)
    (acc rec : ε → Option δ) {b₀ b : β} {es : List ε}
    (hA : ∀ {b e b'}, A b e b' → (rec e).toList ++ queue b' = queue b ++ (acc e).toList)
    (h : History A b₀ es b) (h₀ : queue b₀ = []) :
    es.filterMap acc = es.filterMap rec ++ queue b := by
  have hone : ∀ (f : ε → Option δ) (e : ε), [e].filterMap f = (f e).toList := by
    intro f e
    cases hf : f e <;> simp [hf]
  induction h with
  | nil => simp [h₀]
  | snoc _ hx ih =>
    rw [List.filterMap_append, List.filterMap_append, ih, hone, hone, List.append_assoc,
      List.append_assoc, hA hx]

end NativeSync.Foundations
