import Mathlib.Data.List.Basic

/-!
# A cell

One memory cell with values in `α` and the operations that atomic variables have. An operation finds
a value, leaves a value and returns an answer (`CellOp.apply`). What `fetchAdd` adds is of a type of
its own: a cell whose values are not added takes an empty one.
-/

namespace NativeSync.Foundations

variable {α δ : Type*}

/-- The operations on a cell. -/
inductive CellOp (α δ : Type*)
  | load
  | store (value : α)
  | swap (value : α)
  | fetchAdd (delta : δ)
  | compareExchange (current next : α)
  deriving DecidableEq

/-- What an operation returns: nothing, the value it found, or that and whether it exchanged it. -/
inductive CellAnswer (α : Type*)
  | unit
  | value (found : α)
  | exchange (observed : α) (exchanged : Bool)
  deriving DecidableEq

/-- An operation on a cell that holds `x`: the value it leaves and its answer. -/
def CellOp.apply [DecidableEq α] (add : α → δ → α) (x : α) : CellOp α δ → α × CellAnswer α
  | load => (x, .value x)
  | store value => (value, .unit)
  | swap value => (value, .value x)
  | fetchAdd delta => (add x delta, .value x)
  | compareExchange current next =>
    (if x = current then next else x, .exchange x (decide (x = current)))

end NativeSync.Foundations
