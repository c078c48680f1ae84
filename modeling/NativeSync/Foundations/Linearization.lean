import NativeSync.Foundations.Runs
import NativeSync.Foundations.Threads

/-!
# Linearization

A system of threads whose operations take several steps, and an abstract object on which an
operation is one move. `Linearized` says what a step of the system may be to the object: it is
silent, or it completes one operation of one thread, and there the result and the effect of the
operation are those of the object's move. The step that completes an operation is its
linearization point, so the order of the events is the order of the abstract operations
(`Linearized.history`, and along a run by `Exec.history`).

`Linearized.stays`, `Linearized.returns` and `Linearized.atOnce` are the rules for the three kinds
of steps: a thread moves inside its operation, it returns from it, or an idle thread carries out an
operation in one step.
-/

namespace NativeSync.Foundations

variable {σ ε β T P O R : Type*}

/-- What a step from `s` to `s'` with events `e` is to the abstract object: `A` are the moves of the
object, `abs` the object that a state stands for, `ret` the completed operation that an event shows,
`table` the table of the threads and `op` the operation that a thread at a point is in. -/
inductive Linearized (A : β → T × O × R → β → Prop) (abs : σ → β) (ret : ε → Option (T × O × R))
    (table : σ → T → Pc P) (op : P → Option O) (s s' : σ) (e : List ε) : Prop
  /-- No operation completes and the object stays; a thread in an operation stays in it. -/
  | silent (he : e.filterMap ret = []) (habs : abs s' = abs s)
      (hop : ∀ u, op (table s u).point = none ∨ op (table s' u).point = op (table s u).point)
  /-- One operation completes, of thread `t`, with the result and the effect of a move of the
  object; the other threads stay in theirs. -/
  | completes (t : T) (o : O) (r : R) (he : e.filterMap ret = [(t, o, r)])
      (hwas : op (table s t).point = some o ∨ op (table s t).point = none)
      (hidle : op (table s' t).point = none) (habs : A (abs s) (t, o, r) (abs s'))
      (hop : ∀ u, u ≠ t → op (table s' u).point = op (table s u).point)

namespace Linearized

variable {A : β → T × O × R → β → Prop} {abs : σ → β} {ret : ε → Option (T × O × R)}
  {table : σ → T → Pc P} {op : P → Option O} {s s' : σ} {e : List ε} {t : T} {o : O} {r : R}

theorem history (h : Linearized A abs ret table op s s' e) :
    History A (abs s) (e.filterMap ret) (abs s') := by
  cases h with
  | silent he habs hop => rw [he, habs]; exact .nil
  | completes t o r he hwas hidle habs hop => rw [he]; exact .single habs

/-- An idle thread carries out an operation in one step. -/
theorem atOnce (ht : op (table s t).point = none) (hw : Woken (table s) (table s'))
    (he : e.filterMap ret = [(t, o, r)]) (habs : A (abs s) (t, o, r) (abs s')) :
    Linearized A abs ret table op s s' e :=
  .completes t o r he (.inr ht) (by rw [hw.point, ht]) habs fun u _ => by rw [hw.point]

variable [DecidableEq T] {x : Pc P}

/-- Thread `t` moves inside its operation, or into one. -/
theorem stays (hw : Woken (Function.update (table s) t x) (table s'))
    (hx : op (table s t).point = none ∨ op x.point = op (table s t).point)
    (he : e.filterMap ret = []) (habs : abs s' = abs s) :
    Linearized A abs ret table op s s' e := by
  refine .silent he habs fun u => ?_
  rw [hw.point]
  by_cases hu : u = t
  · subst hu
    rwa [Function.update_self]
  · rw [Function.update_of_ne hu]
    exact .inr rfl

/-- Thread `t` returns from its operation. -/
theorem returns (hw : Woken (Function.update (table s) t x) (table s'))
    (hwas : op (table s t).point = some o) (hx : op x.point = none)
    (he : e.filterMap ret = [(t, o, r)]) (habs : A (abs s) (t, o, r) (abs s')) :
    Linearized A abs ret table op s s' e := by
  refine .completes t o r he (.inl hwas) ?_ habs fun u hu => ?_
  · rw [hw.point, Function.update_self, hx]
  · rw [hw.point, Function.update_of_ne hu]

end Linearized

end NativeSync.Foundations
