import NativeSync.WaitGroup.System
import Mathlib.Algebra.BigOperators.Group.List.Basic

/-!
# The wait group counts exactly

With successful primitives the count is the exact sum of the deltas that were added, an `add` is
rejected exactly when the sum would not be a count, and nobody is left asleep at zero: the `add`
that reaches zero wakes everybody, and a thread goes to sleep only when the count is not zero.

When primitives fail, an `add` can raise after it has changed the count: the count is written before
the broadcast and the unlock, whose failures the wrapper raises.
-/

namespace NativeSync.WaitGroup

open Foundations

/-! ## The section of `add` -/

section Add

variable {core : Core} {delta : Int32} {os : Os}

/-- The core after an addition in range. -/
def Core.plus (core : Core) (delta : Int32) : Core := { core with count := core.next delta }

/-- The status of an addition in range. -/
def addStatus (core : Core) (delta : Int32) (os : Os) : ℤ :=
  recordError (if core.next delta = 0 then recordError 0 os.cond₁ else 0) os.unlock

theorem add_of_inRange (hl : os.lock = 0) (h : core.InRange delta) :
    add core delta os =
      { core := core.plus delta
        wakes := if core.next delta = 0 ∧ os.cond₁ = 0 then [.broadcast ()] else []
        exit := (if addStatus core delta os = 0 then 1 else 0, addStatus core delta os) } := by
  have hw : wrap32 (core.next delta) = core.next delta := by
    obtain ⟨h₁, h₂⟩ := h
    unfold int32Max at h₂
    exact wrap32_of_mem (by omega) h₂
  have hr : ¬(core.next delta < 0 ∨ core.next delta > int32Max) := by
    obtain ⟨h₁, h₂⟩ := h
    omega
  simp only [add, hl, ne_eq, not_true_eq_false, if_false, hr, hw]
  rfl

theorem add_of_not_inRange (hl : os.lock = 0) (h : ¬core.InRange delta) :
    add core delta os = { core, exit := (0, recordError 0 os.unlock) } := by
  have hr : core.next delta < 0 ∨ core.next delta > int32Max := by
    unfold Core.InRange at h
    omega
  simp only [add, hl, ne_eq, not_true_eq_false, if_false, hr, if_true]

theorem addStatus_eq_zero :
    addStatus core delta os = 0 ↔ (core.next delta = 0 → os.cond₁ = 0) ∧ os.unlock = 0 := by
  rw [addStatus, recordError_eq_zero]
  split_ifs with h
  · simp [h, zero_recordError]
  · simp [h]

end Add

/-! ## The moves without failures -/

variable {T : Type}

variable [DecidableEq T]

/-- The moves of the system when no primitive fails. -/
inductive Move (s : State T) : State T → List (Event T) → Prop
  | added (t : T) (delta : Int32) (hr : s.core.InRange delta) :
      Move s { s with
          core := s.core.plus delta
          threads := if s.core.next delta = 0 then broadcast Point.cond () s.threads
            else s.threads }
        [.ret t (.add delta) (.ok ())]
  | rejected (t : T) (delta : Int32) (hr : ¬s.core.InRange delta) :
      Move s s [.ret t (.add delta) (.error .invalidWaitGroupCount)]
  | called (t : T) (h : ℕ) (ht : s.threads t = .run .idle) :
      Move s (s.move t (.run (.wait h))) []
  | slept (t : T) (h : ℕ) (ht : (s.threads t).Ready (.wait h)) (hc : s.core.count ≠ 0) :
      Move s (s.move t (.wait .asleep (.wait h))) []
  | passed (t : T) (h : ℕ) (ht : (s.threads t).Ready (.wait h)) (hc : s.core.count = 0) :
      Move s (s.move t (.run .idle)) [.ret t .wait (.ok ())]
  | spurious (t : T) (p : Point) (ht : s.threads t = .wait .asleep p) :
      Move s (s.move t (.wait .spurious p)) []
  | shared (h : ℕ) :
      Move s { s with core := share s.core, handles := insert h s.handles } []
  | dropped (h : ℕ) :
      Move s { s with
          core := (finalize s.core).1, handles := s.handles.erase h
          freed := s.freed || (finalize s.core).2 }
        (if (finalize s.core).2 then [.freed] else [])

variable {s s' : State T} {es e : List (Event T)} {t : T} {h : ℕ}

theorem waitLoop_move (ht : (s.threads t).Ready (.wait h))
    (hs : s.endWait t h (waitLoop s.core {}) = (s', e)) : Move s s' e := by
  by_cases hc : s.core.count = 0
  · obtain ⟨rfl, rfl⟩ := by simpa [waitLoop, hc, State.endWait, waitResult] using hs
    exact .passed t h ht hc
  · obtain ⟨rfl, rfl⟩ := by simpa [waitLoop, hc, State.endWait] using hs
    exact .slept t h ht hc

variable [Fintype T]

/-- **Every step whose primitives succeed is a move.** -/
theorem step_move {a : Action T} (hs : step s a = some (s', e)) (hos : a.os = {})
    (hinj : a.injected = 0) : Move s s' e := by
  cases a with
  | add t h delta injected os =>
    obtain rfl : os = {} := hos
    obtain rfl : injected = 0 := hinj
    simp only [step, ne_eq, not_true_eq_false, if_false, Option.ite_none_right_eq_some] at hs
    obtain ⟨-, hs⟩ := hs
    by_cases hr : s.core.InRange delta
    · have hst : addStatus s.core delta {} = 0 := addStatus_eq_zero.2 ⟨fun _ => rfl, rfl⟩
      rw [add_of_inRange rfl hr, hst] at hs
      have hm := Move.added t delta hr
      by_cases hz : s.core.next delta = 0
      · simp only [hz, and_self, if_true, deliver_broadcast, deliver_nil, Option.map_some,
          Option.some.injEq, Prod.mk.injEq] at hs hm
        obtain ⟨rfl, rfl⟩ := hs
        exact hm
      · simp only [hz, false_and, if_true, if_false, deliver_nil, Option.map_some,
          Option.some.injEq, Prod.mk.injEq] at hs hm
        obtain ⟨rfl, rfl⟩ := hs
        exact hm
    · rw [add_of_not_inRange rfl hr] at hs
      obtain ⟨rfl, rfl⟩ := by simpa [addResult] using hs
      exact .rejected t delta hr
  | callWait t h injected =>
    obtain rfl : injected = 0 := hinj
    simp only [step, ne_eq, not_true_eq_false, if_false] at hs
    split_ifs at hs with h₁
    obtain ⟨rfl, rfl⟩ := by simpa using hs
    exact .called t h h₁.1
  | lock t os =>
    obtain rfl : os = {} := hos
    simp only [step] at hs
    split at hs
    · rename_i h ht
      exact waitLoop_move (.inl ht) (Option.some.inj hs)
    · simp at hs
  | spurious t =>
    simp only [step] at hs
    split at hs
    · rename_i p ht
      obtain ⟨rfl, rfl⟩ := by simpa using hs
      exact .spurious t p ht
    · simp at hs
  | resume t os =>
    obtain rfl : os = {} := hos
    simp only [step] at hs
    split at hs
    · simp at hs
    · rename_i w h hne ht
      exact waitLoop_move (.inr ⟨w, hne, ht⟩) (Option.some.inj hs)
    · simp at hs
  | share h h' =>
    simp only [step] at hs
    split_ifs at hs with h₁
    obtain ⟨rfl, rfl⟩ := by simpa using hs
    exact .shared h'
  | drop h =>
    simp only [step, Option.ite_none_right_eq_some, Option.some.injEq, Prod.mk.injEq] at hs
    obtain ⟨-, rfl, rfl⟩ := hs
    exact .dropped h

/-! ## The law -/

/-- The delta of an event that shows an addition. -/
def Event.added : Event T → Option ℤ
  | ret _ (.add delta) (.ok ()) => some delta.toInt
  | _ => none

/-- The exact sum of the deltas of the additions that returned normally. -/
def total (es : List (Event T)) : ℤ := (es.filterMap Event.added).sum

omit [DecidableEq T] [Fintype T] in
theorem total_append (es e : List (Event T)) : total (es ++ e) = total es + total e := by
  rw [total, List.filterMap_append, List.sum_append]
  rfl

/-- The count is the exact sum, it is a count, and nobody sleeps at zero. -/
structure Inv (es : List (Event T)) (s : State T) : Prop where
  count : s.core.count = total es
  nonneg : 0 ≤ s.core.count
  le : s.core.count ≤ int32Max
  awake : s.core.count = 0 → NoSleeper Point.cond () s.threads

omit [DecidableEq T] [Fintype T] in
/-- A step that leaves the count and adds nothing. -/
theorem Inv.frame (hI : Inv es s) (he : total e = 0) (hc : s'.core.count = s.core.count)
    (haw : s.core.count = 0 → NoSleeper Point.cond () s'.threads) : Inv (es ++ e) s' where
  count := by rw [hc, hI.count, total_append, he, add_zero]
  nonneg := by rw [hc]; exact hI.nonneg
  le := by rw [hc]; exact hI.le
  awake := fun hz => haw (hc ▸ hz)

omit [Fintype T] in
/-- **A move keeps the law.** -/
theorem Move.inv (hm : Move s s' e) (hI : Inv es s) : Inv (es ++ e) s' := by
  cases hm with
  | added t delta hr =>
    refine ⟨?_, hr.1, hr.2, fun hz => ?_⟩
    · change s.core.count + delta.toInt = _
      rw [total_append, hI.count]
      simp [total, Event.added]
    · have hz' : s.core.next delta = 0 := hz
      change NoSleeper Point.cond () (if s.core.next delta = 0 then _ else _)
      rw [if_pos hz']
      exact noSleeper_broadcast _
  | rejected t delta hr => exact hI.frame rfl rfl hI.awake
  | called t h ht => exact hI.frame rfl rfl fun hz => (hI.awake hz).update rfl
  | slept t h ht hc => exact hI.frame rfl rfl fun hz => absurd hz hc
  | passed t h ht hc => exact hI.frame rfl rfl fun hz => (hI.awake hz).update rfl
  | spurious t p ht => exact hI.frame rfl rfl fun hz => (hI.awake hz).update rfl
  | shared h => exact hI.frame rfl rfl hI.awake
  | dropped h =>
    refine hI.frame ?_ rfl hI.awake
    split_ifs <;> rfl

theorem inv_of_exec (h : Exec step NoFailure State.init es s) : Inv es s := by
  refine h.invariant ⟨rfl, le_rfl, ?_, fun _ _ => rfl⟩ fun hI hs hG =>
    (step_move hs hG.1 hG.2).inv hI
  change 0 ≤ int32Max
  decide

/-- What an addition returns when no primitive fails. -/
theorem add_ret {delta : Int32} {os : Os} (hs : step s (.add t h delta 0 os) = some (s', e))
    (hos : os = {}) :
    (s.core.InRange delta → e = [.ret t (.add delta) (.ok ())] ∧
      s'.core.count = s.core.next delta) ∧
    (¬s.core.InRange delta → e = [.ret t (.add delta) (.error .invalidWaitGroupCount)] ∧
      s' = s) := by
  subst hos
  simp only [step, ne_eq, not_true_eq_false, if_false, Option.ite_none_right_eq_some,
    Option.map_eq_some_iff, Prod.mk.injEq] at hs
  obtain ⟨-, f, hf, rfl, rfl⟩ := hs
  refine ⟨fun hr => ?_, fun hr => ?_⟩
  · rw [add_of_inRange rfl hr, addStatus_eq_zero.2 ⟨fun _ => rfl, rfl⟩]
    exact ⟨rfl, rfl⟩
  · rw [add_of_not_inRange rfl hr] at hf ⊢
    obtain rfl := by simpa using hf
    exact ⟨rfl, rfl⟩

omit [Fintype T] in
/-- A wait returns normally only from a section in which the count is zero. -/
theorem Move.wait_ret (hm : Move s s' e) (hx : .ret t .wait (.ok ()) ∈ e) :
    s.core.count = 0 ∧ s'.core.count = 0 := by
  cases hm with
  | passed t h ht hc => exact ⟨hc, hc⟩
  | dropped h =>
    split_ifs at hx
    · cases List.mem_singleton.1 hx
    · cases hx
  | _ =>
    first
    | exact absurd hx List.not_mem_nil
    | cases List.mem_singleton.1 hx

/-- **The wait group counts exactly and loses no wake-up.** In every run whose primitives succeed,
the count is the exact sum of the deltas of the additions that returned normally and is an `int32`
that is not negative; an addition raises `InvalidWaitGroupCount` exactly when the exact sum would
not be such a number, and then changes nothing and wakes nobody, and otherwise it returns; a wait
returns only from a section in which the count is zero; and at zero nobody is asleep un-notified. -/
theorem wait_group_counts (hrun : Exec step NoFailure State.init es s) :
    s.core.count = total es ∧ 0 ≤ s.core.count ∧ s.core.count ≤ int32Max ∧
    (∀ t h delta os s' e, step s (.add t h delta 0 os) = some (s', e) → os = {} →
      (.ret t (.add delta) (.error .invalidWaitGroupCount) ∈ e ↔
        ¬(0 ≤ total es + delta.toInt ∧ total es + delta.toInt ≤ int32Max)) ∧
      (.ret t (.add delta) (.error .invalidWaitGroupCount) ∈ e → s' = s) ∧
      (∀ err, .ret t (.add delta) (.error err) ∈ e → err = .invalidWaitGroupCount)) ∧
    (∀ a s' e, step s a = some (s', e) → NoFailure s a s' →
      ∀ t, .ret t .wait (.ok ()) ∈ e → s.core.count = 0 ∧ s'.core.count = 0) ∧
    (s.core.count = 0 → ∀ t, (s.threads t).asleepOn Point.cond () = false) := by
  have hI := inv_of_exec hrun
  refine ⟨hI.count, hI.nonneg, hI.le, fun t h delta os s' e hs hos => ?_,
    fun a s' e hs hG t hx => (step_move hs hG.1 hG.2).wait_ret hx, hI.awake⟩
  obtain ⟨hin, hout⟩ := add_ret hs hos
  have hsum : s.core.InRange delta ↔
      0 ≤ total es + delta.toInt ∧ total es + delta.toInt ≤ int32Max := by
    rw [← hI.count]
    rfl
  rw [← hsum]
  by_cases hr : s.core.InRange delta
  · obtain ⟨rfl, -⟩ := hin hr
    refine ⟨?_, ?_, ?_⟩
    · simp [hr]
    · intro hx
      cases List.mem_singleton.1 hx
    · intro err hx
      cases List.mem_singleton.1 hx
  · obtain ⟨rfl, rfl⟩ := hout hr
    refine ⟨?_, fun _ => rfl, fun err hx => ?_⟩
    · simp [hr]
    · cases List.mem_singleton.1 hx
      rfl

/-- One thread waits while another one adds and takes back `INT32_MAX`; in between, an addition of
one more and one of `INT32_MIN` are rejected. -/
theorem wait_group_counts_two_threads :
    ∃ (es : List (Event (Fin 2))) (s : State (Fin 2)),
      Exec step NoFailure State.init es s ∧
      .ret 0 (.add 1) (.error .invalidWaitGroupCount) ∈ es ∧
      .ret 0 (.add (-2147483648)) (.error .invalidWaitGroupCount) ∈ es ∧
      .ret 1 .wait (.ok ()) ∈ es ∧ s.core.count = total es ∧
      ∀ t, (s.threads t).asleepOn Point.cond () = false := by
  obtain ⟨es, s, h, ht⟩ := Exec.exists_of_run step NoFailure (State.init : State (Fin 2))
    [.add 0 0 2147483647 0 {}, .callWait 1 0 0, .lock 1 {}, .add 0 0 1 0 {},
      .add 0 0 (-2147483648) 0 {}, .add 0 0 (-2147483647) 0 {}, .resume 1 {}]
    (fun s es => decide (s.core.count = 0 ∧
      .ret 0 (.add 1) (.error .invalidWaitGroupCount) ∈ es ∧
      .ret 0 (.add (-2147483648)) (.error .invalidWaitGroupCount) ∈ es ∧
      .ret 1 .wait (.ok ()) ∈ es))
    (by decide +kernel)
  obtain ⟨hz, h₁, h₂, h₃⟩ := of_decide_eq_true ht
  obtain ⟨hc, -, -, -, -, haw⟩ := wait_group_counts h
  exact ⟨es, s, h, h₁, h₂, h₃, hc, haw hz⟩

/-! ## Failures -/

/-- The addition fails late: it changes the count, and then its broadcast or its unlock fails. -/
def Action.Late (s : State T) : Action T → Prop
  | add _ _ delta injected os => injected = 0 ∧ os.lock = 0 ∧ s.core.InRange delta ∧ delta ≠ 0 ∧
      (s.core.next delta = 0 ∧ os.cond₁ ≠ 0 ∨ os.unlock ≠ 0)
  | _ => False

instance (s : State T) : (a : Action T) → Decidable (a.Late s)
  | .add .. => inferInstanceAs (Decidable (_ ∧ _))
  | .callWait .. => .isFalse id
  | .lock .. => .isFalse id
  | .spurious _ => .isFalse id
  | .resume .. => .isFalse id
  | .share .. => .isFalse id
  | .drop _ => .isFalse id

/-- A step that is no late failure. -/
def InTime (s : State T) (a : Action T) (_ : State T) : Prop := ¬a.Late s

instance (s : State T) (a : Action T) (s' : State T) : Decidable (InTime s a s') :=
  inferInstanceAs (Decidable ¬_)

/-- What an addition in range does: its result tells its status. -/
theorem add_step {delta : Int32} {os : Os} (hs : step s (.add t h delta 0 os) = some (s', e))
    (hl : os.lock = 0) (hr : s.core.InRange delta) :
    s'.core = s.core.plus delta ∧
      e = [.ret t (.add delta) (if addStatus s.core delta os = 0 then .ok () else
        .error (.waitGroupOperationFailed (addStatus s.core delta os)))] := by
  simp only [step, ne_eq, not_true_eq_false, if_false, Option.ite_none_right_eq_some,
    Option.map_eq_some_iff, Prod.mk.injEq] at hs
  obtain ⟨-, f, -, rfl, rfl⟩ := hs
  rw [add_of_inRange hl hr]
  refine ⟨rfl, ?_⟩
  by_cases hst : addStatus s.core delta os = 0 <;> simp [addResult, hst]

/-- An addition that does not get as far as changing the count raises. -/
theorem add_refused {delta : Int32} {injected : ℤ} {os : Os}
    (hs : step s (.add t h delta injected os) = some (s', e))
    (hn : ¬(injected = 0 ∧ os.lock = 0 ∧ s.core.InRange delta)) :
    s'.core = s.core ∧ ∃ err, e = [.ret t (.add delta) (.error err)] := by
  by_cases hinj : injected = 0
  · subst hinj
    simp only [step, ne_eq, not_true_eq_false, if_false, Option.ite_none_right_eq_some,
      Option.map_eq_some_iff, Prod.mk.injEq] at hs
    obtain ⟨-, f, -, rfl, rfl⟩ := hs
    by_cases hl : os.lock = 0
    · rw [add_of_not_inRange hl fun hr => hn ⟨rfl, hl, hr⟩]
      by_cases hu : recordError 0 os.unlock = 0 <;> simp [addResult, hu]
    · simp [add, hl, addResult]
  · simp only [step, ne_eq, hinj, not_false_eq_true, if_true, Option.ite_none_right_eq_some,
      Option.some.injEq, Prod.mk.injEq] at hs
    obtain ⟨-, rfl, rfl⟩ := hs
    simp [addResult, hinj]

omit [DecidableEq T] [Fintype T] in
theorem next_eq_count {delta : Int32} : s.core.next delta = s.core.count ↔ delta = 0 := by
  rw [Core.next, ← Int32.toInt_inj]
  simp

/-- **An addition that raises leaves the count as it was exactly when it does not fail late.** -/
theorem add_atomic_iff {delta : Int32} {injected : ℤ} {os : Os}
    (hs : step s (.add t h delta injected os) = some (s', e)) :
    (∀ err, .ret t (.add delta) (.error err) ∈ e → s'.core.count = s.core.count) ↔
      ¬(Action.add t h delta injected os).Late s := by
  by_cases hn : injected = 0 ∧ os.lock = 0 ∧ s.core.InRange delta
  · obtain ⟨rfl, hl, hr⟩ := hn
    obtain ⟨hc, rfl⟩ := add_step hs hl hr
    have hcount : s'.core.count = s.core.count ↔ delta = 0 := by
      rw [hc]
      exact next_eq_count
    have hlate : (Action.add t h delta 0 os).Late s ↔
        delta ≠ 0 ∧ addStatus s.core delta os ≠ 0 := by
      simp only [Action.Late, hl, hr, true_and, ne_eq, addStatus_eq_zero]
      tauto
    rw [hlate, hcount]
    by_cases hst : addStatus s.core delta os = 0
    · simp [hst]
    · simp [hst]
  · obtain ⟨hc, err, rfl⟩ := add_refused hs hn
    refine ⟨fun _ hL => hn ⟨hL.1, hL.2.1, hL.2.2.1⟩, fun _ _ _ => by rw [hc]⟩

omit [Fintype T] in
theorem endWait_count {sec : Section Core Unit WaitExit} (hs : s.endWait t h sec = (s', e)) :
    s'.core = s.core ∧ total e = 0 := by
  unfold State.endWait at hs
  split at hs
  · obtain ⟨rfl, rfl⟩ := by simpa using hs
    exact ⟨rfl, rfl⟩
  · obtain ⟨rfl, rfl⟩ := by simpa using hs
    exact ⟨rfl, rfl⟩

/-- **A step that does not fail late counts what it shows**, whatever the primitives return. -/
theorem count_step {a : Action T} (hs : step s a = some (s', e)) (hin : ¬a.Late s) :
    s'.core.count = s.core.count + total e := by
  have hsame : s'.core = s.core ∧ total e = 0 → s'.core.count = s.core.count + total e := by
    rintro ⟨h₁, h₂⟩
    rw [h₁, h₂, add_zero]
  cases a with
  | add t h delta injected os =>
    by_cases hn : injected = 0 ∧ os.lock = 0 ∧ s.core.InRange delta
    · obtain ⟨rfl, hl, hr⟩ := hn
      have hat := (add_atomic_iff hs).2 hin
      obtain ⟨hc, rfl⟩ := add_step hs hl hr
      by_cases hst : addStatus s.core delta os = 0
      · rw [hc]
        simp [hst, total, Event.added, Core.plus, Core.next]
      · have hcount := hat _ (by rw [if_neg hst]; exact List.mem_singleton.2 rfl)
        rw [if_neg hst, hcount]
        exact (add_zero _).symm
    · obtain ⟨hc, err, rfl⟩ := add_refused hs hn
      exact hsame ⟨hc, rfl⟩
  | callWait t h injected =>
    simp only [step, Option.ite_none_right_eq_some] at hs
    obtain ⟨-, hs⟩ := hs
    split_ifs at hs
    · obtain ⟨rfl, rfl⟩ := by simpa using hs
      exact hsame ⟨rfl, rfl⟩
    · obtain ⟨rfl, rfl⟩ := by simpa using hs
      exact hsame ⟨rfl, rfl⟩
  | lock t os =>
    simp only [step] at hs
    split at hs
    · exact hsame (endWait_count (Option.some.inj hs))
    · simp at hs
  | spurious t =>
    simp only [step] at hs
    split at hs
    · obtain ⟨rfl, rfl⟩ := by simpa using hs
      exact hsame ⟨rfl, rfl⟩
    · simp at hs
  | resume t os =>
    simp only [step] at hs
    split at hs
    · simp at hs
    · exact hsame (endWait_count (Option.some.inj hs))
    · simp at hs
  | share h h' =>
    simp only [step, Option.ite_none_right_eq_some, Option.some.injEq, Prod.mk.injEq] at hs
    obtain ⟨-, rfl, rfl⟩ := hs
    exact (add_zero _).symm
  | drop h =>
    simp only [step, Option.ite_none_right_eq_some, Option.some.injEq, Prod.mk.injEq] at hs
    obtain ⟨-, rfl, rfl⟩ := hs
    have he : total (if (finalize s.core).2 then [.freed] else [] : List (Event T)) = 0 := by
      split_ifs <;> rfl
    rw [he]
    exact (add_zero _).symm

/-- **When an addition that raises leaves the count as it was.** In every state that a run reaches,
whatever the primitives returned so far, an `add` or `done` that raises has not changed the count if
and only if it does not fail late. So in every run without late failures the count is the exact sum
of the deltas of the additions that returned normally, and one that raised can be tried again
without counting twice. -/
theorem wait_group_add_atomic_iff :
    (∀ (es : List (Event T)) (s : State T), Exec step AnyStatus State.init es s →
      ∀ t h delta injected os s' e, step s (.add t h delta injected os) = some (s', e) →
        ((∀ err, .ret t (.add delta) (.error err) ∈ e → s'.core.count = s.core.count) ↔
          ¬(Action.add t h delta injected os).Late s)) ∧
    (∀ (es : List (Event T)) (s : State T), Exec step InTime State.init es s →
      s.core.count = total es) := by
  refine ⟨fun es s _ t h delta injected os s' e hs => add_atomic_iff hs, fun es s hrun => ?_⟩
  refine hrun.invariant (I := fun es s => s.core.count = total es) rfl fun hI hs hG => ?_
  rw [count_step hs hG, hI, total_append]

/-- The failed lock of an `add` does not count, and a `done` of a new group, whose unlock fails, is
rejected before it changes the count. -/
theorem wait_group_add_atomic_iff_rejected :
    (∃ (es : List (Event (Fin 1))) (s : State (Fin 1)),
      Exec step InTime State.init es s ∧ s.core.count = total es ∧
      .ret 0 (.add 1) (.error (.waitGroupOperationFailed 5)) ∈ es ∧
      .ret 0 (.add (-1)) (.error (.waitGroupOperationFailed 7)) ∈ es) ∧
    ∃ (s' : State (Fin 1)) (e : List (Event (Fin 1))),
      step State.init (.done 0 0 0 { unlock := 7 }) = some (s', e) ∧
      .ret 0 (.add (-1)) (.error (.waitGroupOperationFailed 7)) ∈ e ∧
      s'.core.count = (State.init : State (Fin 1)).core.count := by
  obtain ⟨es, s, h, ht⟩ := Exec.exists_of_run step InTime (State.init : State (Fin 1))
    [.add 0 0 1 0 { lock := 5 }, .done 0 0 0 { unlock := 7 }]
    (fun _ es => decide (.ret 0 (.add 1) (.error (.waitGroupOperationFailed 5)) ∈ es ∧
      .ret 0 (.add (-1)) (.error (.waitGroupOperationFailed 7)) ∈ es))
    (by decide +kernel)
  have hx : Event.ret (0 : Fin 1) (.add (-1)) (.error (.waitGroupOperationFailed 7)) ∈
      [.ret 0 (.add (-1)) (addResult 0 7)] := by decide
  refine ⟨⟨es, s, h, wait_group_add_atomic_iff.2 es s h, of_decide_eq_true ht⟩, _, _, rfl, hx, ?_⟩
  exact (wait_group_add_atomic_iff.1 [] State.init .start 0 0 (-1) 0 { unlock := 7 } _ _ rfl).2
    (by decide) _ hx

/-- A `done` takes back the only count, and its unlock fails: it raises, and the count is zero. -/
theorem wait_group_add_not_atomic :
    ∃ (es : List (Event (Fin 1))) (s s' : State (Fin 1)) (e : List (Event (Fin 1))),
      Exec step AnyStatus State.init es s ∧
      step s (.done 0 0 0 { unlock := 1 }) = some (s', e) ∧
      .ret 0 (.add (-1)) (.error (.waitGroupOperationFailed 1)) ∈ e ∧
      s.core.count = 1 ∧ s'.core.count = 0 := by
  have h₀ : Exec step AnyStatus (State.init : State (Fin 1)) [] State.init := .start
  have h₁ := h₀.step (a := .add 0 0 1 0 {}) rfl trivial
  exact ⟨_, _, _, _, h₁, rfl, by decide, by decide, by decide⟩

end NativeSync.WaitGroup
