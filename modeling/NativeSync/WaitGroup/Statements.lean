import NativeSync.Foundations.Statements
import NativeSync.WaitGroup.System

/-!
# The wait group, statement by statement

The critical sections of `wait_group/native.c` as code: every access to `count` under the mutex, the
broadcast and the unlock is a statement of its own. A call of the test hook that injects an error and
a lock that fails do not take the mutex; nor do `share` and the finalizer, which count references
while a section is executed.

`wait_group_reduction` says that this makes no difference: the statement-level system shows what the
system of `WaitGroup.System` shows.
-/

namespace NativeSync.WaitGroup

open Foundations

variable {T : Type} [DecidableEq T]

/-! ## The code -/

/-- Write `count`. -/
def State.setCount (count : ℤ) (s : State T) : State T :=
  { s with core := { s.core with count } }

omit [DecidableEq T] in
@[simp] theorem State.setCount_count (count : ℤ) (s : State T) :
    (s.setCount count).core.count = count := rfl

/-- The end of a section: the unlock, and the return with `r`. -/
def returns (t : T) (op : Op) (r : Except SyncError Unit) : Code (State T) (Event T) :=
  .done fun s => some (s, [.ret t op r])

/-- The end of `sync_wait_group_wait`: the unlock, and the return with `*status = status`. -/
def waitReturns (t : T) (status : ℤ) : Code (State T) (Event T) :=
  .done fun s => some (s.move t (.run .idle), [.ret t .wait (waitResult status)])

/-- `sync_wait_group_wait` from the `while` loop on; a wait gives up the mutex. -/
def waitLoopCode (t : T) (h : ℕ) (os : Os) : Code (State T) (Event T) :=
  .get (fun s => s.core.count) fun count =>
    if count ≠ 0 then
      if os.wait ≠ 0 then waitReturns t (recordError (recordError 0 os.wait) os.unlock)
      else .done fun s => some (s.move t (.wait .asleep (.wait h)), [])
    else waitReturns t (recordError 0 os.unlock)

variable [Fintype T]

/-- The call of `sync_os_cond_broadcast`. -/
def State.broadcast (status : ℤ) (s : State T) : Option (State T) :=
  (deliver Point.cond none (if status = 0 then [.broadcast ()] else []) s.threads).map fun f =>
    { s with threads := f }

/-- `sync_wait_group_add` after the lock. -/
def addCode (t : T) (delta : Int32) (os : Os) : Code (State T) (Event T) :=
  .get (fun s => s.core.next delta) fun next =>
    if next < 0 ∨ next > int32Max then
      returns t (.add delta) (addResult 0 (recordError 0 os.unlock))
    else
      .set (State.setCount (wrap32 next)) <| .get (fun s => s.core.count) fun count =>
        if count = 0 then
          .write (State.broadcast os.cond₁) <|
            returns t (.add delta) (addResult
              (if recordError (recordError 0 os.cond₁) os.unlock = 0 then 1 else 0)
              (recordError (recordError 0 os.cond₁) os.unlock))
        else
          returns t (.add delta) (addResult (if recordError 0 os.unlock = 0 then 1 else 0)
            (recordError 0 os.unlock))

/-- `sync_wait_group_wait` after the lock. -/
def waitCode (t : T) (os : Os) : Code (State T) (Event T) :=
  .get (fun s => s.threads t) fun x =>
    match x with
    | .run (.wait h) => waitLoopCode t h os
    | _ => .done fun _ => none

/-- `sync_wait_group_wait` after the return of its wait, which has the mutex again. -/
def wokenCode (t : T) (os : Os) : Code (State T) (Event T) :=
  .get (fun s => s.threads t) fun x =>
    match x with
    | .wait .asleep _ => .done fun _ => none
    | .wait _ (.wait h) =>
      if os.wake ≠ 0 then waitReturns t (recordError (recordError 0 os.wake) os.unlock)
      else waitLoopCode t h os
    | _ => .done fun _ => none

/-- The code of the actions that take the mutex. -/
def code : Action T → Option (Code (State T) (Event T))
  | .add t _ delta injected os =>
    if injected ≠ 0 ∨ os.lock ≠ 0 then none else some (addCode t delta os)
  | .lock t os => if os.lock ≠ 0 then none else some (waitCode t os)
  | .resume t os => some (wokenCode t os)
  | _ => none

/-- The thread that takes an action; nobody in particular shares or drops a handle. -/
def Action.thread : Action T → Option T
  | add t .. => some t
  | callWait t .. => some t
  | lock t _ => some t
  | spurious t => some t
  | resume t _ => some t
  | share .. => none
  | drop _ => none

/-- The thread is there, with a live handle. -/
def Ready (s : State T) : Action T → Prop
  | .add t h .. => s.threads t = .run .idle ∧ h ∈ s.handles
  | .lock t _ => (match s.threads t with | .run (.wait _) => true | _ => false) = true
  | .resume t _ =>
    (match s.threads t with | .wait .asleep _ => false | .wait _ (.wait _) => true | _ => false) =
      true
  | _ => False

/-- The handle that an action uses in its section and nowhere else. -/
def Action.uses : Action T → Option ℕ
  | add _ h .. => some h
  | _ => none

/-- The handle that an action drops. -/
def Action.drops : Action T → Option ℕ
  | drop h => some h
  | _ => none

/-- Action `b` may be taken while the section of `a` is executed: it is one of another thread, and
does not drop the handle that `a` uses. -/
def Apart (a b : Action T) : Prop :=
  b.thread ≠ a.thread ∧ ∀ h ∈ a.uses, b.drops ≠ some h

/-- The wait group with its sections opened up. -/
def opened : Opened (State T) (Action T) (Event T) :=
  { coarse := step, code := code, ready := Ready, apart := Apart }

instance (s : State T) : (a : Action T) → Decidable (Ready s a)
  | .add .. => inferInstanceAs (Decidable (_ ∧ _))
  | .callWait .. => inferInstanceAs (Decidable False)
  | .lock .. => inferInstanceAs (Decidable (_ = true))
  | .spurious .. => inferInstanceAs (Decidable False)
  | .resume .. => inferInstanceAs (Decidable (_ = true))
  | .share .. => inferInstanceAs (Decidable False)
  | .drop .. => inferInstanceAs (Decidable False)

instance (a b : Action T) : Decidable (Apart a b) := inferInstanceAs (Decidable (_ ∧ _))

instance (s : State T) (a : Action T) : Decidable ((opened (T := T)).ready s a) :=
  inferInstanceAs (Decidable (Ready s a))

instance (a b : Action T) : Decidable ((opened (T := T)).apart a b) :=
  inferInstanceAs (Decidable (Apart a b))

variable {s s' s₂ : State T} {e : List (Event T)} {a b : Action T} {c : Code (State T) (Event T)}
  {t : T} {os : Os}

/-! ## The code does what the sections do -/

omit [Fintype T] in
theorem run_waitLoopCode (h : ℕ) :
    (waitLoopCode t h os).run s = some (s.endWait t h (waitLoop s.core os)) := by
  unfold waitLoopCode waitLoop State.endWait
  rw [Code.run_get]
  split_ifs <;> rfl

theorem run_addCode (delta : Int32) (hl : os.lock = 0) :
    (addCode t delta os).run s =
      (deliver Point.cond none (add s.core delta os).wakes s.threads).map fun f =>
        ({ s with core := (add s.core delta os).core, threads := f },
          [.ret t (.add delta) (addResult (add s.core delta os).exit.1
            (add s.core delta os).exit.2)]) := by
  simp only [addCode, add, hl, ne_eq, not_true_eq_false, if_false, Code.run_get]
  by_cases hr : s.core.next delta < 0 ∨ s.core.next delta > int32Max
  · simp only [hr, if_true]
    rfl
  · simp only [hr, if_false, Code.run_set, Code.run_get, State.setCount_count]
    by_cases h0 : wrap32 (s.core.next delta) = 0
    · simp only [h0, if_true, true_and, Code.run_write, State.broadcast, Option.bind_map]
      exact (Option.map_eq_bind ..).symm
    · simp only [h0, if_false, false_and]
      rfl

omit [Fintype T] [DecidableEq T] in
theorem lock_cases (hr : Ready s (.lock t os)) : ∃ h, s.threads t = .run (.wait h) := by
  simp only [Ready] at hr
  split at hr
  · exact ⟨_, ‹_›⟩
  · cases hr

omit [Fintype T] [DecidableEq T] in
theorem resume_cases (hr : Ready s (.resume t os)) :
    ∃ h, s.threads t = .wait .notified (.wait h) ∨ s.threads t = .wait .spurious (.wait h) := by
  simp only [Ready] at hr
  rcases ht : s.threads t with p | ⟨_ | _ | _, _ | h⟩ <;> rw [ht] at hr
  · cases hr
  · cases hr
  · cases hr
  · cases hr
  · exact ⟨h, .inl rfl⟩
  · cases hr
  · exact ⟨h, .inr rfl⟩

omit [Fintype T] in
theorem run_woken (h : ℕ) :
    (if os.wake ≠ 0 then waitReturns t (recordError (recordError 0 os.wake) os.unlock)
      else waitLoopCode t h os).run s = some (s.endWait t h (waitWoken s.core os)) := by
  rw [waitWoken]
  split_ifs
  · rfl
  · rw [run_waitLoopCode]

/-- **The code of an action does what the action does.** -/
theorem code_spec (hc : code a = some c) (hr : Ready s a) : step s a = c.run s := by
  cases a with
  | add t h delta injected os =>
    simp only [code] at hc
    split_ifs at hc with h0
    rw [not_or, not_not, not_not] at h0
    obtain rfl := Option.some.inj hc
    have hr' : s.threads t = .run .idle ∧ h ∈ s.handles := hr
    simp only [step, if_pos hr', h0.1, ne_eq, not_true_eq_false, if_false]
    exact (run_addCode delta h0.2).symm
  | lock t os =>
    simp only [code] at hc
    split_ifs at hc with hl
    obtain rfl := Option.some.inj hc
    obtain ⟨h, ht⟩ := lock_cases hr
    simp only [step, waitCode, Code.run_get, ht]
    rw [run_waitLoopCode, WaitGroup.wait, if_neg hl]
  | resume t os =>
    obtain rfl := Option.some.inj hc
    obtain ⟨h, ht | ht⟩ := resume_cases hr
    · simp only [step, wokenCode, Code.run_get, ht]
      exact (run_woken h).symm
    · simp only [step, wokenCode, Code.run_get, ht]
      exact (run_woken h).symm
  | callWait t h injected => cases hc
  | spurious t => cases hc
  | share h h' => cases hc
  | drop h => cases hc

theorem code_enabled {r : State T × List (Event T)} (hc : code a = some c)
    (hs : step s a = some r) : Ready s a := by
  cases a with
  | add t h delta injected os =>
    simp only [step] at hs
    split_ifs at hs with hr
    · exact hr
    · exact hr
  | lock t os =>
    simp only [step] at hs
    split at hs
    · rename_i h ht
      simp [Ready, ht]
    · cases hs
  | resume t os =>
    simp only [step] at hs
    split at hs
    · cases hs
    · rename_i w h hw ht
      cases w with
      | asleep => exact (hw rfl).elim
      | notified => simp [Ready, ht]
      | spurious => simp [Ready, ht]
    · cases hs
  | callWait t h injected => cases hc
  | spurious t => cases hc
  | share h h' => cases hc
  | drop h => cases hc

/-! ## The statements move past what happens meanwhile -/

/-- The actions that do not take the mutex neither read nor write `count`. -/
theorem step_setCount (hb : code b = none) (count : ℤ) :
    step (s.setCount count) b = (step s b).map fun r => (r.1.setCount count, r.2) := by
  cases b with
  | add t h delta injected os =>
    simp only [code, ite_eq_left_iff, reduceCtorEq, imp_false, not_not] at hb
    simp only [step, State.setCount]
    by_cases hr : s.threads t = .run .idle ∧ h ∈ s.handles
    · by_cases hi : injected = 0
      · have hl : os.lock ≠ 0 := hb.resolve_left (not_not.2 hi)
        simp [hr, hi, add, hl]
      · simp [hr, hi]
    · simp [hr]
  | callWait t h injected =>
    simp only [step, State.setCount, State.move]
    by_cases hr : s.threads t = .run .idle ∧ h ∈ s.handles
    · by_cases hi : injected = 0 <;> simp [hr, hi]
    · simp [hr]
  | lock t os =>
    simp only [code, ite_eq_left_iff, reduceCtorEq, imp_false, not_not] at hb
    simp only [step, State.setCount, WaitGroup.wait, if_pos hb, State.endWait, State.move]
    split <;> rfl
  | spurious t =>
    simp only [step, State.setCount, State.move]
    split <;> rfl
  | resume t os => cases hb
  | share h h' =>
    simp only [step, State.setCount, WaitGroup.share]
    by_cases hr : h ∈ s.handles ∧ h' ∉ s.handles <;> simp [hr]
  | drop h =>
    by_cases hr : h ∈ s.handles ∧ ∀ t, (s.threads t).point.handle ≠ some h
    · rw [show step s (.drop h) = _ from if_pos hr,
        show step (s.setCount count) (.drop h) = _ from if_pos hr]
      rfl
    · rw [show step s (.drop h) = _ from if_neg hr,
        show step (s.setCount count) (.drop h) = _ from if_neg hr]
      rfl

/-- A step that fails to lock, or whose hook injects an error. -/
theorem add_outside {h : ℕ} {delta : Int32} {injected : ℤ}
    (hb : code (.add t h delta injected os) = none)
    (hs : step s (.add t h delta injected os) = some (s', e)) :
    s' = s := by
  simp only [code, ite_eq_left_iff, reduceCtorEq, imp_false, not_not] at hb
  simp only [step] at hs
  split_ifs at hs with hr hi
  · cases hs
    rfl
  · have hl : os.lock ≠ 0 := hb.resolve_left hi
    simp only [add, if_pos hl, deliver_nil, Option.map_some, Option.some.injEq, Prod.mk.injEq] at hs
    exact hs.1.symm

/-- What the actions that do not take the mutex leave alone. -/
theorem step_outside (hb : code b = none) (hs : step s b = some (s', e)) :
    s'.core.count = s.core.count ∧ (∀ t, b.thread ≠ some t → s'.threads t = s.threads t) ∧
      ∀ h ∈ s.handles, b.drops ≠ some h → h ∈ s'.handles := by
  have hmove : ∀ {u : T} {x : Pc Point} {t : T}, some u ≠ some t →
      (s.move u x).threads t = s.threads t := by
    intro u x t hne
    exact Function.update_of_ne (fun he => hne (congrArg some he.symm)) _ _
  cases b with
  | add t h delta injected os =>
    obtain rfl := add_outside hb hs
    exact ⟨rfl, fun _ _ => rfl, fun _ hh _ => hh⟩
  | callWait t h injected =>
    simp only [step] at hs
    split_ifs at hs
    · cases hs
      exact ⟨rfl, fun _ _ => rfl, fun _ hh _ => hh⟩
    · cases hs
      exact ⟨rfl, fun _ hne => hmove hne, fun _ hh _ => hh⟩
  | lock t os =>
    simp only [code, ite_eq_left_iff, reduceCtorEq, imp_false, not_not] at hb
    simp only [step, WaitGroup.wait, if_pos hb, State.endWait] at hs
    split at hs
    · cases hs
      exact ⟨rfl, fun _ hne => hmove hne, fun _ hh _ => hh⟩
    · cases hs
  | spurious t =>
    simp only [step] at hs
    split at hs
    · cases hs
      exact ⟨rfl, fun _ hne => hmove hne, fun _ hh _ => hh⟩
    · cases hs
  | resume t os => cases hb
  | share h h' =>
    simp only [step] at hs
    split_ifs at hs
    cases hs
    exact ⟨rfl, fun _ _ => rfl, fun _ hh _ => Finset.mem_insert_of_mem hh⟩
  | drop h =>
    simp only [step] at hs
    split_ifs at hs
    all_goals
      cases hs
      exact ⟨rfl, fun _ _ => rfl, fun k hk hne =>
        Finset.mem_erase.2 ⟨fun he => hne (congrArg some he.symm), hk⟩⟩

/-- **Notifications and the actions that do not take the mutex can be exchanged.** -/
theorem step_notified {ns : List (Notify Unit)} {f : T → Pc Point} (hb : code b = none)
    (hd : deliver Point.cond none ns s.threads = some f)
    (hs : step { s with threads := f } b = some (s₂, e)) :
    ∃ s', step s b = some (s', e) ∧
      (deliver Point.cond none ns s'.threads).map (fun f => { s' with threads := f }) =
        some s₂ := by
  have hsame : ∀ {u x}, f u = x → (∀ p, x ≠ .wait .notified p) → s.threads u = x := by
    intro u x hu hx
    rw [← deliver_same hd (u := u) (fun p hp => hx p (hu.symm.trans hp)), hu]
  have hmove : ∀ {u x y}, f u = x → (∀ p, x ≠ .wait .notified p) →
      (∀ c, y.asleepOn Point.cond c = false) →
      (deliver Point.cond none ns (s.move u y).threads).map
        (fun f => { s.move u y with threads := f }) =
        some (State.move { s with threads := f } u y) := by
    intro u x y hu hx hy
    have hdu := deliver_update hd (u := u) (x := y) (hu.trans (hsame hu hx).symm) hy
    rw [show (s.move u y).threads = Function.update s.threads u y from rfl, hdu]
    rfl
  cases b with
  | add t h delta injected os =>
    obtain rfl := add_outside hb hs
    refine ⟨s, ?_, by rw [hd]; rfl⟩
    simp only [code, ite_eq_left_iff, reduceCtorEq, imp_false, not_not] at hb
    simp only [step] at hs ⊢
    split_ifs at hs with hr hi
    · have hr' : s.threads t = .run .idle ∧ h ∈ s.handles := ⟨hsame hr.1 (by simp), hr.2⟩
      cases hs
      rw [if_pos hr', if_pos hi]
    · have hr' : s.threads t = .run .idle ∧ h ∈ s.handles := ⟨hsame hr.1 (by simp), hr.2⟩
      have hl : os.lock ≠ 0 := hb.resolve_left hi
      simp only [add, if_pos hl, deliver_nil, Option.map_some, Option.some.injEq,
        Prod.mk.injEq] at hs ⊢
      rw [if_pos hr', if_neg hi, ← hs.2]
  | callWait t h injected =>
    simp only [step] at hs
    split_ifs at hs with hr hi
    · cases hs
      refine ⟨s, ?_, by rw [hd]; rfl⟩
      have hr' : s.threads t = .run .idle ∧ h ∈ s.handles := ⟨hsame hr.1 (by simp), hr.2⟩
      simp only [step, if_pos hr', if_pos hi]
    · cases hs
      have hr' : s.threads t = .run .idle ∧ h ∈ s.handles := ⟨hsame hr.1 (by simp), hr.2⟩
      refine ⟨s.move t (.run (.wait h)), ?_, hmove hr.1 (by simp) fun _ => rfl⟩
      simp only [step, if_pos hr', if_neg hi]
  | lock t os =>
    simp only [code, ite_eq_left_iff, reduceCtorEq, imp_false, not_not] at hb
    simp only [step, WaitGroup.wait, if_pos hb, State.endWait] at hs
    split at hs
    · rename_i h ht
      cases hs
      refine ⟨s.move t (.run .idle), ?_, hmove ht (by simp) fun _ => rfl⟩
      simp only [step, hsame ht (by simp), WaitGroup.wait, if_pos hb, State.endWait]
    · cases hs
  | spurious t =>
    simp only [step] at hs
    split at hs
    · rename_i p ht
      cases hs
      refine ⟨s.move t (.wait .spurious p), ?_, hmove ht (by simp) fun _ => rfl⟩
      simp only [step, hsame ht (by simp)]
    · cases hs
  | resume t os => cases hb
  | share h h' =>
    simp only [step] at hs
    split_ifs at hs with hr
    cases hs
    refine ⟨_, by simp only [step, if_pos hr]; rfl, by simp only [hd, Option.map_some]⟩
  | drop h =>
    by_cases hr : h ∈ s.handles ∧ ∀ t, (f t).point.handle ≠ some h
    · have hr' : h ∈ s.handles ∧ ∀ t, (s.threads t).point.handle ≠ some h :=
        ⟨hr.1, fun t => by rw [← (Woken.of_deliver hd).point t]; exact hr.2 t⟩
      rw [show step { s with threads := f } (.drop h) = _ from if_pos hr] at hs
      cases hs
      refine ⟨_, show step s (.drop h) = _ from if_pos hr', ?_⟩
      simp only [hd, Option.map_some]
    · rw [show step { s with threads := f } (.drop h) = _ from if_neg hr] at hs
      cases hs

/-! ## The reduction -/

section Lawful

variable {G : Action T → Prop}

theorem outside_count (ho : opened.Outside G a s e s') : s'.core.count = s.core.count := by
  obtain ⟨b, hb, -, -, hs⟩ := ho
  exact (step_outside hb hs).1

theorem outside_threads (ha : a.thread = some t) (ho : opened.Outside G a s e s') :
    s'.threads t = s.threads t := by
  obtain ⟨b, hb, hapart, -, hs⟩ := ho
  exact (step_outside hb hs).2.1 t (ha ▸ hapart.1)

theorem outside_handles {h : ℕ} (ha : a.uses = some h) (ho : opened.Outside G a s e s')
    (hh : h ∈ s.handles) : h ∈ s'.handles := by
  obtain ⟨b, hb, hapart, -, hs⟩ := ho
  exact (step_outside hb hs).2.2 h hh (hapart.2 h ha)

theorem moves_waitLoopCode (h : ℕ) : (waitLoopCode t h os).Moves (opened.Outside G a) := by
  refine .get (fun s e s' => outside_count) fun count => ?_
  split_ifs <;> trivial

theorem moves_addCode (delta : Int32) : (addCode t delta os).Moves (opened.Outside G a) := by
  refine .get (fun s e s' ho => ?_) fun next => ?_
  · rw [Core.next, Core.next, outside_count ho]
  by_cases hr : next < 0 ∨ next > int32Max
  · rw [if_pos hr]
    trivial
  rw [if_neg hr]
  refine .set (fun s e s₂ ho => ?_) (.get (fun s e s' => outside_count) fun count => ?_)
  · obtain ⟨b, hb, hapart, hG, hs⟩ := ho
    have hs := (step_setCount hb _).symm.trans hs
    obtain ⟨⟨s', e'⟩, hs', he⟩ := Option.map_eq_some_iff.1 hs
    cases he
    exact ⟨s', ⟨b, hb, hapart, hG, hs'⟩, rfl⟩
  by_cases h0 : count = 0
  · rw [if_pos h0]
    refine ⟨fun s s₁ e s₂ hf ho => ?_, trivial⟩
    obtain ⟨b, hb, hapart, hG, hs⟩ := ho
    obtain ⟨f, hd, rfl⟩ := Option.map_eq_some_iff.1 hf
    obtain ⟨s', hs', hf'⟩ := step_notified hb hd hs
    exact ⟨s', ⟨b, hb, hapart, hG, hs'⟩, hf'⟩
  · rw [if_neg h0]
    trivial

theorem moves_waitCode (ha : a.thread = some t) : (waitCode t os).Moves (opened.Outside G a) := by
  refine .get (fun s e s' => outside_threads ha) fun x => ?_
  split
  · exact moves_waitLoopCode _
  · trivial

theorem moves_wokenCode (ha : a.thread = some t) :
    (wokenCode t os).Moves (opened.Outside G a) := by
  refine .get (fun s e s' => outside_threads ha) fun x => ?_
  split
  · trivial
  · split_ifs
    · trivial
    · exact moves_waitLoopCode _
  · trivial

theorem lawful (G : Action T → Prop) : (opened (T := T)).Lawful G where
  spec := code_spec
  enabled := code_enabled
  stable := by
    intro a c s e s' hc _ hr ho
    cases a with
    | add t h delta injected os => exact ⟨(outside_threads rfl ho).trans hr.1, outside_handles rfl ho hr.2⟩
    | lock t os =>
      change (match s'.threads t with | .run (.wait _) => true | _ => false) = true
      rw [outside_threads rfl ho]
      exact hr
    | resume t os =>
      change (match s'.threads t with
        | .wait .asleep _ => false | .wait _ (.wait _) => true | _ => false) = true
      rw [outside_threads rfl ho]
      exact hr
    | callWait t h injected => cases hc
    | spurious t => cases hc
    | share h h' => cases hc
    | drop h => cases hc
  moves := by
    intro a c hc _
    cases a with
    | add t h delta injected os =>
      simp only [opened, code] at hc
      split_ifs at hc
      obtain rfl := Option.some.inj hc
      exact moves_addCode delta
    | lock t os =>
      simp only [opened, code] at hc
      split_ifs at hc
      obtain rfl := Option.some.inj hc
      exact moves_waitCode rfl
    | resume t os =>
      obtain rfl := Option.some.inj hc
      exact moves_wokenCode rfl
    | callWait t h injected => cases hc
    | spurious t => cases hc
    | share h h' => cases hc
    | drop h => cases hc

end Lawful

/-- **The sections of the wait group may be taken at once.** Whatever the assumption `G` on the
actions: what the statement-level system shows in a run, the system of sections shows in one, and it
is in the same state when no thread is in a section; and every run of the latter is one of the
former. -/
theorem wait_group_reduction (G : Action T → Prop) (es : List (Event T)) :
    (∀ x, Exec opened.fine (Opened.Meets G) ⟨State.init, none⟩ es x →
      ∃ s, Exec step (Opened.Under G) State.init es s ∧ opened.Simulates G x s) ∧
    ∀ s, Exec step (Opened.Under G) State.init es s →
      Exec opened.fine (Opened.Meets G) ⟨State.init, none⟩ es ⟨s, none⟩ :=
  ⟨fun _ h => (lawful G).refines h, fun _ h => (lawful G).adequate h⟩

/-- Thread `0` is in the section of `done`, between the write of `count` and the broadcast, when
thread `1`, asleep, wakes up for no reason, and a handle is shared. -/
theorem wait_group_reduction_interleaved :
    ∃ (es : List (Event (Fin 2))) (x : Fine (State (Fin 2)) (Action (Fin 2)) (Event (Fin 2)))
      (s : State (Fin 2)),
      Exec opened.fine (Opened.Meets fun _ => True) ⟨State.init, none⟩ es x ∧
      es = [.ret 0 (.add 1) (.ok ()), .ret 0 (.add (-1)) (.ok ()), .ret 1 .wait (.ok ())] ∧
      Exec step (Opened.Under fun _ => True) State.init es s ∧ x.base = s := by
  obtain ⟨es, x, h, ht⟩ := Exec.exists_of_run opened.fine (Opened.Meets fun _ => True)
    (⟨State.init, none⟩ : Fine (State (Fin 2)) (Action (Fin 2)) (Event (Fin 2)))
    [.enter (.add 0 0 1 0 {}), .tick, .tick, .tick, .tick, .outside (.callWait 1 0 0),
      .enter (.lock 1 {}), .tick, .tick, .tick, .enter (.add 0 0 (-1) 0 {}), .tick, .tick,
      .outside (.spurious 1), .outside (.share 0 1), .tick, .tick, .tick,
      .enter (.resume 1 {}), .tick, .tick, .tick]
    (fun x es => x.inside.isNone && decide (es = [.ret 0 (.add 1) (.ok ()),
      .ret 0 (.add (-1)) (.ok ()), .ret 1 .wait (.ok ())]))
    (by decide +kernel)
  obtain ⟨hnone, hes⟩ := Bool.and_eq_true_iff.1 ht
  obtain ⟨s, hs, hx⟩ := (wait_group_reduction (fun _ => True) es).1 x h
  obtain ⟨base, inside⟩ := x
  obtain rfl : inside = none := Option.isNone_iff_eq_none.1 hnone
  exact ⟨es, _, s, h, of_decide_eq_true hes, hs, hx⟩

end NativeSync.WaitGroup
