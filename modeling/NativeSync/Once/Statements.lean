import NativeSync.Foundations.Statements
import NativeSync.Once.System

/-!
# Once, statement by statement

The critical sections of `unsafe/once/native.c` as code, as in `WaitGroup.Statements`: every access
to `state` under the mutex, the broadcast and the unlock is a statement of its own. Initializers run,
return and raise, hooks inject errors, locks fail and references are counted while a section is
executed. `once_reduction` says that this makes no difference.
-/

namespace NativeSync.Once

open Foundations

variable {ε T : Type} [DecidableEq T]

/-! ## The code -/

/-- Write `state`. -/
def State.setState (state : OnceState) (s : State ε T) : State ε T :=
  { s with core := { s.core with state } }

omit [DecidableEq T] in
@[simp] theorem State.setState_state (state : OnceState) (s : State ε T) :
    (s.setState state).core.state = state := rfl

/-- The end of `sync_once_begin`: the unlock, and `call_once` after it. -/
def beginReturns (t : T) (h : ℕ) (result status : ℤ) : Code (State ε T) (Event ε T) :=
  .done fun s => some <|
    match beginResult result status with
    | none => (s.move t (.run (.running h)), [.started t])
    | some r => (s.move t (.run .idle), [.ret t false r])

/-- `sync_once_begin` from the `while` loop on; a wait gives up the mutex. -/
def beginLoopCode (t : T) (h : ℕ) (os : Os) : Code (State ε T) (Event ε T) :=
  .get (fun s => s.core.state) fun state =>
    if state = .running then
      if os.wait ≠ 0 then beginReturns t h 0 (recordError os.wait os.unlock)
      else .done fun s => some (s.move t (.wait .asleep (.begin h)), [])
    else .get (fun s => s.core.state) fun state =>
      if state = .fresh then
        .set (State.setState .running) (beginReturns t h 1 (recordError 0 os.unlock))
      else .get (fun s => s.core.state) fun state =>
        beginReturns t h (if state = .done then 0 else -1) (recordError 0 os.unlock)

variable [Fintype T]

/-- The call of `sync_os_cond_broadcast`. -/
def State.broadcast (status : ℤ) (s : State ε T) : Option (State ε T) :=
  (deliver Point.cond none (if status = 0 then [.broadcast ()] else []) s.threads).map fun f =>
    { s with threads := f }

/-- `sync_once_complete` and `sync_once_poison` after the lock, and `call_once` after them. -/
def settleCode (t : T) (state : OnceState) (result : ℤ → Except (Raised ε) Unit) (os : Os) :
    Code (State ε T) (Event ε T) :=
  .set (State.setState state) <| .write (State.broadcast os.cond₁) <|
    .done fun s => some (s.move t (.run .idle),
      [.ret t true (result (recordError (recordError 0 os.cond₁) os.unlock))])

/-- The section of a caller that has taken the mutex. -/
def lockCode (t : T) (os : Os) : Code (State ε T) (Event ε T) :=
  .get (fun s => s.threads t) fun x =>
    match x with
    | .run (.begin h) => beginLoopCode t h os
    | .run (.completing _) => settleCode t .done completeResult os
    | .run (.poisoning _ error) => settleCode t .poisoned (poisonResult error) os
    | _ => .done fun _ => none

/-- `sync_once_begin` after the return of its wait, which has the mutex again. -/
def wokenCode (t : T) (os : Os) : Code (State ε T) (Event ε T) :=
  .get (fun s => s.threads t) fun x =>
    match x with
    | .wait .asleep _ => .done fun _ => none
    | .wait _ (.begin h) =>
      if os.wake ≠ 0 then beginReturns t h 0 (recordError os.wake os.unlock)
      else beginLoopCode t h os
    | _ => .done fun _ => none

/-- The code of the actions that take the mutex. -/
def code : Action ε T → Option (Code (State ε T) (Event ε T))
  | .lock t os => if os.lock ≠ 0 then none else some (lockCode t os)
  | .resume t os => some (wokenCode t os)
  | _ => none

/-- The thread that takes an action; nobody in particular shares or drops a handle. -/
def Action.thread : Action ε T → Option T
  | call t .. => some t
  | lock t _ => some t
  | spurious t => some t
  | resume t _ => some t
  | ended t _ => some t
  | share .. => none
  | drop _ => none

/-- The caller is before a section. -/
def Enters : Pc (Point ε) → Bool
  | .run (.begin _) => true
  | .run (.completing _) => true
  | .run (.poisoning ..) => true
  | _ => false

/-- The caller is in a wait that is over. -/
def Resumes : Pc (Point ε) → Bool
  | .wait .asleep _ => false
  | .wait _ (.begin _) => true
  | _ => false

/-- The caller is before the section. -/
def Ready (s : State ε T) : Action ε T → Prop
  | .lock t _ => Enters (s.threads t) = true
  | .resume t _ => Resumes (s.threads t) = true
  | _ => False

/-- `Once` with its sections opened up: another caller may take an action meanwhile. A handle that a
caller uses is not dropped in any case. -/
def opened : Opened (State ε T) (Action ε T) (Event ε T) :=
  { coarse := step, code := code, ready := Ready, apart := fun a b => b.thread ≠ a.thread }

instance (s : State ε T) : (a : Action ε T) → Decidable (Ready s a)
  | .lock .. => inferInstanceAs (Decidable (_ = true))
  | .resume .. => inferInstanceAs (Decidable (_ = true))
  | .call .. => inferInstanceAs (Decidable False)
  | .spurious .. => inferInstanceAs (Decidable False)
  | .ended .. => inferInstanceAs (Decidable False)
  | .share .. => inferInstanceAs (Decidable False)
  | .drop .. => inferInstanceAs (Decidable False)

instance (s : State ε T) (a : Action ε T) : Decidable ((opened (ε := ε) (T := T)).ready s a) :=
  inferInstanceAs (Decidable (Ready s a))

instance (a b : Action ε T) : Decidable ((opened (ε := ε) (T := T)).apart a b) :=
  inferInstanceAs (Decidable (b.thread ≠ a.thread))

variable {s s' s₂ : State ε T} {e : List (Event ε T)} {a b : Action ε T}
  {c : Code (State ε T) (Event ε T)} {t : T} {os : Os} {h : ℕ}

/-! ## The code does what the sections do -/

omit [Fintype T] in
theorem run_beginReturns (result status : ℤ) :
    (beginReturns t h result status).run s =
      some (s.endBegin t h { core := s.core, exit := .ret result status }) := by
  rw [beginReturns, Code.run_done, State.endBegin]
  split <;> rename_i hr <;> simp only [hr] <;> rfl

omit [Fintype T] in
theorem run_beginLoopCode :
    (beginLoopCode t h os).run s = some (s.endBegin t h (beginLoop s.core os)) := by
  unfold beginLoopCode beginLoop
  simp only [Code.run_get]
  by_cases hr : s.core.state = .running
  · simp only [hr, if_true]
    by_cases hw : os.wait ≠ 0
    · simp only [if_pos hw]
      exact run_beginReturns _ _
    · simp only [if_neg hw]
      rfl
  · simp only [hr, if_false, Code.run_get]
    by_cases hf : s.core.state = .fresh
    · simp only [hf, if_true, Code.run_set]
      exact run_beginReturns _ _
    · simp only [hf, if_false, Code.run_get]
      exact run_beginReturns _ _

theorem run_settleCode {p : Point ε} {state : OnceState} {result : ℤ → Except (Raised ε) Unit}
    (ht : s.threads t = .run p) (hl : os.lock = 0) :
    (settleCode t state result os).run s = s.endCall t (settle state s.core os) result := by
  obtain ⟨f, hf⟩ : ∃ f, deliver Point.cond none (if os.cond₁ = 0 then [.broadcast ()] else [])
      s.threads = some f := by
    split_ifs <;> exact ⟨_, rfl⟩
  have hmoved := deliver_update (u := t) (x := .run .idle) hf
    (deliver_awake hf (by rw [ht]; simp)) fun _ => rfl
  simp only [settleCode, settle, State.endCall, hl, ne_eq, not_true_eq_false, if_false,
    Code.run_set, Code.run_write, Code.run_done, State.broadcast, hmoved]
  rw [show (State.setState state s).threads = s.threads from rfl, hf]
  rfl

omit [Fintype T] [DecidableEq T] in
theorem enters_cases {x : Pc (Point ε)} (hx : Enters x = true) :
    (∃ h, x = .run (.begin h)) ∨ (∃ h, x = .run (.completing h)) ∨
      ∃ h error, x = .run (.poisoning h error) := by
  unfold Enters at hx
  split at hx
  · exact .inl ⟨_, rfl⟩
  · exact .inr (.inl ⟨_, rfl⟩)
  · exact .inr (.inr ⟨_, _, rfl⟩)
  · cases hx

omit [Fintype T] [DecidableEq T] in
theorem resumes_cases {x : Pc (Point ε)} (hx : Resumes x = true) :
    ∃ h, x = .wait .notified (.begin h) ∨ x = .wait .spurious (.begin h) := by
  rcases x with p | ⟨_ | _ | _, p⟩
  · cases hx
  · cases hx
  · cases p with
    | begin h => exact ⟨h, .inl rfl⟩
    | _ => cases hx
  · cases p with
    | begin h => exact ⟨h, .inr rfl⟩
    | _ => cases hx

omit [Fintype T] in
theorem run_woken (h : ℕ) :
    (if os.wake ≠ 0 then beginReturns t h 0 (recordError os.wake os.unlock)
      else beginLoopCode t h os).run s = some (s.endBegin t h (beginWoken s.core os)) := by
  rw [beginWoken]
  split_ifs
  · exact run_beginReturns _ _
  · rw [run_beginLoopCode]

/-- **The code of an action does what the action does.** -/
theorem code_spec (hc : code a = some c) (hr : Ready s a) : step s a = c.run s := by
  cases a with
  | lock t os =>
    simp only [code] at hc
    split_ifs at hc with hl
    obtain rfl := Option.some.inj hc
    rw [not_not] at hl
    rcases enters_cases hr with ⟨h, ht⟩ | ⟨h, ht⟩ | ⟨h, error, ht⟩
    · simp only [step, lockCode, Code.run_get, ht]
      rw [run_beginLoopCode, Once.begin, if_neg (not_not.2 hl)]
    · simp only [step, lockCode, Code.run_get, ht]
      exact (run_settleCode ht hl).symm
    · simp only [step, lockCode, Code.run_get, ht]
      exact (run_settleCode ht hl).symm
  | resume t os =>
    obtain rfl := Option.some.inj hc
    obtain ⟨h, ht | ht⟩ := resumes_cases hr
    · simp only [step, wokenCode, Code.run_get, ht]
      exact (run_woken h).symm
    · simp only [step, wokenCode, Code.run_get, ht]
      exact (run_woken h).symm
  | call t h injected => cases hc
  | spurious t => cases hc
  | ended t outcome => cases hc
  | share h h' => cases hc
  | drop h => cases hc

theorem code_enabled {r : State ε T × List (Event ε T)} (hc : code a = some c)
    (hs : step s a = some r) : Ready s a := by
  cases a with
  | lock t os =>
    simp only [step] at hs
    split at hs
    · rename_i ht
      simp [Ready, Enters, ht]
    · rename_i ht
      simp [Ready, Enters, ht]
    · rename_i ht
      simp [Ready, Enters, ht]
    · cases hs
  | resume t os =>
    simp only [step] at hs
    split at hs
    · cases hs
    · rename_i w h hw ht
      cases w with
      | asleep => exact (hw rfl).elim
      | notified => simp [Ready, Resumes, ht]
      | spurious => simp [Ready, Resumes, ht]
    · cases hs
  | call t h injected => cases hc
  | spurious t => cases hc
  | ended t outcome => cases hc
  | share h h' => cases hc
  | drop h => cases hc

/-! ## The statements move past what happens meanwhile -/

/-- What an action that does not take the mutex does: it moves its caller, or it counts a handle. A
caller that moves so has not been notified, does not go to sleep, and would do the same in every
state in which it stands where it stands and the same handles are live. -/
inductive Local (s : State ε T) : Action ε T → State ε T → List (Event ε T) → Prop
  | moved (b : Action ε T) (u : T) (y : Pc (Point ε)) (e : List (Event ε T))
      (hu : b.thread = some u) (hx : ∀ p, s.threads u ≠ .wait .notified p)
      (hy : ∀ c, y.asleepOn Point.cond c = false)
      (hstep : ∀ s₀ : State ε T, s₀.threads u = s.threads u → s₀.handles = s.handles →
        step s₀ b = some (s₀.move u y, e)) :
      Local s b (s.move u y) e
  | shared (h h' : ℕ) (hr : h ∈ s.handles ∧ h' ∉ s.handles) :
      Local s (.share h h')
        { s with core := share s.core, handles := insert h' s.handles } []
  | dropped (h : ℕ) (hr : h ∈ s.handles ∧ ∀ t, (s.threads t).point.handle ≠ some h) :
      Local s (.drop h)
        { s with
          core := (finalize s.core).1
          handles := s.handles.erase h
          freed := s.freed || (finalize s.core).2 }
        (if (finalize s.core).2 then [.freed] else [])

omit [Fintype T] in
theorem move_self {x : Pc (Point ε)} (ht : s.threads t = x) : s.move t x = s := by
  rw [← ht]
  exact congrArg (fun f => { s with threads := f }) (Function.update_eq_self t s.threads)

omit [Fintype T] in
/-- A `begin` whose lock fails. -/
theorem endBegin_of_lock (hl : os.lock ≠ 0) (s : State ε T) :
    s.endBegin t h (begin s.core os) =
      (s.move t (.run .idle), [.ret t false (.error (.sync (.onceOperationFailed os.lock)))]) := by
  simp [Once.begin, State.endBegin, beginResult, hl, State.move]

/-- A `complete` or `poison` whose lock fails. -/
theorem endCall_of_lock (hl : os.lock ≠ 0) (s : State ε T) (state : OnceState)
    (result : ℤ → Except (Raised ε) Unit) :
    s.endCall t (settle state s.core os) result =
      some (s.move t (.run .idle), [.ret t true (result os.lock)]) := by
  simp [settle, State.endCall, hl, State.move]

/-- **The actions that do not take the mutex are local.** -/
theorem step_local (hb : code b = none) (hs : step s b = some (s', e)) : Local s b s' e := by
  cases b with
  | call t h injected =>
    simp only [step] at hs
    split_ifs at hs with hr hi
    · cases hs
      have ht := isIdle_iff.1 hr.1
      have hl := Local.moved (s := s) (.call t h injected) t (.run .idle)
        [.ret t false (.error (.sync (.onceOperationFailed injected)))] rfl (by rw [ht]; nofun)
        (fun _ => rfl) fun s₀ h₀ h₁ => by
          rw [← h₀, ← h₁] at hr
          simp only [step, if_pos hr, if_pos hi, move_self (h₀.trans ht)]
      rwa [move_self ht] at hl
    · cases hs
      have ht := isIdle_iff.1 hr.1
      refine .moved _ t _ _ rfl (by rw [ht]; nofun) (fun _ => rfl) fun s₀ h₀ h₁ => ?_
      rw [← h₀, ← h₁] at hr
      simp only [step, if_pos hr, if_neg hi]
  | lock t os =>
    simp only [code, ite_eq_left_iff, reduceCtorEq, imp_false, not_not] at hb
    simp only [step] at hs
    split at hs
    · rename_i h ht
      rw [endBegin_of_lock hb] at hs
      cases hs
      refine .moved _ t _ _ rfl (by rw [ht]; nofun) (fun _ => rfl) fun s₀ h₀ _ => ?_
      simp only [step, h₀, ht, endBegin_of_lock hb]
    · rename_i h ht
      rw [complete, endCall_of_lock hb] at hs
      cases hs
      refine .moved _ t _ _ rfl (by rw [ht]; nofun) (fun _ => rfl) fun s₀ h₀ _ => ?_
      simp only [step, h₀, ht, complete, endCall_of_lock hb]
    · rename_i h error ht
      rw [poison, endCall_of_lock hb] at hs
      cases hs
      refine .moved _ t _ _ rfl (by rw [ht]; nofun) (fun _ => rfl) fun s₀ h₀ _ => ?_
      simp only [step, h₀, ht, poison, endCall_of_lock hb]
    · cases hs
  | spurious t =>
    simp only [step] at hs
    split at hs
    · rename_i p ht
      cases hs
      refine .moved _ t _ _ rfl (by rw [ht]; nofun) (fun _ => rfl) fun s₀ h₀ _ => ?_
      simp only [step, h₀, ht]
    · cases hs
  | resume t os => cases hb
  | ended t outcome =>
    simp only [step] at hs
    split at hs
    · rename_i h ht
      split at hs <;> cases hs
      all_goals
        refine .moved _ t _ _ rfl (by rw [ht]; nofun) (fun _ => rfl) fun s₀ h₀ _ => ?_
        simp only [step, h₀, ht]
    · cases hs
  | share h h' =>
    simp only [step] at hs
    split_ifs at hs with hr
    cases hs
    exact .shared h h' hr
  | drop h =>
    by_cases hr : h ∈ s.handles ∧ ∀ t, (s.threads t).point.handle ≠ some h
    · rw [show step s (.drop h) = _ from if_pos hr] at hs
      cases hs
      exact .dropped h hr
    · rw [show step s (.drop h) = _ from if_neg hr] at hs
      cases hs

/-- **A write of `state` and an action that does not take the mutex can be exchanged.** -/
theorem step_setState {state : OnceState} (hb : code b = none)
    (hs : step (s.setState state) b = some (s₂, e)) :
    ∃ s', step s b = some (s', e) ∧ s'.setState state = s₂ := by
  cases step_local hb hs with
  | moved b u y e hu hx hy hstep => exact ⟨s.move u y, hstep s rfl rfl, rfl⟩
  | shared h h' hr => exact ⟨_, if_pos hr, rfl⟩
  | dropped h hr => exact ⟨_, if_pos hr, rfl⟩

/-- **Notifications and an action that does not take the mutex can be exchanged.** -/
theorem step_notified {ns : List (Notify Unit)} {f : T → Pc (Point ε)} (hb : code b = none)
    (hd : deliver Point.cond none ns s.threads = some f)
    (hs : step { s with threads := f } b = some (s₂, e)) :
    ∃ s', step s b = some (s', e) ∧
      (deliver Point.cond none ns s'.threads).map (fun f => { s' with threads := f }) =
        some s₂ := by
  cases step_local hb hs with
  | moved b u y e hu hx hy hstep =>
    have hsame : f u = s.threads u := deliver_same hd hx
    have hmoved := deliver_update hd hsame hy
    refine ⟨s.move u y, hstep s hsame.symm rfl, ?_⟩
    rw [show (s.move u y).threads = Function.update s.threads u y from rfl, hmoved]
    rfl
  | shared h h' hr =>
    refine ⟨_, if_pos hr, ?_⟩
    simp only [hd, Option.map_some]
  | dropped h hr =>
    have hr' : h ∈ s.handles ∧ ∀ t, (s.threads t).point.handle ≠ some h :=
      ⟨hr.1, fun t => by rw [← (Woken.of_deliver hd).point t]; exact hr.2 t⟩
    refine ⟨_, if_pos hr', ?_⟩
    simp only [hd, Option.map_some]

/-! ## The reduction -/

section Lawful

variable {G : Action ε T → Prop}

theorem outside_state (ho : opened.Outside G a s e s') : s'.core.state = s.core.state := by
  obtain ⟨b, hb, -, -, hs⟩ := ho
  cases step_local hb hs <;> rfl

theorem outside_threads (ha : a.thread = some t) (ho : opened.Outside G a s e s') :
    s'.threads t = s.threads t := by
  obtain ⟨b, hb, hapart, -, hs⟩ := ho
  cases step_local hb hs with
  | moved b u y e hu hx hy hstep =>
    have hne : t ≠ u := by
      rintro rfl
      exact hapart (hu.trans ha.symm)
    exact Function.update_of_ne hne _ _
  | shared h h' hr => rfl
  | dropped h hr => rfl

/-- A write of `state` moves past what happens outside. -/
theorem Moves.setState {state : OnceState} (hc : c.Moves (opened.Outside G a)) :
    (Code.set (State.setState state) c).Moves (opened.Outside G a) := by
  refine .set (fun s e s₂ ho => ?_) hc
  obtain ⟨b, hb, hapart, hG, hs⟩ := ho
  obtain ⟨s', hs', he⟩ := step_setState hb hs
  exact ⟨s', ⟨b, hb, hapart, hG, hs'⟩, he⟩

theorem moves_beginLoopCode : (beginLoopCode t h os).Moves (opened.Outside G a) := by
  refine .get (fun s e s' => outside_state) fun state => ?_
  by_cases hr : state = .running
  · rw [if_pos hr]
    split_ifs <;> trivial
  rw [if_neg hr]
  refine .get (fun s e s' => outside_state) fun state => ?_
  by_cases hf : state = .fresh
  · rw [if_pos hf]
    exact Moves.setState trivial
  · rw [if_neg hf]
    exact .get (fun s e s' => outside_state) fun state => trivial

theorem moves_settleCode (state : OnceState) (result : ℤ → Except (Raised ε) Unit) :
    (settleCode t state result os).Moves (opened.Outside G a) := by
  refine Moves.setState ⟨fun s s₁ e s₂ hf ho => ?_, trivial⟩
  obtain ⟨b, hb, hapart, hG, hs⟩ := ho
  obtain ⟨f, hd, rfl⟩ := Option.map_eq_some_iff.1 hf
  obtain ⟨s', hs', hf'⟩ := step_notified hb hd hs
  exact ⟨s', ⟨b, hb, hapart, hG, hs'⟩, hf'⟩

theorem moves_lockCode (ha : a.thread = some t) : (lockCode t os).Moves (opened.Outside G a) := by
  refine .get (fun s e s' => outside_threads ha) fun x => ?_
  split
  · exact moves_beginLoopCode
  · exact moves_settleCode _ _
  · exact moves_settleCode _ _
  · trivial

theorem moves_wokenCode (ha : a.thread = some t) :
    (wokenCode t os).Moves (opened.Outside G a) := by
  refine .get (fun s e s' => outside_threads ha) fun x => ?_
  split
  · trivial
  · split_ifs
    · trivial
    · exact moves_beginLoopCode
  · trivial

theorem lawful (G : Action ε T → Prop) : (opened (ε := ε) (T := T)).Lawful G where
  spec := code_spec
  enabled := code_enabled
  stable := by
    intro a c s e s' hc _ hr ho
    cases a with
    | lock t os => exact (congrArg Enters (outside_threads rfl ho)).trans hr
    | resume t os => exact (congrArg Resumes (outside_threads rfl ho)).trans hr
    | call t h injected => cases hc
    | spurious t => cases hc
    | ended t outcome => cases hc
    | share h h' => cases hc
    | drop h => cases hc
  moves := by
    intro a c hc _
    cases a with
    | lock t os =>
      simp only [opened, code] at hc
      split_ifs at hc
      obtain rfl := Option.some.inj hc
      exact moves_lockCode rfl
    | resume t os =>
      obtain rfl := Option.some.inj hc
      exact moves_wokenCode rfl
    | call t h injected => cases hc
    | spurious t => cases hc
    | ended t outcome => cases hc
    | share h h' => cases hc
    | drop h => cases hc

end Lawful

/-- **The sections of `Once` may be taken at once**, whatever the assumption `G` on the actions. -/
theorem once_reduction (G : Action ε T → Prop) (es : List (Event ε T)) :
    (∀ x, Exec opened.fine (Opened.Meets G) ⟨State.init, none⟩ es x →
      ∃ s, Exec step (Opened.Under G) State.init es s ∧ opened.Simulates G x s) ∧
    ∀ s, Exec step (Opened.Under G) State.init es s →
      Exec opened.fine (Opened.Meets G) ⟨State.init, none⟩ es ⟨s, none⟩ :=
  ⟨fun _ h => (lawful G).refines h, fun _ h => (lawful G).adequate h⟩

/-- Caller `0` is in the section of `complete`, between the write of `state` and the broadcast, when
caller `1`, asleep in `begin`, wakes up for no reason and caller `2` fails to lock. -/
theorem once_reduction_interleaved :
    ∃ (es : List (Event Unit (Fin 3)))
      (x : Fine (State Unit (Fin 3)) (Action Unit (Fin 3)) (Event Unit (Fin 3)))
      (s : State Unit (Fin 3)),
      Exec opened.fine (Opened.Meets fun _ => True) ⟨State.init, none⟩ es x ∧
      es = [.started 0, .returned 0, .ret 2 false (.error (.sync (.onceOperationFailed 11))),
        .ret 0 true (.ok ()), .ret 1 false (.ok ())] ∧
      Exec step (Opened.Under fun _ => True) State.init es s ∧ x.base = s := by
  obtain ⟨es, x, h, ht⟩ := Exec.exists_of_run opened.fine (Opened.Meets fun _ => True)
    (⟨State.init, none⟩ : Fine (State Unit (Fin 3)) (Action Unit (Fin 3)) (Event Unit (Fin 3)))
    [.outside (.call 0 0 0), .enter (.lock 0 {}), .tick, .tick, .tick, .tick, .tick,
      .outside (.call 1 0 0), .outside (.call 2 0 0), .enter (.lock 1 {}), .tick, .tick, .tick,
      .outside (.ended 0 (.ok ())), .enter (.lock 0 {}), .tick, .tick, .outside (.spurious 1),
      .outside (.lock 2 { lock := 11 }), .tick, .tick, .enter (.resume 1 {}), .tick, .tick, .tick,
      .tick, .tick]
    (fun x es => x.inside.isNone && decide (es = [.started 0, .returned 0,
      .ret 2 false (.error (.sync (.onceOperationFailed 11))), .ret 0 true (.ok ()),
      .ret 1 false (.ok ())]))
    (by decide +kernel)
  obtain ⟨hnone, hes⟩ := Bool.and_eq_true_iff.1 ht
  obtain ⟨s, hs, hx⟩ := (once_reduction (fun _ => True) es).1 x h
  obtain ⟨base, inside⟩ := x
  obtain rfl : inside = none := Option.isNone_iff_eq_none.1 hnone
  exact ⟨es, _, s, h, of_decide_eq_true hes, hs, hx⟩

end NativeSync.Once
