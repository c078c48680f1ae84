import NativeSync.Once.Safety

/-!
# Once after a failure

`begin` writes the state before its unlock, whose failure makes `call_once` raise without running
the initializer; `complete` and `poison` leave the state alone when their lock fails. These two
kinds of failures strand the state at running with nobody there to end it. `step_strands` shows that
they are the only ones: every other step leaves the state tended, that is, as long as it is running
a caller is between the grant of the initializer and the end of its call.
-/

namespace NativeSync.Once

open Foundations

variable {ε T : Type}

/-- The caller is between the grant of the initializer and the end of its call. -/
def Point.granted : Point ε → Bool
  | running _ => true
  | completing _ => true
  | poisoning .. => true
  | _ => false

/-- While the state is running, a caller will end it. -/
def Tended (s : State ε T) : Prop :=
  s.core.state = .running → ∃ t, (s.threads t).point.granted = true

/-- A section of a caller at `x` strands the state: it takes the initializer and its unlock fails,
or it is to record the end of the initializer and its lock fails. -/
def Strands (state : OnceState) (os : Os) : Pc (Point ε) → Prop
  | .run (.begin _) => os.lock = 0 ∧ state = .fresh ∧ os.unlock ≠ 0
  | .wait _ (.begin _) => os.wake = 0 ∧ state = .fresh ∧ os.unlock ≠ 0
  | .run (.completing _) => os.lock ≠ 0
  | .run (.poisoning ..) => os.lock ≠ 0
  | _ => False

instance (state : OnceState) (os : Os) : (x : Pc (Point ε)) → Decidable (Strands state os x)
  | .run .idle => .isFalse id
  | .run (.begin _) => inferInstanceAs (Decidable (_ ∧ _))
  | .run (.running _) => .isFalse id
  | .run (.completing _) => inferInstanceAs (Decidable (_ ≠ _))
  | .run (.poisoning ..) => inferInstanceAs (Decidable (_ ≠ _))
  | .wait _ .idle => .isFalse id
  | .wait _ (.begin _) => inferInstanceAs (Decidable (_ ∧ _))
  | .wait _ (.running _) => .isFalse id
  | .wait _ (.completing _) => .isFalse id
  | .wait _ (.poisoning ..) => .isFalse id

/-- The step strands the state. -/
def Action.Strands (s : State ε T) : Action ε T → Prop
  | lock t os => Once.Strands s.core.state os (s.threads t)
  | resume t os => Once.Strands s.core.state os (s.threads t)
  | _ => False

instance (s : State ε T) : (a : Action ε T) → Decidable (a.Strands s)
  | .lock .. => inferInstanceAs (Decidable (Once.Strands ..))
  | .resume .. => inferInstanceAs (Decidable (Once.Strands ..))
  | .call .. => .isFalse id
  | .spurious _ => .isFalse id
  | .ended .. => .isFalse id
  | .share .. => .isFalse id
  | .drop _ => .isFalse id

/-- A step that does not strand the state. -/
def NotStranding (s : State ε T) (a : Action ε T) (_ : State ε T) : Prop := ¬a.Strands s

instance (s : State ε T) (a : Action ε T) (s' : State ε T) : Decidable (NotStranding s a s') :=
  inferInstanceAs (Decidable ¬_)

/-- What a step that strands the state leaves: caller `t` has gone, and the state is running. -/
structure Stranded (s s' : State ε T) (t : T) : Prop where
  state : s'.core.state = .running
  gone : (s'.threads t).point.granted = false
  others : ∀ u, u ≠ t → s'.threads u = s.threads u
  alone : s.core.state = .fresh ∨ (s.threads t).point.granted = true

/-- What any other step leaves. -/
structure Kept (s s' : State ε T) (e : List (Event ε T)) : Prop where
  tended : Tended s → Tended s'
  state : (∀ t, .started t ∉ e) → (∀ t r, .ret t true r ∉ e) → s'.core.state = s.core.state

variable {s s' : State ε T} {es e : List (Event ε T)} {t : T} {h : ℕ} {os : Os}

/-- A step that leaves the state and every caller that was granted the initializer. -/
theorem Kept.of_eq (hc : s'.core.state = s.core.state)
    (ht : ∀ u, (s.threads u).point.granted = true → (s'.threads u).point.granted = true) :
    Kept s s' e := by
  refine ⟨fun hT hr => ?_, fun _ _ => hc⟩
  obtain ⟨u, hu⟩ := hT (hc ▸ hr)
  exact ⟨u, ht u hu⟩

variable [DecidableEq T] {x : Pc (Point ε)}

/-- A caller moves that has not been granted the initializer, or stays with it. -/
theorem granted_update
    (hx : (s.threads t).point.granted = true → x.point.granted = true) (u : T)
    (hu : (s.threads u).point.granted = true) :
    (Function.update s.threads t x u).point.granted = true := by
  by_cases hut : u = t
  · subst hut
    rw [Function.update_self]
    exact hx hu
  · rw [Function.update_of_ne hut]
    exact hu

theorem Kept.move (hx : (s.threads t).point.granted = true → x.point.granted = true) :
    Kept s (s.move t x) e :=
  .of_eq rfl (granted_update hx)

omit [DecidableEq T] in
theorem not_granted (ht : (s.threads t).Ready (.begin h)) :
    (s.threads t).point.granted = true → x.point.granted = true := by
  rw [ht.point]
  intro hg
  cases hg

theorem beginResult_ne_none {result status : ℤ} (h : status ≠ 0 ∨ result ≠ 1) :
    (beginResult result status : Option (Except (Raised ε) Unit)) ≠ none := by
  unfold beginResult
  split_ifs with h₁ h₂ h₃
  · exact Option.some_ne_none _
  · exact Option.some_ne_none _
  · exact absurd (h.resolve_left h₁) (not_not.2 h₃)
  · exact Option.some_ne_none _

/-- A pass of `begin` that does not take the initializer. -/
theorem endBegin_kept {sec : Section Core Unit BeginExit} (ht : (s.threads t).Ready (.begin h))
    (hc : sec.core = s.core)
    (hx : ∀ result status, sec.exit = .ret result status →
      (beginResult result status : Option (Except (Raised ε) Unit)) ≠ none)
    (hs : s.endBegin t h sec = (s', e)) : Kept s s' e := by
  unfold State.endBegin at hs
  split at hs
  · obtain ⟨rfl, rfl⟩ := Prod.mk.inj hs
    exact .move (not_granted ht)
  · rename_i result status hexit
    split at hs
    · rename_i hnone
      exact absurd hnone (hx result status hexit)
    · obtain ⟨rfl, rfl⟩ := Prod.mk.inj hs
      rw [hc]
      exact .move (not_granted ht)

/-- A pass of `begin` from its loop on strands the state exactly when it takes the initializer and
its unlock fails. -/
theorem endBegin_strands (ht : (s.threads t).Ready (.begin h))
    (hs : s.endBegin t h (beginLoop s.core os) = (s', e)) :
    (s.core.state = .fresh ∧ os.unlock ≠ 0 → Stranded s s' t) ∧
    (¬(s.core.state = .fresh ∧ os.unlock ≠ 0) → Kept s s' e) := by
  by_cases hf : s.core.state = .fresh
  · have hne : s.core.state ≠ .running := by
      rw [hf]
      exact nofun
    unfold beginLoop at hs
    rw [if_neg hne, if_pos hf, zero_recordError] at hs
    by_cases hu : os.unlock = 0
    · rw [hu] at hs
      obtain ⟨rfl, rfl⟩ := Prod.mk.inj hs
      refine ⟨fun hn => absurd hu hn.2, fun _ => ⟨fun _ _ => ⟨t, ?_⟩, fun hst => ?_⟩⟩
      · change (Function.update s.threads t _ t).point.granted = true
        rw [Function.update_self]
        rfl
      · exact absurd (List.mem_singleton.2 rfl) (hst t)
    · rw [s.endBegin_failure t h _ _ hu] at hs
      obtain ⟨rfl, rfl⟩ := Prod.mk.inj hs
      refine ⟨fun _ => ⟨rfl, ?_, fun u hut => ?_, .inl hf⟩, fun hn => absurd ⟨hf, hu⟩ hn⟩
      · change (Function.update s.threads t _ t).point.granted = false
        rw [Function.update_self]
        rfl
      · exact Function.update_of_ne hut _ _
  · refine ⟨fun hn => absurd hn.1 hf, fun _ => ?_⟩
    refine endBegin_kept ht ?_ (fun result status hexit => ?_) hs
    · unfold beginLoop
      split_ifs <;> rfl
    · unfold beginLoop at hexit
      rw [if_neg hf] at hexit
      split_ifs at hexit with hr hw hd
      · cases hexit
        rw [recordError_of_ne hw]
        exact beginResult_ne_none (.inl hw)
      · cases hexit
        exact beginResult_ne_none (.inr (by decide))
      · cases hexit
        exact beginResult_ne_none (.inr (by decide))

variable [Fintype T]

/-- The section that records the end of the initializer strands the state exactly when its lock
fails. -/
theorem endCall_strands (state : OnceState) {result : ℤ → Except (Raised ε) Unit}
    (hne : state ≠ .running) (hg : (s.threads t).point.granted = true)
    (hrun : s.core.state = .running)
    (hs : s.endCall t (settle state s.core os) result = some (s', e)) :
    (os.lock ≠ 0 → Stranded s s' t) ∧ (¬os.lock ≠ 0 → Kept s s' e) := by
  simp only [State.endCall, Option.map_eq_some_iff, Prod.mk.injEq] at hs
  obtain ⟨f, hf, rfl, rfl⟩ := hs
  refine ⟨fun hl => ?_, fun hl => ⟨fun _ hr => ?_, fun _ hr => ?_⟩⟩
  · simp only [settle, if_pos hl, deliver_nil, Option.some.injEq] at hf ⊢
    subst hf
    refine ⟨hrun, ?_, fun u hut => Function.update_of_ne hut _ _, .inr hg⟩
    change (Function.update s.threads t _ t).point.granted = false
    rw [Function.update_self]
    rfl
  · simp only [settle, if_neg hl] at hr
    exact absurd hr hne
  · exact absurd (List.mem_singleton.2 rfl) (hr t _)

omit [Fintype T] [DecidableEq T] in
/-- A caller that was granted the initializer finds the state running. -/
theorem Past.running_of_granted (hp : Past es s) (hg : (s.threads t).point.granted = true) :
    s.core.state = .running ∧ es.filterMap Event.start = [t] := by
  have hpt := hp.callers t
  cases hpoint : (s.threads t).point with
  | idle => rw [hpoint] at hg; cases hg
  | begin k => rw [hpoint] at hg; cases hg
  | running k =>
    rw [hpoint] at hpt
    exact hpt
  | completing k =>
    rw [hpoint] at hpt
    exact ⟨hpt.1, hpt.2.1⟩
  | poisoning k error =>
    rw [hpoint] at hpt
    exact ⟨hpt.1, hpt.2.1⟩

/-- **Which steps strand the state.** -/
theorem step_strands {a : Action ε T} (hp : Past es s) (hs : step s a = some (s', e)) :
    (a.Strands s → ∃ t, Stranded s s' t) ∧ (¬a.Strands s → Kept s s' e) := by
  cases a with
  | call t k injected =>
    refine ⟨fun hS => False.elim hS, fun _ => ?_⟩
    simp only [step] at hs
    split_ifs at hs with hcall hinj
    · obtain ⟨rfl, rfl⟩ := by simpa using hs
      exact .of_eq rfl fun _ => id
    · obtain ⟨rfl, rfl⟩ := by simpa using hs
      refine .move fun hg => ?_
      rw [isIdle_iff.1 hcall.1] at hg
      cases hg
  | lock t os =>
    simp only [step] at hs
    unfold Action.Strands Once.Strands
    split at hs
    · rename_i k ht
      simp only [ht]
      rw [Option.some.injEq] at hs
      by_cases hl : os.lock = 0
      · rw [begin, if_neg (not_not.2 hl)] at hs
        obtain ⟨h₁, h₂⟩ := endBegin_strands (.inl ht) hs
        exact ⟨fun hS => ⟨t, h₁ hS.2⟩, fun hS => h₂ fun hn => hS ⟨hl, hn⟩⟩
      · rw [begin, if_pos hl, s.endBegin_failure t k _ _ hl] at hs
        obtain ⟨rfl, rfl⟩ := Prod.mk.inj hs
        exact ⟨fun hS => absurd hS.1 hl, fun _ => .move (not_granted (.inl ht))⟩
    · rename_i k ht
      simp only [ht]
      have hg : (s.threads t).point.granted = true := by rw [ht]; rfl
      obtain ⟨h₁, h₂⟩ := endCall_strands .done (by decide) hg (hp.running_of_granted hg).1 hs
      exact ⟨fun hS => ⟨t, h₁ hS⟩, h₂⟩
    · rename_i k error ht
      simp only [ht]
      have hg : (s.threads t).point.granted = true := by rw [ht]; rfl
      obtain ⟨h₁, h₂⟩ := endCall_strands .poisoned (by decide) hg (hp.running_of_granted hg).1 hs
      exact ⟨fun hS => ⟨t, h₁ hS⟩, h₂⟩
    · cases hs
  | spurious t =>
    refine ⟨fun hS => False.elim hS, fun _ => ?_⟩
    simp only [step] at hs
    split at hs
    · rename_i p ht
      obtain ⟨rfl, rfl⟩ := by simpa using hs
      refine .move fun hg => ?_
      rw [ht] at hg
      exact hg
    · cases hs
  | resume t os =>
    simp only [step] at hs
    unfold Action.Strands Once.Strands
    split at hs
    · cases hs
    · rename_i w k hw ht
      simp only [ht]
      have hready : (s.threads t).Ready (.begin k) := .inr ⟨w, hw, ht⟩
      rw [Option.some.injEq] at hs
      by_cases hk : os.wake = 0
      · rw [beginWoken, if_neg (not_not.2 hk)] at hs
        obtain ⟨h₁, h₂⟩ := endBegin_strands hready hs
        exact ⟨fun hS => ⟨t, h₁ hS.2⟩, fun hS => h₂ fun hn => hS ⟨hk, hn⟩⟩
      · rw [beginWoken, if_pos hk, recordError_of_ne hk, s.endBegin_failure t k _ _ hk] at hs
        obtain ⟨rfl, rfl⟩ := Prod.mk.inj hs
        exact ⟨fun hS => absurd hS.1 hk, fun _ => .move (not_granted hready)⟩
    · cases hs
  | ended t outcome =>
    refine ⟨fun hS => False.elim hS, fun _ => ?_⟩
    simp only [step] at hs
    split at hs
    · split at hs
      · obtain ⟨rfl, rfl⟩ := by simpa using hs
        exact .move fun _ => rfl
      · obtain ⟨rfl, rfl⟩ := by simpa using hs
        exact .move fun _ => rfl
    · cases hs
  | share k k' =>
    refine ⟨fun hS => False.elim hS, fun _ => ?_⟩
    simp only [step, Option.ite_none_right_eq_some, Option.some.injEq, Prod.mk.injEq] at hs
    obtain ⟨-, rfl, rfl⟩ := hs
    exact .of_eq rfl fun _ => id
  | drop k =>
    refine ⟨fun hS => False.elim hS, fun _ => ?_⟩
    simp only [step, Option.ite_none_right_eq_some, Option.some.injEq, Prod.mk.injEq] at hs
    obtain ⟨-, rfl, rfl⟩ := hs
    exact .of_eq rfl fun _ => id

omit [Fintype T] [DecidableEq T] in
/-- A step that strands the state leaves it running with nobody there to end it. -/
theorem Stranded.not_tended (h : Stranded s s' t) (hp : Past es s) : ¬Tended s' := by
  intro hT
  obtain ⟨u, hu⟩ := hT h.state
  have hut : u ≠ t := by
    rintro rfl
    rw [h.gone] at hu
    cases hu
  rw [h.others u hut] at hu
  obtain ⟨hrun, hstart⟩ := hp.running_of_granted hu
  rcases h.alone with hf | hg
  · rw [hrun] at hf
    cases hf
  · rw [(hp.running_of_granted hg).2] at hstart
    exact hut (List.singleton_inj.1 hstart).symm

/-! ## Who sleeps -/

omit [Fintype T] in
/-- **Nobody goes to sleep unless the state is running.** -/
theorem Move.sleeps {clean : Bool} {p : Point ε} (hm : Move clean s s' e)
    (hne : s.core.state ≠ .running) (ht : s'.threads t = .wait .asleep p) :
    s.threads t = .wait .asleep p := by
  have hmove : ∀ {u : T} {x : Pc (Point ε)}, (∀ q, x ≠ .wait .asleep q) →
      Function.update s.threads u x t = .wait .asleep p → s.threads t = .wait .asleep p := by
    intro u x hx hu
    by_cases htu : t = u
    · subst htu
      rw [Function.update_self] at hu
      exact absurd hu (hx p)
    · rwa [Function.update_of_ne htu] at hu
  have hwoken : ∀ {u : T} {f : T → Pc (Point ε)},
      f = broadcast Point.cond () (Function.update s.threads u (.run .idle)) ∨
        clean = false ∧ f = Function.update s.threads u (.run .idle) →
      f t = .wait .asleep p → s.threads t = .wait .asleep p := by
    intro u f hf hft
    have hw : Woken (Function.update s.threads u (.run .idle)) f := by
      rcases hf with rfl | ⟨-, rfl⟩
      · exact .of_broadcast () _
      · exact .refl _
    rcases hw t with heq | ⟨q, -, hq⟩
    · exact hmove (u := u) (x := .run .idle) (fun _ => by simp) (heq ▸ hft)
    · rw [hft] at hq
      cases hq
  cases hm with
  | slept u k hu hst => exact absurd hst hne
  | completed u k f r hu hf hr => exact hwoken hf ht
  | poisoned u k error f r hu hf hr => exact hwoken hf ht
  | hooked u status hc => exact ht
  | shared k hh => exact ht
  | dropped k hh hu => exact ht
  | _ => exact hmove (fun _ => by simp) ht

/-- The section that takes the state from running wakes everybody, if its broadcast succeeds. -/
theorem endCall_noSleeper {state : OnceState} {result : ℤ → Except (Raised ε) Unit}
    (hc : os.cond₁ = 0) (hl : os.lock = 0)
    (hs : s.endCall t (settle state s.core os) result = some (s', e)) :
    NoSleeper Point.cond () s'.threads := by
  simp only [State.endCall, settle, hl, hc, ne_eq, not_true_eq_false, if_false, if_true,
    deliver_broadcast, deliver_nil, Option.map_some, Option.some.injEq, Prod.mk.injEq] at hs
  obtain ⟨rfl, rfl⟩ := hs
  exact noSleeper_broadcast _

omit [Fintype T] in
/-- A pass of `begin` does not end a running state. -/
theorem endBegin_running {sec : Section Core Unit BeginExit} (hc : sec.core = s.core)
    (hs : s.endBegin t h sec = (s', e)) : s'.core.state = s.core.state := by
  unfold State.endBegin at hs
  split at hs
  · obtain ⟨rfl, rfl⟩ := Prod.mk.inj hs
    rfl
  · split at hs
    · obtain ⟨rfl, rfl⟩ := Prod.mk.inj hs
      exact congrArg Core.state hc
    · obtain ⟨rfl, rfl⟩ := Prod.mk.inj hs
      exact congrArg Core.state hc

/-- A step that ends a running state is that of `complete` or `poison`, and wakes everybody if its
broadcast succeeds. -/
theorem step_noSleeper {a : Action ε T} (hs : step s a = some (s', e)) (hc : a.os.cond₁ = 0)
    (hrun : s.core.state = .running) (hne : s'.core.state ≠ .running) :
    NoSleeper Point.cond () s'.threads := by
  have hsame : s'.core.state = s.core.state → NoSleeper Point.cond () s'.threads :=
    fun heq => absurd (heq.trans hrun) hne
  have hloop : ∀ os : Os, (beginLoop s.core os).core = s.core := by
    intro os
    unfold beginLoop
    rw [if_pos hrun]
    split_ifs <;> rfl
  cases a with
  | call t k injected =>
    simp only [step] at hs
    split_ifs at hs
    · obtain ⟨rfl, rfl⟩ := by simpa using hs
      exact hsame rfl
    · obtain ⟨rfl, rfl⟩ := by simpa using hs
      exact hsame rfl
  | lock t os =>
    have hsettle : ∀ {state : OnceState} {result : ℤ → Except (Raised ε) Unit},
        s.endCall t (settle state s.core os) result = some (s', e) →
        NoSleeper Point.cond () s'.threads := by
      intro state result hs
      by_cases hl : os.lock = 0
      · exact endCall_noSleeper hc hl hs
      · simp only [State.endCall, settle, if_pos hl, deliver_nil, Option.map_some,
          Option.some.injEq, Prod.mk.injEq] at hs
        obtain ⟨rfl, rfl⟩ := hs
        exact hsame rfl
    simp only [step] at hs
    split at hs
    · refine hsame (endBegin_running ?_ (Option.some.inj hs))
      unfold begin
      split_ifs
      · rfl
      · exact hloop os
    · exact hsettle hs
    · exact hsettle hs
    · cases hs
  | spurious t =>
    simp only [step] at hs
    split at hs
    · obtain ⟨rfl, rfl⟩ := by simpa using hs
      exact hsame rfl
    · cases hs
  | resume t os =>
    simp only [step] at hs
    split at hs
    · cases hs
    · refine hsame (endBegin_running ?_ (Option.some.inj hs))
      unfold beginWoken
      split_ifs
      · rfl
      · exact hloop os
    · cases hs
  | ended t outcome =>
    simp only [step] at hs
    split at hs
    · split at hs
      · obtain ⟨rfl, rfl⟩ := by simpa using hs
        exact hsame rfl
      · obtain ⟨rfl, rfl⟩ := by simpa using hs
        exact hsame rfl
    · cases hs
  | share k k' =>
    simp only [step, Option.ite_none_right_eq_some, Option.some.injEq, Prod.mk.injEq] at hs
    obtain ⟨-, rfl, rfl⟩ := hs
    exact hsame rfl
  | drop k =>
    simp only [step, Option.ite_none_right_eq_some, Option.some.injEq, Prod.mk.injEq] at hs
    obtain ⟨-, rfl, rfl⟩ := hs
    exact hsame rfl

/-- A step whose broadcast succeeds leaves nobody asleep unless the state is running. -/
theorem step_awake {a : Action ε T} (hs : step s a = some (s', e)) (hc : a.os.cond₁ = 0)
    (hA : Awake s) : Awake s' := by
  intro hne
  by_cases hrun : s.core.state = .running
  · exact step_noSleeper hs hc hrun hne
  · intro t
    by_contra ht
    obtain ⟨p, hp, hcond⟩ := (Pc.asleepOn_iff Point.cond).1 (Bool.eq_true_of_not_eq_false ht)
    have hold := hA hrun t
    rw [(step_move hs).sleeps hrun hp, Pc.asleepOn_asleep, hcond] at hold
    cases hold

/-! ## Runs -/

/-- **Once stays usable exactly as long as no failure strands the state.** In every run without such
a failure, whatever else the primitives return:

* if no caller is between the grant of the initializer and the end of its call, the state is not
  running, nobody who takes the mutex goes to sleep, and if all broadcasts succeeded nobody is
  asleep;
* a step changes the state only where an initializer is started or a call that ran its own ends; so
  a call that raises without having run its initializer leaves the state as it found it.

And the first step that strands the state leaves it running with no such caller. -/
theorem once_usable_iff :
    (∀ (es : List (Event ε T)) (s : State ε T), Exec step NotStranding State.init es s →
      ((∀ t, (s.threads t).point.granted = false) → s.core.state ≠ .running ∧
        ∀ a s' e t p, step s a = some (s', e) → s'.threads t = .wait .asleep p →
          s.threads t = .wait .asleep p) ∧
      ∀ a s' e, step s a = some (s', e) → ¬a.Strands s →
        (∀ t, .started t ∉ e) → (∀ t r, .ret t true r ∉ e) → s'.core.state = s.core.state) ∧
    (∀ (es : List (Event ε T)) (s : State ε T),
      Exec step (fun s a s' => NotStranding s a s' ∧ a.os.cond₁ = 0) State.init es s →
      (∀ t, (s.threads t).point.granted = false) →
        ∀ t, (s.threads t).asleepOn Point.cond () = false) ∧
    (∀ (es : List (Event ε T)) (s : State ε T), Exec step NotStranding State.init es s →
      ∀ a s' e, step s a = some (s', e) →
        (((∀ t, (s'.threads t).point.granted = false) → s'.core.state ≠ .running) ↔
          ¬a.Strands s)) := by
  have htended : ∀ {es : List (Event ε T)} {s : State ε T},
      Exec step NotStranding State.init es s → Past es s ∧ Tended s := by
    intro es s h
    refine h.invariant (I := fun es s => Past es s ∧ Tended s) ⟨Past.init, nofun⟩ ?_
    intro es s a s' e ⟨hp, hT⟩ hs hG
    exact ⟨(step_move hs).past hp, ((step_strands hp hs).2 hG).tended hT⟩
  have hiff : ∀ {s : State ε T},
      ((∀ t, (s.threads t).point.granted = false) → s.core.state ≠ .running) ↔ Tended s := by
    intro s
    unfold Tended
    constructor
    · intro h hr
      by_contra hno
      exact h (fun t => Bool.eq_false_of_not_eq_true fun ht => hno ⟨t, ht⟩) hr
    · intro hT hall hr
      obtain ⟨t, ht⟩ := hT hr
      rw [hall t] at ht
      cases ht
  refine ⟨fun es s h => ⟨fun hno => ?_, fun a s' e hs hS h₁ h₂ => ?_⟩, fun es s h hno => ?_,
    fun es s h a s' e hs => ?_⟩
  · have hne := hiff.2 (htended h).2 hno
    exact ⟨hne, fun a s' e t p hs ht => (step_move hs).sleeps hne ht⟩
  · exact ((step_strands (htended h).1 hs).2 hS).state h₁ h₂
  · refine h.stateInvariant (I := Awake) (fun _ _ => rfl) (fun hA hs hG => step_awake hs hG.2 hA)
      (hiff.2 (htended (h.mono fun hG => hG.1)).2 hno)
  · obtain ⟨hp, hT⟩ := htended h
    rw [hiff]
    obtain ⟨h₁, h₂⟩ := step_strands hp hs
    refine ⟨fun hT' hS => ?_, fun hS => (h₂ hS).tended hT⟩
    obtain ⟨t, ht⟩ := h₁ hS
    exact ht.not_tended hp hT'

/-- The lock of the first call fails and it raises; the second one is granted the initializer, which
returns, and although its unlock fails the state is done. -/
theorem once_usable_iff_second_call :
    ∃ (es : List (Event ℕ (Fin 1))) (s : State ℕ (Fin 1)),
      Exec step (fun s a s' => NotStranding s a s' ∧ a.os.cond₁ = 0) State.init es s ∧
      .ret 0 false (failure 3) ∈ es ∧ .ret 0 true (failure 5) ∈ es ∧ s.core.state ≠ .running ∧
      ∀ t, (s.threads t).asleepOn Point.cond () = false := by
  obtain ⟨es, s, h, ht⟩ := Exec.exists_of_run step
    (fun s a s' => NotStranding s a s' ∧ a.os.cond₁ = 0) (State.init : State ℕ (Fin 1))
    [.call 0 0 0, .lock 0 { lock := 3 }, .call 0 0 0, .lock 0 {}, .ended 0 (.ok ()),
      .lock 0 { unlock := 5 }]
    (fun s es => decide (.ret 0 false (failure 3) ∈ es ∧ .ret 0 true (failure 5) ∈ es ∧
      ∀ t, (s.threads t).point.granted = false))
    (by decide +kernel)
  obtain ⟨h₁, h₂, hno⟩ := of_decide_eq_true ht
  exact ⟨es, s, h, h₁, h₂, ((once_usable_iff.1 es s (h.mono fun hG => hG.1)).1 hno).1,
    once_usable_iff.2.1 es s h hno⟩

/-- The unlock of the call that takes the initializer fails: it raises without having run it, and
the next call sleeps although no initializer was ever started. -/
theorem once_stranded :
    ∃ (es : List (Event ℕ (Fin 2))) (s : State ℕ (Fin 2)), Exec step AnyStatus State.init es s ∧
      .ret 0 false (failure 1) ∈ es ∧ es.filterMap Event.start = [] ∧ s.core.state = .running ∧
      (∀ t, (s.threads t).point.granted = false) ∧
      (s.threads 1).asleepOn Point.cond () = true := by
  obtain ⟨es, s, h, ht⟩ := Exec.exists_of_run step AnyStatus (State.init : State ℕ (Fin 2))
    [.call 0 0 0, .lock 0 { unlock := 1 }, .call 1 0 0, .lock 1 {}]
    (fun s es => decide (.ret 0 false (failure 1) ∈ es ∧ es.filterMap Event.start = [] ∧
      s.core.state = .running ∧ (∀ t, (s.threads t).point.granted = false) ∧
      (s.threads 1).asleepOn Point.cond () = true))
    (by decide +kernel)
  exact ⟨es, s, h, of_decide_eq_true ht⟩

end NativeSync.Once
