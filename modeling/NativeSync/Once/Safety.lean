import NativeSync.Once.Moves

/-!
# Once is safe

The initializer is granted in the one section that finds the state fresh, and the state is never
fresh again. So at most one initializer is started, and until it has ended, and its end was
recorded, nobody can pass. `Past` ties the state of the core to what has happened: done means that
the initializer has returned, poisoned that it has raised. This holds whatever fails.

When no primitive fails, the caller that was granted the initializer always records its end, and
the broadcast wakes everybody who slept.
-/

namespace NativeSync.Once

open Foundations

variable {ε T : Type}

/-- The caller whose initializer was started. -/
def Event.start : Event ε T → Option T
  | started t => some t
  | _ => none

/-! ## What the state says about the past -/

/-- What has happened when the state is `state` and caller `t` stands at a point. -/
def Point.Past (es : List (Event ε T)) (state : OnceState) (t : T) : Point ε → Prop
  | running _ => state = .running ∧ es.filterMap Event.start = [t]
  | completing _ => state = .running ∧ es.filterMap Event.start = [t] ∧ .returned t ∈ es
  | poisoning _ error => state = .running ∧ es.filterMap Event.start = [t] ∧ .raised t error ∈ es
  | _ => True

/-- What has happened, by the state of the core and the points of the callers. -/
structure Past (es : List (Event ε T)) (s : State ε T) : Prop where
  once : (es.filterMap Event.start).length ≤ 1
  fresh : s.core.state = .fresh → es.filterMap Event.start = []
  callers : ∀ t, (s.threads t).point.Past es s.core.state t
  done : s.core.state = .done → ∃ u, es.filterMap Event.start = [u] ∧ .returned u ∈ es
  poisoned : s.core.state = .poisoned →
    ∃ u error, es.filterMap Event.start = [u] ∧ .raised u error ∈ es

variable {s s' : State ε T} {es es' e : List (Event ε T)} {clean : Bool} {t u : T} {p : Point ε}
  {state state' : OnceState}

namespace Point.Past

theorem mono (h : p.Past es state t) (he : e.filterMap Event.start = []) :
    p.Past (es ++ e) state t := by
  have hstart : (es ++ e).filterMap Event.start = es.filterMap Event.start := by
    rw [List.filterMap_append, he, List.append_nil]
  cases p with
  | idle => trivial
  | begin h => trivial
  | running _ => exact ⟨h.1, hstart.trans h.2⟩
  | completing _ => exact ⟨h.1, hstart.trans h.2.1, List.mem_append_left e h.2.2⟩
  | poisoning _ error => exact ⟨h.1, hstart.trans h.2.1, List.mem_append_left e h.2.2⟩

/-- Unless the state is running, no caller has been granted the initializer. -/
theorem of_ne_running (h : p.Past es state t) (hs : state ≠ .running) : p.Past es' state' t := by
  cases p with
  | idle => trivial
  | begin h => trivial
  | running _ => exact absurd h.1 hs
  | completing _ => exact absurd h.1 hs
  | poisoning _ error => exact absurd h.1 hs

/-- Nobody but the caller that was granted the initializer has started one. -/
theorem of_ne (h : p.Past es state u) (ht : es.filterMap Event.start = [t]) (hne : u ≠ t) :
    p.Past es' state' u := by
  have hno : es.filterMap Event.start ≠ [u] := by
    rw [ht]
    exact fun heq => hne (List.singleton_inj.1 heq).symm
  cases p with
  | idle => trivial
  | begin h => trivial
  | running _ => exact absurd h.2 hno
  | completing _ => exact absurd h.2.1 hno
  | poisoning _ error => exact absurd h.2.1 hno

end Point.Past

namespace Past

theorem init : Past [] (State.init : State ε T) where
  once := Nat.zero_le _
  fresh := fun _ => rfl
  callers := fun _ => trivial
  done := nofun
  poisoned := nofun

/-- **The frame rule**: nothing is started and the state stays. -/
theorem frame (hp : Past es s) (he : e.filterMap Event.start = [])
    (hstate : s'.core.state = s.core.state)
    (hcallers : ∀ t, (s'.threads t).point.Past (es ++ e) s.core.state t) : Past (es ++ e) s' := by
  have hstart : (es ++ e).filterMap Event.start = es.filterMap Event.start := by
    rw [List.filterMap_append, he, List.append_nil]
  rw [← hstate] at hcallers
  refine ⟨by rw [hstart]; exact hp.once, fun hf => ?_, hcallers, fun hd => ?_, fun hd => ?_⟩
  · rw [hstart]
    exact hp.fresh (hstate ▸ hf)
  · obtain ⟨u, hu, hr⟩ := hp.done (hstate ▸ hd)
    exact ⟨u, hstart.trans hu, List.mem_append_left e hr⟩
  · obtain ⟨u, error, hu, hr⟩ := hp.poisoned (hstate ▸ hd)
    exact ⟨u, error, hstart.trans hu, List.mem_append_left e hr⟩

variable [DecidableEq T] {x : Pc (Point ε)}

/-- The step rule for a caller that moves and leaves the core alone. -/
theorem move (hp : Past es s) (he : e.filterMap Event.start = [])
    (hx : x.point.Past (es ++ e) s.core.state t) : Past (es ++ e) (s.move t x) :=
  hp.frame he rfl (forall_update
    (Q := fun u (y : Pc (Point ε)) => y.point.Past (es ++ e) s.core.state u) hx
    fun u _ => (hp.callers u).mono he)

/-- The step rule for the section that finds the state fresh. -/
theorem grant (hp : Past es s) (hs : s.core.state = .fresh)
    (he : (e.filterMap Event.start).length ≤ 1) (hx : x.point.Past (es ++ e) .running t) :
    Past (es ++ e) { s.move t x with core := s.core.set .running } where
  once := by
    rw [List.filterMap_append, hp.fresh hs]
    exact he
  fresh := nofun
  callers := forall_update (Q := fun u (y : Pc (Point ε)) => y.point.Past (es ++ e) .running u) hx
    fun u _ => (hp.callers u).of_ne_running (by rw [hs]; exact nofun)
  done := nofun
  poisoned := nofun

/-- The step rule for the sections that record the end of the initializer, which caller `t` was
granted. -/
theorem settle {f : T → Pc (Point ε)} (hp : Past es s) (ht : es.filterMap Event.start = [t])
    (hf : Woken (Function.update s.threads t (.run .idle)) f) (he : e.filterMap Event.start = [])
    (hstate : state = .done ∧ .returned t ∈ es ∨
      state = .poisoned ∧ ∃ error, .raised t error ∈ es) :
    Past (es ++ e) { s with core := s.core.set state, threads := f } := by
  have hstart : (es ++ e).filterMap Event.start = [t] := by
    rw [List.filterMap_append, he, List.append_nil, ht]
  have hcallers : ∀ u, (f u).point.Past (es ++ e) state u := by
    intro u
    rw [hf.point u]
    revert u
    exact forall_update (Q := fun u (y : Pc (Point ε)) => y.point.Past (es ++ e) state u) trivial
      fun u hu => (hp.callers u).of_ne ht hu
  refine ⟨by rw [hstart]; exact le_refl 1, ?_, hcallers, ?_, ?_⟩
  · rcases hstate with ⟨rfl, -⟩ | ⟨rfl, -⟩ <;> exact nofun
  · rcases hstate with ⟨rfl, hr⟩ | ⟨rfl, -⟩
    · exact fun _ => ⟨t, hstart, List.mem_append_left e hr⟩
    · exact nofun
  · rcases hstate with ⟨rfl, -⟩ | ⟨rfl, error, hr⟩
    · exact nofun
    · exact fun _ => ⟨t, error, hstart, List.mem_append_left e hr⟩

end Past

variable [DecidableEq T]

/-- **A move keeps the past.** -/
theorem Move.past (hm : Move clean s s' e) (hp : Past es s) : Past (es ++ e) s' := by
  cases hm with
  | called t h ht hh => exact hp.move rfl trivial
  | hooked t status hc => exact hp.frame rfl rfl fun t => (hp.callers t).mono rfl
  | failed t h status ht hc => exact hp.move rfl trivial
  | slept t h ht hs => exact hp.move rfl trivial
  | spurious t p ht =>
    have hpt := hp.callers t
    rw [ht] at hpt
    exact hp.move rfl (hpt.mono rfl)
  | granted t h ht hs =>
    refine hp.grant hs (le_refl 1) ⟨rfl, ?_⟩
    rw [List.filterMap_append, hp.fresh hs]
    rfl
  | lost t h status ht hs hc => exact hp.grant hs (Nat.zero_le _) trivial
  | passed t h ht hs => exact hp.move rfl trivial
  | refused t h ht hs => exact hp.move rfl trivial
  | returned t h ht =>
    have hpt := hp.callers t
    rw [ht] at hpt
    refine hp.move rfl ⟨hpt.1, ?_, List.mem_append_right es (List.mem_singleton.2 rfl)⟩
    rw [List.filterMap_append, hpt.2]
    rfl
  | raised t h error ht =>
    have hpt := hp.callers t
    rw [ht] at hpt
    refine hp.move rfl ⟨hpt.1, ?_, List.mem_append_right es (List.mem_singleton.2 rfl)⟩
    rw [List.filterMap_append, hpt.2]
    rfl
  | stuck t p status ht hp' hc => exact hp.move rfl trivial
  | completed t h f r ht hf hr =>
    have hpt := hp.callers t
    rw [ht] at hpt
    refine hp.settle hpt.2.1 ?_ rfl (.inl ⟨rfl, hpt.2.2⟩)
    rcases hf with rfl | ⟨-, rfl⟩
    · exact .of_broadcast () _
    · exact .refl _
  | poisoned t h error f r ht hf hr =>
    have hpt := hp.callers t
    rw [ht] at hpt
    refine hp.settle hpt.2.1 ?_ rfl (.inr ⟨rfl, error, hpt.2.2⟩)
    rcases hf with rfl | ⟨-, rfl⟩
    · exact .of_broadcast () _
    · exact .refl _
  | shared h' hh => exact hp.frame rfl rfl fun t => (hp.callers t).mono rfl
  | dropped h hh ht =>
    have he : (if (finalize s.core).2 then [.freed] else [] : List (Event ε T)).filterMap
        Event.start = [] := by
      split_ifs <;> rfl
    exact hp.frame he rfl fun t => (hp.callers t).mono he

/-! ## The final states -/

/-- A state other than fresh and running is not left. -/
theorem Move.final (hm : Move clean s s' e) (hp : Past es s)
    (hs : s.core.state = .done ∨ s.core.state = .poisoned) : s'.core.state = s.core.state := by
  have hrun : s.core.state ≠ .running := by
    rcases hs with hs | hs <;> rw [hs] <;> exact nofun
  have hfresh : s.core.state ≠ .fresh := by
    rcases hs with hs | hs <;> rw [hs] <;> exact nofun
  cases hm with
  | granted t h ht hst => exact absurd hst hfresh
  | lost t h status ht hst hc => exact absurd hst hfresh
  | completed t h f r ht hf hr =>
    have hpt := hp.callers t
    rw [ht] at hpt
    exact absurd hpt.1 hrun
  | poisoned t h error f r ht hf hr =>
    have hpt := hp.callers t
    rw [ht] at hpt
    exact absurd hpt.1 hrun
  | _ => rfl

/-! ## The ends of a call -/

/-- A call that returns without having run its initializer found the state done. -/
theorem Move.ret_ok (hm : Move clean s s' e) (hx : .ret t false (.ok ()) ∈ e) :
    s.core.state = .done := by
  cases hm with
  | passed t h ht hs => exact hs
  | dropped h hh ht =>
    split_ifs at hx
    · cases List.mem_singleton.1 hx
    · cases hx
  | completed t h f r ht hf hr => cases List.mem_singleton.1 hx
  | poisoned t h error f r ht hf hr => cases List.mem_singleton.1 hx
  | _ =>
    first
    | exact absurd hx List.not_mem_nil
    | cases List.mem_singleton.1 hx

/-- A call that raises `OncePoisoned` found the state poisoned. -/
theorem Move.ret_poisoned {ran : Bool} (hm : Move clean s s' e)
    (hx : .ret t ran (.error (.sync .oncePoisoned)) ∈ e) : s.core.state = .poisoned := by
  cases hm with
  | refused t h ht hs => exact hs
  | dropped h hh ht =>
    split_ifs at hx
    · cases List.mem_singleton.1 hx
    · cases hx
  | completed t h f r ht hf hr =>
    obtain ⟨-, -, rfl⟩ := by simpa using hx
    rcases hr with hr | ⟨-, status, hr⟩ <;> cases hr
  | poisoned t h error f r ht hf hr =>
    obtain ⟨-, -, rfl⟩ := by simpa using hx
    rcases hr with hr | ⟨-, status, hr⟩ <;> cases hr
  | _ =>
    first
    | exact absurd hx List.not_mem_nil
    | cases List.mem_singleton.1 hx

/-- A call that raises the error of an initializer has run it. -/
theorem Move.ret_own {ran : Bool} {error : ε} (hm : Move clean s s' e) (hp : Past es s)
    (hx : .ret t ran (.error (.own error)) ∈ e) :
    es.filterMap Event.start = [t] ∧ .raised t error ∈ es := by
  cases hm with
  | dropped h hh ht =>
    split_ifs at hx
    · cases List.mem_singleton.1 hx
    · cases hx
  | completed t h f r ht hf hr =>
    obtain ⟨-, -, rfl⟩ := by simpa using hx
    rcases hr with hr | ⟨-, status, hr⟩ <;> cases hr
  | poisoned t h error f r ht hf hr =>
    obtain ⟨rfl, -, rfl⟩ := by simpa using hx
    have hpt := hp.callers t
    rw [ht] at hpt
    rcases hr with hr | ⟨-, status, hr⟩
    · cases hr
      exact hpt.2
    · cases hr
  | _ =>
    first
    | exact absurd hx List.not_mem_nil
    | cases List.mem_singleton.1 hx

/-! ## Runs without failures -/

/-- An initializer that has raised is about to be recorded, or was. -/
def Recorded (es : List (Event ε T)) (s : State ε T) : Prop :=
  ∀ t error, .raised t error ∈ es →
    s.core.state = .poisoned ∨ ∃ h, s.threads t = .run (.poisoning h error)

/-- Nobody sleeps unless an initializer runs. -/
def Awake (s : State ε T) : Prop :=
  s.core.state ≠ .running → NoSleeper Point.cond () s.threads

omit [DecidableEq T] in
/-- The frame rule: the caller that was granted the initializer does not move. -/
theorem Recorded.frame (h : Recorded es s) (he : ∀ t error, .raised t error ∉ e)
    (hstate : s.core.state = .poisoned → s'.core.state = .poisoned)
    (hthreads : ∀ t k error, s.threads t = .run (.poisoning k error) →
      s'.threads t = .run (.poisoning k error)) : Recorded (es ++ e) s' := by
  intro t error hx
  rcases List.mem_append.1 hx with hx | hx
  · rcases h t error hx with hs | ⟨k, hk⟩
    · exact .inl (hstate hs)
    · exact .inr ⟨k, hthreads t k error hk⟩
  · exact absurd hx (he t error)

/-- A caller that is about to poison is not the one that moves. -/
theorem poisoning_update {x : Pc (Point ε)}
    (ht : ∀ k error, (s.threads t).point ≠ .poisoning k error) (u : T) (k : ℕ) (error : ε)
    (hu : s.threads u = .run (.poisoning k error)) :
    Function.update s.threads t x u = .run (.poisoning k error) := by
  have hne : u ≠ t := by
    rintro rfl
    exact ht k error (by rw [hu]; rfl)
  rw [Function.update_of_ne hne, hu]

omit [DecidableEq T] in
theorem ne_poisoning_of_ready {h : ℕ} (ht : (s.threads t).Ready (.begin h)) (k : ℕ) (error : ε) :
    (s.threads t).point ≠ .poisoning k error := by
  rw [ht.point]
  exact nofun

/-- **A move without failures records what was raised.** -/
theorem Move.recorded (hm : Move true s s' e) (hp : Past es s) (h : Recorded es s) :
    Recorded (es ++ e) s' := by
  cases hm with
  | called t k ht hh =>
    exact h.frame nofun id (poisoning_update fun k error => by rw [ht]; exact nofun)
  | hooked t status hc => cases hc
  | failed t k status ht hc => cases hc
  | slept t k ht hs => exact h.frame nofun id (poisoning_update (ne_poisoning_of_ready ht))
  | spurious t p ht =>
    refine h.frame nofun id fun u k error hu => ?_
    have hne : u ≠ t := by
      rintro rfl
      rw [ht] at hu
      cases hu
    change Function.update s.threads t _ u = _
    rw [Function.update_of_ne hne, hu]
  | granted t k ht hs =>
    refine h.frame ?_ (fun hst => ?_) (poisoning_update (ne_poisoning_of_ready ht))
    · intro u error hu
      cases List.mem_singleton.1 hu
    · rw [hs] at hst
      cases hst
  | lost t k status ht hs hc => cases hc
  | passed t k ht hs =>
    refine h.frame ?_ id (poisoning_update (ne_poisoning_of_ready ht))
    intro u error hu
    cases List.mem_singleton.1 hu
  | refused t k ht hs =>
    refine h.frame ?_ id (poisoning_update (ne_poisoning_of_ready ht))
    intro u error hu
    cases List.mem_singleton.1 hu
  | returned t k ht =>
    refine h.frame ?_ id (poisoning_update fun k error => by rw [ht]; exact nofun)
    intro u error hu
    cases List.mem_singleton.1 hu
  | raised t k error ht =>
    intro u error' hx
    rcases List.mem_append.1 hx with hx | hx
    · rcases h u error' hx with hs | ⟨k', hk⟩
      · exact .inl hs
      · exact .inr ⟨k', poisoning_update (fun k error => by rw [ht]; exact nofun) u k' error' hk⟩
    · cases List.mem_singleton.1 hx
      exact .inr ⟨k, Function.update_self _ _ _⟩
  | stuck t p status ht hp' hc => cases hc
  | completed t k f r ht hf hr =>
    have hpt := hp.callers t
    rw [ht] at hpt
    rcases hf with rfl | ⟨hc, -⟩
    · refine h.frame ?_ (fun hst => ?_) fun u k' error hu => ?_
      · intro u error hu
        cases List.mem_singleton.1 hu
      · rw [hpt.1] at hst
        cases hst
      · have hup := poisoning_update (x := .run .idle) (fun k error => by rw [ht]; exact nofun) u k'
          error hu
        change broadcast Point.cond () _ u = _
        unfold broadcast
        rw [hup]
        rfl
    · cases hc
  | poisoned t k error f r ht hf hr => exact fun _ _ _ => .inl rfl
  | shared k hh => exact h.frame nofun id fun _ _ _ hu => hu
  | dropped k hh ht =>
    refine h.frame ?_ id fun _ _ _ hu => hu
    intro u error hu
    split_ifs at hu
    · cases List.mem_singleton.1 hu
    · cases hu

/-- **A move without failures leaves nobody asleep** unless an initializer runs. -/
theorem Move.awake (hm : Move true s s' e) (h : Awake s) : Awake s' := by
  cases hm with
  | called t k ht hh => exact fun hs => (h hs).update rfl
  | hooked t status hc => cases hc
  | failed t k status ht hc => cases hc
  | slept t k ht hs => exact fun hne => absurd hs hne
  | spurious t p ht => exact fun hs => (h hs).update rfl
  | granted t k ht hs => exact fun hne => absurd rfl hne
  | lost t k status ht hs hc => cases hc
  | passed t k ht hs => exact fun hne => (h hne).update rfl
  | refused t k ht hs => exact fun hne => (h hne).update rfl
  | returned t k ht => exact fun hs => (h hs).update rfl
  | raised t k error ht => exact fun hs => (h hs).update rfl
  | stuck t p status ht hp hc => cases hc
  | completed t k f r ht hf hr =>
    rcases hf with rfl | ⟨hc, -⟩
    · exact fun _ => noSleeper_broadcast _
    · cases hc
  | poisoned t k error f r ht hf hr =>
    rcases hf with rfl | ⟨hc, -⟩
    · exact fun _ => noSleeper_broadcast _
    · cases hc
  | shared k hh => exact h
  | dropped k hh ht => exact h

/-! ## Safety -/

variable [Fintype T]

theorem past_of_exec (h : Exec step AnyStatus State.init es s) : Past es s :=
  h.invariant Past.init fun hp hs _ => (step_move hs).past hp

/-- A final state is never left. -/
theorem final_of_exec (hp : Past es s) (h : Exec step AnyStatus s es' s')
    (hs : s.core.state = .done ∨ s.core.state = .poisoned) : s'.core.state = s.core.state := by
  refine (h.invariant (I := fun es' s' => Past (es ++ es') s' ∧ s'.core.state = s.core.state)
    ⟨by simpa using hp, rfl⟩ ?_).2
  intro es₁ s₁ a s₂ e ⟨hp₁, hst⟩ hstep _
  have hm := step_move hstep
  rw [← List.append_assoc]
  exact ⟨hm.past hp₁, (hm.final hp₁ (by rw [hst]; exact hs)).trans hst⟩

/-- Without failures, what was raised is recorded and nobody is left asleep. -/
theorem clean_of_exec (h : Exec step NoFailure State.init es s) : Recorded es s ∧ Awake s := by
  refine (h.invariant (I := fun es s => Past es s ∧ Recorded es s ∧ Awake s)
    ⟨Past.init, nofun, fun _ _ => rfl⟩ ?_).2
  intro es s a s' e ⟨hp, hrec, haw⟩ hs hG
  have hm : Move true s s' e := by
    rw [← decide_eq_true (show a.os = {} ∧ a.injected = 0 from hG)]
    exact step_move hs
  exact ⟨hm.past hp, hm.recorded hp hrec, hm.awake haw⟩

/-- A caller whose initializer has raised can take the step that poisons. -/
theorem exists_poison {k : ℕ} {error : ε} (ht : s.threads t = .run (.poisoning k error)) :
    ∃ s' e, step s (.lock t {}) = some (s', e) ∧ s'.core.state = .poisoned := by
  simp only [step, ht]
  exact ⟨_, _, rfl, rfl⟩

/-- **Once is safe.** In every run, whatever fails:

* at most one initializer is started;
* a call that returns without having run its own initializer does so after the one that was started
  has returned, and one that raises `OncePoisoned`, or the error of an initializer, after it has
  raised;
* the states done and poisoned are never left.

If moreover no primitive fails, an initializer that has raised poisons: the state is poisoned, or
its caller is about to make it so; and nobody sleeps unless the state is running. -/
theorem once_safety (h : Exec step AnyStatus State.init es s) :
    (es.filterMap Event.start).length ≤ 1 ∧
    (∀ a s' e, step s a = some (s', e) →
      (∀ t, .ret t false (.ok ()) ∈ e →
        ∃ u, es.filterMap Event.start = [u] ∧ .returned u ∈ es) ∧
      (∀ t ran, .ret t ran (.error (.sync .oncePoisoned)) ∈ e →
        ∃ u error, es.filterMap Event.start = [u] ∧ .raised u error ∈ es) ∧
      (∀ t ran error, .ret t ran (.error (.own error)) ∈ e →
        es.filterMap Event.start = [t] ∧ .raised t error ∈ es)) ∧
    (∀ es' s', Exec step AnyStatus s es' s' →
      (s.core.state = .done → s'.core.state = .done) ∧
      (s.core.state = .poisoned → s'.core.state = .poisoned)) ∧
    (Exec step NoFailure State.init es s →
      (∀ t error, .raised t error ∈ es → s.core.state = .poisoned ∨
        (∃ k, s.threads t = .run (.poisoning k error)) ∧
          ∃ s' e, step s (.lock t {}) = some (s', e) ∧ s'.core.state = .poisoned) ∧
      (s.core.state ≠ .running → ∀ t, (s.threads t).asleepOn Point.cond () = false)) := by
  have hp := past_of_exec h
  refine ⟨hp.once, fun a s' e hs => ⟨?_, ?_, ?_⟩, fun es' s' he => ⟨?_, ?_⟩, fun hn => ⟨?_, ?_⟩⟩
  · intro t hx
    exact hp.done ((step_move hs).ret_ok hx)
  · intro t ran hx
    exact hp.poisoned ((step_move hs).ret_poisoned hx)
  · intro t ran error hx
    exact (step_move hs).ret_own hp hx
  · intro hd
    rw [final_of_exec hp he (.inl hd), hd]
  · intro hd
    rw [final_of_exec hp he (.inr hd), hd]
  · intro t error hx
    rcases (clean_of_exec hn).1 t error hx with hs | ⟨k, hk⟩
    · exact .inl hs
    · exact .inr ⟨⟨k, hk⟩, exists_poison hk⟩
  · exact (clean_of_exec hn).2

/-- Two callers: the second one sleeps while the initializer of the first one runs and raises; it is
woken and raises `OncePoisoned`. -/
theorem once_safety_poisoned :
    ∃ (es : List (Event ℕ (Fin 2))) (s : State ℕ (Fin 2)),
      Exec step NoFailure State.init es s ∧ .raised 0 7 ∈ es ∧
      .ret 0 true (.error (.own 7)) ∈ es ∧ .ret 1 false (.error (.sync .oncePoisoned)) ∈ es ∧
      (es.filterMap Event.start).length ≤ 1 ∧
      ∀ t, (s.threads t).asleepOn Point.cond () = false := by
  obtain ⟨es, s, h, ht⟩ := Exec.exists_of_run step NoFailure (State.init : State ℕ (Fin 2))
    [.call 0 0 0, .lock 0 {}, .share 0 1, .call 1 1 0, .lock 1 {}, .spurious 1, .resume 1 {},
      .ended 0 (.error 7), .lock 0 {}, .resume 1 {}]
    (fun s es => decide (s.core.state ≠ .running ∧ .raised 0 7 ∈ es ∧
      .ret 0 true (.error (.own 7)) ∈ es ∧ .ret 1 false (.error (.sync .oncePoisoned)) ∈ es))
    (by decide +kernel)
  obtain ⟨hs, h₁, h₂, h₃⟩ := of_decide_eq_true ht
  obtain ⟨hone, -, -, hclean⟩ := once_safety (h.mono fun _ => trivial)
  exact ⟨es, s, h, h₁, h₂, h₃, hone, (hclean h).2 hs⟩

end NativeSync.Once
