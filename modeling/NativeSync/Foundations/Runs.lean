import Mathlib.Data.List.Basic

/-!
# Runs of a machine

A machine answers an action taken in a state with a refusal or with the next state and the events
the step emits. `Exec M G s₀ es s` says that a run of `M` from `s₀`, every step of which meets the
assumption `G`, ends in `s` and emitted `es`.

* `Exec.invariant` is the induction rule: a property of the emitted events and the state that
  holds at the start and is kept by every step holds along every run. `Exec.stateInvariant` is the
  same for a property of the state alone.
* `History A b₀ es b` is the abstract counterpart: the events `es` are, one after the other, legal
  moves of the relation `A` from `b₀` to `b`. `Exec.history` is the simulation rule: if every step
  is matched by a history of its own events, so is every run.
* `Machine.run` executes a list of actions; `Exec.of_run` turns a computed run into an `Exec`.
* `trace` runs a total machine that answers every action with one event. `Machine.run_eq_trace` is
  the lockstep rule: a machine that takes codes of its states to codes of its states, with its
  events, runs as it does.
-/

namespace NativeSync.Foundations

variable {σ α ε β : Type*}

/-- A machine: the answer to an action taken in a state, `none` where it cannot be taken. -/
abbrev Machine (σ α ε : Type*) := σ → α → Option (σ × List ε)

/-- A run of `M` from `s₀` whose steps all meet `G`: the events it emitted and its last state. -/
inductive Exec (M : Machine σ α ε) (G : σ → α → σ → Prop) (s₀ : σ) : List ε → σ → Prop
  | start : Exec M G s₀ [] s₀
  | step {es e : List ε} {s s' : σ} {a : α} (h : Exec M G s₀ es s) (hs : M s a = some (s', e))
      (hG : G s a s') : Exec M G s₀ (es ++ e) s'

/-- No assumption: the step may be any, whatever the calls it makes return. -/
def AnyStatus (_ : σ) (_ : α) (_ : σ) : Prop := True

instance (s : σ) (a : α) (s' : σ) : Decidable (AnyStatus s a s') := inferInstanceAs (Decidable True)

namespace Exec

variable {M : Machine σ α ε} {G G' : σ → α → σ → Prop} {s₀ s s' : σ} {es : List ε}

/-- **The invariant rule.** -/
theorem invariant {I : List ε → σ → Prop} (h₀ : I [] s₀)
    (hstep : ∀ {es s a s' e}, I es s → M s a = some (s', e) → G s a s' → I (es ++ e) s')
    (h : Exec M G s₀ es s) : I es s := by
  induction h with
  | start => exact h₀
  | step _ hs hG ih => exact hstep ih hs hG

/-- The invariant rule for a property of the state. -/
theorem stateInvariant {I : σ → Prop} (h₀ : I s₀)
    (hstep : ∀ {s a s' e}, I s → M s a = some (s', e) → G s a s' → I s')
    (h : Exec M G s₀ es s) : I s :=
  h.invariant (I := fun _ s => I s) h₀ fun hI hs hG => hstep hI hs hG

/-- A run under an assumption is a run under a weaker one. -/
theorem mono (hG : ∀ {s a s'}, G s a s' → G' s a s') (h : Exec M G s₀ es s) :
    Exec M G' s₀ es s := by
  induction h with
  | start => exact .start
  | step _ hs h' ih => exact .step ih hs (hG h')

/-- Runs compose. -/
theorem trans {es' : List ε} (h : Exec M G s₀ es s) (h' : Exec M G s es' s') :
    Exec M G s₀ (es ++ es') s' := by
  induction h' with
  | start => simpa using h
  | step _ hs hG ih => simpa using ih.step hs hG

end Exec

/-! ## Histories of an abstract relation -/

/-- The events `es` are legal moves of `A`, one after the other, from `b₀` to `b`. -/
inductive History (A : β → ε → β → Prop) (b₀ : β) : List ε → β → Prop
  | nil : History A b₀ [] b₀
  | snoc {es : List ε} {e : ε} {b b' : β} (h : History A b₀ es b) (hA : A b e b') :
      History A b₀ (es ++ [e]) b'

namespace History

variable {A : β → ε → β → Prop} {b₀ b b' : β} {es es' : List ε}

theorem single {e : ε} (h : A b e b') : History A b [e] b' := by
  simpa using History.snoc .nil h

theorem trans (h : History A b₀ es b) (h' : History A b es' b') :
    History A b₀ (es ++ es') b' := by
  induction h' with
  | nil => simpa using h
  | snoc _ hA ih => rw [← List.append_assoc]; exact ih.snoc hA

end History

/-- **The simulation rule**: if `I` is kept by every step, and every step from a state with `I` is
matched by a history of the events it shows, then so is every run. -/
theorem Exec.history {δ : Type*} {M : Machine σ α ε} {G : σ → α → σ → Prop} {s₀ s : σ}
    {es : List ε} {A : β → δ → β → Prop} (shown : ε → Option δ) (abs : σ → β) {I : σ → Prop}
    (h₀ : I s₀) (hI : ∀ {s a s' e}, I s → M s a = some (s', e) → G s a s' → I s')
    (hstep : ∀ {s a s' e}, I s → M s a = some (s', e) → G s a s' →
      History A (abs s) (e.filterMap shown) (abs s'))
    (h : Exec M G s₀ es s) : History A (abs s₀) (es.filterMap shown) (abs s) :=
  (h.invariant (I := fun es s => I s ∧ History A (abs s₀) (es.filterMap shown) (abs s))
    ⟨h₀, .nil⟩ fun ⟨hs, hh⟩ hM hG =>
      ⟨hI hs hM hG, by rw [List.filterMap_append]; exact hh.trans (hstep hs hM hG)⟩).2

/-! ## Executing a list of actions -/

/-- Take the actions of a list one after the other, as long as they meet `G`. -/
def Machine.run (M : Machine σ α ε) (G : σ → α → σ → Prop) [∀ s a s', Decidable (G s a s')] :
    σ → List α → Option (σ × List ε)
  | s, [] => some (s, [])
  | s, a :: as =>
    match M s a with
    | none => none
    | some (s', e) =>
      if G s a s' then (Machine.run M G s' as).map fun r => (r.1, e ++ r.2) else none

/-- A computed run is a run. -/
theorem Exec.of_run {M : Machine σ α ε} {G : σ → α → σ → Prop} [∀ s a s', Decidable (G s a s')] :
    ∀ {as : List α} {s s' : σ} {es : List ε}, Machine.run M G s as = some (s', es) →
      Exec M G s es s'
  | [], s, s', es, h => by
    simp only [Machine.run, Option.some.injEq, Prod.mk.injEq] at h
    obtain ⟨rfl, rfl⟩ := h
    exact .start
  | a :: as, s, s', es, h => by
    simp only [Machine.run] at h
    split at h
    · simp at h
    · rename_i s₁ e hs
      split_ifs at h with hG
      simp only [Option.map_eq_some_iff, Prod.mk.injEq] at h
      obtain ⟨⟨s₂, es₂⟩, hr, rfl, rfl⟩ := h
      have h₁ : Exec M G s ([] ++ e) s₁ := Exec.start.step hs hG
      simpa using h₁.trans (Exec.of_run hr)

/-- A computed run whose last state and events pass a test reaches such a state. -/
theorem Exec.exists_of_run (M : Machine σ α ε) (G : σ → α → σ → Prop)
    [∀ s a s', Decidable (G s a s')] (s₀ : σ) (as : List α) (test : σ → List ε → Bool)
    (h : (Machine.run M G s₀ as).any (fun r => test r.1 r.2) = true) :
    ∃ es s, Exec M G s₀ es s ∧ test s es = true := by
  rw [Option.any_eq_true] at h
  obtain ⟨⟨s, es⟩, hr, ht⟩ := h
  exact ⟨es, s, Exec.of_run hr, ht⟩

/-- A computed run and one step more that passes a test. -/
theorem Exec.exists_step_of_run (M : Machine σ α ε) (G : σ → α → σ → Prop)
    [∀ s a s', Decidable (G s a s')] (s₀ : σ) (as : List α) (a : α) (test : σ → σ → List ε → Bool)
    (h : (Machine.run M G s₀ as).any
      (fun r => (M r.1 a).any fun r' => test r.1 r'.1 r'.2) = true) :
    ∃ es s s' e, Exec M G s₀ es s ∧ M s a = some (s', e) ∧ test s s' e = true := by
  obtain ⟨es, s, hs, ht⟩ := Exec.exists_of_run M G s₀ as
    (fun s _ => (M s a).any fun r => test s r.1 r.2) h
  rw [Option.any_eq_true] at ht
  obtain ⟨⟨s', e⟩, hM, ht⟩ := ht
  exact ⟨es, s, s', e, hs, hM, ht⟩

/-! ## Total machines -/

/-- The last state and the answers of a machine that answers every action. -/
def trace (f : β → α → β × ε) : β → List α → β × List ε
  | b, [] => (b, [])
  | b, a :: as => ((trace f (f b a).1 as).1, (f b a).2 :: (trace f (f b a).1 as).2)

/-- **The lockstep rule.** -/
theorem Machine.run_eq_trace {M : Machine σ α ε} {G : σ → α → σ → Prop}
    [∀ s a s', Decidable (G s a s')] {f : β → α → β × ε} (enc : β → σ)
    (hM : ∀ b a, M (enc b) a = some (enc (f b a).1, [(f b a).2]))
    (hG : ∀ b a, G (enc b) a (enc (f b a).1)) (b : β) (as : List α) :
    Machine.run M G (enc b) as = some (enc (trace f b as).1, (trace f b as).2) := by
  induction as generalizing b with
  | nil => rfl
  | cons a as ih =>
    have hhead : Machine.run M G (enc b) (a :: as) =
        (Machine.run M G (enc (f b a).1) as).map fun r => (r.1, [(f b a).2] ++ r.2) := by
      simp only [Machine.run, hM b a, if_pos (hG b a)]
    rw [hhead, ih]
    rfl

end NativeSync.Foundations
