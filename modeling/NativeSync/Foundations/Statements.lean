import NativeSync.Foundations.Runs
import NativeSync.Foundations.Threads

/-!
# Critical sections, statement by statement

A machine whose actions take effect at once is a model of code that runs under a mutex only if
nothing that happens meanwhile makes a difference. Here the sections are opened up. `Code σ ε` is the
code of one of them: it reads, it writes, and it is done. In the machine `fine` a thread enters its
section when nobody is in one and executes it one statement at a time, while the actions that do not
take the mutex go on.

* `Code.run` executes the code at once; it is what the coarse machine does.
* A statement moves past an outside action (`Code.Moves`) if the action could as well have come
  first: a read sees the same, and a write and the action can be exchanged.
* `Opened.Lawful` collects what is asked for: the coarse machine does what the code says, and every
  statement moves past the actions that may happen meanwhile.
* `Opened.refines` is the reduction theorem: what a run of the fine machine shows, a run of the
  coarse one shows; and they agree on the state when nobody is inside. `Opened.adequate` is the
  converse.

* `deliver_update` is the exchange of notifications with a move of a thread that they did not wake.

What a primitive will answer to a section is part of its action, and so drawn when it is entered;
nothing reads it before the statement that calls the primitive.
-/

namespace NativeSync.Foundations

/-- The code of a critical section. -/
inductive Code (σ ε : Type)
  /-- Read the shared state, and go on by what was read. -/
  | read (k : σ → Code σ ε)
  /-- Write the shared state, where this is possible. -/
  | write (f : σ → Option σ) (c : Code σ ε)
  /-- Give up the mutex, and show how the section ends. -/
  | done (f : σ → Option (σ × List ε))

namespace Code

variable {σ ε γ : Type}

/-- Read a part of the shared state. -/
def get (view : σ → γ) (k : γ → Code σ ε) : Code σ ε := read fun s => k (view s)

/-- Write a part of the shared state. -/
def set (f : σ → σ) (c : Code σ ε) : Code σ ε := write (fun s => some (f s)) c

/-- Execute the code at once. -/
def run : Code σ ε → σ → Option (σ × List ε)
  | read k, s => (k s).run s
  | write f c, s => (f s).bind c.run
  | done f, s => f s

@[simp] theorem run_read (k : σ → Code σ ε) (s : σ) : (read k).run s = (k s).run s := rfl

@[simp] theorem run_get (view : σ → γ) (k : γ → Code σ ε) (s : σ) :
    (get view k).run s = (k (view s)).run s := rfl

@[simp] theorem run_write (f : σ → Option σ) (c : Code σ ε) (s : σ) :
    (write f c).run s = (f s).bind c.run := rfl

@[simp] theorem run_set (f : σ → σ) (c : Code σ ε) (s : σ) : (set f c).run s = c.run (f s) := rfl

@[simp] theorem run_done (f : σ → Option (σ × List ε)) (s : σ) : (done f).run s = f s := rfl

/-- The code moves past the actions `out`: what is read after one could have been read before it, and
what is written before one can be written after it. -/
def Moves (out : σ → List ε → σ → Prop) : Code σ ε → Prop
  | read k => (∀ s e s', out s e s' → k s' = k s) ∧ ∀ s, (k s).Moves out
  | write f c => (∀ s s₁ e s₂, f s = some s₁ → out s₁ e s₂ → ∃ s', out s e s' ∧ f s' = some s₂) ∧
      c.Moves out
  | done _ => True

variable {out : σ → List ε → σ → Prop}

theorem Moves.get {view : σ → γ} {k : γ → Code σ ε}
    (hview : ∀ s e s', out s e s' → view s' = view s) (hk : ∀ x, (k x).Moves out) :
    (Code.get view k).Moves out :=
  ⟨fun s e s' h => congrArg k (hview s e s' h), fun s => hk (view s)⟩

theorem Moves.set {f : σ → σ} {c : Code σ ε}
    (hf : ∀ s e s₂, out (f s) e s₂ → ∃ s', out s e s' ∧ f s' = s₂) (hc : c.Moves out) :
    (Code.set f c).Moves out := by
  refine ⟨fun s s₁ e s₂ hs hout => ?_, hc⟩
  obtain ⟨s', hs', hf'⟩ := hf s e s₂ (Option.some.inj hs ▸ hout)
  exact ⟨s', hs', congrArg some hf'⟩

/-- From `c₀` in `s₀`, some statements lead to `c` in `s`. -/
inductive Reach (c₀ : Code σ ε) (s₀ : σ) : Code σ ε → σ → Prop
  | start : Reach c₀ s₀ c₀ s₀
  | read {k : σ → Code σ ε} {s : σ} (h : Reach c₀ s₀ (read k) s) : Reach c₀ s₀ (k s) s
  | write {f : σ → Option σ} {c : Code σ ε} {s s' : σ} (h : Reach c₀ s₀ (write f c) s)
      (hf : f s = some s') : Reach c₀ s₀ c s'

namespace Reach

variable {c₀ c : Code σ ε} {s₀ s s' : σ} {e : List ε}

theorem run_eq (h : Reach c₀ s₀ c s) : c₀.run s₀ = c.run s := by
  induction h with
  | start => rfl
  | read _ ih => rw [ih, run_read]
  | write _ hf ih => rw [ih, run_write, hf, Option.bind_some]

theorem moves (h : Reach c₀ s₀ c s) (hm : c₀.Moves out) : c.Moves out := by
  induction h with
  | start => exact hm
  | read _ ih => exact ih.2 _
  | write _ _ ih => exact ih.2

/-- **The exchange rule**: an outside action in the middle of the code could have come before it. -/
theorem exchange (h : Reach c₀ s₀ c s) (hm : c₀.Moves out) (hout : out s e s') :
    ∃ s₀', out s₀ e s₀' ∧ Reach c₀ s₀' c s' := by
  induction h generalizing s' with
  | start => exact ⟨s', hout, .start⟩
  | read h ih =>
    obtain ⟨s₀', hs₀', hr⟩ := ih hout
    rw [← (h.moves hm).1 _ _ _ hout]
    exact ⟨s₀', hs₀', hr.read⟩
  | write h hf ih =>
    obtain ⟨s₁, hs₁, hf₁⟩ := (h.moves hm).1 _ _ _ _ hf hout
    obtain ⟨s₀', hs₀', hr⟩ := ih hs₁
    exact ⟨s₀', hs₀', hr.write hf₁⟩

end Reach

end Code

/-! ## The fine machine -/

/-- A machine with the code of its sections: which actions are sections, when a section can be
entered, and which actions can happen while one is executed. -/
structure Opened (σ α ε : Type) where
  coarse : Machine σ α ε
  code : α → Option (Code σ ε)
  ready : σ → α → Prop
  apart : α → α → Prop

/-- The state of the fine machine: the shared state, and the section that is executed with the rest
of its code. -/
structure Fine (σ α ε : Type) where
  base : σ
  inside : Option (α × Code σ ε)

/-- The actions of the fine machine: enter a section, execute a statement of it, or take an action
outside of it. -/
inductive FineAction (α : Type)
  | enter (a : α)
  | tick
  | outside (a : α)

namespace Opened

variable {σ α ε : Type} (O : Opened σ α ε)

/-- The action may be taken outside of the section that is executed. -/
def Free (inside : Option (α × Code σ ε)) (b : α) : Prop :=
  (O.code b).isNone = true ∧ ∀ x ∈ inside, O.apart x.1 b

/-- The fine machine. -/
def fine [∀ s a, Decidable (O.ready s a)] [∀ x b, Decidable (O.Free x b)] :
    Machine (Fine σ α ε) (FineAction α) ε
  | x, .enter a =>
    match x.inside, O.code a with
    | none, some c => if O.ready x.base a then some (⟨x.base, some (a, c)⟩, []) else none
    | _, _ => none
  | x, .tick =>
    match x.inside with
    | some (a, .read k) => some (⟨x.base, some (a, k x.base)⟩, [])
    | some (a, .write f c) => (f x.base).map fun s => (⟨s, some (a, c)⟩, [])
    | some (_, .done f) => (f x.base).map fun r => (⟨r.1, none⟩, r.2)
    | none => none
  | x, .outside b =>
    if O.Free x.inside b then (O.coarse x.base b).map fun r => (⟨r.1, x.inside⟩, r.2) else none

/-- The actions of a fine action meet `G`. -/
def Meets (G : α → Prop) (_ : Fine σ α ε) : FineAction α → Fine σ α ε → Prop
  | .enter a, _ => G a
  | .tick, _ => True
  | .outside b, _ => G b

instance (G : α → Prop) [DecidablePred G] (x : Fine σ α ε) :
    (act : FineAction α) → (y : Fine σ α ε) → Decidable (Meets G x act y)
  | .enter a, _ => inferInstanceAs (Decidable (G a))
  | .tick, _ => inferInstanceAs (Decidable True)
  | .outside b, _ => inferInstanceAs (Decidable (G b))

/-- What happens outside of section `a`. -/
def Outside (G : α → Prop) (a : α) (s : σ) (e : List ε) (s' : σ) : Prop :=
  ∃ b, O.code b = none ∧ O.apart a b ∧ G b ∧ O.coarse s b = some (s', e)

/-- What the reduction asks for. -/
structure Lawful (G : α → Prop) : Prop where
  spec : ∀ {a c s}, O.code a = some c → O.ready s a → O.coarse s a = c.run s
  enabled : ∀ {a c s r}, O.code a = some c → O.coarse s a = some r → O.ready s a
  stable : ∀ {a c s e s'}, O.code a = some c → G a → O.ready s a → O.Outside G a s e s' →
    O.ready s' a
  moves : ∀ {a c}, O.code a = some c → G a → c.Moves (O.Outside G a)

instance [∀ a b, Decidable (O.apart a b)] (inside : Option (α × Code σ ε)) (b : α) :
    Decidable (O.Free inside b) :=
  inferInstanceAs (Decidable (_ ∧ ∀ x ∈ inside, O.apart x.1 b))

variable {O}

/-- The state of the coarse machine that a state of the fine one stands for: the statements of the
section that is executed have not happened yet. -/
def Simulates (O : Opened σ α ε) (G : α → Prop) (x : Fine σ α ε) (s : σ) : Prop :=
  match x.inside with
  | none => x.base = s
  | some (a, c) => G a ∧ O.ready s a ∧ ∃ c₀, O.code a = some c₀ ∧ c₀.Reach s c x.base

variable {G : α → Prop} {s₀ s s' : σ} {x y : Fine σ α ε} {e es : List ε} {a b : α} {c : Code σ ε}
  {act : FineAction α}

/-- The assumption that every action meets `G`. -/
abbrev Under (G : α → Prop) : σ → α → σ → Prop := fun _ a _ => G a

theorem exec_single {M : Machine σ α ε} (hs : M s a = some (s', e)) (hG : G a) :
    Exec M (Under G) s e s' := by
  have hstart : Exec M (Under G) s [] s := .start
  simpa using hstart.step hs hG

/-- What happens outside of a section does not disturb it. -/
theorem Lawful.outside (hL : O.Lawful G) (hx : O.Simulates G x s) (hfree : O.Free x.inside b)
    (hG : G b) (hb : O.coarse x.base b = some (s', e)) :
    ∃ s₁, Exec O.coarse (Under G) s e s₁ ∧ O.Simulates G ⟨s', x.inside⟩ s₁ := by
  obtain ⟨t, inside⟩ := x
  obtain ⟨hcode, hapart⟩ := hfree
  cases inside with
  | none =>
    obtain rfl : t = s := hx
    exact ⟨s', exec_single hb hG, rfl⟩
  | some z =>
    obtain ⟨a, c⟩ := z
    obtain ⟨hGa, hready, c₀, hc₀, hreach⟩ := hx
    have hout : O.Outside G a t e s' :=
      ⟨b, Option.isNone_iff_eq_none.1 hcode, hapart (a, c) rfl, hG, hb⟩
    obtain ⟨s₁, hs₁, hreach'⟩ := hreach.exchange (hL.moves hc₀ hGa) hout
    have hready' := hL.stable hc₀ hGa hready hs₁
    obtain ⟨b', -, -, hG', hb'⟩ := hs₁
    exact ⟨s₁, exec_single hb' hG', hGa, hready', c₀, hc₀, hreach'⟩

variable [∀ s a, Decidable (O.ready s a)] [∀ x b, Decidable (O.Free x b)]

/-- **The step rule of the reduction**: entering a section and its statements are nothing to the
coarse machine, giving up the mutex is the whole section. -/
theorem Lawful.step (hL : O.Lawful G) (hx : O.Simulates G x s) (hs : O.fine x act = some (y, e))
    (hG : Meets G x act y) :
    ∃ s', Exec O.coarse (Under G) s e s' ∧ O.Simulates G y s' := by
  obtain ⟨t, inside⟩ := x
  cases act with
  | enter a =>
    simp only [fine] at hs
    split at hs
    · rename_i c hc
      split_ifs at hs with hready
      cases hs
      obtain rfl : t = s := hx
      exact ⟨t, .start, hG, hready, c, hc, .start⟩
    · cases hs
  | tick =>
    rcases inside with _ | ⟨a, c⟩
    · cases hs
    obtain ⟨hGa, hready, c₀, hc₀, hreach⟩ := hx
    cases c with
    | read k =>
      cases hs
      exact ⟨s, .start, hGa, hready, c₀, hc₀, hreach.read⟩
    | write f c =>
      obtain ⟨t', hf, hs⟩ := Option.map_eq_some_iff.1 hs
      cases hs
      exact ⟨s, .start, hGa, hready, c₀, hc₀, hreach.write hf⟩
    | done f =>
      obtain ⟨⟨t', e'⟩, hf, hs⟩ := Option.map_eq_some_iff.1 hs
      cases hs
      have hrun : O.coarse s a = some (t', e') := by
        rw [hL.spec hc₀ hready, hreach.run_eq]
        exact hf
      exact ⟨t', exec_single hrun hGa, rfl⟩
  | outside b =>
    simp only [fine] at hs
    split_ifs at hs with hfree
    obtain ⟨⟨t', e'⟩, hb, hs⟩ := Option.map_eq_some_iff.1 hs
    cases hs
    exact hL.outside hx hfree hG hb

/-- **The reduction theorem**: what a run of the fine machine shows, a run of the coarse one shows;
when nobody is in a section, the states are the same. -/
theorem Lawful.refines (hL : O.Lawful G) (h : Exec O.fine (Meets G) ⟨s₀, none⟩ es x) :
    ∃ s, Exec O.coarse (Under G) s₀ es s ∧ O.Simulates G x s := by
  refine h.invariant (I := fun es x => ∃ s, Exec O.coarse (Under G) s₀ es s ∧ O.Simulates G x s)
    ⟨s₀, .start, by exact rfl⟩ ?_
  rintro es x act y e ⟨s, hs, hx⟩ hstep hG
  obtain ⟨s', hs', hy⟩ := hL.step hx hstep hG
  exact ⟨s', hs.trans hs', hy⟩

/-- The fine machine can execute a section from its start to its end. -/
theorem exec_code (hrun : c.run s = some (s', e)) :
    Exec O.fine (Meets G) ⟨s, some (a, c)⟩ e ⟨s', none⟩ := by
  induction c generalizing s with
  | read k ih =>
    have htick : O.fine ⟨s, some (a, .read k)⟩ .tick = some (⟨s, some (a, k s)⟩, []) := rfl
    exact (Exec.start.step htick trivial).trans (ih s hrun)
  | write f c ih =>
    obtain ⟨s₁, hf, hrun⟩ := Option.bind_eq_some_iff.1 hrun
    have htick : O.fine ⟨s, some (a, .write f c)⟩ .tick = some (⟨s₁, some (a, c)⟩, []) := by
      simp only [fine, hf, Option.map_some]
    exact (Exec.start.step htick trivial).trans (ih hrun)
  | done f =>
    have hf : f s = some (s', e) := hrun
    have htick : O.fine ⟨s, some (a, .done f)⟩ .tick = some (⟨s', none⟩, e) := by
      simp only [fine, hf, Option.map_some]
    simpa using (Exec.start (M := O.fine) (G := Meets G)).step htick trivial

/-- **Adequacy**: every run of the coarse machine is one of the fine machine. -/
theorem Lawful.adequate (hL : O.Lawful G) (h : Exec O.coarse (Under G) s₀ es s) :
    Exec O.fine (Meets G) ⟨s₀, none⟩ es ⟨s, none⟩ := by
  induction h with
  | start => exact .start
  | @step es e s s' a _ hs hG ih =>
    refine ih.trans ?_
    cases hcode : O.code a with
    | none =>
      have hfree : O.Free none a := ⟨by rw [hcode]; rfl, nofun⟩
      have hout : O.fine ⟨s, none⟩ (.outside a) = some (⟨s', none⟩, e) := by
        simp only [fine, if_pos hfree, hs, Option.map_some]
      simpa using (Exec.start (M := O.fine) (G := Meets G)).step hout hG
    | some c =>
      have hready := hL.enabled hcode hs
      have henter : O.fine ⟨s, none⟩ (.enter a) = some (⟨s, some (a, c)⟩, []) := by
        simp only [fine, hcode, if_pos hready]
      have hrun : c.run s = some (s', e) := (hL.spec hcode hready).symm.trans hs
      exact (Exec.start.step henter hG).trans (exec_code hrun)

end Opened

/-! ## Notifications and the moves of other threads -/

section Notifications

variable {T P C : Type} [Fintype T] [DecidableEq T] [DecidableEq C] {cond : P → Option C}
  {f g : T → Pc P} {u : T} {x : Pc P} {pick : Option T}

omit [Fintype T] [DecidableEq T] in
/-- A notified thread stays so. -/
theorem Woken.same_of_same {f' : T → Pc P} (h : Woken f g) (h' : Woken g f') (hu : f' u = f u) :
    g u = f u := by
  rcases h u with he | ⟨p, hp, hp'⟩
  · exact he
  · rcases h' u with he | ⟨q, hq, -⟩
    · rw [← hu, he]
    · rw [hp'] at hq
      cases hq

theorem signal_update {c : C} (h : signal cond c pick f = some g) (hu : g u = f u)
    (hx : x.asleepOn cond c = false) :
    signal cond c pick (Function.update f u x) = some (Function.update g u x) := by
  cases pick with
  | none =>
    simp only [signal, Option.ite_none_right_eq_some, Option.some.injEq] at h ⊢
    obtain ⟨hall, rfl⟩ := h
    exact ⟨(NoSleeper.update (t := u) hall hx), rfl⟩
  | some v =>
    simp only [signal, Option.ite_none_right_eq_some, Option.some.injEq] at h ⊢
    obtain ⟨hv, rfl⟩ := h
    have hne : v ≠ u := by
      rintro rfl
      obtain ⟨p, hp, -⟩ := (Pc.asleepOn_iff cond).1 hv
      rw [Function.update_self, hp] at hu
      cases hu
    rw [Function.update_of_ne hne]
    exact ⟨hv, Function.update_comm hne.symm _ _ _⟩

omit [Fintype T] in
theorem broadcast_update {c : C} (hu : broadcast cond c f u = f u)
    (hx : x.asleepOn cond c = false) :
    broadcast cond c (Function.update f u x) = Function.update (broadcast cond c f) u x := by
  funext v
  by_cases hv : v = u
  · subst hv
    rw [Function.update_self, broadcast, Function.update_self, hx, if_neg Bool.false_ne_true]
  · rw [Function.update_of_ne hv, broadcast, Function.update_of_ne hv, broadcast]

/-- **Notifications and the move of a thread can be exchanged**, if they do not wake the thread and
it does not go to sleep. -/
theorem deliver_update {ns : List (Notify C)} (h : deliver cond pick ns f = some g)
    (hu : g u = f u) (hx : ∀ c, x.asleepOn cond c = false) :
    deliver cond pick ns (Function.update f u x) = some (Function.update g u x) := by
  induction ns generalizing f with
  | nil =>
    obtain rfl := Option.some.inj h
    rfl
  | cons n ns ih =>
    cases n with
    | signal c =>
      obtain ⟨f₁, hf₁, h⟩ := Option.bind_eq_some_iff.1 h
      have hu₁ : f₁ u = f u :=
        (Woken.of_signalled (signal_signalled hf₁)).same_of_same (.of_deliver h) hu
      simp only [deliver, signal_update hf₁ hu₁ (hx c), Option.bind_some]
      exact ih h (hu.trans hu₁.symm)
    | broadcast c =>
      have hu₁ : broadcast cond c f u = f u :=
        (Woken.of_broadcast c f).same_of_same (.of_deliver h) hu
      simp only [deliver, broadcast_update hu₁ (hx c)]
      exact ih h (hu.trans hu₁.symm)

/-- A thread that does not sleep is not woken. -/
theorem deliver_awake {ns : List (Notify C)} (h : deliver cond pick ns f = some g)
    (hu : ∀ p, f u ≠ .wait .asleep p) : g u = f u := by
  rcases Woken.of_deliver h u with he | ⟨q, hq, -⟩
  · exact he
  · exact absurd hq (hu q)

omit [Fintype T] [DecidableEq T] in
theorem asleepOn_of_awake (hx : ∀ p, x ≠ .wait .asleep p) (c : C) : x.asleepOn cond c = false := by
  by_contra ha
  obtain ⟨p, hp, -⟩ := (Pc.asleepOn_iff cond).1 (Bool.eq_true_of_not_eq_false ha)
  exact hx p hp

/-- **Notifications pass over a thread that does not sleep**, wherever it goes on. -/
theorem deliver_update_awake {ns : List (Notify C)} (hu : ∀ p, f u ≠ .wait .asleep p)
    (hx : ∀ p, x ≠ .wait .asleep p) :
    deliver cond pick ns (Function.update f u x) =
      (deliver cond pick ns f).map fun g => Function.update g u x := by
  cases h : deliver cond pick ns f with
  | some g => exact deliver_update h (deliver_awake h hu) (asleepOn_of_awake hx)
  | none =>
    -- a delivery to the moved thread would be one to the thread where it was
    cases h' : deliver cond pick ns (Function.update f u x) with
    | none => rfl
    | some g =>
      have hself : Function.update f u x u = x := Function.update_self ..
      have hback := deliver_update h' (deliver_awake h' (hself.symm ▸ hx)) (asleepOn_of_awake hu)
      rw [Function.update_idem, Function.update_eq_self, h] at hback
      cases hback

/-- A thread that notifications leave as it would be without them. -/
theorem deliver_same {ns : List (Notify C)} (h : deliver cond pick ns f = some g)
    (hu : ∀ p, g u ≠ .wait .notified p) : g u = f u := by
  rcases Woken.of_deliver h u with he | ⟨p, -, hp⟩
  · exact he
  · exact absurd hp (hu p)

end Notifications

end NativeSync.Foundations
