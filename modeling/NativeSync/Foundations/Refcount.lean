import NativeSync.Foundations.Runs
import NativeSync.Foundations.Threads
import Mathlib.Data.Finset.Card
import Mathlib.Data.Int.Order.Basic
import Mathlib.Tactic.Linarith

/-!
# Reference counts

An object with a counter of its references that is kept modulo `N`, the names of its live
references, and whether it has been freed. A reference is copied from a live one; whoever drops one
and finds the counter at zero frees the object.

* `Tally` says that the counter is the number of live references modulo `N`; every step keeps it.
* A drop that leaves a positive multiple of `N` references frees too early (`Early`). As long as no
  step is one, the object is freed exactly when no reference is left (`Step.sound`); and the first
  step that is one frees an object that has references left (`Step.early_iff`).
* `Exec.refcount` carries this to the runs of a machine that shows when the object is freed: it is
  freed at most once.
* `Held` says that the references that threads use are live: a thread that has taken one keeps it to
  the end of its operation, and one that is used is not dropped.
* `Lives` puts both together for a step of a machine whose threads use references to an object, and
  `Exec.lifetime` is what follows for its runs: no thread uses an object that was freed.
-/

namespace NativeSync.Foundations

/-- An object with counted references. -/
structure Counter where
  refs : ℤ
  live : Finset ℕ
  freed : Bool

namespace Counter

/-- What a step does to the references. -/
inductive Step (N : ℕ) (x : Counter) : Counter → Prop
  | other : Step N x x
  | copy (h h' : ℕ) (hh : h ∈ x.live) (hh' : h' ∉ x.live) :
      Step N x { x with refs := (x.refs + 1).bmod N, live := insert h' x.live }
  | drop (h : ℕ) (hh : h ∈ x.live) :
      Step N x { refs := (x.refs - 1).bmod N, live := x.live.erase h,
                 freed := x.freed || decide ((x.refs - 1).bmod N = 0) }

/-- The counter is the number of live references modulo `N`. -/
def Tally (N : ℕ) (x : Counter) : Prop := x.refs = (x.live.card : ℤ).bmod N

/-- The step from `x` to `y` leaves a positive multiple of `N` references of more. -/
def Early (N : ℕ) (x y : Counter) : Prop :=
  y.live.card < x.live.card ∧ y.live ≠ ∅ ∧ N ∣ y.live.card

instance (N : ℕ) (x y : Counter) : Decidable (Early N x y) :=
  inferInstanceAs (Decidable (_ ∧ _ ∧ _))

/-- The counter is right, and the object is freed exactly when no reference is left. -/
structure Sound (N : ℕ) (x : Counter) : Prop where
  tally : x.Tally N
  freed : x.freed = true ↔ x.live = ∅

variable {N : ℕ} {x y : Counter}

theorem bmod_eq_zero_iff {n : ℕ} : (n : ℤ).bmod N = 0 ↔ N ∣ n := by
  rw [← Int.natCast_dvd_natCast, ← Int.dvd_iff_bmod_eq_zero]

/-- A new object. -/
theorem Sound.one (refs : ℤ) (h : ℕ) (hr : refs = 1) (hN : (1 : ℤ).bmod N = 1) :
    Sound N { refs, live := {h}, freed := false } where
  tally := by
    change refs = ((({h} : Finset ℕ).card : ℕ) : ℤ).bmod N
    rw [Finset.card_singleton, hr]
    exact hN.symm
  freed := ⟨fun hf => (by cases hf), fun h0 => absurd h0 (Finset.singleton_ne_empty h)⟩

/-- A live reference keeps the object. -/
theorem Sound.not_freed (hx : x.Sound N) {h : ℕ} (hh : h ∈ x.live) : x.freed = false := by
  rw [← Bool.not_eq_true, hx.freed]
  exact Finset.ne_empty_of_mem hh

/-- **Every step keeps the counter right**, however many references there are. -/
theorem Step.tally (h : Step N x y) (hx : x.Tally N) : y.Tally N := by
  unfold Tally at hx ⊢
  cases h with
  | other => exact hx
  | copy h h' hh hh' =>
    rw [Finset.card_insert_of_notMem hh', hx, Int.bmod_add_bmod]
    push_cast
    rfl
  | drop h hh =>
    have hcard := Finset.card_erase_add_one hh
    rw [hx, Int.sub_eq_add_neg, Int.bmod_add_bmod, ← Int.sub_eq_add_neg, ← hcard]
    push_cast
    rw [add_sub_cancel_right]

/-- **Unless a step frees too early, the object is freed when the last reference goes.** -/
theorem Step.sound (h : Step N x y) (hx : x.Sound N) (he : ¬Early N x y) : y.Sound N := by
  refine ⟨h.tally hx.tally, ?_⟩
  cases h with
  | other => exact hx.freed
  | copy h h' hh hh' =>
    have hne : insert h' x.live ≠ ∅ := Finset.insert_ne_empty _ _
    change x.freed = true ↔ insert h' x.live = ∅
    rw [hx.not_freed hh]
    exact ⟨fun hf => (by cases hf), fun h0 => absurd h0 hne⟩
  | drop h hh =>
    have htally := (Step.drop (N := N) (x := x) h hh).tally hx.tally
    have hcard := Finset.card_erase_add_one hh
    change (x.freed || decide ((x.refs - 1).bmod N = 0)) = true ↔ x.live.erase h = ∅
    rw [hx.not_freed hh, Bool.false_or, decide_eq_true_eq,
      show (x.refs - 1).bmod N = ((x.live.erase h).card : ℤ).bmod N from htally,
      bmod_eq_zero_iff]
    constructor
    · intro hd
      by_contra hne
      exact he ⟨by change (x.live.erase h).card < x.live.card; omega, hne, hd⟩
    · intro h0
      rw [h0, Finset.card_empty]
      exact dvd_zero N

/-- A step that frees an object finds it not freed, and leaves it so for good. -/
theorem Step.freed_mono (h : Step N x y) (hf : x.freed = true) : y.freed = true := by
  cases h with
  | other => exact hf
  | copy => exact hf
  | drop h hh =>
    change (x.freed || _) = true
    rw [hf, Bool.true_or]

/-- **Exactly the steps that free too early free an object that has references left.** -/
theorem Step.early_iff (h : Step N x y) (hx : x.Sound N) :
    Early N x y ↔ y.freed = true ∧ y.live ≠ ∅ := by
  constructor
  · intro he
    refine ⟨?_, he.2.1⟩
    cases h with
    | other => exact absurd he.1 (lt_irrefl _)
    | copy h h' hh hh' =>
      have hle : x.live.card ≤ (insert h' x.live).card :=
        Finset.card_le_card (Finset.subset_insert _ _)
      exact absurd he.1 (not_lt.2 hle)
    | drop h hh =>
      have htally := (Step.drop (N := N) (x := x) h hh).tally hx.tally
      change (x.freed || decide ((x.refs - 1).bmod N = 0)) = true
      rw [decide_eq_true (htally.trans (bmod_eq_zero_iff.2 he.2.2)), Bool.or_true]
  · rintro ⟨hf, hne⟩
    by_contra he
    exact hne ((h.sound hx he).freed.1 hf)

end Counter

/-- **The run rule**: the object is freed exactly when no reference is left, and at most once. -/
theorem Exec.refcount {σ α ε : Type*} {M : Machine σ α ε} {G : σ → α → σ → Prop} {s₀ s : σ}
    {es : List ε} {N : ℕ} (view : σ → Counter) (frees : ε → Bool)
    (h₀ : (view s₀).Sound N) (hf₀ : (view s₀).freed = false)
    (hstep : ∀ {s a s' e}, (view s).Sound N → M s a = some (s', e) → G s a s' →
      Counter.Step N (view s) (view s') ∧ ¬Counter.Early N (view s) (view s') ∧
        e.countP frees = ((view s').freed && !(view s).freed).toNat)
    (h : Exec M G s₀ es s) :
    (view s).Sound N ∧ es.countP frees = (view s).freed.toNat := by
  refine h.invariant (I := fun es s => (view s).Sound N ∧
    es.countP frees = (view s).freed.toNat) ⟨h₀, by rw [hf₀]; rfl⟩ ?_
  intro es s a s' e ⟨hs, hc⟩ hM hG
  obtain ⟨hst, hearly, he⟩ := hstep hs hM hG
  refine ⟨hst.sound hs hearly, ?_⟩
  rw [List.countP_append, hc, he]
  cases hf : (view s).freed
  · rw [Bool.not_false, Bool.and_true, Bool.toNat_false, Nat.zero_add]
  · rw [hst.freed_mono hf]
    rfl

/-! ## The references that threads use -/

section Held

variable {T P : Type*}

/-- The references that the threads use are live; `handle` is the one that a thread at a point
uses. -/
def Held (handle : P → Option ℕ) (live : Finset ℕ) (f : T → Pc P) : Prop :=
  ∀ t h, handle (f t).point = some h → h ∈ live

namespace Held

variable {handle : P → Option ℕ} {live : Finset ℕ} {f g : T → Pc P} {t : T} {x : Pc P} {h : ℕ}

theorem insert (hI : Held handle live f) (h : ℕ) : Held handle (insert h live) f :=
  fun t k hk => Finset.mem_insert_of_mem (hI t k hk)

theorem erase (hI : Held handle live f) (hu : ∀ t, handle (f t).point ≠ some h) :
    Held handle (live.erase h) f := by
  intro t k hk
  refine Finset.mem_erase.2 ⟨?_, hI t k hk⟩
  rintro rfl
  exact hu t hk

theorem woken (hI : Held handle live f) (hw : Woken f g) : Held handle live g := by
  intro t k hk
  rw [hw.point t] at hk
  exact hI t k hk

variable [DecidableEq T]

/-- A thread starts an operation with a live reference. -/
theorem call (hI : Held handle live f) (hx : ∀ h, handle x.point = some h → h ∈ live) :
    Held handle live (Function.update f t x) := by
  intro u k hu
  by_cases hut : u = t
  · subst hut
    rw [Function.update_self] at hu
    exact hx k hu
  · rw [Function.update_of_ne hut] at hu
    exact hI u k hu

/-- A thread moves on inside its operation. -/
theorem stay (hI : Held handle live f) (hx : handle x.point = handle (f t).point) :
    Held handle live (Function.update f t x) :=
  hI.call fun k hk => hI t k (hx ▸ hk)

/-- A thread returns from its operation. -/
theorem leave (hI : Held handle live f) (hx : handle x.point = none) :
    Held handle live (Function.update f t x) :=
  hI.call fun k hk => by
    rw [hx] at hk
    cases hk

end Held

end Held

/-! ## The life of an object that threads use -/

section Lifetime

variable {σ α ε T P : Type*} (N : ℕ) (counter : σ → Counter) (threads : σ → T → Pc P)
  (handle : P → Option ℕ) (frees : ε → Bool)

/-- A step that does not free the object too early. -/
def Counter.Careful (s : σ) (_ : α) (s' : σ) : Prop := ¬Early N (counter s) (counter s')

instance (s : σ) (a : α) (s' : σ) : Decidable (Counter.Careful N counter s a s') :=
  inferInstanceAs (Decidable ¬_)

/-- What a step may do to the references, and to those that threads use: it shows when the object is
freed. -/
structure Lives (s s' : σ) (e : List ε) : Prop where
  step : Counter.Step N (counter s) (counter s')
  count : (counter s).Sound N →
    e.countP frees = ((counter s').freed && !(counter s).freed).toNat
  held : Held handle (counter s).live (threads s) → Held handle (counter s').live (threads s')

variable {N counter threads handle frees} {s₀ s s' : σ} {e es : List ε} {h h' : ℕ}

/-- A step that touches no reference. -/
theorem Lives.same (hc : counter s' = counter s) (he : e.countP frees = 0)
    (hh : Held handle (counter s).live (threads s) → Held handle (counter s').live (threads s')) :
    Lives N counter threads handle frees s s' e := by
  refine ⟨?_, fun _ => ?_, hh⟩
  · rw [hc]
    exact .other
  · rw [he, hc, Bool.and_not_self]
    rfl

/-- A step that copies a reference. -/
theorem Lives.copy (hh : h ∈ (counter s).live) (hh' : h' ∉ (counter s).live)
    (hc : counter s' = { counter s with
      refs := ((counter s).refs + 1).bmod N, live := insert h' (counter s).live })
    (ht : threads s' = threads s) (he : e.countP frees = 0) :
    Lives N counter threads handle frees s s' e := by
  refine ⟨?_, fun _ => ?_, fun hI => ?_⟩
  · rw [hc]
    exact .copy h h' hh hh'
  · rw [he, hc, Bool.and_not_self]
    rfl
  · rw [hc, ht]
    exact hI.insert h'

/-- A step that drops a reference that no thread uses, and frees the object if it was the `last`. -/
theorem Lives.drop (last : Bool) (hh : h ∈ (counter s).live)
    (hu : ∀ t, handle (threads s t).point ≠ some h)
    (hl : last = decide (((counter s).refs - 1).bmod N = 0))
    (hc : counter s' = ⟨((counter s).refs - 1).bmod N, (counter s).live.erase h,
      (counter s).freed || last⟩)
    (ht : threads s' = threads s) (he : e.countP frees = last.toNat) :
    Lives N counter threads handle frees s s' e := by
  refine ⟨?_, fun hI => ?_, fun hI => ?_⟩
  · rw [hc, hl]
    exact .drop h hh
  · rw [he, hc, hI.not_freed hh, Bool.false_or, Bool.not_false, Bool.and_true]
  · rw [hc, ht]
    exact hI.erase hu

/-- **The life of the object.** As long as no step frees it too early, the counter is right, and the
object is freed exactly when no reference is left, and once; so no thread uses it after that. The
first step that frees it too early leaves references to an object that was freed. -/
theorem Exec.lifetime {M : Machine σ α ε} (h₀ : (counter s₀).Sound N)
    (hf₀ : (counter s₀).freed = false) (hh₀ : Held handle (counter s₀).live (threads s₀))
    (hstep : ∀ {s a s' e}, M s a = some (s', e) → Lives N counter threads handle frees s s' e)
    (h : Exec M (Counter.Careful N counter) s₀ es s) :
    (counter s).Sound N ∧ es.countP frees = (counter s).freed.toNat ∧
    (∀ t k, handle (threads s t).point = some k → k ∈ (counter s).live ∧
      (counter s).freed = false) ∧
    ∀ a s' e, M s a = some (s', e) →
      (((counter s').freed = true ∧ (counter s').live ≠ ∅) ↔
        ¬Counter.Careful N counter s a s') := by
  obtain ⟨hI, hcount⟩ := h.refcount counter frees h₀ hf₀ fun hI hs hG =>
    ⟨(hstep hs).step, hG, (hstep hs).count hI⟩
  have hheld : Held handle (counter s).live (threads s) :=
    h.stateInvariant (I := fun s => Held handle (counter s).live (threads s)) hh₀
      fun hI hs _ => (hstep hs).held hI
  refine ⟨hI, hcount, fun t k hk => ?_, fun a s' e hs => ?_⟩
  · exact ⟨hheld t k hk, hI.not_freed (hheld t k hk)⟩
  · rw [Counter.Careful, not_not]
    exact ((hstep hs).step.early_iff hI).symm

end Lifetime

end NativeSync.Foundations
