import NativeSync.Foundations.Refcount
import NativeSync.Once.Moves

/-!
# Once: the life of the core

The core lives from `Once::new` to the drop of its last handle. Its counter is 32 bits wide, so a
drop that leaves a positive multiple of `2^32` handles frees the core under the handles that are
left; as long as no drop is one (`Careful`), the core is there exactly while a handle is. A caller
uses a handle to the end of its call, also while it sleeps or runs its initializer; so its core is
there.
-/

namespace NativeSync.Once

open Foundations

variable {ε T : Type}

/-- The references of the core. -/
def State.counter (s : State ε T) : Counter :=
  { refs := s.core.refs, live := s.handles, freed := s.freed }

/-- A step that does not leave a positive multiple of `2^32` handles of more. -/
abbrev Careful : State ε T → Action ε T → State ε T → Prop :=
  Counter.Careful 4294967296 State.counter

/-- The core was freed. -/
def Event.isFreed : Event ε T → Bool
  | freed => true
  | _ => false

variable {s s' : State ε T} {e es : List (Event ε T)} {t : T} {x : Pc (Point ε)}

variable [DecidableEq T]

/-- **A move leaves live the handles that callers use.** -/
theorem Move.held {clean : Bool} (hm : Move clean s s' e)
    (hI : Held Point.handle s.handles s.threads) :
    Held Point.handle s'.handles s'.threads := by
  cases hm with
  | called t h ht hh =>
    refine hI.call fun k hk => ?_
    cases hk
    exact hh
  | hooked t status hc => exact hI
  | slept t h ht hs => exact hI.stay (by rw [ht.point]; rfl)
  | spurious t p ht => exact hI.stay (by rw [ht]; rfl)
  | granted t h ht hs => exact hI.stay (by rw [ht.point]; rfl)
  | returned t h ht => exact hI.stay (by rw [ht]; rfl)
  | raised t h error ht => exact hI.stay (by rw [ht]; rfl)
  | completed t h f r ht hf hr =>
    rcases hf with rfl | ⟨-, rfl⟩
    · exact (hI.leave rfl).woken (.of_broadcast _ _)
    · exact hI.leave rfl
  | poisoned t h error f r ht hf hr =>
    rcases hf with rfl | ⟨-, rfl⟩
    · exact (hI.leave rfl).woken (.of_broadcast _ _)
    · exact hI.leave rfl
  | shared h' hh => exact hI.insert h'
  | dropped h hh ht => exact hI.erase ht
  | _ => exact hI.leave rfl

theorem endBegin_counter {h : ℕ} {sec : Section Core Unit BeginExit}
    (hr : sec.core.refs = s.core.refs) (hs : s.endBegin t h sec = (s', e)) :
    s'.counter = s.counter ∧ e.countP Event.isFreed = 0 := by
  unfold State.endBegin at hs
  unfold State.counter
  split at hs
  · cases hs
    exact ⟨rfl, rfl⟩
  · split at hs
    · cases hs
      simp [hr, State.move, Event.isFreed]
    · cases hs
      simp [hr, State.move, Event.isFreed]

omit [DecidableEq T] in
theorem refs_beginLoop (core : Core) (os : Os) : (beginLoop core os).core.refs = core.refs := by
  unfold beginLoop
  split_ifs <;> rfl

variable [Fintype T] {a : Action ε T}

theorem endCall_counter {state : OnceState} {os : Os} {result : ℤ → Except (Raised ε) Unit}
    (hs : s.endCall t (settle state s.core os) result = some (s', e)) :
    s'.counter = s.counter ∧ e.countP Event.isFreed = 0 := by
  obtain ⟨f, -, hs⟩ := Option.map_eq_some_iff.1 hs
  cases hs
  refine ⟨?_, rfl⟩
  unfold State.counter settle
  split_ifs <;> rfl

/-- **What a step does to the references**: the finalizer shows it when it frees the core. -/
theorem step_kept (hs : step s a = some (s', e)) :
    Lives 4294967296 State.counter State.threads Point.handle Event.isFreed s s' e := by
  have hsame : s'.counter = s.counter ∧ e.countP Event.isFreed = 0 →
      Lives 4294967296 State.counter State.threads Point.handle Event.isFreed s s' e :=
    fun ⟨hc, he⟩ => .same hc he (step_move hs).held
  cases a with
  | call t h injected =>
    obtain ⟨-, hs⟩ := Option.ite_none_right_eq_some.1 hs
    split_ifs at hs <;> cases hs <;> exact hsame ⟨rfl, rfl⟩
  | lock t os =>
    simp only [step] at hs
    split at hs
    · refine hsame (endBegin_counter ?_ (Option.some.inj hs))
      unfold begin
      split_ifs
      · rfl
      · exact refs_beginLoop _ _
    · exact hsame (endCall_counter hs)
    · exact hsame (endCall_counter hs)
    · cases hs
  | spurious t =>
    simp only [step] at hs
    split at hs <;> cases hs
    exact hsame ⟨rfl, rfl⟩
  | resume t os =>
    simp only [step] at hs
    split at hs
    · cases hs
    · refine hsame (endBegin_counter ?_ (Option.some.inj hs))
      unfold beginWoken
      split_ifs
      · rfl
      · exact refs_beginLoop _ _
    · cases hs
  | ended t outcome =>
    simp only [step] at hs
    split at hs
    · split at hs <;> cases hs <;> exact hsame ⟨rfl, rfl⟩
    · cases hs
  | share h h' =>
    obtain ⟨⟨hh, hh'⟩, hs⟩ := Option.ite_none_right_eq_some.1 hs
    cases hs
    exact .copy hh hh' rfl rfl rfl
  | drop h =>
    obtain ⟨⟨hh, hu⟩, hs⟩ := Option.ite_none_right_eq_some.1 hs
    obtain ⟨rfl, rfl⟩ := Prod.mk.inj (Option.some.inj hs)
    refine .drop (finalize s.core).2 hh hu rfl rfl rfl ?_
    cases (finalize s.core).2 <;> rfl

/-- **The life of the core.** As long as no drop leaves a positive multiple of `2^32` handles: the
counter is the number of handles modulo `2^32`, the core is freed exactly when no handle is left, and
once; and no caller uses a core that was freed. The first drop that leaves such a number frees the
core although there are handles. -/
theorem once_lifetime (h : Exec step Careful (State.init : State ε T) es s) :
    s.core.refs = wrap32 s.handles.card ∧ (s.freed = true ↔ s.handles = ∅) ∧
    es.countP Event.isFreed = s.freed.toNat ∧
    (∀ t k, (s.threads t).point.handle = some k → k ∈ s.handles ∧ s.freed = false) ∧
    ∀ a s' e, step s a = some (s', e) →
      ((s'.freed = true ∧ s'.handles ≠ ∅) ↔ ¬Careful s a s') := by
  have hinit : (State.init : State ε T).counter.Sound 4294967296 :=
    .one onceNew.refs 0 rfl (by decide)
  obtain ⟨hI, hcount, hheld, hearly⟩ := h.lifetime hinit rfl (fun _ _ hk => by cases hk) step_kept
  exact ⟨hI.tally, hI.freed, hcount, hheld, hearly⟩

/-- The first handle is dropped while a caller sleeps with another one, and that one after it has
returned. -/
theorem once_lifetime_two_handles :
    ∃ (es : List (Event ℕ (Fin 2))) (s : State ℕ (Fin 2)),
      Exec step Careful State.init es s ∧ .ret 1 false (.ok ()) ∈ es ∧ s.handles = ∅ ∧
      s.freed = true ∧ es.countP Event.isFreed = 1 := by
  obtain ⟨es, s, h, ht⟩ := Exec.exists_of_run step Careful (State.init : State ℕ (Fin 2))
    [.share 0 1, .share 1 2, .call 0 2 0, .lock 0 {}, .call 1 1 0, .lock 1 {}, .drop 0,
      .ended 0 (.ok ()), .lock 0 {}, .drop 2, .resume 1 {}, .drop 1]
    (fun s es => decide (.ret 1 false (.ok ()) ∈ es ∧ s.handles = ∅)) (by decide +kernel)
  obtain ⟨hret, hempty⟩ := of_decide_eq_true ht
  obtain ⟨-, hfreed, hcount, -⟩ := once_lifetime h
  rw [hfreed.2 hempty] at hcount
  exact ⟨es, s, h, hret, hempty, hfreed.2 hempty, hcount⟩

end NativeSync.Once
