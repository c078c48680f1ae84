import NativeSync.Foundations.Refcount
import NativeSync.WaitGroup.System

/-!
# The wait group: the life of the core

The core lives from `WaitGroup::new` to the drop of its last handle. Its counter is 32 bits wide, so
a drop that leaves a positive multiple of `2^32` handles frees the core under the handles that are
left; as long as no drop is one (`Careful`), the core is there exactly while a handle is. An `add`
uses its handle in one section, and a `wait` uses it to its end, also while it sleeps; so the core is
there when the wait goes back to the mutex, whoever has dropped a handle in the meantime.
-/

namespace NativeSync.WaitGroup

open Foundations

variable {T : Type}

/-- The references of the core. -/
def State.counter (s : State T) : Counter :=
  { refs := s.core.refs, live := s.handles, freed := s.freed }

/-- A step that does not leave a positive multiple of `2^32` handles of more. -/
abbrev Careful : State T → Action T → State T → Prop := Counter.Careful 4294967296 State.counter

/-- The core was freed. -/
def Event.isFreed : Event T → Bool
  | freed => true
  | _ => false

variable {s s' : State T} {e es : List (Event T)} {t : T} {h : ℕ}

/-- What a step may do to the references of the core, and to the handles that threads use. -/
abbrev Kept (s s' : State T) (e : List (Event T)) : Prop :=
  Lives 4294967296 State.counter State.threads Point.handle Event.isFreed s s' e

variable [DecidableEq T]

theorem endWait_kept {sec : Section Core Unit WaitExit}
    (ht : (s.threads t).point = .wait h) (hs : s.endWait t h sec = (s', e)) : Kept s s' e := by
  unfold State.endWait at hs
  split at hs
  · cases hs
    exact .same rfl rfl fun hI => hI.stay (by rw [ht]; rfl)
  · cases hs
    exact .same rfl rfl fun hI => hI.leave rfl

theorem refs_add (core : Core) (delta : Int32) (os : Os) :
    (add core delta os).core.refs = core.refs := by
  unfold add
  split_ifs <;> rfl

variable [Fintype T] {a : Action T}

/-- **What a step does to the references**: the finalizer shows it when it frees the core. -/
theorem step_kept (hs : step s a = some (s', e)) : Kept s s' e := by
  cases a with
  | add t h delta injected os =>
    obtain ⟨-, hs⟩ := Option.ite_none_right_eq_some.1 hs
    split_ifs at hs
    · cases hs
      exact .same rfl rfl id
    · obtain ⟨f, hf, hs⟩ := Option.map_eq_some_iff.1 hs
      cases hs
      refine .same ?_ rfl fun hI => hI.woken (.of_deliver hf)
      unfold State.counter
      rw [refs_add]
  | callWait t h injected =>
    obtain ⟨⟨-, hh⟩, hs⟩ := Option.ite_none_right_eq_some.1 hs
    split_ifs at hs
    · cases hs
      exact .same rfl rfl id
    · cases hs
      refine .same rfl rfl fun hI => hI.call fun k hk => ?_
      cases hk
      exact hh
  | lock t os =>
    simp only [step] at hs
    split at hs
    · rename_i h ht
      exact endWait_kept (by rw [ht]; rfl) (Option.some.inj hs)
    · cases hs
  | spurious t =>
    simp only [step] at hs
    split at hs
    · rename_i p ht
      cases hs
      exact .same rfl rfl fun hI => hI.stay (by rw [ht]; rfl)
    · cases hs
  | resume t os =>
    simp only [step] at hs
    split at hs
    · cases hs
    · rename_i w h hw ht
      exact endWait_kept (by rw [ht]; rfl) (Option.some.inj hs)
    · cases hs
  | share h h' =>
    obtain ⟨⟨hh, hh'⟩, hs⟩ := Option.ite_none_right_eq_some.1 hs
    cases hs
    exact .copy hh hh' rfl rfl rfl
  | drop h =>
    obtain ⟨⟨hh, hu⟩, hs⟩ := Option.ite_none_right_eq_some.1 hs
    obtain ⟨rfl, rfl⟩ := Prod.mk.inj (Option.some.inj hs)
    refine .drop (finalize s.core).2 hh hu rfl rfl rfl ?_
    cases (finalize s.core).2 <;> rfl

/-- **The life of the core.** As long as no drop leaves a positive multiple of `2^32` handles: the
counter is the number of handles modulo `2^32`, the core is freed exactly when no handle is left, and
once; and no wait uses a core that was freed. The first drop that leaves such a number frees the core
although there are handles. -/
theorem wait_group_lifetime (hrun : Exec step Careful (State.init : State T) es s) :
    s.core.refs = wrap32 s.handles.card ∧ (s.freed = true ↔ s.handles = ∅) ∧
    es.countP Event.isFreed = s.freed.toNat ∧
    (∀ t k, (s.threads t).point.handle = some k → k ∈ s.handles ∧ s.freed = false) ∧
    ∀ a s' e, step s a = some (s', e) →
      ((s'.freed = true ∧ s'.handles ≠ ∅) ↔ ¬Careful s a s') := by
  have hinit : (State.init : State T).counter.Sound 4294967296 :=
    .one waitGroupNew.refs 0 rfl (by decide)
  obtain ⟨hI, hcount, hheld, hearly⟩ := hrun.lifetime hinit rfl (fun _ _ hk => by cases hk) step_kept
  exact ⟨hI.tally, hI.freed, hcount, hheld, hearly⟩

/-- The thread that counts down to zero drops its handle while the waiter is still about to return,
and the waiter drops the last one. -/
theorem wait_group_lifetime_waiter :
    ∃ (es : List (Event (Fin 2))) (s : State (Fin 2)),
      Exec step Careful State.init es s ∧ .ret 1 .wait (.ok ()) ∈ es ∧ s.handles = ∅ ∧
      s.freed = true ∧ es.countP Event.isFreed = 1 := by
  obtain ⟨es, s, h, ht⟩ := Exec.exists_of_run step Careful (State.init : State (Fin 2))
    [.add 0 0 1 0 {}, .share 0 1, .callWait 1 1 0, .lock 1 {}, .done 0 0 0 {}, .drop 0,
      .resume 1 {}, .drop 1]
    (fun s es => decide (.ret 1 .wait (.ok ()) ∈ es ∧ s.handles = ∅)) (by decide +kernel)
  obtain ⟨hret, hempty⟩ := of_decide_eq_true ht
  obtain ⟨-, hfreed, hcount, -⟩ := wait_group_lifetime h
  rw [hfreed.2 hempty] at hcount
  exact ⟨es, s, h, hret, hempty, hfreed.2 hempty, hcount⟩

end NativeSync.WaitGroup
