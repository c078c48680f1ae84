import NativeSync.Thread.System

/-!
# Threads: what a step can do

`step_move` says once what every step of the system does. The steps of the spawning thread, of the
worker and of the callers are told apart, and so are the ends of a call.
-/

namespace NativeSync.Thread

open Foundations

variable {α T : Type}

/-- The state of a handle while an operation has claimed it. -/
def Op.busy : Op → ThreadState
  | join => .joining
  | detach => .detaching

/-- The core without the reference that is given up. -/
def Core.release (core : Core α) : Core α := { core with refs := arcDec core.refs }

@[simp] theorem Core.release_task (core : Core α) : core.release.task = core.task := rfl

@[simp] theorem Core.release_result (core : Core α) : core.release.result = core.result := rfl

/-- The events of giving up a reference: the last one gives up what the core holds. -/
def freeEvents (core : Core α) : List (Event α T) :=
  if core.refs = 0 then
    (if core.task then [.taskReleased] else []) ++
      (core.result.map Event.resultReleased).toList ++ [.freed]
  else []

/-- The event of giving up the task, if it was taken. -/
def taskEvents (task : Bool) : List (Event α T) := if task then [.taskReleased] else []

variable [DecidableEq T]

/-- The moves of the system. -/
inductive Move (s : State α T) : State α T → List (Event α T) → Prop
  | start (h : s.spawner = .start) :
      Move s { s with core := startBegin s.core, spawner := .create } []
  | created (h : s.spawner = .create) :
      Move s { s with spawner := .publish, worker := .begin } []
  | createFailed (status : ℤ) (h : s.spawner = .create) (hst : status ≠ 0) :
      Move s { s with core := startUndo s.core, spawner := .fail status } [.taskReleased]
  | published (h : s.spawner = .publish) :
      Move s { s with core := startEnd s.core, spawner := .done 0 } [.spawned 0]
  | failed (status : ℤ) (h : s.spawner = .fail status) :
      Move s { s with core := startFail s.core, spawner := .release status } []
  | raised (status : ℤ) (h : s.spawner = .release status) :
      Move s { s with
          core := s.core.release, spawner := .done status
          freed := s.freed || decide (s.core.release.refs = 0) }
        (freeEvents s.core.release ++ [.spawned status])
  | called (h : s.worker = .begin) : Move s { s with worker := .running } [.called]
  | ended (o : Outcome α) (h : s.worker = .running) (hc : s.callers none = .idle) :
      Move s { s with worker := .completing o } []
  | completed (o : Outcome α) (h : s.worker = .completing o) :
      Move s { s with core := (complete s.core o).1, worker := .returning o }
        (.stored o :: if (complete s.core o).2 then [.resultReleased o] else [])
  | returned (o : Outcome α) (h : s.worker = .returning o) :
      Move s { s with worker := .finish o } [.returned]
  | finished (o : Outcome α) (h : s.worker = .finish o) :
      Move s { s with core := (mainEnd s.core).1, worker := .release (mainEnd s.core).2 o } []
  | left (task : Bool) (o : Outcome α) (h : s.worker = .release task o) :
      Move s { s with worker := .leave o } (taskEvents task)
  | exited (o : Outcome α) (h : s.worker = .leave o) :
      Move s { s with
          core := s.core.release, worker := .exited o
          freed := s.freed || decide (s.core.release.refs = 0) }
        (freeEvents s.core.release)
  | refused (c : Option T) (op : Op) (status : ℤ) (h : s.CanCall c) (hst : status ≠ 0)
      (hpos : 0 < status → s.core.state = .created ∨ s.core.state = .joinable) :
      Move s s [.ret c op status none]
  | claimed (c : Option T) (op : Op) (p : Point α) (h : s.CanCall c)
      (hop : op = .join → c ≠ none)
      (hstate : s.core.state = .created ∨ s.core.state = .joinable)
      (hp : p = .claimed op ∨ ∃ status, 0 < status ∧ p = .failure op status) :
      Move s { s with
        core := { s.core with state := op.busy }
        callers := Function.update s.callers c p } []
  | osFailed (c : Option T) (op : Op) (status : ℤ) (h : s.callers c = .claimed op)
      (hst : 0 < status) :
      Move s (s.move c (.failure op status)) [.os op status]
  | osDone (c : Option T) (op : Op) (h : s.callers c = .claimed op)
      (hw : op = .join → ∃ o, s.worker = .exited o) :
      Move s (s.move c (.success op)) [.os op 0]
  | joined (c : Option T) (h : s.callers c = .success .join) :
      Move s { s with
        core := (joinEnd s.core).1
        callers := Function.update s.callers c (.ending .join s.core.task s.core.result) } []
  | detached (c : Option T) (h : s.callers c = .success .detach) :
      Move s { s with
        core := (detachEnd s.core).1
        callers := Function.update s.callers c (.ending .detach (detachEnd s.core).2 none) } []
  | rolledBack (c : Option T) (op : Op) (status : ℤ) (h : s.callers c = .failure op status) :
      Move s { s with
          core := rollback s.core, callers := Function.update s.callers c .idle }
        [.ret c op status none]
  | closed (c : Option T) (op : Op) (task : Bool) (result : Option (Outcome α))
      (h : s.callers c = .ending op task result) :
      Move s (s.move c .idle) (taskEvents task ++ [.ret c op 0 result])
  | asked (c : Option T) (result : Bool) (status : ℤ) : Move s s [.asked c result status]
  | drop (h : s.spawner.isDone = true) (hh : s.handle = true)
      (hstate : s.core.state.terminal = true) (hc : ∀ c, s.callers c = .idle) :
      Move s { s with
          core := s.core.release, handle := false
          freed := s.freed || decide (s.core.release.refs = 0) }
        (freeEvents s.core.release)

/-! ## Every step is a move -/

theorem Point.isIdle_iff {p : Point α} : p.isIdle = true ↔ p = .idle := by
  cases p <;> simp [Point.isIdle]

omit [DecidableEq T] in
theorem State.unref_eq (s : State α T) :
    s.unref = ({ s with
      core := s.core.release, freed := s.freed || decide (s.core.release.refs = 0) },
      freeEvents s.core.release) := by
  by_cases h : s.core.release.refs = 0
  · have h' : arcDec s.core.refs = 0 := h
    simp [State.unref, coreRelease, freeEvents, Core.release, h']
  · have h' : arcDec s.core.refs ≠ 0 := h
    simp [State.unref, coreRelease, freeEvents, Core.release, h']

variable {s s' : State α T} {e : List (Event α T)}

theorem spawn_move {status : ℤ} (hs : s.spawn status = some (s', e)) : Move s s' e := by
  unfold State.spawn at hs
  split at hs
  · rename_i h
    obtain ⟨rfl, rfl⟩ := by simpa using hs
    exact .start h
  · rename_i h
    split_ifs at hs with hst
    · obtain ⟨rfl, rfl⟩ := by simpa using hs
      exact .created h
    · obtain ⟨rfl, rfl⟩ := by simpa using hs
      exact .createFailed status h hst
  · rename_i h
    obtain ⟨rfl, rfl⟩ := by simpa using hs
    exact .published h
  · rename_i st h
    obtain ⟨rfl, rfl⟩ := by simpa using hs
    exact .failed st h
  · rename_i st h
    rw [State.unref_eq] at hs
    obtain ⟨rfl, rfl⟩ := by simpa using hs
    exact .raised st h
  · simp at hs

theorem work_move {outcome : Outcome α} (hs : s.work outcome = some (s', e)) : Move s s' e := by
  unfold State.work at hs
  split at hs
  · simp at hs
  · rename_i h
    obtain ⟨rfl, rfl⟩ := by simpa using hs
    exact .called h
  · rename_i h
    split_ifs at hs with hc
    obtain ⟨rfl, rfl⟩ := by simpa using hs
    exact .ended outcome h (Point.isIdle_iff.1 hc)
  · rename_i o h
    obtain ⟨rfl, rfl⟩ := by simpa using hs
    exact .completed o h
  · rename_i o h
    obtain ⟨rfl, rfl⟩ := by simpa using hs
    exact .returned o h
  · rename_i o h
    obtain ⟨rfl, rfl⟩ := by simpa using hs
    exact .finished o h
  · rename_i task o h
    obtain ⟨rfl, rfl⟩ := by simpa using hs
    exact .left task o h
  · rename_i o h
    rw [State.unref_eq] at hs
    obtain ⟨rfl, rfl⟩ := by simpa using hs
    exact .exited o h
  · simp at hs

/-- A join claims a handle that nobody has claimed, or returns a nonzero status at once; the status
is only positive if the handle could have been claimed. -/
theorem joinBegin_eq (core : Core α) (self : Bool) (injected : ℤ) :
    (∃ status ≠ 0, (0 < status → core.state = .created ∨ core.state = .joinable) ∧
        joinBegin core self injected = (core, some status)) ∨
      (core.state = .created ∨ core.state = .joinable) ∧ self = false ∧
        joinBegin core self injected = ({ core with state := .joining }, none) := by
  unfold joinBegin
  split_ifs with h₁ h₂ h₃ h₄ h₅
  · exact .inl ⟨-1, by decide, nofun, rfl⟩
  · exact .inl ⟨-3, by decide, nofun, rfl⟩
  · exact .inl ⟨-4, by decide, nofun, rfl⟩
  · exact .inl ⟨-2, by decide, nofun, rfl⟩
  · refine .inl ⟨injected, h₅, fun _ => ?_, rfl⟩
    cases hst : core.state <;> simp [hst] at h₁ h₂ h₃ ⊢
  · refine .inr ⟨?_, by simpa using h₄, rfl⟩
    cases hst : core.state <;> simp [hst] at h₁ h₂ h₃ ⊢

theorem detachBegin_eq (core : Core α) :
    (∃ status < 0, detachBegin core = (core, some status)) ∨
      (core.state = .created ∨ core.state = .joinable) ∧
        detachBegin core = ({ core with state := .detaching }, none) := by
  unfold detachBegin
  split_ifs with h₁ h₂ h₃
  · exact .inl ⟨-1, by decide, rfl⟩
  · exact .inl ⟨-2, by decide, rfl⟩
  · exact .inl ⟨-3, by decide, rfl⟩
  · refine .inr ⟨?_, rfl⟩
    cases hst : core.state <;> simp [hst] at h₁ h₂ h₃ ⊢

variable [Fintype T]

/-- **Every step is a move.** -/
theorem step_move {a : Action α T} (hs : step s a = some (s', e)) (hG : Assumed s a s') :
    Move s s' e := by
  cases a with
  | spawn status => exact spawn_move hs
  | work outcome => exact work_move hs
  | join c injected =>
    simp only [step] at hs
    split_ifs at hs with hc
    rcases joinBegin_eq s.core c.isNone injected with ⟨st, hst, hpos, h⟩ | ⟨hstate, hself, h⟩
    · rw [h] at hs
      obtain ⟨rfl, rfl⟩ := by simpa using hs
      exact .refused c .join st hc hst hpos
    · rw [h] at hs
      obtain ⟨rfl, rfl⟩ := by simpa using hs
      refine .claimed c .join _ hc (fun _ => ?_) hstate (.inl rfl)
      rintro rfl
      cases hself
  | detach c injected =>
    simp only [step] at hs
    by_cases hc : s.CanCall c
    · rw [if_pos hc] at hs
      rcases detachBegin_eq s.core with ⟨st, hst, h⟩ | ⟨hstate, h⟩
      · rw [h] at hs
        obtain ⟨rfl, rfl⟩ := by simpa using hs
        exact .refused c .detach st hc hst.ne fun h => absurd h hst.not_gt
      · rw [h] at hs
        by_cases hi : injected = 0
        · obtain ⟨rfl, rfl⟩ := by simpa [hi] using hs
          exact .claimed c .detach _ hc nofun hstate (.inl rfl)
        · obtain ⟨rfl, rfl⟩ := by simpa [hi] using hs
          exact .claimed c .detach _ hc nofun hstate
            (.inr ⟨injected, lt_of_le_of_ne hG (Ne.symm hi), rfl⟩)
    · rw [if_neg hc] at hs
      cases hs
  | os c status =>
    simp only [step] at hs
    split at hs
    · rename_i op hc
      split_ifs at hs with hst
      · obtain ⟨rfl, rfl⟩ := by simpa using hs
        exact .osFailed c op status hc (lt_of_le_of_ne hG (Ne.symm hst))
      · split at hs
        · rename_i o hw
          obtain ⟨rfl, rfl⟩ := by simpa using hs
          exact .osDone c .join hc fun _ => ⟨o, hw⟩
        · obtain ⟨rfl, rfl⟩ := by simpa using hs
          exact .osDone c .detach hc nofun
        · simp at hs
    · simp at hs
  | finish c =>
    simp only [step] at hs
    split at hs
    · rename_i hc
      obtain ⟨rfl, rfl⟩ := by simpa using hs
      exact .joined c hc
    · rename_i hc
      obtain ⟨rfl, rfl⟩ := by simpa using hs
      exact .detached c hc
    · rename_i op status hc
      obtain ⟨rfl, rfl⟩ := by simpa using hs
      exact .rolledBack c op status hc
    · rename_i op task result hc
      obtain ⟨rfl, rfl⟩ := by simpa using hs
      exact .closed c op task result hc
    · simp at hs
  | isFinished c os =>
    simp only [step] at hs
    split_ifs at hs with hc
    obtain ⟨rfl, rfl⟩ := by simpa using hs
    exact .asked c _ _
  | drop =>
    simp only [step] at hs
    split_ifs at hs with h
    rw [State.unref_eq] at hs
    obtain ⟨rfl, rfl⟩ := by simpa using hs
    exact .drop h.1 h.2.1 h.2.2.1 fun c => Point.isIdle_iff.1 (h.2.2.2 c)

end NativeSync.Thread
