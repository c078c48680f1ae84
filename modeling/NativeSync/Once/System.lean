import NativeSync.Foundations.Runs
import NativeSync.Once.Core
import Mathlib.Data.Fintype.Basic
import Mathlib.Data.Finset.Basic

/-!
# Once: the system of its callers

Any number of callers use one `Once` through shared handles. A caller is a call of `call_once`: an
initializer that calls it again makes another caller. Its way is `begin`, where it may sleep, and if
it is granted the initializer, the run of it, which returns or raises, and `complete` or `poison`.

Handles are shared and dropped; a handle that a call uses is not dropped. The primitives may fail
with any status, and so may the test hook of `begin`. The finalizer aborts when a primitive fails;
there is no step then.
-/

namespace NativeSync.Once

open Foundations

/-- What a run shows; `ran` says that the caller was granted the initializer. -/
inductive Event (ε T : Type)
  | started (t : T)
  | returned (t : T)
  | raised (t : T) (error : ε)
  | ret (t : T) (ran : Bool) (r : Except (Raised ε) Unit)
  | freed
  deriving DecidableEq

/-- Where a caller stands, with the handle it uses. -/
inductive Point (ε : Type)
  | idle
  | begin (h : ℕ)
  /-- In its initializer. -/
  | running (h : ℕ)
  /-- Its initializer has returned. -/
  | completing (h : ℕ)
  /-- Its initializer has raised. -/
  | poisoning (h : ℕ) (error : ε)
  deriving DecidableEq

variable {ε : Type}

/-- The condition variable that a caller at a point waits on. -/
def Point.cond : Point ε → Option Unit
  | begin _ => some ()
  | _ => none

/-- The handle that a caller at a point uses. -/
def Point.handle : Point ε → Option ℕ
  | idle => none
  | begin h => some h
  | running h => some h
  | completing h => some h
  | poisoning h _ => some h

/-- The caller is in no call. -/
def isIdle : Pc (Point ε) → Bool
  | .run .idle => true
  | _ => false

theorem isIdle_iff {x : Pc (Point ε)} : isIdle x = true ↔ x = .run .idle := by
  rcases x with (_ | _ | _ | _ | _) | ⟨_, _ | _ | _ | _ | _⟩ <;> simp [isIdle]

/-- The core, its callers and its live handles. -/
structure State (ε T : Type) where
  core : Core
  threads : T → Pc (Point ε)
  handles : Finset ℕ
  freed : Bool

/-- The actions; `outcome` is how an initializer ends. -/
inductive Action (ε T : Type)
  | call (t : T) (h : ℕ) (injected : ℤ)
  | lock (t : T) (os : Os)
  | spurious (t : T)
  | resume (t : T) (os : Os)
  | ended (t : T) (outcome : Except ε Unit)
  | share (h h' : ℕ)
  | drop (h : ℕ)

variable {T : Type} [DecidableEq T]

namespace State

/-- Caller `t` moves to `x`. -/
def move (s : State ε T) (t : T) (x : Pc (Point ε)) : State ε T :=
  { s with threads := Function.update s.threads t x }

/-- Leave caller `t` where a pass of `begin` ended. -/
def endBegin (s : State ε T) (t : T) (h : ℕ) (sec : Section Core Unit BeginExit) :
    State ε T × List (Event ε T) :=
  match sec.exit with
  | .sleep => (s.move t (.wait .asleep (.begin h)), [])
  | .ret result status =>
    match beginResult result status with
    | none => ({ s.move t (.run (.running h)) with core := sec.core }, [.started t])
    | some r => ({ s.move t (.run .idle) with core := sec.core }, [.ret t false r])

variable [Fintype T]

/-- Leave caller `t`, whose call ends with `result`, and notify. -/
def endCall (s : State ε T) (t : T) (sec : Section Core Unit ℤ)
    (result : ℤ → Except (Raised ε) Unit) : Option (State ε T × List (Event ε T)) :=
  (deliver Point.cond none sec.wakes (Function.update s.threads t (.run .idle))).map fun f =>
    ({ s with core := sec.core, threads := f }, [.ret t true (result sec.exit)])

end State

variable [Fintype T]

/-- One step of the system. -/
def step (s : State ε T) : Action ε T → Option (State ε T × List (Event ε T))
  | .call t h injected =>
    if isIdle (s.threads t) = true ∧ h ∈ s.handles then
      -- the test hook of `sync_once_begin`
      if injected ≠ 0 then
        some (s, [.ret t false (.error (.sync (.onceOperationFailed injected)))])
      else some (s.move t (.run (.begin h)), [])
    else none
  | .lock t os =>
    match s.threads t with
    | .run (.begin h) => some (s.endBegin t h (begin s.core os))
    | .run (.completing _) => s.endCall t (complete s.core os) completeResult
    | .run (.poisoning _ error) => s.endCall t (poison s.core os) (poisonResult error)
    | _ => none
  | .spurious t =>
    match s.threads t with
    | .wait .asleep p => some (s.move t (.wait .spurious p), [])
    | _ => none
  | .resume t os =>
    match s.threads t with
    | .wait .asleep _ => none
    | .wait _ (.begin h) => some (s.endBegin t h (beginWoken s.core os))
    | _ => none
  | .ended t outcome =>
    match s.threads t with
    | .run (.running h) =>
      match outcome with
      | .ok () => some (s.move t (.run (.completing h)), [.returned t])
      | .error error => some (s.move t (.run (.poisoning h error)), [.raised t error])
    | _ => none
  | .share h h' =>
    if h ∈ s.handles ∧ h' ∉ s.handles then
      some ({ s with core := share s.core, handles := insert h' s.handles }, [])
    else none
  | .drop h =>
    if h ∈ s.handles ∧ ∀ t, (s.threads t).point.handle ≠ some h then
      let r := finalize s.core
      some ({ s with core := r.1, handles := s.handles.erase h, freed := s.freed || r.2 },
        if r.2 then [.freed] else [])
    else none

/-- The `Once` that `Once::new` returned. -/
def State.init : State ε T :=
  { core := onceNew, threads := fun _ => .run .idle, handles := {0}, freed := false }

/-- The statuses of the primitives that an action calls. -/
def Action.os : Action ε T → Os
  | lock _ os => os
  | resume _ os => os
  | _ => {}

/-- The error that the test hook of `sync_once_begin` injects. -/
def Action.injected : Action ε T → ℤ
  | call _ _ injected => injected
  | _ => 0

/-- A step whose primitives succeed. -/
def NoFailure (_ : State ε T) (a : Action ε T) (_ : State ε T) : Prop :=
  a.os = {} ∧ a.injected = 0

instance (s : State ε T) (a : Action ε T) (s' : State ε T) : Decidable (NoFailure s a s') :=
  inferInstanceAs (Decidable (_ ∧ _))

end NativeSync.Once
