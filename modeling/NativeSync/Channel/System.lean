import NativeSync.Foundations.Runs
import NativeSync.Channel.Core
import Mathlib.Data.Fintype.Basic

/-!
# The generic channel: the system of its threads

Any number of threads work on one channel, as in `OwnedBytes.System`: through sender handles, of
which `share` makes new ones and the finalizer removes one, and through the receiver handle. The
steps are the calls, the critical sections, the spurious wake-ups and the returns from a wait.

Every submitted value gets a box of its own, and the events say what became of it: it was handed
back to the caller (`returned`), handed to the receiver (`delivered`), or given up (`released`), by
a wrapper that raises or with the core.
-/

namespace NativeSync.Channel

open Foundations

/-- The two sending operations of `Sender`. -/
inductive SendKind
  | trySend
  | send
  deriving DecidableEq

/-- The operations of the channel. -/
inductive Op (α : Type)
  | send (kind : SendKind) (value : α)
  | recv (block : Bool)
  | length
  | senderClose
  | receiverClose
  | share
  | drop (role : Role)
  deriving DecidableEq

/-- The results of the operations. -/
inductive Result (α : Type)
  | trySend (r : Except SyncError (TrySendResult α))
  | send (r : Except SyncError (Except α Unit))
  | tryRecv (r : Except SyncError (TryRecvResult α))
  | recv (r : Except SyncError (Option α))
  | length (r : Except SyncError ℤ)
  | unit (r : Except SyncError Unit)
  deriving DecidableEq

/-- What a run shows: what became of the boxes, the end of the core, and the operations that
completed, each with the thread that called it. -/
inductive Event (α T : Type)
  | returned (addr : ℕ)
  | delivered (addr : ℕ)
  | released (addr : ℕ)
  | freed
  | ret (t : T) (op : Op α) (r : Result α)
  deriving DecidableEq

/-- Where a thread stands; `h` is the sender handle it uses and `message` the box it submits. -/
inductive Point (α : Type)
  | idle
  | send (h : ℕ) (kind : SendKind) (message : Box α)
  | receive (block : Bool)
  deriving DecidableEq

variable {α : Type}

/-- The condition variable that a thread at a point waits on. -/
def Point.cond : Point α → Option Cond
  | send .. => some .writable
  | receive _ => some .readable
  | _ => none

/-- The sender handle that a thread at a point uses. -/
def Point.handle : Point α → Option ℕ
  | send h .. => some h
  | _ => none

/-- Whether a thread at a point is in an operation of the receiver. -/
def Point.receiving : Point α → Bool
  | receive _ => true
  | _ => false

/-- The thread is in no operation. -/
def isIdle : Pc (Point α) → Bool
  | .run .idle => true
  | _ => false

theorem isIdle_iff {x : Pc (Point α)} : isIdle x = true ↔ x = .run .idle := by
  rcases x with (_ | _ | _) | ⟨_, _ | _ | _⟩ <;> simp [isIdle]

/-- The channel, its threads and its live handles; `boxes` counts the boxes made. -/
structure State (α T : Type) where
  core : Core α
  threads : T → Pc (Point α)
  senders : Finset ℕ
  receiver : Bool
  boxes : ℕ
  freed : Bool

/-- The actions. `h` names a sender handle, `pick` the sleeper that a signal wakes. -/
inductive Action (α T : Type)
  | callSend (t : T) (h : ℕ) (kind : SendKind) (value : α) (injected : ℤ)
  | callRecv (t : T) (block : Bool)
  | lock (t : T) (os : Os) (pick : Option T)
  | spurious (t : T)
  | resume (t : T) (os : Os) (pick : Option T)
  | senderClose (t : T) (h : ℕ) (os : Os)
  | receiverClose (t : T) (os : Os)
  | share (t : T) (h h' : ℕ) (os : Os)
  | length (t : T) (os : Os)
  | dropSender (t : T) (h : ℕ) (os : Os)
  | dropReceiver (t : T) (os : Os)
  deriving DecidableEq

/-- The result of a send for what the native call returned. -/
def SendKind.result (kind : SendKind) (returned : Option (Box α)) (result error : ℤ) :
    Option (Result α) :=
  match kind with
  | trySend => (trySendResult returned result error).map .trySend
  | send => (sendResult returned result error).map .send

/-- The result of a receive for what the native call returned. -/
def recvOpResult (block : Bool) (raw : Option (Box α)) (status error : ℤ) : Option (Result α) :=
  if block then (recvResult raw status error).map .recv
  else (tryRecvResult raw status error).map .tryRecv

/-- What becomes of the box that a native call returned: the wrapper hands it on (`handed`), unless
it raises an error. -/
def boxEvents {T : Type} (handed : ℕ → Event α T) (box : Option (Box α)) (error : ℤ) :
    List (Event α T) :=
  (box.map fun b => if error = 0 then handed b.addr else .released b.addr).toList

variable {T : Type} [Fintype T] [DecidableEq T]

namespace State

/-- Thread `t` moves to `x`. -/
def move (s : State α T) (t : T) (x : Pc (Point α)) : State α T :=
  { s with threads := Function.update s.threads t x }

/-- Leave thread `t` where a pass of a send ended, and notify. -/
def endSend (s : State α T) (t : T) (h : ℕ) (kind : SendKind) (message : Box α) (pick : Option T)
    (sec : Section (Core α) Cond (SendExit α)) : Option (State α T × List (Event α T)) :=
  match sec.exit with
  | .sleep => some (s.move t (.wait .asleep (.send h kind message)), [])
  | .ret result error returned =>
    (deliver Point.cond pick sec.wakes (Function.update s.threads t (.run .idle))).bind fun f =>
      (kind.result returned result error).map fun r =>
        ({ s with core := sec.core, threads := f },
          boxEvents .returned returned error ++ [.ret t (.send kind message.val) r])

/-- Leave thread `t` where a pass of a receive ended, and notify. -/
def endReceive (s : State α T) (t : T) (block : Bool) (pick : Option T)
    (sec : Section (Core α) Cond (ReceiveExit α)) : Option (State α T × List (Event α T)) :=
  match sec.exit with
  | .sleep => some (s.move t (.wait .asleep (.receive block)), [])
  | .ret status error message =>
    (deliver Point.cond pick sec.wakes (Function.update s.threads t (.run .idle))).bind fun f =>
      (recvOpResult block message status error).map fun r =>
        ({ s with core := sec.core, threads := f },
          boxEvents .delivered message error ++ [.ret t (.recv block) r])

/-- The end of a finalizer: its section is over and it gives up its reference. -/
def endFinalize (s : State α T) (t : T) (role : Role) (sec : Section (Core α) Cond Unit) :
    Option (State α T × List (Event α T)) :=
  (deliver Point.cond none sec.wakes s.threads).map fun f =>
    let r := coreRelease sec.core
    ({ s with core := r.1, threads := f, freed := s.freed || r.2.isSome },
      (r.2.map fun bs => bs.map (fun b => Event.released b.addr) ++ [.freed]).getD [] ++
        [.ret t (.drop role) (.unit (.ok ()))])

end State

/-- One step of the system. -/
def step (s : State α T) : Action α T → Option (State α T × List (Event α T))
  | .callSend t h kind value injected =>
    if isIdle (s.threads t) = true ∧ h ∈ s.senders then
      let message : Box α := ⟨s.boxes, value⟩
      -- the test hook of `sync_sender_try_send`
      if kind = .trySend ∧ injected ≠ 0 then
        (kind.result (some message) 2 injected).map fun r =>
          ({ s with boxes := s.boxes + 1 },
            boxEvents .returned (some message) injected ++ [.ret t (.send kind value) r])
      else
        some ({ s.move t (.run (.send h kind message)) with boxes := s.boxes + 1 }, [])
    else none
  | .callRecv t block =>
    if isIdle (s.threads t) = true ∧ s.receiver = true then
      some (s.move t (.run (.receive block)), [])
    else none
  | .lock t os pick =>
    match s.threads t with
    | .run (.send h .trySend message) =>
      s.endSend t h .trySend message pick (trySend s.core message os)
    | .run (.send h .send message) => s.endSend t h .send message pick (send s.core message os)
    | .run (.receive block) => s.endReceive t block pick (receive s.core block os)
    | _ => none
  | .spurious t =>
    match s.threads t with
    | .wait .asleep p => some (s.move t (.wait .spurious p), [])
    | _ => none
  | .resume t os pick =>
    match s.threads t with
    | .wait .asleep _ => none
    | .wait _ (.send h .send message) =>
      s.endSend t h .send message pick (sendWoken s.core message os)
    | .wait _ (.receive block) => s.endReceive t block pick (receiveWoken s.core block os)
    | _ => none
  | .senderClose t h os =>
    if isIdle (s.threads t) = true ∧ h ∈ s.senders then
      let sec := senderClose s.core os
      (deliver Point.cond none sec.wakes s.threads).map fun f =>
        ({ s with core := sec.core, threads := f },
          [.ret t .senderClose (.unit (statusResult () sec.exit))])
    else none
  | .receiverClose t os =>
    if isIdle (s.threads t) = true ∧ s.receiver = true then
      let sec := receiverClose s.core os
      (deliver Point.cond none sec.wakes s.threads).map fun f =>
        ({ s with core := sec.core, threads := f },
          [.ret t .receiverClose (.unit (statusResult () sec.exit))])
    else none
  | .share t h h' os =>
    if isIdle (s.threads t) = true ∧ h ∈ s.senders ∧ h' ∉ s.senders then
      let sec := senderShare s.core os
      some ({ s with
          core := sec.core
          senders := if sec.exit.2 then insert h' s.senders else s.senders },
        [.ret t .share (.unit (statusResult () sec.exit.1))])
    else none
  | .length t os =>
    if isIdle (s.threads t) = true ∧ s.receiver = true then
      some (s, [.ret t .length
        (.length (statusResult (receiverLen s.core os).1 (receiverLen s.core os).2))])
    else none
  | .dropSender t h os =>
    if isIdle (s.threads t) = true ∧ h ∈ s.senders ∧
        ∀ u, (s.threads u).point.handle ≠ some h then
      (finalize s.core .sender os).bind
        (State.endFinalize { s with senders := s.senders.erase h } t .sender)
    else none
  | .dropReceiver t os =>
    if isIdle (s.threads t) = true ∧ s.receiver = true ∧
        ∀ u, (s.threads u).point.receiving = false then
      (finalize s.core .receiver os).bind
        (State.endFinalize { s with receiver := false } t .receiver)
    else none

/-- The channel that `bounded` returned, with its two handles. -/
def State.init (capacity : ℕ) : State α T :=
  { core := channelReceiver (channelNew capacity), threads := fun _ => .run .idle, senders := {0}
    receiver := true, boxes := 0, freed := false }

/-- The statuses of the primitives that an action calls. -/
def Action.os : Action α T → Os
  | lock _ os _ => os
  | resume _ os _ => os
  | senderClose _ _ os => os
  | receiverClose _ os => os
  | share _ _ _ os => os
  | length _ os => os
  | dropSender _ _ os => os
  | dropReceiver _ os => os
  | _ => {}

/-- The error that the test hook of `sync_sender_try_send` injects. -/
def Action.injected : Action α T → ℤ
  | callSend _ _ _ _ injected => injected
  | _ => 0

/-- The number of live handles. -/
def State.handles (s : State α T) : ℕ := s.senders.card + s.receiver.toNat

/-- The assumptions on a step: the primitives succeed and fewer than `2^31` handles are live. -/
def Assumed (_ : State α T) (a : Action α T) (s' : State α T) : Prop :=
  a.os = {} ∧ a.injected = 0 ∧ s'.handles < 2147483648

instance (s : State α T) (a : Action α T) (s' : State α T) : Decidable (Assumed s a s') :=
  inferInstanceAs (Decidable (_ ∧ _ ∧ _))

end NativeSync.Channel
