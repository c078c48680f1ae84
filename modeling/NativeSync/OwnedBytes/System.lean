import NativeSync.Foundations.Runs
import NativeSync.OwnedBytes.Core
import Mathlib.Data.Finset.Basic
import Mathlib.Data.Fintype.Basic

/-!
# The OwnedBytes channel: the system of its threads

Any number of threads work on one channel, through sender handles, of which `share` makes new ones
and the finalizer removes one, and through the receiver handle. A thread stands at a point of the
operation it is in:

* `submit`: before the mutex, in a pass of `sync_owned_bytes_submit`, or in its wait;
* `copy`: in the unlocked copy between the two passes;
* `receive`: before the mutex, in the pass of `sync_owned_bytes_receive`, or in its wait.

`step` takes one action: a call, one critical section, a copy, a spurious wake-up, the return from
a wait, or one of the operations that consist of a single section. The choice of the sleeper that a
signal wakes, the statuses of the primitives and the bytes that are sent are part of the action. A
step that completes an operation emits its result.

The receiver is single-consumer: at most one thread is in a receive. `manyStep` is the same without
that rule, which the code does not enforce, and `freeStep` takes a step of it only while the core
has not been freed. A handle is not dropped while an operation on it runs, as the caller of an
operation keeps it alive.
-/

namespace NativeSync.OwnedBytes

open Foundations

/-- The sending operations of `OwnedBytesSender`. -/
inductive SendKind
  | trySend
  | send
  | sendChecked
  deriving DecidableEq

/-- The `block` argument of `sync_owned_bytes_submit`. -/
def SendKind.block : SendKind → Bool
  | trySend => false
  | send => true
  | sendChecked => true

/-- The operations of the channel. -/
inductive Op
  | send (kind : SendKind) (message : Bytes)
  | recv (block : Bool)
  | length
  | senderClose
  | receiverClose
  | share
  | drop (role : Role)
  deriving DecidableEq

/-- The results of the operations. -/
inductive Result
  | trySend (r : Except SyncError TrySendResult)
  | send (r : Except SyncError Bool)
  | sendChecked (r : Except SyncError SendResult)
  | tryRecv (r : Except SyncError TryRecvResult)
  | recv (r : Except SyncError (Option (List UInt8)))
  | length (r : Except SyncError ℤ)
  | unit (r : Except SyncError Unit)
  deriving DecidableEq

/-- What a run shows: the copies made and released, the end of the core, and the operations that
completed, each with the thread that called it. -/
inductive Event (T : Type)
  | copied (addr : ℕ)
  | released (addr : ℕ)
  | freed
  | ret (t : T) (op : Op) (r : Result)
  deriving DecidableEq

/-- Where a thread stands; `h` is the sender handle it uses and `message` its native copy. -/
inductive Point
  | idle
  | submit (h : ℕ) (kind : SendKind) (bytes : Bytes) (message : Option Message)
  | copy (h : ℕ) (kind : SendKind) (bytes : Bytes)
  | receive (block : Bool)
  deriving DecidableEq

/-- The condition variable that a thread at a point waits on. -/
def Point.cond : Point → Option Cond
  | submit .. => some .writable
  | receive _ => some .readable
  | _ => none

/-- The sender handle that a thread at a point uses. -/
def Point.handle : Point → Option ℕ
  | submit h .. => some h
  | copy h .. => some h
  | _ => none

/-- Whether a thread at a point is in an operation of the receiver. -/
def Point.receiving : Point → Bool
  | receive _ => true
  | _ => false

/-- The channel, its threads and its live handles; `copies` counts the native copies made. -/
structure State (T : Type) where
  core : Core
  threads : T → Pc Point
  senders : Finset ℕ
  receiver : Bool
  copies : ℕ
  freed : Bool

/-- The actions. `h` names a sender handle, `pick` the sleeper that a signal wakes. -/
inductive Action (T : Type)
  | callSend (t : T) (h : ℕ) (kind : SendKind) (bytes : Bytes) (injected : ℤ)
  | callRecv (t : T) (block : Bool)
  | lock (t : T) (os : Os) (pick : Option T)
  | copy (t : T)
  | spurious (t : T)
  | resume (t : T) (os : Os) (pick : Option T)
  | senderClose (t : T) (h : ℕ) (os : Os)
  | receiverClose (t : T) (os : Os)
  | share (t : T) (h h' : ℕ) (os : Os)
  | length (t : T) (os : Os)
  | dropSender (t : T) (h : ℕ) (os : Os)
  | dropReceiver (t : T) (os : Os)
  deriving DecidableEq

/-- The result of a send for the code and error of the native call. -/
def SendKind.result (kind : SendKind) (core : Core) (bytes : Bytes) (code error : ℤ) : Result :=
  match kind with
  | trySend => .trySend (trySendResult core bytes code error)
  | send => .send (sendResult core bytes code error)
  | sendChecked => .sendChecked (sendCheckedResult core bytes code error)

/-- The result of a receive for the outcome of the native call. -/
def recvOpResult (block : Bool) (raw : Option Message) (status error : ℤ) : Result :=
  if block then .recv (recvResult raw status error) else .tryRecv (tryRecvResult raw status error)

variable {T : Type} [Fintype T] [DecidableEq T]

namespace State

/-- Thread `t` moves to `x`. -/
def move (s : State T) (t : T) (x : Pc Point) : State T :=
  { s with threads := Function.update s.threads t x }

/-- Leave thread `t` where a pass of a send ended, and notify. -/
def endSubmit (s : State T) (t : T) (h : ℕ) (kind : SendKind) (bytes : Bytes)
    (message : Option Message) (pick : Option T) (sec : Section Core Cond SubmitExit) :
    Option (State T × List (Event T)) :=
  match sec.exit with
  | .sleep => some (s.move t (.wait .asleep (.submit h kind bytes message)), [])
  | .copy => some (s.move t (.run (.copy h kind bytes)), [])
  | .ret code error released =>
    (deliver Point.cond pick sec.wakes (Function.update s.threads t (.run .idle))).map fun f =>
      ({ s with core := sec.core, threads := f },
        (released.map fun m => Event.released m.addr).toList ++
          [.ret t (.send kind bytes) (kind.result sec.core bytes code error)])

/-- Leave thread `t` where a pass of a receive ended, and notify. -/
def endReceive (s : State T) (t : T) (block : Bool) (pick : Option T)
    (sec : Section Core Cond ReceiveExit) : Option (State T × List (Event T)) :=
  match sec.exit with
  | .sleep => some (s.move t (.wait .asleep (.receive block)), [])
  | .ret status error message =>
    (deliver Point.cond pick sec.wakes (Function.update s.threads t (.run .idle))).map fun f =>
      ({ s with core := sec.core, threads := f },
        (message.map fun m => Event.released m.addr).toList ++
          [.ret t (.recv block) (recvOpResult block message status error)])

/-- The end of a finalizer: its section is over and it gives up its reference. -/
def endFinalize (s : State T) (t : T) (role : Role) (sec : Section Core Cond Unit) :
    Option (State T × List (Event T)) :=
  (deliver Point.cond none sec.wakes s.threads).map fun f =>
    let r := coreRelease sec.core
    ({ s with core := r.1, threads := f, freed := s.freed || r.2.isSome },
      (r.2.map fun ms => ms.map (fun m => Event.released m.addr) ++ [.freed]).getD [] ++
        [.ret t (.drop role) (.unit (.ok ()))])

end State

/-- One step of the system. -/
def step (s : State T) : Action T → Option (State T × List (Event T))
  | .callSend t h kind bytes injected =>
    if s.threads t = .run .idle ∧ h ∈ s.senders then
      if injected ≠ 0 then
        some (s, [.ret t (.send kind bytes) (kind.result s.core bytes 2 injected)])
      else some (s.move t (.run (.submit h kind bytes none)), [])
    else none
  | .callRecv t block =>
    if s.threads t = .run .idle ∧ s.receiver = true ∧
        ∀ u, (s.threads u).point.receiving = false then
      some (s.move t (.run (.receive block)), [])
    else none
  | .lock t os pick =>
    match s.threads t with
    | .run (.submit h kind bytes message) =>
      s.endSubmit t h kind bytes message pick
        (submit s.core bytes.length kind.block message os)
    | .run (.receive block) => (receive s.core block os).bind (s.endReceive t block pick)
    | _ => none
  | .copy t =>
    match s.threads t with
    | .run (.copy h kind bytes) =>
      let m := messageCopy s.copies bytes bytes.length
      some ({ s.move t (.run (.submit h kind bytes (some m))) with copies := s.copies + 1 },
        [.copied s.copies])
    | _ => none
  | .spurious t =>
    match s.threads t with
    | .wait .asleep p => some (s.move t (.wait .spurious p), [])
    | _ => none
  | .resume t os pick =>
    match s.threads t with
    | .wait .asleep _ => none
    | .wait _ (.submit h kind bytes message) =>
      s.endSubmit t h kind bytes message pick
        (submitWoken s.core bytes.length kind.block message os)
    | .wait _ (.receive block) => (receiveWoken s.core block os).bind (s.endReceive t block pick)
    | _ => none
  | .senderClose t h os =>
    if s.threads t = .run .idle ∧ h ∈ s.senders then
      let sec := senderClose s.core os
      (deliver Point.cond none sec.wakes s.threads).map fun f =>
        ({ s with core := sec.core, threads := f },
          [.ret t .senderClose (.unit (statusResult () sec.exit))])
    else none
  | .receiverClose t os =>
    if s.threads t = .run .idle ∧ s.receiver = true then
      let sec := receiverClose s.core os
      (deliver Point.cond none sec.wakes s.threads).map fun f =>
        ({ s with core := sec.core, threads := f },
          [.ret t .receiverClose (.unit (statusResult () sec.exit))])
    else none
  | .share t h h' os =>
    if s.threads t = .run .idle ∧ h ∈ s.senders ∧ h' ∉ s.senders then
      let sec := senderShare s.core os
      some ({ s with
          core := sec.core
          senders := if sec.exit.2 then insert h' s.senders else s.senders },
        [.ret t .share (.unit (statusResult () sec.exit.1))])
    else none
  | .length t os =>
    if s.threads t = .run .idle ∧ s.receiver = true then
      some (s, [.ret t .length
        (.length (statusResult (receiverLen s.core os).1 (receiverLen s.core os).2))])
    else none
  | .dropSender t h os =>
    if s.threads t = .run .idle ∧ h ∈ s.senders ∧
        ∀ u, (s.threads u).point.handle ≠ some h then
      (finalize s.core .sender os).bind
        (State.endFinalize { s with senders := s.senders.erase h } t .sender)
    else none
  | .dropReceiver t os =>
    if s.threads t = .run .idle ∧ s.receiver = true ∧
        ∀ u, (s.threads u).point.receiving = false then
      (finalize s.core .receiver os).bind
        (State.endFinalize { s with receiver := false } t .receiver)
    else none

/-- One step of the system when any number of threads may receive at once: the code does not test
that its receiver has a single consumer. -/
def manyStep (s : State T) : Action T → Option (State T × List (Event T))
  | .callRecv t block =>
    if s.threads t = .run .idle ∧ s.receiver = true then
      some (s.move t (.run (.receive block)), [])
    else none
  | a => step s a

/-- The same while the core is there. The mutex goes with the core: an operation on a handle that is
left when it was freed works on freed memory, and there is no step. -/
def freeStep (s : State T) (a : Action T) : Option (State T × List (Event T)) :=
  if s.freed then none else manyStep s a

theorem freeStep_eq_some {s : State T} {a : Action T} {r : State T × List (Event T)} :
    freeStep s a = some r ↔ s.freed = false ∧ manyStep s a = some r := by
  unfold freeStep
  cases s.freed <;> simp

/-- The channel that `owned_bytes_bounded_with_limits` returned, with its two handles. -/
def State.init (core : Core) : State T :=
  { core, threads := fun _ => .run .idle, senders := {0}, receiver := true, copies := 0
    freed := false }

/-- The statuses of the primitives that an action calls. -/
def Action.os : Action T → Os
  | lock _ os _ => os
  | resume _ os _ => os
  | senderClose _ _ os => os
  | receiverClose _ os => os
  | share _ _ _ os => os
  | length _ os => os
  | dropSender _ _ os => os
  | dropReceiver _ os => os
  | _ => {}

/-- The error that the test hook of `sync_owned_bytes_submit` injects. -/
def Action.injected : Action T → ℤ
  | callSend _ _ _ _ injected => injected
  | _ => 0

/-- The message that an action sends. -/
def Action.bytes : Action T → Option Bytes
  | callSend _ _ _ bytes _ => some bytes
  | _ => none

/-- The number of live handles. -/
def State.handles (s : State T) : ℕ := s.senders.card + s.receiver.toNat

/-- The assumptions on a step: the primitives succeed and fewer than `2^31` handles are live. -/
def Assumed (_ : State T) (a : Action T) (s' : State T) : Prop :=
  a.os = {} ∧ a.injected = 0 ∧ s'.handles < 2147483648

instance (s : State T) (a : Action T) (s' : State T) : Decidable (Assumed s a s') :=
  inferInstanceAs (Decidable (_ ∧ _ ∧ _))

end NativeSync.OwnedBytes
