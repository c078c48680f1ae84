import NativeSync.Endpoints
import NativeSync.Foundations.RingBuffer

/-!
# The generic channel: the core and its critical sections

The bounded channel that retains the submitted value (`unsafe/channel/native.c`), and the MoonBit
wrappers over it (`unsafe/channel/channel.mbt`). A value is boxed before it is submitted, and it is
the box that moves between the caller, the slots and the receiver.

The two ways to submit are coded separately: `trySend` is one critical section, while `send` may
sleep on `writable` and goes on with `sendWoken`; `sendLoop` is what its passes have in common from
the `while` on. Both receives share `receiveLoop`.

The `…Result` functions are the wrappers. They unbox what the C function returned; where that is a
null pointer there is no result.
-/

namespace NativeSync.Channel

open Foundations

/-! ## Data -/

/-- A boxed value (`RawBox`), with the identity of its allocation. -/
structure Box (α : Type) where
  addr : ℕ
  val : α
  deriving DecidableEq

/-- The shared state of a channel (`sync_channel_core_t`): `ring` stands for the fields `slots`,
`capacity`, `head`, `tail` and `count`. -/
structure Core (α : Type) extends Endpoints where
  ring : RingBuffer (Box α)

variable {α : Type}

/-! ## Submitting -/

/-- How a pass of a send through the mutex ends. -/
inductive SendExit (α : Type)
  /-- It sleeps on `writable`. -/
  | sleep
  /-- It returns with `*result = result` and `*error = error`, and with the box if it was not
  taken. -/
  | ret (result error : ℤ) (returned : Option (Box α))

/-- The box is written at the tail and a receiver is woken. -/
def enqueue (core : Core α) (message : Box α) (os : Os) : Section (Core α) Cond (SendExit α) :=
  { core := { core with ring := core.ring.push message }
    wakes := if os.cond₁ = 0 then [.signal .readable] else []
    exit := .ret 0 (recordError (recordError 0 os.cond₁) os.unlock) none }

/-- `sync_sender_try_send` after its test hook. -/
def trySend (core : Core α) (message : Box α) (os : Os) : Section (Core α) Cond (SendExit α) :=
  if os.lock ≠ 0 then { core, exit := .ret 2 os.lock (some message) }
  else if core.closed || !core.receiverAlive then
    { core, exit := .ret 2 (recordError 0 os.unlock) (some message) }
  else if core.ring.count == core.ring.capacity then
    { core, exit := .ret 1 (recordError 0 os.unlock) (some message) }
  else enqueue core message os

/-- A pass of `sync_sender_send` from the `while` loop on. -/
def sendLoop (core : Core α) (message : Box α) (os : Os) : Section (Core α) Cond (SendExit α) :=
  if core.ring.count == core.ring.capacity && !core.closed && core.receiverAlive then
    if os.wait ≠ 0 then
      { core, exit := .ret 2 (recordError (recordError 0 os.wait) os.unlock) (some message) }
    else { core, exit := .sleep }
  else if core.closed || !core.receiverAlive then
    { core, exit := .ret 2 (recordError 0 os.unlock) (some message) }
  else enqueue core message os

/-- A pass of `sync_sender_send` that starts by taking the mutex. -/
def send (core : Core α) (message : Box α) (os : Os) : Section (Core α) Cond (SendExit α) :=
  if os.lock ≠ 0 then { core, exit := .ret 2 os.lock (some message) }
  else sendLoop core message os

/-- A pass of `sync_sender_send` that starts with the return of its condition wait. -/
def sendWoken (core : Core α) (message : Box α) (os : Os) : Section (Core α) Cond (SendExit α) :=
  if os.wake ≠ 0 then
    { core, exit := .ret 2 (recordError (recordError 0 os.wake) os.unlock) (some message) }
  else sendLoop core message os

/-! ## Receiving -/

/-- How a pass of `sync_channel_receive` through the mutex ends. -/
inductive ReceiveExit (α : Type)
  /-- It sleeps on `readable`. -/
  | sleep
  /-- It returns with `*status = status` and `*error = error`, and with a box if any. -/
  | ret (status error : ℤ) (message : Option (Box α))

/-- A pass of `sync_channel_receive` from the `while` loop on; `slots[head]` may be null. -/
def receiveLoop (core : Core α) (block : Bool) (os : Os) :
    Section (Core α) Cond (ReceiveExit α) :=
  if block && core.ring.count == 0 && !core.closed then
    if os.wait ≠ 0 then
      { core, exit := .ret 2 (recordError (recordError 0 os.wait) os.unlock) none }
    else { core, exit := .sleep }
  else if core.ring.count == 0 then
    { core, exit := .ret (if core.closed then 2 else 1) (recordError 0 os.unlock) none }
  else
    { core := { core with ring := core.ring.pop }
      wakes := if os.cond₁ = 0 then [.signal .writable] else []
      exit := .ret 0 (recordError (recordError 0 os.cond₁) os.unlock)
        (core.ring.slots core.ring.head) }

/-- A pass of `sync_channel_receive` that starts by taking the mutex. -/
def receive (core : Core α) (block : Bool) (os : Os) : Section (Core α) Cond (ReceiveExit α) :=
  if os.lock ≠ 0 then { core, exit := .ret 2 os.lock none } else receiveLoop core block os

/-- A pass of `sync_channel_receive` that starts with the return of its condition wait. -/
def receiveWoken (core : Core α) (block : Bool) (os : Os) :
    Section (Core α) Cond (ReceiveExit α) :=
  if os.wake ≠ 0 then
    { core, exit := .ret 2 (recordError (recordError 0 os.wake) os.unlock) none }
  else receiveLoop core block os

/-! ## Closing, sharing and dropping -/

/-- The core with other endpoints. -/
def Core.setEndpoints (core : Core α) (c : Endpoints) : Core α := { core with toEndpoints := c }

/-- `sync_sender_close`. -/
def senderClose (core : Core α) (os : Os) : Section (Core α) Cond ℤ :=
  (core.toEndpoints.senderClose os).map core.setEndpoints

/-- `sync_receiver_close`. -/
def receiverClose (core : Core α) (os : Os) : Section (Core α) Cond ℤ :=
  (core.toEndpoints.receiverClose os).map core.setEndpoints

/-- `sync_sender_share`. -/
def senderShare (core : Core α) (os : Os) : Section (Core α) Cond (ℤ × Bool) :=
  (core.toEndpoints.senderShare os).map core.setEndpoints

/-- `sync_receiver_len`; the exit is the length and `*error`. -/
def receiverLen (core : Core α) (os : Os) : ℤ × ℤ :=
  if os.lock ≠ 0 then (0, os.lock) else (core.ring.count, recordError 0 os.unlock)

/-- The critical section of `sync_channel_finalize`. -/
def finalize (core : Core α) (role : Role) (os : Os) : Option (Section (Core α) Cond Unit) :=
  (core.toEndpoints.finalize role os).map fun sec => sec.map core.setEndpoints

/-- `sync_channel_core_release`: the core without the reference, and the boxes released when it was
the last one (`none` if it was not). -/
def coreRelease (core : Core α) : Core α × Option (List (Box α)) :=
  let core := core.setEndpoints core.toEndpoints.release
  (core, if core.refs = 0 then some core.ring.slotList else none)

/-! ## Construction -/

/-- `sync_channel_new` with successful primitives. -/
def channelNew (capacity : ℤ) : Core α :=
  { refs := 1, ring := .empty capacity.toNat, senders := 1, receiverAlive := false
    closed := false }

/-- `sync_channel_receiver` with successful primitives. -/
def channelReceiver (core : Core α) : Core α :=
  { core with receiverAlive := true, refs := arcInc core.refs }

/-- `bounded`; `init` and `lock` are the statuses of the native constructor and of the section that
adds the receiver. -/
def bounded (capacity init lock : ℤ) : Except SyncError (Core α) :=
  if capacity ≤ 0 then .error (.invalidCapacity capacity)
  else if init ≠ 0 then .error (.channelInitializationFailed init)
  else if lock ≠ 0 then .error (.channelOperationFailed lock)
  else .ok (channelReceiver (channelNew capacity))

/-- **The constructor accepts exactly the positive capacities.** -/
theorem bounded_eq_ok {capacity init lock : ℤ} {core : Core α} :
    bounded capacity init lock = .ok core ↔
      init = 0 ∧ lock = 0 ∧ ∃ n : ℕ, 0 < n ∧ capacity = n ∧
        core = channelReceiver (channelNew n) := by
  constructor
  · intro h
    unfold bounded at h
    split_ifs at h with h₁ h₂ h₃
    refine ⟨not_not.1 h₂, not_not.1 h₃, capacity.toNat, by omega, by omega, ?_⟩
    rw [Int.toNat_of_nonneg (by omega)]
    exact (Except.ok.inj h).symm
  · rintro ⟨rfl, rfl, n, hn, rfl, rfl⟩
    unfold bounded
    rw [if_neg (by omega), if_neg (by simp), if_neg (by simp)]

/-! ## The wrappers -/

/-- The result of a non-blocking send (`TrySendResult`). -/
inductive TrySendResult (α : Type)
  | sent
  | full (value : α)
  | closed (value : α)
  deriving DecidableEq

/-- The result of a non-blocking receive (`TryRecvResult`). -/
inductive TryRecvResult (α : Type)
  | received (value : α)
  | empty
  | closed
  deriving DecidableEq

/-- `Sender::try_send` after the native call. -/
def trySendResult (returned : Option (Box α)) (result status : ℤ) :
    Option (Except SyncError (TrySendResult α)) :=
  if status ≠ 0 then some (.error (.channelOperationFailed status))
  else if result = 0 then some (.ok .sent)
  else if result = 1 then returned.map fun cell => .ok (.full cell.val)
  else returned.map fun cell => .ok (.closed cell.val)

/-- `Sender::send` after the native call; the inner `Except` is its `Result`. -/
def sendResult (returned : Option (Box α)) (result status : ℤ) :
    Option (Except SyncError (Except α Unit)) :=
  if status ≠ 0 then some (.error (.channelOperationFailed status))
  else if result = 0 then some (.ok (.ok ()))
  else returned.map fun cell => .ok (.error cell.val)

/-- `Receiver::try_recv` after the native call. -/
def tryRecvResult (raw : Option (Box α)) (status error : ℤ) :
    Option (Except SyncError (TryRecvResult α)) :=
  if error ≠ 0 then some (.error (.channelOperationFailed error))
  else if status = 0 then raw.map fun cell => .ok (.received cell.val)
  else if status = 1 then some (.ok .empty)
  else some (.ok .closed)

/-- `Receiver::recv` after the native call. -/
def recvResult (raw : Option (Box α)) (status error : ℤ) :
    Option (Except SyncError (Option α)) :=
  if error ≠ 0 then some (.error (.channelOperationFailed error))
  else if status = 0 then raw.map fun cell => .ok (some cell.val)
  else some (.ok none)

/-! ## The two ways to submit -/

/-- **`send` and `try_send` agree** unless the channel is open and full, whatever the statuses of
the primitives. -/
theorem send_eq_trySend (core : Core α) (message : Box α) (os : Os)
    (h : ¬(core.Open ∧ core.ring.count = core.ring.capacity)) :
    send core message os = trySend core message os := by
  unfold send trySend sendLoop
  by_cases hfull : core.ring.count = core.ring.capacity
  · have hclosed : (core.closed || !core.receiverAlive) = true :=
      core.not_open_iff.1 fun ho => h ⟨ho, hfull⟩
    have hwait : (core.ring.count == core.ring.capacity && !core.closed && core.receiverAlive) =
        false := by
      rw [hfull, beq_self_eq_true, Bool.true_and]
      cases hc : core.closed <;> cases ha : core.receiverAlive <;> simp_all
    simp only [hwait, hclosed, if_true, Bool.false_eq_true, if_false]
  · have hne : (core.ring.count == core.ring.capacity) = false := by simpa using hfull
    simp only [hne, Bool.false_and, Bool.false_eq_true, if_false]

end NativeSync.Channel
