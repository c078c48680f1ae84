import NativeSync.Foundations.RingBuffer
import NativeSync.Endpoints

/-!
# The OwnedBytes channel: the core and its critical sections

The channel that copies byte strings into native storage (`channel/native.c`), and the MoonBit
wrappers over it (`channel/owned_bytes_channel.mbt`).

Each definition is one critical section of the C code, from the lock (or the return of a condition
wait) to the unlock (or the next wait):

* `submit` and `submitWoken` are the passes of `sync_owned_bytes_submit` through the mutex. Its
  loop takes the mutex a first time to check (`message = none`), copies outside the mutex and
  takes it a second time to check again and enqueue; `submitLoop` is what both have in common from
  the `while` on.
* `receive` and `receiveWoken` are the passes of `sync_owned_bytes_receive`.
* `senderClose`, `receiverClose`, `senderShare`, `receiverLen` and `finalize` have one section.

The `…Result` functions are the wrappers, which turn the code and the error of the C function into
a result or a raised error.
-/

namespace NativeSync.OwnedBytes

open Foundations

/-! ## Data -/

/-- A MoonBit `Bytes` value; its length is an `Int32`. -/
structure Bytes where
  data : List UInt8
  length_le : data.length ≤ 2147483647
  deriving DecidableEq

/-- `Moonbit_array_length`. -/
def Bytes.length (b : Bytes) : ℤ := b.data.length

/-- A native copy of a message (`sync_owned_bytes_message_t`), with the identity of its
allocation. -/
structure Message where
  addr : ℕ
  data : List UInt8
  length : ℤ
  deriving DecidableEq

/-- The shared state of a channel (`sync_owned_bytes_channel_core_t`): `ring` stands for the
fields `slots`, `capacity`, `head`, `tail` and `count`. -/
structure Core extends Endpoints where
  ring : RingBuffer Message
  maxMessageBytes : ℤ
  maxQueuedBytes : ℤ
  queuedBytes : ℤ

/-- `sync_owned_bytes_message_copy`, into the allocation `addr`. -/
def messageCopy (addr : ℕ) (bytes : Bytes) (length : ℤ) : Message :=
  { addr, length, data := if length > 0 then bytes.data.take length.toNat else [] }

/-- `sync_owned_bytes_has_byte_capacity`. -/
def Core.hasByteCapacity (core : Core) (messageLength : ℤ) : Bool :=
  messageLength ≤ core.maxQueuedBytes - core.queuedBytes

/-- `sync_owned_bytes_into_moonbit`: the bytes handed out; the native copy is released. -/
def intoMoonbit (message : Message) : List UInt8 :=
  if message.length > 0 then message.data.take message.length.toNat else []

/-! ## Submitting -/

/-- How a pass of `sync_owned_bytes_submit` through the mutex ends. -/
inductive SubmitExit
  /-- It sleeps on `writable`. -/
  | sleep
  /-- It has released the mutex to copy the message and will come back. -/
  | copy
  /-- It returns `code` with `*error = error`; `released` is the copy it gives up. -/
  | ret (code error : ℤ) (released : Option Message)

/-- A pass of `sync_owned_bytes_submit` from the `while` loop on. -/
def submitLoop (core : Core) (messageLength : ℤ) (block : Bool) (message : Option Message)
    (os : Os) : Section Core Cond SubmitExit :=
  if block && !core.closed && core.receiverAlive &&
      (core.ring.count == core.ring.capacity || !core.hasByteCapacity messageLength) then
    if os.wait ≠ 0 then
      { core, exit := .ret 2 (recordError (recordError 0 os.wait) os.unlock) message }
    else { core, exit := .sleep }
  else if core.closed || !core.receiverAlive then
    { core, exit := .ret 2 (recordError 0 os.unlock) message }
  else if core.ring.count == core.ring.capacity then
    { core, exit := .ret 1 (recordError 0 os.unlock) message }
  else if !core.hasByteCapacity messageLength then
    { core, exit := .ret 4 (recordError 0 os.unlock) message }
  else
    match message with
    | none =>
      if recordError 0 os.unlock ≠ 0 then { core, exit := .ret 2 (recordError 0 os.unlock) none }
      else { core, exit := .copy }
    | some m =>
      { core := { core with
          ring := core.ring.push m
          queuedBytes := core.queuedBytes + messageLength }
        wakes := if os.cond₁ = 0 then [.signal .readable] else []
        exit := .ret 0 (recordError (recordError 0 os.cond₁) os.unlock) none }

/-- A pass of `sync_owned_bytes_submit` that starts by taking the mutex. -/
def submit (core : Core) (messageLength : ℤ) (block : Bool) (message : Option Message)
    (os : Os) : Section Core Cond SubmitExit :=
  if os.lock ≠ 0 then { core, exit := .ret 2 os.lock message }
  else if messageLength > core.maxMessageBytes then
    { core, exit := .ret 3 (recordError 0 os.unlock) message }
  else submitLoop core messageLength block message os

/-- A pass of `sync_owned_bytes_submit` that starts with the return of its condition wait. -/
def submitWoken (core : Core) (messageLength : ℤ) (block : Bool) (message : Option Message)
    (os : Os) : Section Core Cond SubmitExit :=
  if os.wake ≠ 0 then
    { core, exit := .ret 2 (recordError (recordError 0 os.wake) os.unlock) message }
  else submitLoop core messageLength block message os

/-! ## Receiving -/

/-- How a pass of `sync_owned_bytes_receive` through the mutex ends. -/
inductive ReceiveExit
  /-- It sleeps on `readable`. -/
  | sleep
  /-- It returns with `*status = status` and `*error = error`, and with a message if any. -/
  | ret (status error : ℤ) (message : Option Message)

/-- A pass of `sync_owned_bytes_receive` from the `while` loop on. An occupied head slot that
holds no message would be a null pointer dereference: there is no step. -/
def receiveLoop (core : Core) (block : Bool) (os : Os) : Option (Section Core Cond ReceiveExit) :=
  if block && core.ring.count == 0 && !core.closed then
    if os.wait ≠ 0 then
      some { core, exit := .ret 2 (recordError (recordError 0 os.wait) os.unlock) none }
    else some { core, exit := .sleep }
  else if core.ring.count == 0 then
    some { core, exit := .ret (if core.closed then 2 else 1) (recordError 0 os.unlock) none }
  else
    match core.ring.slots core.ring.head with
    | none => none
    | some m =>
      some
        { core := { core with
            ring := core.ring.pop
            queuedBytes := core.queuedBytes - m.length }
          wakes := if os.cond₁ = 0 then [.signal .writable] else []
          exit := .ret 0 (recordError (recordError 0 os.cond₁) os.unlock) (some m) }

/-- A pass of `sync_owned_bytes_receive` that starts by taking the mutex. -/
def receive (core : Core) (block : Bool) (os : Os) : Option (Section Core Cond ReceiveExit) :=
  if os.lock ≠ 0 then some { core, exit := .ret 2 os.lock none } else receiveLoop core block os

/-- A pass of `sync_owned_bytes_receive` that starts with the return of its condition wait. -/
def receiveWoken (core : Core) (block : Bool) (os : Os) :
    Option (Section Core Cond ReceiveExit) :=
  if os.wake ≠ 0 then
    some { core, exit := .ret 2 (recordError (recordError 0 os.wake) os.unlock) none }
  else receiveLoop core block os

/-! ## Closing, sharing and dropping -/

/-- The core with other endpoints. -/
def Core.setEndpoints (core : Core) (c : Endpoints) : Core := { core with toEndpoints := c }

/-- `sync_owned_bytes_sender_close`. -/
def senderClose (core : Core) (os : Os) : Section Core Cond ℤ :=
  (core.toEndpoints.senderClose os).map core.setEndpoints

/-- `sync_owned_bytes_receiver_close`. -/
def receiverClose (core : Core) (os : Os) : Section Core Cond ℤ :=
  (core.toEndpoints.receiverClose os).map core.setEndpoints

/-- `sync_owned_bytes_sender_share`. -/
def senderShare (core : Core) (os : Os) : Section Core Cond (ℤ × Bool) :=
  (core.toEndpoints.senderShare os).map core.setEndpoints

/-- `sync_owned_bytes_receiver_len`; the exit is the length and `*error`. -/
def receiverLen (core : Core) (os : Os) : ℤ × ℤ :=
  if os.lock ≠ 0 then (0, os.lock) else (core.ring.count, recordError 0 os.unlock)

/-- The critical section of `sync_owned_bytes_finalize`. -/
def finalize (core : Core) (role : Role) (os : Os) : Option (Section Core Cond Unit) :=
  (core.toEndpoints.finalize role os).map fun sec => sec.map core.setEndpoints

/-- `sync_owned_bytes_core_release`: the core without the reference, and the messages released
when it was the last one (`none` if it was not). -/
def coreRelease (core : Core) : Core × Option (List Message) :=
  let core := { core with refs := arcDec core.refs }
  (core, if core.refs = 0 then some core.ring.slotList else none)

/-! ## Construction -/

/-- `sync_owned_bytes_channel_new` with successful primitives. -/
def channelNew (capacity maxMessageBytes maxQueuedBytes : ℤ) : Core :=
  { refs := 1, ring := .empty capacity.toNat, maxMessageBytes, maxQueuedBytes, queuedBytes := 0
    senders := 1, receiverAlive := false, closed := false }

/-- `sync_owned_bytes_channel_receiver` with successful primitives. -/
def channelReceiver (core : Core) : Core :=
  { core with receiverAlive := true, refs := arcInc core.refs }

/-- `owned_bytes_bounded_with_limits`; `init` and `lock` are the statuses of the native
constructor and of the section that adds the receiver. -/
def ownedBytesBoundedWithLimits (capacity maxMessageBytes maxQueuedBytes init lock : ℤ) :
    Except SyncError Core :=
  if capacity ≤ 0 then .error (.invalidCapacity capacity)
  else if maxMessageBytes ≤ 0 then .error (.invalidMessageSizeLimit maxMessageBytes)
  else if maxQueuedBytes ≤ 0 then .error (.invalidQueuedByteLimit maxQueuedBytes)
  else if maxMessageBytes > maxQueuedBytes then .error .invalidOwnedBytesLimits
  else if init ≠ 0 then .error (.channelInitializationFailed init)
  else if lock ≠ 0 then .error (.channelOperationFailed lock)
  else .ok (channelReceiver (channelNew capacity maxMessageBytes maxQueuedBytes))

/-- The limits that `owned_bytes_bounded_with_limits` accepts. -/
structure Limits where
  capacity : ℕ
  maxMessageBytes : ℕ
  maxQueuedBytes : ℕ
  capacity_pos : 0 < capacity
  maxMessageBytes_pos : 0 < maxMessageBytes
  message_le_queued : maxMessageBytes ≤ maxQueuedBytes
  capacity_le : capacity ≤ 2147483647
  maxQueuedBytes_le : maxQueuedBytes ≤ 2147483647

/-- Limits under which one message of four bytes fills the channel. -/
def fourBytes : Limits :=
  ⟨3, 4, 4, by decide, by decide, by decide, by decide, by decide⟩

/-- The core of a new channel with these limits, with its first sender and its receiver. -/
def Limits.core (L : Limits) : Core :=
  channelReceiver (channelNew L.capacity L.maxMessageBytes L.maxQueuedBytes)

/-- **The constructor accepts exactly the limits of `Limits`**, given `Int32` arguments. -/
theorem ownedBytesBoundedWithLimits_eq_ok {capacity maxMessage maxQueued init lock : ℤ}
    (hc : capacity ≤ int32Max) (hq : maxQueued ≤ int32Max) {core : Core} :
    ownedBytesBoundedWithLimits capacity maxMessage maxQueued init lock = .ok core ↔
      init = 0 ∧ lock = 0 ∧ ∃ L : Limits, capacity = L.capacity ∧ maxMessage = L.maxMessageBytes ∧
        maxQueued = L.maxQueuedBytes ∧ core = L.core := by
  unfold int32Max at hc hq
  constructor
  · intro h
    unfold ownedBytesBoundedWithLimits at h
    split_ifs at h with h₁ h₂ h₃ h₄ h₅ h₆
    refine ⟨not_not.1 h₅, not_not.1 h₆, ⟨capacity.toNat, maxMessage.toNat, maxQueued.toNat,
      by omega, by omega, by omega, by omega, by omega⟩,
      by simp; omega, by simp; omega, by simp; omega, ?_⟩
    have e₁ : (capacity.toNat : ℤ) = capacity := Int.toNat_of_nonneg (by omega)
    have e₂ : (maxMessage.toNat : ℤ) = maxMessage := Int.toNat_of_nonneg (by omega)
    have e₃ : (maxQueued.toNat : ℤ) = maxQueued := Int.toNat_of_nonneg (by omega)
    simp only [Limits.core, e₁, e₂, e₃]
    exact (Except.ok.inj h).symm
  · rintro ⟨rfl, rfl, L, rfl, rfl, rfl, rfl⟩
    have h₁ := L.capacity_pos
    have h₂ := L.maxMessageBytes_pos
    have h₃ := L.message_le_queued
    unfold ownedBytesBoundedWithLimits
    rw [if_neg (by omega), if_neg (by omega), if_neg (by omega), if_neg (by omega),
      if_neg (by simp), if_neg (by simp)]
    rfl

/-! ## The wrappers -/

/-- The result of a non-blocking send (`OwnedBytesTrySendResult`). -/
inductive TrySendResult
  | sent
  | full
  | queueByteLimitReached (length limit : ℤ)
  | messageTooLarge (length limit : ℤ)
  | closed
  deriving DecidableEq

/-- The result of a blocking send (`OwnedBytesSendResult`). -/
inductive SendResult
  | sent
  | messageTooLarge (length limit : ℤ)
  | closed
  deriving DecidableEq

/-- The result of a non-blocking receive (`OwnedBytesTryRecvResult`). -/
inductive TryRecvResult
  | received (bytes : List UInt8)
  | empty
  | closed
  deriving DecidableEq

/-- `OwnedBytesSender::try_send` after the native call. The limits kept in the sender are those of
the core. -/
def trySendResult (core : Core) (message : Bytes) (result status : ℤ) :
    Except SyncError TrySendResult :=
  if status ≠ 0 then .error (.channelOperationFailed status)
  else if result = 0 then .ok .sent
  else if result = 1 then .ok .full
  else if result = 2 then .ok .closed
  else if result = 3 then .ok (.messageTooLarge message.length core.maxMessageBytes)
  else .ok (.queueByteLimitReached message.length core.maxQueuedBytes)

/-- `OwnedBytesSender::send_checked` after the native call. -/
def sendCheckedResult (core : Core) (message : Bytes) (result status : ℤ) :
    Except SyncError SendResult :=
  if status ≠ 0 then .error (.channelOperationFailed status)
  else if result = 0 then .ok .sent
  else if result = 3 then .ok (.messageTooLarge message.length core.maxMessageBytes)
  else .ok .closed

/-- `OwnedBytesSender::send` after `send_checked`. -/
def sendResult (core : Core) (message : Bytes) (result status : ℤ) : Except SyncError Bool :=
  (sendCheckedResult core message result status).map fun r => decide (r = .sent)

/-- `OwnedBytesReceiver::try_recv` after the native call. -/
def tryRecvResult (raw : Option Message) (status error : ℤ) : Except SyncError TryRecvResult :=
  if error ≠ 0 then .error (.channelOperationFailed error)
  else if status = 0 then .ok (.received ((raw.map intoMoonbit).getD []))
  else if status = 1 then .ok .empty
  else .ok .closed

/-- `OwnedBytesReceiver::recv` after the native call. -/
def recvResult (raw : Option Message) (status error : ℤ) :
    Except SyncError (Option (List UInt8)) :=
  if error ≠ 0 then .error (.channelOperationFailed error)
  else if status = 0 then .ok (some ((raw.map intoMoonbit).getD []))
  else .ok none

end NativeSync.OwnedBytes
