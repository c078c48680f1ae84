import NativeSync.Foundations.Statements
import NativeSync.Channel.System

/-!
# The generic channel, statement by statement

The critical sections of `unsafe/channel/native.c` as code: every condition that is read, every
assignment to a field or a slot, every notification and the unlock is a statement of its own. So in
the middle of a send the slot may be written and `tail` and `count` not, and in the middle of a
`close` the receivers may be woken and the senders not. Meanwhile threads make calls, wake up for no
reason and fail to lock.

A finalizer gives up its reference right after its unlock; here these two are one statement.

`channel_reduction` says that the sections may be taken at once.
-/

namespace NativeSync.Channel

open Foundations

variable {α T : Type}

/-! ## Statements -/

/-- An assignment to fields of the core. -/
def State.assign (g : Core α → Core α) (s : State α T) : State α T := { s with core := g s.core }

/-- An assignment to the fields of the ring. -/
def Core.onRing (g : RingBuffer (Box α) → RingBuffer (Box α)) (core : Core α) : Core α :=
  { core with ring := g core.ring }

/-- `core->slots[core->tail] = message`. -/
def writeTail (message : Box α) (r : RingBuffer (Box α)) : RingBuffer (Box α) :=
  { r with slots := Function.update r.slots r.tail (some message) }

/-- `core->tail = (core->tail + 1) % core->capacity`. -/
def stepTail (r : RingBuffer (Box α)) : RingBuffer (Box α) :=
  { r with tail := (r.tail + 1) % r.capacity }

/-- `core->slots[core->head] = NULL`. -/
def clearHead (r : RingBuffer (Box α)) : RingBuffer (Box α) :=
  { r with slots := Function.update r.slots r.head none }

/-- `core->head = (core->head + 1) % core->capacity`. -/
def stepHead (r : RingBuffer (Box α)) : RingBuffer (Box α) :=
  { r with head := (r.head + 1) % r.capacity }

/-- `core->count` after an assignment. -/
def setCount (g : ℕ → ℕ) (r : RingBuffer (Box α)) : RingBuffer (Box α) :=
  { r with count := g r.count }

variable [Fintype T] [DecidableEq T]

/-- The call of a notification function, which returns `status`. -/
def State.notify (pick : Option T) (n : Notify Cond) (status : ℤ) (s : State α T) :
    Option (State α T) :=
  (deliver Point.cond pick (if status = 0 then [n] else []) s.threads).map fun f =>
    { s with threads := f }

/-! ## The code -/

/-- The end of a send: the unlock, and the wrapper after it. -/
def sendReturns (t : T) (kind : SendKind) (message : Box α) (result error : ℤ)
    (returned : Option (Box α)) : Code (State α T) (Event α T) :=
  .done fun s => (kind.result returned result error).map fun r =>
    (s.move t (.run .idle),
      boxEvents .returned returned error ++ [.ret t (.send kind message.val) r])

/-- A send from the write of the slot on. -/
def enqueueCode (t : T) (kind : SendKind) (message : Box α) (os : Os) (pick : Option T) :
    Code (State α T) (Event α T) :=
  .set (State.assign (Core.onRing (writeTail message))) <|
  .set (State.assign (Core.onRing stepTail)) <|
  .set (State.assign (Core.onRing (setCount (· + 1)))) <|
  .write (State.notify pick (.signal .readable) os.cond₁) <|
  sendReturns t kind message 0 (recordError (recordError 0 os.cond₁) os.unlock) none

/-- `sync_sender_try_send` after the lock. -/
def trySendCode (t : T) (message : Box α) (os : Os) (pick : Option T) :
    Code (State α T) (Event α T) :=
  .get (fun s => s.core.closed || !s.core.receiverAlive) fun gone =>
    if gone then sendReturns t .trySend message 2 (recordError 0 os.unlock) (some message)
    else .get (fun s => s.core.ring.count == s.core.ring.capacity) fun full =>
      if full then sendReturns t .trySend message 1 (recordError 0 os.unlock) (some message)
      else enqueueCode t .trySend message os pick

/-- `sync_sender_send` from the `while` loop on; a wait gives up the mutex. -/
def sendLoopCode (t : T) (h : ℕ) (message : Box α) (os : Os) (pick : Option T) :
    Code (State α T) (Event α T) :=
  .get (fun s => s.core.ring.count == s.core.ring.capacity && !s.core.closed &&
      s.core.receiverAlive) fun full =>
    if full then
      if os.wait ≠ 0 then
        sendReturns t .send message 2 (recordError (recordError 0 os.wait) os.unlock)
          (some message)
      else .done fun s => some (s.move t (.wait .asleep (.send h .send message)), [])
    else .get (fun s => s.core.closed || !s.core.receiverAlive) fun gone =>
      if gone then sendReturns t .send message 2 (recordError 0 os.unlock) (some message)
      else enqueueCode t .send message os pick

/-- The end of a receive: the unlock, and the wrapper after it. -/
def receiveReturns (t : T) (block : Bool) (status error : ℤ) (message : Option (Box α)) :
    Code (State α T) (Event α T) :=
  .done fun s => (recvOpResult block message status error).map fun r =>
    (s.move t (.run .idle), boxEvents .delivered message error ++ [.ret t (.recv block) r])

/-- `sync_channel_receive` from the `while` loop on; a wait gives up the mutex. -/
def receiveLoopCode (t : T) (block : Bool) (os : Os) (pick : Option T) :
    Code (State α T) (Event α T) :=
  .get (fun s => block && s.core.ring.count == 0 && !s.core.closed) fun waits =>
    if waits then
      if os.wait ≠ 0 then
        receiveReturns t block 2 (recordError (recordError 0 os.wait) os.unlock) none
      else .done fun s => some (s.move t (.wait .asleep (.receive block)), [])
    else .get (fun s => s.core.ring.count == 0) fun empty =>
      if empty then
        .get (fun s => s.core.closed) fun closed =>
          receiveReturns t block (if closed then 2 else 1) (recordError 0 os.unlock) none
      else .get (fun s => s.core.ring.slots s.core.ring.head) fun message =>
        .set (State.assign (Core.onRing clearHead)) <|
        .set (State.assign (Core.onRing stepHead)) <|
        .set (State.assign (Core.onRing (setCount (· - 1)))) <|
        .write (State.notify pick (.signal .writable) os.cond₁) <|
        receiveReturns t block 0 (recordError (recordError 0 os.cond₁) os.unlock) message

/-- The broadcasts to both sides. -/
def wakeBothCode (os : Os) (c : Code (State α T) (Event α T)) : Code (State α T) (Event α T) :=
  .write (State.notify none (.broadcast .readable) os.cond₁) <|
  .write (State.notify none (.broadcast .writable) os.cond₂) c

/-- The end of a `close`: the unlock, and the return with `*error`. -/
def closeReturns (t : T) (op : Op α) (os : Os) : Code (State α T) (Event α T) :=
  .done fun s => some (s, [.ret t op (.unit (statusResult () (wakeBothError os)))])

/-- `sync_sender_close` after the lock. -/
def senderCloseCode (t : T) (os : Os) : Code (State α T) (Event α T) :=
  .set (State.assign fun core => { core with closed := true }) <|
  wakeBothCode os (closeReturns t .senderClose os)

/-- `sync_receiver_close` after the lock. -/
def receiverCloseCode (t : T) (os : Os) : Code (State α T) (Event α T) :=
  .set (State.assign fun core => { core with closed := true }) <|
  .set (State.assign fun core => { core with receiverAlive := false }) <|
  wakeBothCode os (closeReturns t .receiverClose os)

/-- `sync_sender_share` after the lock. -/
def shareCode (t : T) (h' : ℕ) (os : Os) : Code (State α T) (Event α T) :=
  .set (State.assign fun core => { core with senders := wrap32 (core.senders + 1) }) <|
  .set (State.assign fun core => { core with refs := arcInc core.refs }) <|
  .done fun s => some ({ s with senders := insert h' s.senders },
    [.ret t .share (.unit (statusResult () (recordError 0 os.unlock)))])

/-- `sync_receiver_len` after the lock. -/
def lengthCode (t : T) (os : Os) : Code (State α T) (Event α T) :=
  .get (fun s => s.core.ring.count) fun count =>
    .done fun s => some (s, [.ret t .length
      (.length (statusResult (count : ℤ) (recordError 0 os.unlock)))])

/-- The end of a finalizer: the unlock, and `sync_channel_core_release`. -/
def release (t : T) (role : Role) (g : State α T → State α T) : Code (State α T) (Event α T) :=
  .done fun s => State.endFinalize (g s) t role { core := s.core, exit := () }

/-- `sync_channel_finalize` of a sender after the lock. -/
def dropSenderCode (t : T) (h : ℕ) : Code (State α T) (Event α T) :=
  .set (State.assign fun core => { core with senders := wrap32 (core.senders - 1) }) <|
  .get (fun s => s.core.senders) fun senders =>
    if senders = 0 then
      .set (State.assign fun core => { core with closed := true }) <|
      wakeBothCode {} <|
      release t .sender fun s => { s with senders := s.senders.erase h }
    else release t .sender fun s => { s with senders := s.senders.erase h }

/-- `sync_channel_finalize` of the receiver after the lock. -/
def dropReceiverCode (t : T) : Code (State α T) (Event α T) :=
  .get (fun s => s.core.receiverAlive) fun alive =>
    if alive then
      .set (State.assign fun core => { core with receiverAlive := false }) <|
      .set (State.assign fun core => { core with closed := true }) <|
      wakeBothCode {} <|
      release t .receiver fun s => { s with receiver := false }
    else release t .receiver fun s => { s with receiver := false }

/-- The section of a thread that has taken the mutex. -/
def lockCode (t : T) (os : Os) (pick : Option T) : Code (State α T) (Event α T) :=
  .get (fun s => s.threads t) fun x =>
    match x with
    | .run (.send _ .trySend message) => trySendCode t message os pick
    | .run (.send h .send message) => sendLoopCode t h message os pick
    | .run (.receive block) => receiveLoopCode t block os pick
    | _ => .done fun _ => none

/-- The section of a thread whose wait is over, which has the mutex again. -/
def wokenCode (t : T) (os : Os) (pick : Option T) : Code (State α T) (Event α T) :=
  .get (fun s => s.threads t) fun x =>
    match x with
    | .wait .asleep _ => .done fun _ => none
    | .wait _ (.send h .send message) =>
      if os.wake ≠ 0 then
        sendReturns t .send message 2 (recordError (recordError 0 os.wake) os.unlock)
          (some message)
      else sendLoopCode t h message os pick
    | .wait _ (.receive block) =>
      if os.wake ≠ 0 then
        receiveReturns t block 2 (recordError (recordError 0 os.wake) os.unlock) none
      else receiveLoopCode t block os pick
    | _ => .done fun _ => none

/-- The code of the actions that take the mutex. -/
def code : Action α T → Option (Code (State α T) (Event α T))
  | .lock t os pick => if os.lock ≠ 0 then none else some (lockCode t os pick)
  | .resume t os pick => some (wokenCode t os pick)
  | .senderClose t _ os => if os.lock ≠ 0 then none else some (senderCloseCode t os)
  | .receiverClose t os => if os.lock ≠ 0 then none else some (receiverCloseCode t os)
  | .share t _ h' os => if os.lock ≠ 0 then none else some (shareCode t h' os)
  | .length t os => if os.lock ≠ 0 then none else some (lengthCode t os)
  | .dropSender t h os => if os ≠ {} then none else some (dropSenderCode t h)
  | .dropReceiver t os => if os ≠ {} then none else some (dropReceiverCode t)
  | _ => none

/-! ## Which actions happen meanwhile -/

namespace Action

/-- The thread that takes an action. -/
def thread : Action α T → T
  | callSend t .. => t
  | callRecv t _ => t
  | lock t .. => t
  | spurious t => t
  | resume t .. => t
  | senderClose t .. => t
  | receiverClose t _ => t
  | share t .. => t
  | length t _ => t
  | dropSender t .. => t
  | dropReceiver t _ => t

/-- The sender handle that an action is called on. -/
def handle : Action α T → Option ℕ
  | callSend _ h .. => some h
  | senderClose _ h _ => some h
  | share _ h .. => some h
  | dropSender _ h _ => some h
  | _ => none

/-- The action is called on the receiver. -/
def onReceiver : Action α T → Bool
  | callRecv .. => true
  | receiverClose .. => true
  | length .. => true
  | dropReceiver .. => true
  | _ => false

/-- The sender handle that an action drops. -/
def drops : Action α T → Option ℕ
  | dropSender _ h _ => some h
  | _ => none

/-- The action drops the receiver. -/
def dropsReceiver : Action α T → Bool
  | dropReceiver .. => true
  | _ => false

end Action

/-- The thread is before a section. -/
def Enters : Pc (Point α) → Bool
  | .run (.send ..) => true
  | .run (.receive _) => true
  | _ => false

/-- The thread is in a wait that is over. -/
def Resumes : Pc (Point α) → Bool
  | .wait .asleep _ => false
  | .wait _ (.send _ .send _) => true
  | .wait _ (.receive _) => true
  | _ => false

/-- The thread is there, and the handle is live. -/
def Ready (s : State α T) : Action α T → Prop
  | .lock t .. => Enters (s.threads t) = true
  | .resume t .. => Resumes (s.threads t) = true
  | .senderClose t h _ => isIdle (s.threads t) = true ∧ h ∈ s.senders
  | .receiverClose t _ => isIdle (s.threads t) = true ∧ s.receiver = true
  | .share t h h' _ => isIdle (s.threads t) = true ∧ h ∈ s.senders ∧ h' ∉ s.senders
  | .length t _ => isIdle (s.threads t) = true ∧ s.receiver = true
  | .dropSender t h _ => isIdle (s.threads t) = true ∧ h ∈ s.senders ∧
      ∀ u, (s.threads u).point.handle ≠ some h
  | .dropReceiver t _ => isIdle (s.threads t) = true ∧ s.receiver = true ∧
      ∀ u, (s.threads u).point.receiving = false
  | _ => False

/-- Action `b` may be taken while the section of `a` is executed: it is one of another thread, and
not on a handle that `a` drops. -/
def Apart (a b : Action α T) : Prop :=
  b.thread ≠ a.thread ∧ (∀ h ∈ a.drops, b.handle ≠ some h) ∧
    (a.dropsReceiver = true → b.onReceiver = false)

/-- The channel with its sections opened up. -/
def opened : Opened (State α T) (Action α T) (Event α T) :=
  { coarse := step, code := code, ready := Ready, apart := Apart }

instance (s : State α T) : (a : Action α T) → Decidable (Ready s a)
  | .callSend .. => inferInstanceAs (Decidable False)
  | .callRecv .. => inferInstanceAs (Decidable False)
  | .lock .. => inferInstanceAs (Decidable (_ = true))
  | .spurious .. => inferInstanceAs (Decidable False)
  | .resume .. => inferInstanceAs (Decidable (_ = true))
  | .senderClose .. => inferInstanceAs (Decidable (_ ∧ _))
  | .receiverClose .. => inferInstanceAs (Decidable (_ ∧ _))
  | .share .. => inferInstanceAs (Decidable (_ ∧ _))
  | .length .. => inferInstanceAs (Decidable (_ ∧ _))
  | .dropSender .. => inferInstanceAs (Decidable (_ ∧ _ ∧ ∀ _, _))
  | .dropReceiver .. => inferInstanceAs (Decidable (_ ∧ _ ∧ ∀ _, _))

instance (a b : Action α T) : Decidable (Apart a b) := inferInstanceAs (Decidable (_ ∧ _ ∧ _))

instance (s : State α T) (a : Action α T) : Decidable ((opened (T := T)).ready s a) :=
  inferInstanceAs (Decidable (Ready s a))

instance (a b : Action α T) : Decidable ((opened (T := T)).apart a b) :=
  inferInstanceAs (Decidable (Apart a b))

variable {s s' s₂ : State α T} {e : List (Event α T)} {a b : Action α T}
  {c : Code (State α T) (Event α T)} {t : T} {os : Os} {h : ℕ} {message : Box α}
  {pick : Option T} {block : Bool} {p : Point α}

/-! ## The code does what the sections do -/

/-- A code that notifies and then ends the call of a thread that does not sleep. -/
theorem run_notify {n : Notify Cond} {status : ℤ} {r : Option (Result α)}
    {evs : Result α → List (Event α T)} (ht : ∀ p, s.threads t ≠ .wait .asleep p) :
    (Code.write (State.notify pick n status)
      (.done fun s => r.map fun r => (s.move t (.run .idle), evs r))).run s =
      (deliver Point.cond pick (if status = 0 then [n] else [])
        (Function.update s.threads t (.run .idle))).bind fun f =>
          r.map fun r => ({ s with threads := f }, evs r) := by
  rw [deliver_update_awake (x := .run .idle) ht nofun, Code.run_write, State.notify]
  cases deliver Point.cond pick (if status = 0 then [n] else []) s.threads <;> rfl

theorem run_enqueueCode (kind : SendKind) (ht : ∀ p, s.threads t ≠ .wait .asleep p) :
    (enqueueCode t kind message os pick).run s =
      s.endSend t h kind message pick (enqueue s.core message os) := by
  unfold enqueueCode
  rw [Code.run_set, Code.run_set, Code.run_set]
  exact run_notify ht

/-- A send that returns without having changed the channel. -/
theorem run_sendReturns (kind : SendKind) (result error : ℤ) (returned : Option (Box α)) :
    (sendReturns t kind message result error returned).run s =
      s.endSend t h kind message pick { core := s.core, exit := .ret result error returned } := by
  rfl

theorem run_trySendCode (hl : os.lock = 0) (ht : ∀ p, s.threads t ≠ .wait .asleep p) :
    (trySendCode t message os pick).run s =
      s.endSend t h .trySend message pick (trySend s.core message os) := by
  simp only [trySendCode, trySend, hl, ne_eq, not_true_eq_false, if_false, Code.run_get]
  by_cases hg : (s.core.closed || !s.core.receiverAlive) = true
  · simp only [hg, if_true]
    exact run_sendReturns ..
  · simp only [hg, if_false, Code.run_get, Bool.false_eq_true]
    by_cases hf : (s.core.ring.count == s.core.ring.capacity) = true
    · simp only [hf, if_true]
      exact run_sendReturns ..
    · simp only [hf, if_false, Bool.false_eq_true]
      exact run_enqueueCode _ ht

theorem run_sendLoopCode (ht : ∀ p, s.threads t ≠ .wait .asleep p) :
    (sendLoopCode t h message os pick).run s =
      s.endSend t h .send message pick (sendLoop s.core message os) := by
  simp only [sendLoopCode, sendLoop, Code.run_get]
  by_cases hw : (s.core.ring.count == s.core.ring.capacity && !s.core.closed &&
      s.core.receiverAlive) = true
  · simp only [hw, if_true]
    split_ifs
    · exact run_sendReturns ..
    · rfl
  · simp only [hw, if_false, Code.run_get, Bool.false_eq_true]
    by_cases hg : (s.core.closed || !s.core.receiverAlive) = true
    · simp only [hg, if_true]
      exact run_sendReturns ..
    · simp only [hg, if_false, Bool.false_eq_true]
      exact run_enqueueCode _ ht

theorem run_receiveLoopCode (ht : ∀ p, s.threads t ≠ .wait .asleep p) :
    (receiveLoopCode t block os pick).run s =
      s.endReceive t block pick (receiveLoop s.core block os) := by
  simp only [receiveLoopCode, receiveLoop, Code.run_get]
  by_cases hw : (block && s.core.ring.count == 0 && !s.core.closed) = true
  · simp only [hw, if_true]
    split_ifs <;> rfl
  · simp only [hw, if_false, Code.run_get, Bool.false_eq_true]
    by_cases he : (s.core.ring.count == 0) = true
    · simp only [he, if_true]
      rfl
    · simp only [he, if_false, Code.run_get, Code.run_set, Bool.false_eq_true]
      exact run_notify ht

/-- A code that wakes both sides. -/
theorem run_wakeBothCode (c : Code (State α T) (Event α T)) :
    (wakeBothCode os c).run s =
      (deliver Point.cond none (wakeBoth os) s.threads).bind fun f =>
        c.run { s with threads := f } := by
  unfold wakeBothCode wakeBoth
  by_cases h₁ : os.cond₁ = 0 <;> by_cases h₂ : os.cond₂ = 0 <;>
    simp [State.notify, h₁, h₂]

theorem run_senderCloseCode (hl : os.lock = 0) :
    (senderCloseCode t os).run s =
      (deliver Point.cond none (senderClose s.core os).wakes s.threads).map fun f =>
        ({ s with core := (senderClose s.core os).core, threads := f },
          [.ret t .senderClose (.unit (statusResult () (senderClose s.core os).exit))]) := by
  rw [senderCloseCode, Code.run_set, run_wakeBothCode]
  simp only [senderClose, Endpoints.senderClose, hl, ne_eq, not_true_eq_false, if_false]
  exact (Option.map_eq_bind ..).symm

theorem run_receiverCloseCode (hl : os.lock = 0) :
    (receiverCloseCode t os).run s =
      (deliver Point.cond none (receiverClose s.core os).wakes s.threads).map fun f =>
        ({ s with core := (receiverClose s.core os).core, threads := f },
          [.ret t .receiverClose (.unit (statusResult () (receiverClose s.core os).exit))]) := by
  rw [receiverCloseCode, Code.run_set, Code.run_set, run_wakeBothCode]
  simp only [receiverClose, Endpoints.receiverClose, hl, ne_eq, not_true_eq_false, if_false]
  exact (Option.map_eq_bind ..).symm

theorem run_dropSenderCode :
    (dropSenderCode t h).run s = (finalize s.core .sender {}).bind
      (State.endFinalize { s with senders := s.senders.erase h } t .sender) := by
  rw [dropSenderCode, Code.run_set, Code.run_get]
  change (if wrap32 (s.core.senders - 1) = 0 then _ else _ : Code (State α T) (Event α T)).run _ = _
  by_cases h0 : wrap32 (s.core.senders - 1) = 0
  · rw [if_pos h0, Code.run_set, run_wakeBothCode]
    have hfin : s.core.toEndpoints.finalize .sender {} = some
        { core := { s.core.toEndpoints with
            senders := wrap32 (s.core.senders - 1)
            closed := true }
          wakes := wakeBoth {}, exit := () } := if_pos h0
    rw [finalize, hfin]
    exact (Option.map_eq_bind ..).symm
  · rw [if_neg h0]
    have hfin : s.core.toEndpoints.finalize .sender {} = some
        { core := { s.core.toEndpoints with senders := wrap32 (s.core.senders - 1) }
          exit := () } := if_neg h0
    rw [finalize, hfin]
    rfl

theorem run_dropReceiverCode :
    (dropReceiverCode t).run s = (finalize s.core .receiver {}).bind
      (State.endFinalize { s with receiver := false } t .receiver) := by
  rw [dropReceiverCode, Code.run_get]
  by_cases ha : s.core.receiverAlive = true
  · rw [if_pos ha, Code.run_set, Code.run_set, run_wakeBothCode]
    simp only [finalize, Endpoints.finalize, ne_eq, not_true_eq_false, if_false, ha, if_true,
      Option.map_some, Option.bind_some]
    exact (Option.map_eq_bind ..).symm
  · rw [if_neg ha]
    simp only [finalize, Endpoints.finalize, ne_eq, not_true_eq_false, if_false, ha,
      Option.map_some, Option.bind_some, Bool.false_eq_true]
    rfl

omit [Fintype T] [DecidableEq T] in
theorem enters_cases {x : Pc (Point α)} (hx : Enters x = true) :
    (∃ h m, x = .run (.send h .trySend m)) ∨ (∃ h m, x = .run (.send h .send m)) ∨
      ∃ b, x = .run (.receive b) := by
  unfold Enters at hx
  split at hx
  · rename_i h kind m
    cases kind with
    | trySend => exact .inl ⟨h, m, rfl⟩
    | send => exact .inr (.inl ⟨h, m, rfl⟩)
  · exact .inr (.inr ⟨_, rfl⟩)
  · cases hx

omit [Fintype T] [DecidableEq T] in
theorem resumes_cases {x : Pc (Point α)} (hx : Resumes x = true) :
    ∃ w, w ≠ .asleep ∧ ((∃ h m, x = .wait w (.send h .send m)) ∨
      ∃ b, x = .wait w (.receive b)) := by
  unfold Resumes at hx
  split at hx
  · cases hx
  · exact ⟨_, ‹_›, .inl ⟨_, _, rfl⟩⟩
  · exact ⟨_, ‹_›, .inr ⟨_, rfl⟩⟩
  · cases hx

theorem run_sendWoken {h : ℕ} {m : Box α} (hawake : ∀ p, s.threads t ≠ .wait .asleep p) :
    (if os.wake ≠ 0 then
        sendReturns t .send m 2 (recordError (recordError 0 os.wake) os.unlock) (some m)
      else sendLoopCode t h m os pick).run s =
      s.endSend t h .send m pick (sendWoken s.core m os) := by
  rw [sendWoken]
  split_ifs
  · exact run_sendReturns ..
  · exact run_sendLoopCode hawake

theorem run_receiveWoken {b : Bool} (hawake : ∀ p, s.threads t ≠ .wait .asleep p) :
    (if os.wake ≠ 0 then
        receiveReturns t b 2 (recordError (recordError 0 os.wake) os.unlock) none
      else receiveLoopCode t b os pick).run s =
      s.endReceive t b pick (receiveWoken s.core b os) := by
  rw [receiveWoken]
  split_ifs
  · rfl
  · exact run_receiveLoopCode hawake

/-- **The code of an action does what the action does.** -/
theorem code_spec (hc : code a = some c) (hr : Ready s a) : step s a = c.run s := by
  cases a with
  | lock t os pick =>
    simp only [code] at hc
    split_ifs at hc with hl
    obtain rfl := Option.some.inj hc
    rw [not_not] at hl
    rcases enters_cases hr with ⟨h, m, ht⟩ | ⟨h, m, ht⟩ | ⟨b, ht⟩
    · simp only [step, lockCode, Code.run_get, ht]
      exact (run_trySendCode hl (by rw [ht]; nofun)).symm
    · simp only [step, lockCode, Code.run_get, ht, send, hl, ne_eq, not_true_eq_false, if_false]
      exact (run_sendLoopCode (by rw [ht]; nofun)).symm
    · simp only [step, lockCode, Code.run_get, ht, receive, hl, ne_eq, not_true_eq_false,
        if_false]
      exact (run_receiveLoopCode (by rw [ht]; nofun)).symm
  | resume t os pick =>
    obtain rfl := Option.some.inj hc
    obtain ⟨w, hw, hx⟩ := resumes_cases hr
    have hawake : ∀ p, s.threads t ≠ .wait .asleep p := by
      rcases hx with ⟨h, m, ht⟩ | ⟨b, ht⟩
      · rw [ht]
        rintro p ⟨⟩
        exact hw rfl
      · rw [ht]
        rintro p ⟨⟩
        exact hw rfl
    rcases hx with ⟨h, m, ht⟩ | ⟨b, ht⟩
    · cases w with
      | asleep => exact absurd rfl hw
      | notified =>
        simp only [step, wokenCode, Code.run_get, ht]
        exact (run_sendWoken hawake).symm
      | spurious =>
        simp only [step, wokenCode, Code.run_get, ht]
        exact (run_sendWoken hawake).symm
    · cases w with
      | asleep => exact absurd rfl hw
      | notified =>
        simp only [step, wokenCode, Code.run_get, ht]
        exact (run_receiveWoken hawake).symm
      | spurious =>
        simp only [step, wokenCode, Code.run_get, ht]
        exact (run_receiveWoken hawake).symm
  | senderClose t h os =>
    simp only [code] at hc
    split_ifs at hc with hl
    obtain rfl := Option.some.inj hc
    exact (if_pos hr).trans (run_senderCloseCode (not_not.1 hl)).symm
  | receiverClose t os =>
    simp only [code] at hc
    split_ifs at hc with hl
    obtain rfl := Option.some.inj hc
    exact (if_pos hr).trans (run_receiverCloseCode (not_not.1 hl)).symm
  | share t h h' os =>
    simp only [code] at hc
    split_ifs at hc with hl
    obtain rfl := Option.some.inj hc
    rw [show step s (.share t h h' os) = _ from if_pos hr]
    simp only [senderShare, Endpoints.senderShare, if_neg hl]
    rfl
  | length t os =>
    simp only [code] at hc
    split_ifs at hc with hl
    obtain rfl := Option.some.inj hc
    rw [show step s (.length t os) = _ from if_pos hr]
    simp only [receiverLen, if_neg hl]
    rfl
  | dropSender t h os =>
    simp only [code] at hc
    split_ifs at hc with hos
    obtain rfl := Option.some.inj hc
    rw [not_not] at hos
    rw [show step s (.dropSender t h os) = _ from if_pos hr, hos]
    exact run_dropSenderCode.symm
  | dropReceiver t os =>
    simp only [code] at hc
    split_ifs at hc with hos
    obtain rfl := Option.some.inj hc
    rw [not_not] at hos
    rw [show step s (.dropReceiver t os) = _ from if_pos hr, hos]
    exact run_dropReceiverCode.symm
  | callSend t h kind value injected => cases hc
  | callRecv t block => cases hc
  | spurious t => cases hc

theorem code_enabled {r : State α T × List (Event α T)} (hc : code a = some c)
    (hs : step s a = some r) : Ready s a := by
  cases a with
  | lock t os pick =>
    simp only [step] at hs
    split at hs
    · rename_i ht
      simp [Ready, Enters, ht]
    · rename_i ht
      simp [Ready, Enters, ht]
    · rename_i ht
      simp [Ready, Enters, ht]
    · cases hs
  | resume t os pick =>
    simp only [step] at hs
    split at hs
    · cases hs
    · rename_i w h m hw ht
      cases w with
      | asleep => exact (hw rfl).elim
      | notified => simp [Ready, Resumes, ht]
      | spurious => simp [Ready, Resumes, ht]
    · rename_i w b hw ht
      cases w with
      | asleep => exact (hw rfl).elim
      | notified => simp [Ready, Resumes, ht]
      | spurious => simp [Ready, Resumes, ht]
    · cases hs
  | senderClose t h os => exact (Option.ite_none_right_eq_some.1 hs).1
  | receiverClose t os => exact (Option.ite_none_right_eq_some.1 hs).1
  | share t h h' os => exact (Option.ite_none_right_eq_some.1 hs).1
  | length t os => exact (Option.ite_none_right_eq_some.1 hs).1
  | dropSender t h os => exact (Option.ite_none_right_eq_some.1 hs).1
  | dropReceiver t os => exact (Option.ite_none_right_eq_some.1 hs).1
  | callSend t h kind value injected => cases hc
  | callRecv t block => cases hc
  | spurious t => cases hc

/-! ## The statements move past what happens meanwhile -/

/-- Action `b`, which does not take the mutex, moves its thread to `y` and makes `k` boxes. The
thread has not been notified, does not go to sleep, uses a handle only if it did before or the call
is on it, and would do the same in every state in which it stands where it stands, the same handles
are live and as many boxes were made. -/
structure Local (s : State α T) (b : Action α T) (y : Pc (Point α)) (k : ℕ)
    (e : List (Event α T)) : Prop where
  unnotified : ∀ p, s.threads b.thread ≠ .wait .notified p
  awake : ∀ c, y.asleepOn Point.cond c = false
  handle : ∀ h, y.point.handle = some h →
    b.handle = some h ∨ (s.threads b.thread).point.handle = some h
  receiving : y.point.receiving = true →
    b.onReceiver = true ∨ (s.threads b.thread).point.receiving = true
  step_eq : ∀ s₀ : State α T, s₀.threads b.thread = s.threads b.thread → s₀.senders = s.senders →
    s₀.receiver = s.receiver → s₀.boxes = s.boxes →
    step s₀ b = some ({ s₀.move b.thread y with boxes := s₀.boxes + k }, e)

omit [Fintype T] in
theorem move_self {x : Pc (Point α)} (ht : s.threads t = x) : s.move t x = s := by
  rw [← ht]
  exact congrArg (fun f => { s with threads := f }) (Function.update_eq_self t s.threads)

/-- An action of an idle thread that returns at once. -/
theorem Local.of_returned {k : ℕ} (hi : isIdle (s.threads b.thread) = true)
    (hstep : ∀ s₀ : State α T, s₀.threads b.thread = s.threads b.thread →
      s₀.senders = s.senders → s₀.receiver = s.receiver → s₀.boxes = s.boxes →
      step s₀ b = some ({ s₀ with boxes := s₀.boxes + k }, e)) :
    Local s b (.run .idle) k e := by
  have ht := isIdle_iff.1 hi
  refine ⟨by rw [ht]; nofun, fun _ => rfl, nofun, nofun, fun s₀ h₀ h₁ h₂ h₃ => ?_⟩
  rw [move_self (h₀.trans ht)]
  exact hstep s₀ h₀ h₁ h₂ h₃

/-- A send whose lock fails. -/
theorem endSend_of_lock (hl : os.lock ≠ 0) (s : State α T) (kind : SendKind) :
    s.endSend t h kind message pick { core := s.core, exit := .ret 2 os.lock (some message) } =
      some (s.move t (.run .idle), [.released message.addr, .ret t (.send kind message.val)
        (match kind with
          | .trySend => .trySend (.error (.channelOperationFailed os.lock))
          | .send => .send (.error (.channelOperationFailed os.lock)))]) := by
  cases kind <;>
    simp [State.endSend, SendKind.result, trySendResult, sendResult, boxEvents, hl, State.move]

/-- A receive whose lock fails. -/
theorem endReceive_of_lock (hl : os.lock ≠ 0) (s : State α T) :
    s.endReceive t block pick { core := s.core, exit := .ret 2 os.lock none } =
      some (s.move t (.run .idle), [.ret t (.recv block)
        (if block then .recv (.error (.channelOperationFailed os.lock))
          else .tryRecv (.error (.channelOperationFailed os.lock)))]) := by
  cases block <;>
    simp [State.endReceive, recvOpResult, recvResult, tryRecvResult, boxEvents, hl, State.move]

theorem step_senderClose_of_lock (hl : os.lock ≠ 0)
    (hr : isIdle (s.threads t) = true ∧ h ∈ s.senders) :
    step s (.senderClose t h os) = some (s,
      [.ret t .senderClose (.unit (.error (.channelOperationFailed os.lock)))]) := by
  simp [step, if_pos hr, senderClose, Endpoints.senderClose, hl, statusResult, Section.map,
    Core.setEndpoints]

theorem step_receiverClose_of_lock (hl : os.lock ≠ 0)
    (hr : isIdle (s.threads t) = true ∧ s.receiver = true) :
    step s (.receiverClose t os) = some (s,
      [.ret t .receiverClose (.unit (.error (.channelOperationFailed os.lock)))]) := by
  simp [step, if_pos hr, receiverClose, Endpoints.receiverClose, hl, statusResult, Section.map,
    Core.setEndpoints]

theorem step_share_of_lock {h' : ℕ} (hl : os.lock ≠ 0)
    (hr : isIdle (s.threads t) = true ∧ h ∈ s.senders ∧ h' ∉ s.senders) :
    step s (.share t h h' os) = some (s,
      [.ret t .share (.unit (.error (.channelOperationFailed os.lock)))]) := by
  simp [step, if_pos hr, senderShare, Endpoints.senderShare, hl, statusResult, Section.map,
    Core.setEndpoints]

theorem step_length_of_lock (hl : os.lock ≠ 0)
    (hr : isIdle (s.threads t) = true ∧ s.receiver = true) :
    step s (.length t os) = some (s,
      [.ret t .length (.length (.error (.channelOperationFailed os.lock)))]) := by
  simp [step, if_pos hr, receiverLen, hl, statusResult]

/-- **The actions that do not take the mutex are local.** -/
theorem step_local (hb : code b = none) (hs : step s b = some (s', e)) :
    ∃ y k, Local s b y k e := by
  cases b with
  | callSend t h kind value injected =>
    simp only [step] at hs
    split_ifs at hs with hr hi
    · obtain ⟨r, hres, hs⟩ := Option.map_eq_some_iff.1 hs
      cases hs
      refine ⟨_, 1, .of_returned hr.1 fun s₀ h₀ h₁ _ h₃ => ?_⟩
      rw [← h₁] at hr
      simp only [Action.thread] at h₀
      simp only [step, h₀, if_pos hr, if_pos hi, h₃, hres, Option.map_some]
    · cases hs
      have ht := isIdle_iff.1 hr.1
      refine ⟨.run (.send h kind ⟨s.boxes, value⟩), 1, ?_, fun _ => rfl, fun h' => .inl,
        by simp [Point.receiving], fun s₀ h₀ h₁ _ h₃ => ?_⟩
      · rw [Action.thread, ht]
        simp
      rw [← h₁] at hr
      simp only [Action.thread] at h₀
      simp only [step, h₀, if_pos hr, if_neg hi, h₃, Action.thread]
  | callRecv t block =>
    simp only [step] at hs
    split_ifs at hs with hr
    cases hs
    have ht := isIdle_iff.1 hr.1
    refine ⟨.run (.receive block), 0, ?_, fun _ => rfl, by simp [Point.handle], fun _ => .inl rfl,
      fun s₀ h₀ _ h₂ _ => ?_⟩
    · rw [Action.thread, ht]
      simp
    rw [← h₂] at hr
    simp only [Action.thread] at h₀
    simp only [step, h₀, if_pos hr, Action.thread, Nat.add_zero]
    rfl
  | lock t os pick =>
    simp only [code, ite_eq_left_iff, reduceCtorEq, imp_false, not_not] at hb
    simp only [step] at hs
    split at hs
    · rename_i h m ht
      rw [trySend, if_pos hb, endSend_of_lock hb] at hs
      cases hs
      refine ⟨.run .idle, 0, by rw [Action.thread, ht]; simp, fun _ => rfl,
        by simp [Point.handle], by simp [Point.receiving], fun s₀ h₀ _ _ _ => ?_⟩
      simp only [Action.thread] at h₀
      simp only [step, h₀, ht, trySend, if_pos hb, endSend_of_lock hb]
      rfl
    · rename_i h m ht
      rw [send, if_pos hb, endSend_of_lock hb] at hs
      cases hs
      refine ⟨.run .idle, 0, by rw [Action.thread, ht]; simp, fun _ => rfl,
        by simp [Point.handle], by simp [Point.receiving], fun s₀ h₀ _ _ _ => ?_⟩
      simp only [Action.thread] at h₀
      simp only [step, h₀, ht, send, if_pos hb, endSend_of_lock hb]
      rfl
    · rename_i b ht
      rw [receive, if_pos hb, endReceive_of_lock hb] at hs
      cases hs
      refine ⟨.run .idle, 0, by rw [Action.thread, ht]; simp, fun _ => rfl,
        by simp [Point.handle], by simp [Point.receiving], fun s₀ h₀ _ _ _ => ?_⟩
      simp only [Action.thread] at h₀
      simp only [step, h₀, ht, receive, if_pos hb, endReceive_of_lock hb]
      rfl
    · cases hs
  | spurious t =>
    simp only [step] at hs
    split at hs
    · rename_i p ht
      cases hs
      refine ⟨.wait .spurious p, 0, by rw [Action.thread, ht]; simp, fun _ => rfl, ?_, ?_,
        fun s₀ h₀ _ _ _ => ?_⟩
      · rw [Action.thread, ht]
        exact fun h => .inr
      · rw [Action.thread, ht]
        exact .inr
      · simp only [Action.thread] at h₀
        simp only [step, h₀, ht]
        rfl
    · cases hs
  | resume t os pick => cases hb
  | senderClose t h os =>
    simp only [code, ite_eq_left_iff, reduceCtorEq, imp_false, not_not] at hb
    have hr := (Option.ite_none_right_eq_some.1 hs).1
    rw [step_senderClose_of_lock hb hr] at hs
    cases hs
    refine ⟨_, 0, .of_returned hr.1 fun s₀ h₀ h₁ _ _ => ?_⟩
    exact step_senderClose_of_lock hb ⟨h₀ ▸ hr.1, h₁ ▸ hr.2⟩
  | receiverClose t os =>
    simp only [code, ite_eq_left_iff, reduceCtorEq, imp_false, not_not] at hb
    have hr := (Option.ite_none_right_eq_some.1 hs).1
    rw [step_receiverClose_of_lock hb hr] at hs
    cases hs
    refine ⟨_, 0, .of_returned hr.1 fun s₀ h₀ _ h₂ _ => ?_⟩
    exact step_receiverClose_of_lock hb ⟨h₀ ▸ hr.1, h₂ ▸ hr.2⟩
  | share t h h' os =>
    simp only [code, ite_eq_left_iff, reduceCtorEq, imp_false, not_not] at hb
    have hr := (Option.ite_none_right_eq_some.1 hs).1
    rw [step_share_of_lock hb hr] at hs
    cases hs
    refine ⟨_, 0, .of_returned hr.1 fun s₀ h₀ h₁ _ _ => ?_⟩
    exact step_share_of_lock hb ⟨h₀ ▸ hr.1, h₁ ▸ hr.2⟩
  | length t os =>
    simp only [code, ite_eq_left_iff, reduceCtorEq, imp_false, not_not] at hb
    have hr := (Option.ite_none_right_eq_some.1 hs).1
    rw [step_length_of_lock hb hr] at hs
    cases hs
    refine ⟨_, 0, .of_returned hr.1 fun s₀ h₀ _ h₂ _ => ?_⟩
    exact step_length_of_lock hb ⟨h₀ ▸ hr.1, h₂ ▸ hr.2⟩
  | dropSender t h os =>
    -- a finalizer whose primitives fail aborts
    simp only [code, ite_eq_left_iff, reduceCtorEq, imp_false, not_not] at hb
    have hs := (Option.ite_none_right_eq_some.1 hs).2
    simp only [finalize, Endpoints.finalize, if_pos hb, Option.map_none, Option.bind_none] at hs
    cases hs
  | dropReceiver t os =>
    simp only [code, ite_eq_left_iff, reduceCtorEq, imp_false, not_not] at hb
    have hs := (Option.ite_none_right_eq_some.1 hs).2
    simp only [finalize, Endpoints.finalize, if_pos hb, Option.map_none, Option.bind_none] at hs
    cases hs

/-- What happens meanwhile, as a move of one thread. -/
theorem step_moved (hb : code b = none) (hs : step s b = some (s', e)) :
    ∃ y k, Local s b y k e ∧ s' = { s.move b.thread y with boxes := s.boxes + k } := by
  obtain ⟨y, k, hl⟩ := step_local hb hs
  rw [hl.step_eq s rfl rfl rfl rfl] at hs
  cases hs
  exact ⟨y, k, hl, rfl⟩

/-- **An assignment and an action that does not take the mutex can be exchanged.** -/
theorem step_assign {g : Core α → Core α} (hb : code b = none)
    (hs : step (s.assign g) b = some (s₂, e)) :
    ∃ s', step s b = some (s', e) ∧ s'.assign g = s₂ := by
  obtain ⟨y, k, hl, rfl⟩ := step_moved hb hs
  exact ⟨_, hl.step_eq s rfl rfl rfl rfl, rfl⟩

/-- **A notification and an action that does not take the mutex can be exchanged.** -/
theorem step_notify {n : Notify Cond} {status : ℤ} (hb : code b = none)
    (hn : s.notify pick n status = some s') (hs : step s' b = some (s₂, e)) :
    ∃ s'', step s b = some (s'', e) ∧ s''.notify pick n status = some s₂ := by
  obtain ⟨f, hd, rfl⟩ := Option.map_eq_some_iff.1 hn
  obtain ⟨y, k, hl, rfl⟩ := step_moved hb hs
  have hsame : f b.thread = s.threads b.thread := deliver_same hd hl.unnotified
  refine ⟨_, hl.step_eq s hsame.symm rfl rfl rfl, ?_⟩
  simp only [State.notify, State.move, deliver_update hd hsame hl.awake, Option.map_some]

/-! ## The reduction -/

section Lawful

variable {G : Action α T → Prop}

theorem outside_core (ho : opened.Outside G a s e s') : s'.core = s.core := by
  obtain ⟨b, hb, -, -, hs⟩ := ho
  obtain ⟨y, k, -, rfl⟩ := step_moved hb hs
  rfl

theorem outside_senders (ho : opened.Outside G a s e s') : s'.senders = s.senders := by
  obtain ⟨b, hb, -, -, hs⟩ := ho
  obtain ⟨y, k, -, rfl⟩ := step_moved hb hs
  rfl

theorem outside_receiver (ho : opened.Outside G a s e s') : s'.receiver = s.receiver := by
  obtain ⟨b, hb, -, -, hs⟩ := ho
  obtain ⟨y, k, -, rfl⟩ := step_moved hb hs
  rfl

theorem outside_threads (ho : opened.Outside G a s e s') :
    s'.threads a.thread = s.threads a.thread := by
  obtain ⟨b, hb, hapart, -, hs⟩ := ho
  obtain ⟨y, k, -, rfl⟩ := step_moved hb hs
  exact Function.update_of_ne hapart.1.symm _ _

/-- No thread starts to use a handle that is being dropped. -/
theorem outside_handle (ha : a.drops = some h) (ho : opened.Outside G a s e s')
    (hfree : ∀ u, (s.threads u).point.handle ≠ some h) (u : T) :
    (s'.threads u).point.handle ≠ some h := by
  obtain ⟨b, hb, hapart, -, hs⟩ := ho
  obtain ⟨y, k, hl, rfl⟩ := step_moved hb hs
  by_cases hu : u = b.thread
  · subst hu
    change (Function.update s.threads b.thread y b.thread).point.handle ≠ some h
    rw [Function.update_self]
    intro hy
    rcases hl.handle h hy with hcall | huse
    · exact hapart.2.1 h ha hcall
    · exact hfree _ huse
  · change (Function.update s.threads b.thread y u).point.handle ≠ some h
    rw [Function.update_of_ne hu]
    exact hfree u

/-- No thread starts to receive while the receiver is being dropped. -/
theorem outside_receiving (ha : a.dropsReceiver = true) (ho : opened.Outside G a s e s')
    (hfree : ∀ u, (s.threads u).point.receiving = false) (u : T) :
    (s'.threads u).point.receiving = false := by
  obtain ⟨b, hb, hapart, -, hs⟩ := ho
  obtain ⟨y, k, hl, rfl⟩ := step_moved hb hs
  by_cases hu : u = b.thread
  · subst hu
    change (Function.update s.threads b.thread y b.thread).point.receiving = false
    rw [Function.update_self, ← Bool.not_eq_true]
    intro hy
    rcases hl.receiving hy with hcall | huse
    · exact Bool.false_ne_true ((hapart.2.2 ha).symm.trans hcall)
    · exact Bool.false_ne_true ((hfree _).symm.trans huse)
  · change (Function.update s.threads b.thread y u).point.receiving = false
    rw [Function.update_of_ne hu]
    exact hfree u

/-- A part of the core can be read at any time of a section. -/
theorem Moves.core {γ : Type} (view : Core α → γ) {k : γ → Code (State α T) (Event α T)}
    (hk : ∀ x, (k x).Moves (opened.Outside G a)) :
    (Code.get (fun s => view s.core) k).Moves (opened.Outside G a) :=
  .get (fun _ _ _ ho => congrArg view (outside_core ho)) hk

/-- An assignment moves past what happens outside. -/
theorem Moves.assign {g : Core α → Core α} (hc : c.Moves (opened.Outside G a)) :
    (Code.set (State.assign g) c).Moves (opened.Outside G a) := by
  refine .set (fun s e s₂ ho => ?_) hc
  obtain ⟨b, hb, hapart, hG, hs⟩ := ho
  obtain ⟨s', hs', he⟩ := step_assign hb hs
  exact ⟨s', ⟨b, hb, hapart, hG, hs'⟩, he⟩

/-- A notification moves past what happens outside. -/
theorem Moves.notify {n : Notify Cond} {status : ℤ} (hc : c.Moves (opened.Outside G a)) :
    (Code.write (State.notify pick n status) c).Moves (opened.Outside G a) := by
  refine ⟨fun s s₁ e s₂ hn ho => ?_, hc⟩
  obtain ⟨b, hb, hapart, hG, hs⟩ := ho
  obtain ⟨s', hs', he⟩ := step_notify hb hn hs
  exact ⟨s', ⟨b, hb, hapart, hG, hs'⟩, he⟩

theorem moves_enqueueCode (kind : SendKind) :
    (enqueueCode t kind message os pick).Moves (opened.Outside G a) := by
  apply Moves.assign
  apply Moves.assign
  apply Moves.assign
  exact Moves.notify trivial

theorem moves_trySendCode : (trySendCode t message os pick).Moves (opened.Outside G a) := by
  refine Moves.core (fun core : Core α => core.closed || !core.receiverAlive) fun gone => ?_
  cases gone with
  | true => trivial
  | false =>
    rw [if_neg Bool.false_ne_true]
    refine Moves.core (fun core : Core α => core.ring.count == core.ring.capacity) fun full => ?_
    cases full with
    | true => trivial
    | false => exact moves_enqueueCode _

theorem moves_sendLoopCode : (sendLoopCode t h message os pick).Moves (opened.Outside G a) := by
  refine Moves.core (fun core : Core α => core.ring.count == core.ring.capacity && !core.closed &&
    core.receiverAlive) fun full => ?_
  cases full with
  | true =>
    rw [if_pos rfl]
    split_ifs <;> trivial
  | false =>
    rw [if_neg Bool.false_ne_true]
    refine Moves.core (fun core : Core α => core.closed || !core.receiverAlive) fun gone => ?_
    cases gone with
    | true => trivial
    | false => exact moves_enqueueCode _

theorem moves_receiveLoopCode :
    (receiveLoopCode t block os pick).Moves (opened.Outside G a) := by
  refine Moves.core (fun core : Core α => block && core.ring.count == 0 && !core.closed)
    fun waits => ?_
  cases waits with
  | true =>
    rw [if_pos rfl]
    split_ifs <;> trivial
  | false =>
    rw [if_neg Bool.false_ne_true]
    refine Moves.core (fun core : Core α => core.ring.count == 0) fun empty => ?_
    cases empty with
    | true =>
      rw [if_pos rfl]
      exact Moves.core (fun core : Core α => core.closed) fun closed => trivial
    | false =>
      rw [if_neg Bool.false_ne_true]
      refine Moves.core (fun core : Core α => core.ring.slots core.ring.head) fun message => ?_
      apply Moves.assign
      apply Moves.assign
      apply Moves.assign
      exact Moves.notify trivial

theorem Moves.wakeBoth (hc : c.Moves (opened.Outside G a)) :
    (wakeBothCode os c).Moves (opened.Outside G a) :=
  Moves.notify (Moves.notify hc)

theorem moves_dropSenderCode : (dropSenderCode t h).Moves (opened.Outside G a) := by
  apply Moves.assign
  refine Moves.core (fun core : Core α => core.senders) fun senders => ?_
  split_ifs
  · exact Moves.assign (Moves.wakeBoth trivial)
  · trivial

theorem moves_dropReceiverCode : (dropReceiverCode t).Moves (opened.Outside G a) := by
  refine Moves.core (fun core : Core α => core.receiverAlive) fun alive => ?_
  cases alive with
  | true => exact Moves.assign (Moves.assign (Moves.wakeBoth trivial))
  | false => trivial

theorem moves_lockCode (ha : a.thread = t) :
    (lockCode t os pick).Moves (opened.Outside G a) := by
  subst ha
  refine .get (fun s e s' => outside_threads) fun x => ?_
  split
  · exact moves_trySendCode
  · exact moves_sendLoopCode
  · exact moves_receiveLoopCode
  · trivial

theorem moves_wokenCode (ha : a.thread = t) :
    (wokenCode t os pick).Moves (opened.Outside G a) := by
  subst ha
  refine .get (fun s e s' => outside_threads) fun x => ?_
  split
  · trivial
  · split_ifs
    · trivial
    · exact moves_sendLoopCode
  · split_ifs
    · trivial
    · exact moves_receiveLoopCode
  · trivial

theorem code_moves (hc : code a = some c) : c.Moves (opened.Outside G a) := by
  cases a with
  | lock t os pick =>
    simp only [code] at hc
    split_ifs at hc
    obtain rfl := Option.some.inj hc
    exact moves_lockCode rfl
  | resume t os pick =>
    obtain rfl := Option.some.inj hc
    exact moves_wokenCode rfl
  | senderClose t h os =>
    simp only [code] at hc
    split_ifs at hc
    obtain rfl := Option.some.inj hc
    exact Moves.assign (Moves.wakeBoth trivial)
  | receiverClose t os =>
    simp only [code] at hc
    split_ifs at hc
    obtain rfl := Option.some.inj hc
    exact Moves.assign (Moves.assign (Moves.wakeBoth trivial))
  | share t h h' os =>
    simp only [code] at hc
    split_ifs at hc
    obtain rfl := Option.some.inj hc
    exact Moves.assign (Moves.assign trivial)
  | length t os =>
    simp only [code] at hc
    split_ifs at hc
    obtain rfl := Option.some.inj hc
    exact Moves.core (fun core : Core α => core.ring.count) fun count => trivial
  | dropSender t h os =>
    simp only [code] at hc
    split_ifs at hc
    obtain rfl := Option.some.inj hc
    exact moves_dropSenderCode
  | dropReceiver t os =>
    simp only [code] at hc
    split_ifs at hc
    obtain rfl := Option.some.inj hc
    exact moves_dropReceiverCode
  | callSend t h kind value injected => cases hc
  | callRecv t block => cases hc
  | spurious t => cases hc

/-- A section that can be entered stays so. -/
theorem ready_stable (hr : Ready s a) (ho : opened.Outside G a s e s') : Ready s' a := by
  have ht := outside_threads ho
  have hsend := outside_senders ho
  have hrecv := outside_receiver ho
  cases a with
  | lock t os pick => exact (congrArg Enters ht).trans hr
  | resume t os pick => exact (congrArg Resumes ht).trans hr
  | senderClose t h os => exact ⟨(congrArg isIdle ht).trans hr.1, hsend ▸ hr.2⟩
  | receiverClose t os => exact ⟨(congrArg isIdle ht).trans hr.1, hrecv.trans hr.2⟩
  | share t h h' os => exact ⟨(congrArg isIdle ht).trans hr.1, hsend ▸ hr.2⟩
  | length t os => exact ⟨(congrArg isIdle ht).trans hr.1, hrecv.trans hr.2⟩
  | dropSender t h os =>
    exact ⟨(congrArg isIdle ht).trans hr.1, hsend ▸ hr.2.1, outside_handle rfl ho hr.2.2⟩
  | dropReceiver t os =>
    exact ⟨(congrArg isIdle ht).trans hr.1, hrecv.trans hr.2.1, outside_receiving rfl ho hr.2.2⟩
  | callSend t h kind value injected => cases hr
  | callRecv t block => cases hr
  | spurious t => cases hr

theorem lawful (G : Action α T → Prop) : (opened (α := α) (T := T)).Lawful G where
  spec := code_spec
  enabled := code_enabled
  stable := fun _ _ hr ho => ready_stable hr ho
  moves := fun hc _ => code_moves hc

end Lawful

/-- **The sections of the channel may be taken at once**, whatever its capacity and the assumption
`G` on the actions. -/
theorem channel_reduction (capacity : ℕ) (G : Action α T → Prop) (es : List (Event α T)) :
    (∀ x, Exec opened.fine (Opened.Meets G) ⟨State.init capacity, none⟩ es x →
      ∃ s, Exec step (Opened.Under G) (State.init capacity) es s ∧ opened.Simulates G x s) ∧
    ∀ s, Exec step (Opened.Under G) (State.init capacity) es s →
      Exec opened.fine (Opened.Meets G) ⟨State.init capacity, none⟩ es ⟨s, none⟩ :=
  ⟨fun _ h => (lawful G).refines h, fun _ h => (lawful G).adequate h⟩

/-- The receiver sleeps when sender `0` writes the slot; before `tail` and `count` follow, it wakes up
for no reason, and sender `2` fails to lock and loses its box. -/
theorem channel_reduction_interleaved :
    ∃ (es : List (Event ℕ (Fin 3)))
      (x : Fine (State ℕ (Fin 3)) (Action ℕ (Fin 3)) (Event ℕ (Fin 3))) (s : State ℕ (Fin 3)),
      Exec opened.fine (Opened.Meets fun _ => True) ⟨State.init 2, none⟩ es x ∧
      es = [.released 1, .ret 2 (.send .send 8) (.send (.error (.channelOperationFailed 11))),
        .ret 0 (.send .trySend 7) (.trySend (.ok .sent)), .delivered 0,
        .ret 1 (.recv true) (.recv (.ok (some 7)))] ∧
      Exec step (Opened.Under fun _ => True) (State.init 2) es s ∧ x.base = s := by
  obtain ⟨es, x, h, ht⟩ := Exec.exists_of_run opened.fine (Opened.Meets fun _ => True)
    (⟨State.init 2, none⟩ : Fine (State ℕ (Fin 3)) (Action ℕ (Fin 3)) (Event ℕ (Fin 3)))
    [.outside (.callRecv 1 true), .enter (.lock 1 {} none), .tick, .tick, .tick,
      .outside (.callSend 0 0 .trySend 7 0), .enter (.lock 0 {} none), .tick, .tick, .tick, .tick,
      .outside (.spurious 1), .outside (.callSend 2 0 .send 8 0),
      .outside (.lock 2 { lock := 11 } none), .tick, .tick, .tick, .tick,
      .enter (.resume 1 {} none), .tick, .tick, .tick, .tick, .tick, .tick, .tick, .tick, .tick]
    (fun x es => x.inside.isNone && decide (es = [.released 1,
      .ret 2 (.send .send 8) (.send (.error (.channelOperationFailed 11))),
      .ret 0 (.send .trySend 7) (.trySend (.ok .sent)), .delivered 0,
      .ret 1 (.recv true) (.recv (.ok (some 7)))]))
    (by decide +kernel)
  obtain ⟨hnone, hes⟩ := Bool.and_eq_true_iff.1 ht
  obtain ⟨s, hs, hx⟩ := (channel_reduction 2 (fun _ => True) es).1 x h
  obtain ⟨base, inside⟩ := x
  obtain rfl : inside = none := Option.isNone_iff_eq_none.1 hnone
  exact ⟨es, _, s, h, of_decide_eq_true hes, hs, hx⟩

end NativeSync.Channel
