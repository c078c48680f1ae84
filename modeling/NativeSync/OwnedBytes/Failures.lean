import NativeSync.OwnedBytes.Budget

/-!
# The OwnedBytes channel: operations that raise

A send or a receive takes the mutex several times, and the wrapper raises whenever the native call
has recorded a failing status, whatever the call has done before. A pass records a failure before it
touches the queue, and then the queue stays as it was, or after it, in the notification or in the
unlock that end it. `Late` is that second case, stated on what the pass finds and on the statuses it
gets. `Outcome.queue_of_not_late` and `step_sent`, `step_received` are the two halves of the
characterization `failure_atomic_iff`.
-/

namespace NativeSync.OwnedBytes

open Foundations

variable {T : Type}

/-- The slots with their cursors, and the byte counter. -/
def Core.queue (core : Core) : RingBuffer Message × ℤ := (core.ring, core.queuedBytes)

/-- The operation raises `ChannelOperationFailed`. -/
def Result.failed : Result → Bool
  | trySend r => operationFailed r
  | send r => operationFailed r
  | sendChecked r => operationFailed r
  | tryRecv r => operationFailed r
  | recv r => operationFailed r
  | length r => operationFailed r
  | unit r => operationFailed r

/-- A send or a receive ends. -/
def Event.ends : Event T → Bool
  | ret _ (.send ..) _ => true
  | ret _ (.recv _) _ => true
  | _ => false

/-- A send or a receive raises `ChannelOperationFailed`. -/
def Event.raised : Event T → Bool
  | ret _ (.send ..) r => r.failed
  | ret _ (.recv _) r => r.failed
  | _ => false

/-- A pass fails late: a send with its copy made has got the mutex and finds an open channel with
room, or a receive has got it and finds a message, and then the notification or the unlock fails. -/
def Late (s : State T) (a : Action T) : Prop :=
  (a.os.cond₁ ≠ 0 ∨ a.os.unlock ≠ 0) ∧
    ((∃ t h kind bytes m, Entered s a t (.submit h kind bytes (some m)) ∧ s.core.Open ∧
        s.core.Fits bytes.length) ∨
      ∃ t block, Entered s a t (.receive block) ∧ s.core.ring.count ≠ 0)

/-- The wrappers of a send raise exactly on a nonzero status. -/
theorem failed_sendResult (kind : SendKind) (core : Core) (bytes : Bytes) (error : ℤ) :
    (kind.result core bytes 0 error).failed = true ↔ error ≠ 0 := by
  by_cases he : error = 0 <;> cases kind <;>
    simp [SendKind.result, trySendResult, sendResult, sendCheckedResult, he, Result.failed,
      operationFailed, Except.map]

/-- The wrappers of a receive raise exactly on a nonzero status. -/
theorem failed_recvOpResult (block : Bool) (m : Message) (error : ℤ) :
    (recvOpResult block (some m) 0 error).failed = true ↔ error ≠ 0 := by
  by_cases he : error = 0 <;> cases block <;>
    simp [recvOpResult, tryRecvResult, recvResult, he, Result.failed, operationFailed]

variable [DecidableEq T] {L : Limits} {s s' : State T} {es e : List (Event T)} {a : Action T}
  {t : T}

/-- A step at which no send and no receive ends leaves the queue alone. -/
theorem Outcome.queue_of_not_ends (ho : Outcome a s s' e) (he : ∀ x ∈ e, x.ends = false) :
    s'.core.queue = s.core.queue := by
  cases ho with
  | sent t h kind bytes m f hin hlen ho hf hw => cases he _ (.head _)
  | received t block m f hin hc hm hw => cases he _ (.tail _ (.head _))
  | _ => rfl

/-- A pass that does not fail late and raises leaves the queue alone. -/
theorem Outcome.queue_of_not_late (ho : Outcome a s s' e) (hl : ¬Late s a)
    (he : ∃ x ∈ e, x.raised = true) : s'.core.queue = s.core.queue := by
  obtain ⟨x, hx, hr⟩ := he
  cases ho with
  | sent t h kind bytes m f hin hlen ho hf hw =>
    obtain rfl := List.mem_singleton.1 hx
    have herr := (failed_sendResult kind s.core bytes _).1 hr
    exact absurd ⟨lateError_ne_zero.1 herr, .inl ⟨t, h, kind, bytes, m, hin, ho, hf⟩⟩ hl
  | received t block m f hin hc hm hw =>
    rcases List.mem_cons.1 hx with rfl | hx
    · cases hr
    · obtain rfl := List.mem_singleton.1 hx
      have herr := (failed_recvOpResult block m _).1 hr
      exact absurd ⟨lateError_ne_zero.1 herr, .inr ⟨t, block, hin, hc⟩⟩ hl
  | _ => rfl

/-! ## A pass that fails late -/

variable [Fintype T]

/-- A pass of a send that has got the mutex, with its copy made and room for it, enqueues the copy,
whatever its last primitives return. -/
theorem step_sent {h : ℕ} {kind : SendKind} {bytes : Bytes} {m : Message}
    (hin : Entered s a t (.submit h kind bytes (some m)))
    (hlen : bytes.length ≤ s.core.maxMessageBytes) (ho : s.core.Open)
    (hf : s.core.Fits bytes.length) (hs : freeStep s a = some (s', e)) :
    s'.core = s.core.enqueue m bytes.length ∧
      e = [.ret t (.send kind bytes)
        (kind.result (s.core.enqueue m bytes.length) bytes 0 (lateError a.os))] := by
  replace hs := (freeStep_eq_some.1 hs).2
  rcases hin with ⟨⟨os, pick, rfl, hl⟩, ht⟩ | ⟨⟨os, pick, rfl, hk⟩, w, hw, ht⟩
  · simp only [manyStep, step, ht, submit, hl, ne_eq, not_true_eq_false, if_false, not_lt.2 hlen,
      submitLoop_of_fits m ho hf, State.endSubmit, Option.map_eq_some_iff, Prod.mk.injEq] at hs
    obtain ⟨f, -, rfl, rfl⟩ := hs
    exact ⟨rfl, rfl⟩
  · cases w with
    | asleep => exact absurd rfl hw
    | _ =>
      simp only [manyStep, step, ht, submitWoken, hk, ne_eq, not_true_eq_false, if_false,
        submitLoop_of_fits m ho hf, State.endSubmit, Option.map_eq_some_iff, Prod.mk.injEq] at hs
      obtain ⟨f, -, rfl, rfl⟩ := hs
      exact ⟨rfl, rfl⟩

/-- A pass of a receive that has got the mutex and finds a message dequeues it, whatever its last
primitives return. -/
theorem step_received {block : Bool} {m : Message} (hin : Entered s a t (.receive block))
    (hc : s.core.ring.count ≠ 0) (hm : s.core.ring.slots s.core.ring.head = some m)
    (hs : freeStep s a = some (s', e)) :
    s'.core = s.core.dequeue m ∧
      e = [.released m.addr,
        .ret t (.recv block) (recvOpResult block (some m) 0 (lateError a.os))] := by
  replace hs := (freeStep_eq_some.1 hs).2
  rcases hin with ⟨⟨os, pick, rfl, hl⟩, ht⟩ | ⟨⟨os, pick, rfl, hk⟩, w, hw, ht⟩
  · simp only [manyStep, step, ht, receive, hl, ne_eq, not_true_eq_false, if_false,
      receiveLoop_of_count hc hm, Option.bind_some, State.endReceive, Option.map_eq_some_iff,
      Prod.mk.injEq] at hs
    obtain ⟨f, -, rfl, rfl⟩ := hs
    exact ⟨rfl, rfl⟩
  · cases w with
    | asleep => exact absurd rfl hw
    | _ =>
      simp only [manyStep, step, ht, receiveWoken, hk, ne_eq, not_true_eq_false, if_false,
        receiveLoop_of_count hc hm, Option.bind_some, State.endReceive, Option.map_eq_some_iff,
        Prod.mk.injEq] at hs
      obtain ⟨f, -, rfl, rfl⟩ := hs
      exact ⟨rfl, rfl⟩

omit [DecidableEq T] [Fintype T] in
/-- A queue with one message more or less is another queue. -/
theorem queue_ne_of_count {core core' : Core} (h : core'.ring.count ≠ core.ring.count) :
    core'.queue ≠ core.queue :=
  fun hq => h (congrArg (fun q => q.1.count) hq)

/-- A pass that fails late raises, and the queue is another one than before. -/
theorem Late.raises (hl : Late s a) (h : Sound L s) (hs : freeStep s a = some (s', e)) :
    (∃ x ∈ e, x.raised = true) ∧ s'.core.queue ≠ s.core.queue := by
  obtain ⟨hos, ⟨t, k, kind, bytes, m, hin, ho, hf⟩ | ⟨t, block, hin, hc⟩⟩ := hl
  · obtain ⟨hok, hlen⟩ := h.carried hin.ready
    have hle : bytes.length ≤ s.core.maxMessageBytes := by
      rw [h.core.maxMessage, ← hlen]
      exact hok.2
    obtain ⟨hcore, rfl⟩ := step_sent hin hle ho hf hs
    refine ⟨⟨_, .head _, (failed_sendResult ..).2 (lateError_ne_zero.2 hos)⟩, ?_⟩
    rw [hcore]
    exact queue_ne_of_count (Nat.succ_ne_self _)
  · obtain ⟨m, hm, -⟩ := RingBuffer.exists_pop h.core.ring hc
    obtain ⟨hcore, rfl⟩ := step_received hin hc hm hs
    refine ⟨⟨_, .tail _ (.head _), (failed_recvOpResult ..).2 (lateError_ne_zero.2 hos)⟩, ?_⟩
    rw [hcore]
    exact queue_ne_of_count (Nat.pred_lt hc).ne

/-- **A step of a send or of a receive that raises leaves the queue alone exactly when it does not
fail late**, and the sections of an operation before its last one always do. -/
theorem failure_atomic_iff (h : Exec freeStep AnyStatus (State.init L.core) es s)
    (hs : freeStep s a = some (s', e)) :
    ((∀ x ∈ e, x.ends = false) → s'.core.queue = s.core.queue) ∧
      (((∃ x ∈ e, x.raised = true) → s'.core.queue = s.core.queue) ↔ ¬Late s a) := by
  have ho := freeStep_outcome hs
  refine ⟨ho.queue_of_not_ends, fun hq hl => ?_, ho.queue_of_not_late⟩
  obtain ⟨hr, hne⟩ := hl.raises (sound_of_exec h) hs
  exact hne (hq hr)

end NativeSync.OwnedBytes
