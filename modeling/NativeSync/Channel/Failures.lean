import NativeSync.Channel.Moves

/-!
# The generic channel: operations that raise

As for the OwnedBytes channel, the wrappers raise whenever the native call has recorded a failing
status, and a pass that has touched the queue can still record one, in its notification or in its
unlock (`Late`). The queue of this channel is its ring.

`trySend` and `send` are two functions; `trySend_eq_enqueue` and `sendLoop_eq_enqueue` say when each
of them reaches the code that writes the slot, and `trySend_ring` and `sendLoop_ring` that it leaves
the ring alone otherwise.
-/

namespace NativeSync.Channel

open Foundations

variable {α T : Type}

/-- A pass of thread `t` from `p` on has got the mutex: its lock, or the wait it resumes from, has
succeeded. -/
def Entered (s : State α T) (a : Action α T) (t : T) (p : Point α) : Prop :=
  (s.threads t).Entered (∃ os pick, a = .lock t os pick ∧ os.lock = 0)
    (∃ os pick, a = .resume t os pick ∧ os.wake = 0) p

/-- The operation raises `ChannelOperationFailed`. -/
def Result.failed : Result α → Bool
  | trySend r => operationFailed r
  | send r => operationFailed r
  | tryRecv r => operationFailed r
  | recv r => operationFailed r
  | length r => operationFailed r
  | unit r => operationFailed r

/-- A send or a receive ends. -/
def Event.ends : Event α T → Bool
  | ret _ (.send ..) _ => true
  | ret _ (.recv _) _ => true
  | _ => false

/-- A send or a receive raises `ChannelOperationFailed`. -/
def Event.raised : Event α T → Bool
  | ret _ (.send ..) r => r.failed
  | ret _ (.recv _) r => r.failed
  | _ => false

/-- A send can write its box. -/
def Core.Room (core : Core α) : Prop := core.Open ∧ core.ring.count ≠ core.ring.capacity

/-- A pass fails late: a send has got the mutex and finds an open channel with room, or a receive
has got it and finds a box, and then the notification or the unlock fails. -/
def Late (s : State α T) (a : Action α T) : Prop :=
  (a.os.cond₁ ≠ 0 ∨ a.os.unlock ≠ 0) ∧
    ((∃ t h kind m, Entered s a t (.send h kind m) ∧ s.core.Room) ∨
      ∃ t block, Entered s a t (.receive block) ∧ s.core.ring.count ≠ 0)

/-! ## The sections -/

section Sections

variable {core : Core α} {m : Box α} {os : Os} {block : Bool}

theorem trySend_eq_enqueue (hl : os.lock = 0) (hr : core.Room) :
    trySend core m os = enqueue core m os := by
  have ho : ¬(core.closed || !core.receiverAlive) = true := fun h => core.not_open_iff.2 h hr.1
  have hc : ¬(core.ring.count == core.ring.capacity) = true := by simpa using hr.2
  rw [trySend, if_neg (not_not.2 hl), if_neg ho, if_neg hc]

theorem trySend_ring (h : ¬(os.lock = 0 ∧ core.Room)) :
    (trySend core m os).core.ring = core.ring := by
  unfold trySend
  split_ifs with h₁ h₂ h₃
  · rfl
  · rfl
  · rfl
  · exact absurd ⟨not_not.1 h₁, not_not.1 (mt core.not_open_iff.1 h₂), by simpa using h₃⟩ h

theorem sendLoop_eq_enqueue (hr : core.Room) : sendLoop core m os = enqueue core m os := by
  have ho : ¬(core.closed || !core.receiverAlive) = true := fun h => core.not_open_iff.2 h hr.1
  have hc : (core.ring.count == core.ring.capacity) = false := by simpa using hr.2
  rw [sendLoop, hc, Bool.false_and, Bool.false_and, if_neg Bool.false_ne_true, if_neg ho]

theorem sendLoop_ring (h : ¬core.Room) : (sendLoop core m os).core.ring = core.ring := by
  unfold sendLoop
  split_ifs with h₁ h₂ h₃
  · rfl
  · rfl
  · rfl
  · have ho : core.Open := not_not.1 (mt core.not_open_iff.1 h₃)
    refine absurd ⟨ho, fun hc => h₁ ?_⟩ h
    simp [hc, ho.1, ho.2]

theorem receiveLoop_of_count (hc : core.ring.count ≠ 0) :
    receiveLoop core block os =
      { core := core.dequeue
        wakes := if os.cond₁ = 0 then [.signal .writable] else []
        exit := .ret 0 (lateError os) (core.ring.slots core.ring.head) } := by
  have hcount : (core.ring.count == 0) = false := by simpa using hc
  simp only [receiveLoop, hcount, Bool.and_false, Bool.false_and, Bool.false_eq_true, if_false]
  rfl

theorem receiveLoop_ring (hc : core.ring.count = 0) :
    (receiveLoop core block os).core.ring = core.ring := by
  have hcount : (core.ring.count == 0) = true := by simpa using hc
  unfold receiveLoop
  rw [if_pos hcount]
  split_ifs <;> rfl

/-- The wrappers of an accepted send raise exactly on a nonzero status. -/
theorem failed_sendResult {kind : SendKind} {error : ℤ} {r : Result α}
    (h : kind.result none 0 error = some r) : r.failed = true ↔ error ≠ 0 := by
  by_cases he : error = 0 <;> cases kind <;>
    simp [SendKind.result, trySendResult, sendResult, he] at h <;> subst h <;>
    simp [Result.failed, operationFailed, he]

/-- The wrappers of a receive raise exactly on a nonzero status. -/
theorem failed_recvOpResult {raw : Option (Box α)} {error : ℤ} {r : Result α}
    (h : recvOpResult block raw 0 error = some r) : r.failed = true ↔ error ≠ 0 := by
  by_cases he : error = 0 <;> cases block <;> cases raw <;>
    simp [recvOpResult, tryRecvResult, recvResult, he] at h <;> subst h <;>
    simp [Result.failed, operationFailed, he]

end Sections

/-! ## The steps -/

variable [Fintype T] [DecidableEq T] {s s' : State α T} {e : List (Event α T)} {a : Action α T}
  {t : T} {pick : Option T}

/-- The end of a pass of a send changes the core and the threads only. -/
theorem endSend_frame {h : ℕ} {kind : SendKind} {m : Box α}
    {sec : Section (Core α) Cond (SendExit α)}
    (hs : s.endSend t h kind m pick sec = some (s', e)) :
    ∃ core f, s' = { s with core, threads := f } ∧ (core = s.core ∨ core = sec.core) := by
  unfold State.endSend at hs
  split at hs
  · cases hs
    exact ⟨_, _, rfl, .inl rfl⟩
  · simp only [Option.bind_eq_some_iff, Option.map_eq_some_iff, Prod.mk.injEq] at hs
    obtain ⟨f, -, r, -, rfl, -⟩ := hs
    exact ⟨_, f, rfl, .inr rfl⟩

/-- The end of a pass of a receive changes the core and the threads only. -/
theorem endReceive_frame {block : Bool} {sec : Section (Core α) Cond (ReceiveExit α)}
    (hs : s.endReceive t block pick sec = some (s', e)) :
    ∃ core f, s' = { s with core, threads := f } ∧ (core = s.core ∨ core = sec.core) := by
  unfold State.endReceive at hs
  split at hs
  · cases hs
    exact ⟨_, _, rfl, .inl rfl⟩
  · simp only [Option.bind_eq_some_iff, Option.map_eq_some_iff, Prod.mk.injEq] at hs
    obtain ⟨f, -, r, -, rfl, -⟩ := hs
    exact ⟨_, f, rfl, .inr rfl⟩

theorem endSend_ring {h : ℕ} {kind : SendKind} {m : Box α}
    {sec : Section (Core α) Cond (SendExit α)} (hr : sec.core.ring = s.core.ring)
    (hs : s.endSend t h kind m pick sec = some (s', e)) : s'.core.ring = s.core.ring := by
  obtain ⟨core, f, rfl, rfl | rfl⟩ := endSend_frame hs
  · rfl
  · exact hr

theorem endReceive_ring {block : Bool} {sec : Section (Core α) Cond (ReceiveExit α)}
    (hr : sec.core.ring = s.core.ring) (hs : s.endReceive t block pick sec = some (s', e)) :
    s'.core.ring = s.core.ring := by
  obtain ⟨core, f, rfl, rfl | rfl⟩ := endReceive_frame hs
  · rfl
  · exact hr

/-- The step ends a send that has written its box. -/
def Sent (s : State α T) (a : Action α T) (s' : State α T) (e : List (Event α T)) : Prop :=
  ∃ t h kind m, Entered s a t (.send h kind m) ∧ s.core.Room ∧ s'.core = s.core.enqueue m ∧
    ∃ r, kind.result none 0 (lateError a.os) = some r ∧ e = [.ret t (.send kind m.val) r]

/-- The step ends a receive that has taken a box. -/
def Received (s : State α T) (a : Action α T) (s' : State α T) (e : List (Event α T)) : Prop :=
  ∃ t block, Entered s a t (.receive block) ∧ s.core.ring.count ≠ 0 ∧
    s'.core = s.core.dequeue ∧
    ∃ r, recvOpResult block (s.core.ring.slots s.core.ring.head) 0 (lateError a.os) = some r ∧
      e = boxEvents .delivered (s.core.ring.slots s.core.ring.head) (lateError a.os) ++
        [.ret t (.recv block) r]

theorem endSend_enqueue {h : ℕ} {kind : SendKind} {m : Box α} (hr : s.core.Room)
    (hin : Entered s a t (.send h kind m))
    (hs : s.endSend t h kind m pick (enqueue s.core m a.os) = some (s', e)) : Sent s a s' e := by
  simp only [State.endSend, enqueue, boxEvents, Option.map_none, Option.toList_none,
    List.nil_append, Option.bind_eq_some_iff, Option.map_eq_some_iff, Prod.mk.injEq] at hs
  obtain ⟨f, -, r, hres, rfl, rfl⟩ := hs
  exact ⟨t, h, kind, m, hin, hr, rfl, r, hres, rfl⟩

theorem endReceive_dequeue {block : Bool} (hc : s.core.ring.count ≠ 0)
    (hin : Entered s a t (.receive block))
    (hs : s.endReceive t block pick (receiveLoop s.core block a.os) = some (s', e)) :
    Received s a s' e := by
  rw [receiveLoop_of_count hc] at hs
  simp only [State.endReceive, Option.bind_eq_some_iff, Option.map_eq_some_iff,
    Prod.mk.injEq] at hs
  obtain ⟨f, -, r, hres, rfl, rfl⟩ := hs
  exact ⟨t, block, hin, hc, rfl, r, hres, rfl⟩

/-- **A step leaves the queue alone, or it is the last pass of a send that writes its box or of a
receive that takes one.** -/
theorem step_queue (hs : step s a = some (s', e)) :
    s'.core.ring = s.core.ring ∨ Sent s a s' e ∨ Received s a s' e := by
  cases a with
  | callSend t h kind v injected =>
    simp only [step] at hs
    split_ifs at hs with h₁ h₂
    · simp only [Option.map_eq_some_iff, Prod.mk.injEq] at hs
      obtain ⟨r, -, rfl, -⟩ := hs
      exact .inl rfl
    · cases hs
      exact .inl rfl
  | callRecv t block =>
    simp only [step] at hs
    split_ifs at hs
    cases hs
    exact .inl rfl
  | lock t os pick =>
    simp only [step] at hs
    split at hs
    · rename_i h m ht
      by_cases hgo : os.lock = 0 ∧ s.core.Room
      · rw [trySend_eq_enqueue hgo.1 hgo.2] at hs
        exact .inr (.inl (endSend_enqueue hgo.2 (.inl ⟨⟨os, pick, rfl, hgo.1⟩, ht⟩) hs))
      · exact .inl (endSend_ring (trySend_ring hgo) hs)
    · rename_i h m ht
      unfold send at hs
      split_ifs at hs with hl
      · exact .inl (endSend_ring rfl hs)
      · by_cases hr : s.core.Room
        · rw [sendLoop_eq_enqueue hr] at hs
          exact .inr (.inl (endSend_enqueue hr (.inl ⟨⟨os, pick, rfl, not_not.1 hl⟩, ht⟩) hs))
        · exact .inl (endSend_ring (sendLoop_ring hr) hs)
    · rename_i block ht
      unfold receive at hs
      split_ifs at hs with hl
      · exact .inl (endReceive_ring rfl hs)
      · by_cases hc : s.core.ring.count = 0
        · exact .inl (endReceive_ring (receiveLoop_ring hc) hs)
        · exact .inr (.inr (endReceive_dequeue hc (.inl ⟨⟨os, pick, rfl, not_not.1 hl⟩, ht⟩) hs))
    · cases hs
  | spurious t =>
    simp only [step] at hs
    split at hs
    · cases hs
      exact .inl rfl
    · cases hs
  | resume t os pick =>
    simp only [step] at hs
    split at hs
    · cases hs
    · rename_i w h m hw ht
      unfold sendWoken at hs
      split_ifs at hs with hk
      · exact .inl (endSend_ring rfl hs)
      · by_cases hr : s.core.Room
        · rw [sendLoop_eq_enqueue hr] at hs
          exact .inr (.inl (endSend_enqueue hr
            (.inr ⟨⟨os, pick, rfl, not_not.1 hk⟩, w, hw, ht⟩) hs))
        · exact .inl (endSend_ring (sendLoop_ring hr) hs)
    · rename_i w block hw ht
      unfold receiveWoken at hs
      split_ifs at hs with hk
      · exact .inl (endReceive_ring rfl hs)
      · by_cases hc : s.core.ring.count = 0
        · exact .inl (endReceive_ring (receiveLoop_ring hc) hs)
        · exact .inr (.inr (endReceive_dequeue hc
            (.inr ⟨⟨os, pick, rfl, not_not.1 hk⟩, w, hw, ht⟩) hs))
    · cases hs
  | senderClose t h os =>
    simp only [step, Option.ite_none_right_eq_some, Option.map_eq_some_iff, Prod.mk.injEq] at hs
    obtain ⟨-, f, -, rfl, -⟩ := hs
    exact .inl rfl
  | receiverClose t os =>
    simp only [step, Option.ite_none_right_eq_some, Option.map_eq_some_iff, Prod.mk.injEq] at hs
    obtain ⟨-, f, -, rfl, -⟩ := hs
    exact .inl rfl
  | share t h h' os =>
    simp only [step, Option.ite_none_right_eq_some, Option.some.injEq, Prod.mk.injEq] at hs
    obtain ⟨-, rfl, -⟩ := hs
    exact .inl rfl
  | length t os =>
    simp only [step, Option.ite_none_right_eq_some, Option.some.injEq, Prod.mk.injEq] at hs
    obtain ⟨-, rfl, -⟩ := hs
    exact .inl rfl
  | dropSender t h os =>
    simp only [step, Option.ite_none_right_eq_some, Option.bind_eq_some_iff, finalize,
      Option.map_eq_some_iff, State.endFinalize, Prod.mk.injEq] at hs
    obtain ⟨-, sec, ⟨c, -, rfl⟩, f, -, rfl, -⟩ := hs
    exact .inl rfl
  | dropReceiver t os =>
    simp only [step, Option.ite_none_right_eq_some, Option.bind_eq_some_iff, finalize,
      Option.map_eq_some_iff, State.endFinalize, Prod.mk.injEq] at hs
    obtain ⟨-, sec, ⟨c, -, rfl⟩, f, -, rfl, -⟩ := hs
    exact .inl rfl

/-! ## A pass that fails late -/

/-- A pass of a send that has got the mutex and finds room writes its box, whatever its last
primitives return. -/
theorem step_sent {h : ℕ} {kind : SendKind} {m : Box α} (hin : Entered s a t (.send h kind m))
    (hr : s.core.Room) (hs : step s a = some (s', e)) : Sent s a s' e := by
  have hin' := hin
  rcases hin with ⟨⟨os, pick, rfl, hl⟩, ht⟩ | ⟨⟨os, pick, rfl, hk⟩, w, hw, ht⟩
  · cases kind with
    | trySend =>
      simp only [step, ht, trySend_eq_enqueue hl hr] at hs
      exact endSend_enqueue hr hin' hs
    | send =>
      simp only [step, ht, send, hl, ne_eq, not_true_eq_false, if_false,
        sendLoop_eq_enqueue hr] at hs
      exact endSend_enqueue hr hin' hs
  · cases w with
    | asleep => exact absurd rfl hw
    | _ =>
      cases kind with
      | trySend => simp [step, ht] at hs
      | send =>
        simp only [step, ht, sendWoken, hk, ne_eq, not_true_eq_false, if_false,
          sendLoop_eq_enqueue hr] at hs
        exact endSend_enqueue hr hin' hs

/-- A pass of a receive that has got the mutex and finds a box takes it, whatever its last
primitives return. -/
theorem step_received {block : Bool} (hin : Entered s a t (.receive block))
    (hc : s.core.ring.count ≠ 0) (hs : step s a = some (s', e)) : Received s a s' e := by
  have hin' := hin
  rcases hin with ⟨⟨os, pick, rfl, hl⟩, ht⟩ | ⟨⟨os, pick, rfl, hk⟩, w, hw, ht⟩
  · simp only [step, ht, receive, hl, ne_eq, not_true_eq_false, if_false] at hs
    exact endReceive_dequeue hc hin' hs
  · cases w with
    | asleep => exact absurd rfl hw
    | _ =>
      simp only [step, ht, receiveWoken, hk, ne_eq, not_true_eq_false, if_false] at hs
      exact endReceive_dequeue hc hin' hs

omit [Fintype T] [DecidableEq T] in
/-- A send that has written its box raises exactly when its notification or its unlock fails. -/
theorem Sent.raised_iff (h : Sent s a s' e) :
    (∃ x ∈ e, x.raised = true) ↔ a.os.cond₁ ≠ 0 ∨ a.os.unlock ≠ 0 := by
  obtain ⟨t, k, kind, m, -, -, -, r, hres, rfl⟩ := h
  rw [← lateError_ne_zero, ← failed_sendResult hres]
  simp [Event.raised]

omit [Fintype T] [DecidableEq T] in
/-- A receive that has taken a box raises exactly when its notification or its unlock fails. -/
theorem Received.raised_iff (h : Received s a s' e) :
    (∃ x ∈ e, x.raised = true) ↔ a.os.cond₁ ≠ 0 ∨ a.os.unlock ≠ 0 := by
  obtain ⟨t, block, -, -, -, r, hres, rfl⟩ := h
  rw [← lateError_ne_zero, ← failed_recvOpResult hres]
  constructor
  · rintro ⟨x, hx, hr⟩
    rcases List.mem_append.1 hx with hx | hx
    · obtain ⟨b, -, rfl⟩ := by simpa [boxEvents] using hx
      split_ifs at hr <;> cases hr
    · obtain rfl := List.mem_singleton.1 hx
      exact hr
  · intro hr
    exact ⟨_, List.mem_append_right _ (.head _), hr⟩

/-- A pass that fails late raises, and the queue is another one than before. -/
theorem Late.raises (hl : Late s a) (hs : step s a = some (s', e)) :
    (∃ x ∈ e, x.raised = true) ∧ s'.core.ring ≠ s.core.ring := by
  obtain ⟨hos, ⟨t, k, kind, m, hin, hr⟩ | ⟨t, block, hin, hc⟩⟩ := hl
  · have hsent := step_sent hin hr hs
    refine ⟨hsent.raised_iff.2 hos, fun hq => ?_⟩
    obtain ⟨t', k', kind', m', -, -, hcore, -⟩ := hsent
    rw [hcore] at hq
    exact Nat.succ_ne_self _ (congrArg RingBuffer.count hq)
  · have hrec := step_received hin hc hs
    refine ⟨hrec.raised_iff.2 hos, fun hq => ?_⟩
    obtain ⟨t', block', -, -, hcore, -⟩ := hrec
    rw [hcore] at hq
    exact (Nat.pred_lt hc).ne (congrArg RingBuffer.count hq)

/-- **A step of a send or of a receive that raises leaves the queue alone exactly when it does not
fail late**, and the sections of an operation before its last one always do. -/
theorem failure_atomic_iff (hs : step s a = some (s', e)) :
    ((∀ x ∈ e, x.ends = false) → s'.core.ring = s.core.ring) ∧
      (((∃ x ∈ e, x.raised = true) → s'.core.ring = s.core.ring) ↔ ¬Late s a) := by
  refine ⟨fun he => ?_, fun hq hl => ?_, fun hl hr => ?_⟩
  · rcases step_queue hs with hq | ⟨t, k, kind, m, -, -, -, r, -, rfl⟩ |
      ⟨t, block, -, -, -, r, -, rfl⟩
    · exact hq
    · cases he _ (.head _)
    · cases he _ (List.mem_append_right _ (.head _))
  · obtain ⟨hr, hne⟩ := hl.raises hs
    exact hne (hq hr)
  · rcases step_queue hs with hq | hsent | hrec
    · exact hq
    · have hos := hsent.raised_iff.1 hr
      obtain ⟨t, k, kind, m, hin, hroom, -⟩ := hsent
      exact absurd ⟨hos, .inl ⟨t, k, kind, m, hin, hroom⟩⟩ hl
    · have hos := hrec.raised_iff.1 hr
      obtain ⟨t, block, hin, hc, -⟩ := hrec
      exact absurd ⟨hos, .inr ⟨t, block, hin, hc⟩⟩ hl

end NativeSync.Channel
