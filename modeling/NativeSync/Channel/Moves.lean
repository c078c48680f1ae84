import NativeSync.Channel.System

/-!
# The generic channel: what a step can do, and its invariant

`step_move` says once what every step of the system does when the primitives succeed: it is one of
the moves of `Move`. `Inv` is what holds of every state: the ring is well formed, the counters of
the core are the numbers of live handles, and the operations in progress use live handles.
`Move.inv` is the step, `inv_of_exec` the run.
-/

namespace NativeSync.Channel

open Foundations

variable {α T : Type}

/-- The result of a send that was accepted. -/
def SendKind.sent : SendKind → Result α
  | trySend => .trySend (.ok .sent)
  | send => .send (.ok (.ok ()))

/-- The result of a send into a closed channel. -/
def SendKind.closed (v : α) : SendKind → Result α
  | trySend => .trySend (.ok (.closed v))
  | send => .send (.ok (.error v))

/-- The result of a receive of `v`. -/
def receivedResult (block : Bool) (v : α) : Result α :=
  if block then .recv (.ok (some v)) else .tryRecv (.ok (.received v))

/-- The result of a receive from an empty channel. -/
def nothingResult (block closed : Bool) : Result α :=
  if block then .recv (.ok none) else .tryRecv (.ok (if closed then .closed else .empty))

/-- The core after a box was enqueued. -/
def Core.enqueue (core : Core α) (m : Box α) : Core α := { core with ring := core.ring.push m }

/-- The core after the box at the head was dequeued. -/
def Core.dequeue (core : Core α) : Core α := { core with ring := core.ring.pop }

/-- The core after a sender handle was finalized and gave up its reference. -/
def Core.dropSender (core : Core α) : Core α :=
  core.setEndpoints core.toEndpoints.dropSender.release

/-- The core after the receiver handle was finalized and gave up its reference. -/
def Core.dropReceiver (core : Core α) : Core α :=
  core.setEndpoints core.toEndpoints.dropReceiver.release

/-- The events of giving up a reference: the last one releases the queued boxes and the core. -/
def freeEvents (core : Core α) : List (Event α T) :=
  if core.refs = 0 then (core.ring.slotList.map fun b => Event.released b.addr) ++ [.freed]
  else []

variable [DecidableEq T]

/-- The moves of the system. -/
inductive Move (s : State α T) : State α T → List (Event α T) → Prop
  | callSend (t : T) (h : ℕ) (kind : SendKind) (v : α) (ht : s.threads t = .run .idle)
      (hh : h ∈ s.senders) :
      Move s { s.move t (.run (.send h kind ⟨s.boxes, v⟩)) with boxes := s.boxes + 1 } []
  | callRecv (t : T) (block : Bool) (ht : s.threads t = .run .idle) (hr : s.receiver = true) :
      Move s (s.move t (.run (.receive block))) []
  | sendClosed (t : T) (h : ℕ) (kind : SendKind) (m : Box α)
      (ht : (s.threads t).Ready (.send h kind m)) (ho : ¬s.core.Open) :
      Move s (s.move t (.run .idle))
        [.returned m.addr, .ret t (.send kind m.val) (kind.closed m.val)]
  | sendFull (t : T) (h : ℕ) (m : Box α) (ht : (s.threads t).Ready (.send h .trySend m))
      (ho : s.core.Open) (hf : s.core.ring.count = s.core.ring.capacity) :
      Move s (s.move t (.run .idle))
        [.returned m.addr, .ret t (.send .trySend m.val) (.trySend (.ok (.full m.val)))]
  | sendSleep (t : T) (h : ℕ) (m : Box α) (ht : (s.threads t).Ready (.send h .send m))
      (ho : s.core.Open) (hf : s.core.ring.count = s.core.ring.capacity) :
      Move s (s.move t (.wait .asleep (.send h .send m))) []
  | sent (t : T) (h : ℕ) (kind : SendKind) (m : Box α) (f : T → Pc (Point α))
      (ht : (s.threads t).Ready (.send h kind m)) (ho : s.core.Open)
      (hf : s.core.ring.count ≠ s.core.ring.capacity)
      (hs : Signalled Point.cond .readable (Function.update s.threads t (.run .idle)) f) :
      Move s { s with core := s.core.enqueue m, threads := f }
        [.ret t (.send kind m.val) kind.sent]
  | recvSleep (t : T) (ht : (s.threads t).Ready (.receive true)) (hc : s.core.ring.count = 0)
      (ho : s.core.closed = false) : Move s (s.move t (.wait .asleep (.receive true))) []
  | recvNothing (t : T) (block : Bool) (ht : (s.threads t).Ready (.receive block))
      (hc : s.core.ring.count = 0) (hb : block = true → s.core.closed = true) :
      Move s (s.move t (.run .idle)) [.ret t (.recv block) (nothingResult block s.core.closed)]
  | received (t : T) (block : Bool) (m : Box α) (f : T → Pc (Point α))
      (ht : (s.threads t).Ready (.receive block)) (hc : s.core.ring.count ≠ 0)
      (hm : s.core.ring.slots s.core.ring.head = some m)
      (hs : Signalled Point.cond .writable (Function.update s.threads t (.run .idle)) f) :
      Move s { s with core := s.core.dequeue, threads := f }
        [.delivered m.addr, .ret t (.recv block) (receivedResult block m.val)]
  | spurious (t : T) (p : Point α) (ht : s.threads t = .wait .asleep p) :
      Move s (s.move t (.wait .spurious p)) []
  | closed (t : T) (op : Op α) (alive : Bool) (ht : s.threads t = .run .idle)
      (hop : op = .senderClose ∧ alive = s.core.receiverAlive ∨
        op = .receiverClose ∧ alive = false) :
      Move s { s with
          core := { s.core with closed := true, receiverAlive := alive }
          threads := wakeAll Point.cond s.threads }
        [.ret t op (.unit (.ok ()))]
  | share (t : T) (h h' : ℕ) (ht : s.threads t = .run .idle) (hh : h ∈ s.senders)
      (hh' : h' ∉ s.senders) :
      Move s { s with
          core := { s.core with senders := wrap32 (s.core.senders + 1), refs := arcInc s.core.refs }
          senders := insert h' s.senders }
        [.ret t .share (.unit (.ok ()))]
  | length (t : T) (ht : s.threads t = .run .idle) (hr : s.receiver = true) :
      Move s s [.ret t .length (.length (.ok s.core.ring.count))]
  | dropSender (t : T) (h : ℕ) (ht : s.threads t = .run .idle) (hh : h ∈ s.senders)
      (hu : ∀ u, (s.threads u).point.handle ≠ some h) :
      Move s { s with
          core := s.core.dropSender
          threads := if s.core.dropSender.senders = 0 then wakeAll Point.cond s.threads
            else s.threads
          senders := s.senders.erase h
          freed := s.freed || decide (s.core.dropSender.refs = 0) }
        (freeEvents s.core.dropSender ++ [.ret t (.drop .sender) (.unit (.ok ()))])
  | dropReceiver (t : T) (ht : s.threads t = .run .idle) (hr : s.receiver = true)
      (hu : ∀ u, (s.threads u).point.receiving = false) :
      Move s { s with
          core := s.core.dropReceiver
          threads := if s.core.receiverAlive then wakeAll Point.cond s.threads else s.threads
          receiver := false
          freed := s.freed || decide (s.core.dropReceiver.refs = 0) }
        (freeEvents s.core.dropReceiver ++ [.ret t (.drop .receiver) (.unit (.ok ()))])

/-! ## Every step is a move -/

variable [Fintype T] {s s' : State α T} {e : List (Event α T)} {t : T} {pick : Option T}

theorem enqueue_move {h : ℕ} {kind : SendKind} {m : Box α}
    (ht : (s.threads t).Ready (.send h kind m)) (ho : s.core.Open)
    (hf : s.core.ring.count ≠ s.core.ring.capacity)
    (hs : s.endSend t h kind m pick (enqueue s.core m {}) = some (s', e)) : Move s s' e := by
  simp only [enqueue, recordError_zero, if_true, State.endSend, deliver_signal,
    Option.bind_eq_some_iff, Option.map_eq_some_iff, Prod.mk.injEq] at hs
  obtain ⟨f, hf', r, hr, rfl, rfl⟩ := hs
  obtain rfl : kind.sent = r := by
    cases kind <;> simpa [SendKind.result, trySendResult, sendResult, SendKind.sent] using hr
  exact .sent t h kind m f ht ho hf (signal_signalled hf')

theorem sendLoop_move {h : ℕ} {m : Box α} (ht : (s.threads t).Ready (.send h .send m))
    (hs : s.endSend t h .send m pick (sendLoop s.core m {}) = some (s', e)) : Move s s' e := by
  simp only [sendLoop, ne_eq, not_true_eq_false, if_false, recordError_zero] at hs
  split_ifs at hs with h₁ h₂
  · simp only [Bool.and_eq_true, beq_iff_eq, Bool.not_eq_true'] at h₁
    obtain ⟨rfl, rfl⟩ := by simpa [State.endSend] using hs
    exact .sendSleep t h m ht ⟨h₁.1.2, h₁.2⟩ h₁.1.1
  · obtain ⟨rfl, rfl⟩ := by
      simpa [State.endSend, SendKind.result, sendResult, boxEvents] using hs
    exact .sendClosed t h .send m ht (s.core.not_open_iff.2 h₂)
  · have ho : s.core.Open := by
      by_contra ho
      exact h₂ (s.core.not_open_iff.1 ho)
    refine enqueue_move ht ho ?_ hs
    intro hf
    simp [hf, ho.1, ho.2] at h₁

theorem trySend_move {h : ℕ} {m : Box α} (ht : (s.threads t).Ready (.send h .trySend m))
    (hs : s.endSend t h .trySend m pick (trySend s.core m {}) = some (s', e)) : Move s s' e := by
  simp only [trySend, ne_eq, not_true_eq_false, if_false, recordError_zero] at hs
  split_ifs at hs with h₁ h₂
  · obtain ⟨rfl, rfl⟩ := by
      simpa [State.endSend, SendKind.result, trySendResult, boxEvents] using hs
    exact .sendClosed t h .trySend m ht (s.core.not_open_iff.2 h₁)
  · obtain ⟨rfl, rfl⟩ := by
      simpa [State.endSend, SendKind.result, trySendResult, boxEvents] using hs
    exact .sendFull t h m ht (not_not.1 (mt s.core.not_open_iff.1 h₁)) (by simpa using h₂)
  · exact enqueue_move ht (not_not.1 (mt s.core.not_open_iff.1 h₁)) (by simpa using h₂) hs

theorem receiveLoop_move {block : Bool} (ht : (s.threads t).Ready (.receive block))
    (hs : s.endReceive t block pick (receiveLoop s.core block {}) = some (s', e)) :
    Move s s' e := by
  simp only [receiveLoop, ne_eq, not_true_eq_false, if_false, recordError_zero, if_true] at hs
  by_cases h₁ : (block && s.core.ring.count == 0 && !s.core.closed) = true
  · rw [if_pos h₁] at hs
    simp only [Bool.and_eq_true, beq_iff_eq, Bool.not_eq_true'] at h₁
    obtain ⟨⟨rfl, h₂⟩, h₃⟩ := h₁
    obtain ⟨rfl, rfl⟩ := by simpa [State.endReceive] using hs
    exact .recvSleep t ht h₂ h₃
  rw [if_neg h₁] at hs
  by_cases hc : s.core.ring.count = 0
  · have hb : block = true → s.core.closed = true := by
      rintro rfl
      simpa [hc] using h₁
    rw [if_pos (by simpa using hc)] at hs
    simp only [State.endReceive, deliver_nil, Option.bind_some, Option.map_eq_some_iff,
      Prod.mk.injEq] at hs
    obtain ⟨r, hr, rfl, rfl⟩ := hs
    obtain rfl : nothingResult block s.core.closed = r := by
      cases block
      · cases hcl : s.core.closed <;>
          simpa [recvOpResult, tryRecvResult, nothingResult, hcl] using hr
      · simpa [recvOpResult, recvResult, nothingResult, hb rfl] using hr
    exact .recvNothing t block ht hc hb
  · rw [if_neg (by simpa using hc)] at hs
    simp only [State.endReceive, deliver_signal, Option.bind_eq_some_iff, Option.map_eq_some_iff,
      Prod.mk.injEq] at hs
    obtain ⟨f, hf, r, hr, rfl, rfl⟩ := hs
    cases hm : s.core.ring.slots s.core.ring.head with
    | none => cases block <;> simp [hm, recvOpResult, recvResult, tryRecvResult] at hr
    | some m =>
      obtain rfl : receivedResult block m.val = r := by
        cases block <;>
          simpa [hm, recvOpResult, recvResult, tryRecvResult, receivedResult] using hr
      exact .received t block m f ht hc hm (signal_signalled hf)

theorem endFinalize_eq {role : Role} {c : Endpoints} {p : Prop} [Decidable p]
    (hs : s.endFinalize t role
      { core := s.core.setEndpoints c
        wakes := if p then [.broadcast .readable, .broadcast .writable] else [], exit := () } =
        some (s', e)) :
    s' = { s with
      core := s.core.setEndpoints c.release
      threads := if p then wakeAll Point.cond s.threads else s.threads
      freed := s.freed || decide (c.release.refs = 0) } ∧
    e = freeEvents (s.core.setEndpoints c.release) ++
      [.ret t (.drop role) (.unit (.ok ()))] := by
  simp only [State.endFinalize, deliver_wakeAll, Option.map_some, Option.some.injEq,
    Prod.mk.injEq] at hs
  obtain ⟨rfl, rfl⟩ := hs
  by_cases h : arcDec c.refs = 0 <;>
    simp [coreRelease, Core.setEndpoints, Endpoints.release, freeEvents, h]

/-- **Every step whose primitives succeed is a move.** -/
theorem step_move {a : Action α T} (hs : step s a = some (s', e)) (hos : a.os = {})
    (hinj : a.injected = 0) : Move s s' e := by
  cases a with
  | callSend t h kind v injected =>
    obtain rfl : injected = 0 := hinj
    simp only [step] at hs
    split_ifs at hs with h₁ h₂
    · exact absurd rfl h₂.2
    · obtain ⟨rfl, rfl⟩ := by simpa using hs
      exact .callSend t h kind v (isIdle_iff.1 h₁.1) h₁.2
  | callRecv t block =>
    simp only [step] at hs
    split_ifs at hs with h₁
    obtain ⟨rfl, rfl⟩ := by simpa using hs
    exact .callRecv t block (isIdle_iff.1 h₁.1) h₁.2
  | lock t os pick =>
    obtain rfl : os = {} := hos
    simp only [step] at hs
    split at hs
    · rename_i h m ht
      exact trySend_move (.inl ht) hs
    · rename_i h m ht
      exact sendLoop_move (.inl ht) hs
    · rename_i block ht
      exact receiveLoop_move (.inl ht) hs
    · simp at hs
  | spurious t =>
    simp only [step] at hs
    split at hs
    · rename_i p ht
      obtain ⟨rfl, rfl⟩ := by simpa using hs
      exact .spurious t p ht
    · simp at hs
  | resume t os pick =>
    obtain rfl : os = {} := hos
    simp only [step] at hs
    split at hs
    · simp at hs
    · rename_i w h m hw ht
      exact sendLoop_move (.inr ⟨w, hw, ht⟩) hs
    · rename_i w block hw ht
      exact receiveLoop_move (.inr ⟨w, hw, ht⟩) hs
    · simp at hs
  | senderClose t h os =>
    obtain rfl : os = {} := hos
    simp only [step] at hs
    split_ifs at hs with h₁
    obtain ⟨rfl, rfl⟩ := by simpa [senderClose, Endpoints.senderClose, Section.map, wakeBoth,
      wakeBothError, statusResult] using hs
    exact .closed t .senderClose _ (isIdle_iff.1 h₁.1) (.inl ⟨rfl, rfl⟩)
  | receiverClose t os =>
    obtain rfl : os = {} := hos
    simp only [step] at hs
    split_ifs at hs with h₁
    obtain ⟨rfl, rfl⟩ := by simpa [receiverClose, Endpoints.receiverClose, Section.map, wakeBoth,
      wakeBothError, statusResult] using hs
    exact .closed t .receiverClose _ (isIdle_iff.1 h₁.1) (.inr ⟨rfl, rfl⟩)
  | share t h h' os =>
    obtain rfl : os = {} := hos
    simp only [step, senderShare, Endpoints.senderShare, Section.map, ne_eq,
      not_true_eq_false, if_false, if_true] at hs
    split_ifs at hs with h₁
    obtain ⟨rfl, rfl⟩ := by simpa [statusResult] using hs
    exact .share t h h' (isIdle_iff.1 h₁.1) h₁.2.1 h₁.2.2
  | length t os =>
    obtain rfl : os = {} := hos
    simp only [step] at hs
    split_ifs at hs with h₁
    obtain ⟨rfl, rfl⟩ := by simpa [receiverLen, statusResult] using hs
    exact .length t (isIdle_iff.1 h₁.1) h₁.2
  | dropSender t h os =>
    obtain rfl : os = {} := hos
    simp only [step] at hs
    split_ifs at hs with h₁
    rw [finalize, Endpoints.finalize_sender_ok, Option.map_some, Option.bind_some] at hs
    obtain ⟨rfl, rfl⟩ := endFinalize_eq hs
    exact .dropSender t h (isIdle_iff.1 h₁.1) h₁.2.1 h₁.2.2
  | dropReceiver t os =>
    obtain rfl : os = {} := hos
    simp only [step] at hs
    split_ifs at hs with h₁
    rw [finalize, Endpoints.finalize_receiver_ok, Option.map_some, Option.bind_some] at hs
    obtain ⟨rfl, rfl⟩ := endFinalize_eq hs
    exact .dropReceiver t (isIdle_iff.1 h₁.1) h₁.2.1 h₁.2.2

/-! ## The invariant -/

/-- The operation of a thread uses live handles. -/
def PointOk (senders : Finset ℕ) (receiver : Bool) (p : Point α) : Prop :=
  (∀ h ∈ p.handle, h ∈ senders) ∧ (p.receiving = true → receiver = true)

/-- The invariant of the channel. -/
structure Inv (capacity : ℕ) (s : State α T) : Prop where
  capacity : s.core.ring.capacity = capacity
  ring : s.core.ring.Wf
  alive : s.core.receiverAlive = false → s.core.closed = true
  counted : Counted s.core.toEndpoints s.senders s.receiver s.freed
  threads : ∀ t, PointOk s.senders s.receiver (s.threads t).point

section Inv

variable {n : ℕ}

omit [DecidableEq T] [Fintype T] in
theorem Inv.open_iff (h : Inv n s) : s.core.Open ↔ s.core.closed = false := by
  refine ⟨fun ho => ho.1, fun hc => ⟨hc, ?_⟩⟩
  by_contra ha
  rw [h.alive (Bool.eq_false_of_not_eq_true ha)] at hc
  cases hc

omit [DecidableEq T] [Fintype T] in
/-- Without its receiver the channel is closed. -/
theorem Inv.closed_dropReceiver (h : Inv n s) : s.core.dropReceiver.closed = true := by
  change (s.core.closed || s.core.receiverAlive) = true
  cases ha : s.core.receiverAlive
  · rw [h.alive ha, Bool.true_or]
  · rw [Bool.or_true]

omit [DecidableEq T] [Fintype T] in
theorem Inv.toList_enqueue (h : Inv n s) (hf : s.core.ring.count ≠ s.core.ring.capacity)
    (m : Box α) : (s.core.enqueue m).ring.toList = s.core.ring.toList ++ [m] :=
  RingBuffer.toList_push h.ring (lt_of_le_of_ne h.ring.count_le hf) m

omit [DecidableEq T] [Fintype T] in
theorem Inv.toList_dequeue (h : Inv n s) (hc : s.core.ring.count ≠ 0) {m : Box α}
    (hm : s.core.ring.slots s.core.ring.head = some m) :
    s.core.ring.toList = m :: s.core.dequeue.ring.toList := by
  obtain ⟨x, hx, hl⟩ := RingBuffer.exists_pop h.ring hc
  obtain rfl : x = m := Option.some.inj (hx.symm.trans hm)
  exact hl

omit [DecidableEq T] [Fintype T] in
theorem Inv.woken (h : Inv n s) {f : T → Pc (Point α)} (hw : Woken s.threads f) (u : T) :
    PointOk s.senders s.receiver (f u).point := by
  rw [hw.point]
  exact h.threads u

omit [Fintype T] in
theorem Inv.update (h : Inv n s) {x : Pc (Point α)} (hx : PointOk s.senders s.receiver x.point)
    (u : T) : PointOk s.senders s.receiver (Function.update s.threads t x u).point :=
  forall_update (Q := fun _ (y : Pc (Point α)) => PointOk s.senders s.receiver y.point) hx
    (fun v _ => h.threads v) u

omit [Fintype T] in
/-- The invariant after a step that moves thread `t`, notifies threads and leaves the endpoints
alone. -/
theorem Inv.step (h : Inv n s) {core : Core α} {x : Pc (Point α)} {f : T → Pc (Point α)}
    {boxes : ℕ} (hcap : core.ring.capacity = s.core.ring.capacity) (hring : core.ring.Wf)
    (hends : core.toEndpoints = s.core.toEndpoints)
    (hx : PointOk s.senders s.receiver x.point)
    (hw : Woken (Function.update s.threads t x) f) :
    Inv n { s with core, threads := f, boxes } where
  capacity := hcap.trans h.capacity
  ring := hring
  alive := by
    rw [hends]
    exact h.alive
  counted := by
    change Counted core.toEndpoints s.senders s.receiver s.freed
    rw [hends]
    exact h.counted
  threads := by
    intro u
    rw [hw.point]
    exact h.update hx u

omit [Fintype T] in
theorem Inv.move (h : Inv n s) {x : Pc (Point α)} (hx : PointOk s.senders s.receiver x.point) :
    Inv n (s.move t x) :=
  h.step (t := t) rfl h.ring rfl hx (.refl _)

theorem PointOk.idle {senders : Finset ℕ} {receiver : Bool} :
    PointOk senders receiver (.idle : Point α) :=
  ⟨nofun, nofun⟩

omit [Fintype T] in
/-- **A move keeps the invariant**, as long as fewer than `2^31` handles are live. -/
theorem Move.inv (hm : Move s s' e) (h : Inv n s) (hb : s'.handles < 2147483648) : Inv n s' := by
  cases hm with
  | callSend t k kind v ht hk =>
    refine h.step (t := t) rfl h.ring rfl (x := .run (.send k kind ⟨s.boxes, v⟩)) ⟨?_, ?_⟩ (.refl _)
    · rintro _ ⟨⟩
      exact hk
    · exact nofun
  | callRecv t block ht hr => exact h.move ⟨nofun, fun _ => hr⟩
  | sendClosed t k kind m ht ho => exact h.move .idle
  | sendFull t k m ht ho hf => exact h.move .idle
  | sendSleep t k m ht ho hf => exact h.move (ht.point ▸ h.threads t)
  | sent t k kind m f ht ho hf hs =>
    exact h.step (t := t) rfl
      (RingBuffer.wf_push h.ring (lt_of_le_of_ne h.ring.count_le hf) m) rfl .idle
      (.of_signalled hs)
  | recvSleep t ht hc ho => exact h.move (ht.point ▸ h.threads t)
  | recvNothing t block ht hc hblock => exact h.move .idle
  | received t block m f ht hc hm hs =>
    exact h.step (t := t) rfl (RingBuffer.wf_pop h.ring hc) rfl .idle (.of_signalled hs)
  | spurious t p ht =>
    refine h.move ?_
    have hp := h.threads t
    rw [ht] at hp
    exact hp
  | closed t op alive ht hop =>
    exact ⟨h.capacity, h.ring, fun _ => rfl,
      ⟨h.counted.senders, h.counted.refs, h.counted.bound, h.counted.freed⟩,
      h.woken (woken_wakeAll _)⟩
  | share t k k' ht hk hk' =>
    exact ⟨h.capacity, h.ring, h.alive, h.counted.share hk hk' hb, fun u =>
      ⟨fun x hx => Finset.mem_insert_of_mem ((h.threads u).1 x hx), (h.threads u).2⟩⟩
  | length t ht hr => exact h
  | dropSender t k ht hk hu =>
    refine ⟨h.capacity, h.ring, fun ha => ?_, h.counted.dropSender hk, fun u => ?_⟩
    · change (s.core.closed || decide _) = true
      rw [h.alive ha, Bool.true_or]
    · have hw : Woken s.threads (if s.core.dropSender.senders = 0 then wakeAll Point.cond s.threads
        else s.threads) := woken_ite _ _
      refine ⟨fun x hx => Finset.mem_erase.2 ⟨?_, (h.woken hw u).1 x hx⟩, (h.woken hw u).2⟩
      rintro rfl
      rw [hw.point] at hx
      exact hu u hx
  | dropReceiver t ht hr hu =>
    have hcount := h.counted
    rw [hr] at hcount
    refine ⟨h.capacity, h.ring, fun _ => h.closed_dropReceiver, hcount.dropReceiver, fun u => ?_⟩
    have hw : Woken s.threads (if s.core.receiverAlive then wakeAll Point.cond s.threads
      else s.threads) := woken_ite _ _
    refine ⟨(h.woken hw u).1, fun hrecv => ?_⟩
    rw [hw.point, hu u] at hrecv
    cases hrecv

omit [Fintype T] [DecidableEq T] in
theorem inv_init (hn : 0 < n) : Inv n (State.init n : State α T) where
  capacity := rfl
  ring := RingBuffer.wf_empty hn
  alive := nofun
  counted :=
    { senders := rfl
      refs := rfl
      bound := by
        change ({0} : Finset ℕ).card + 1 < 2147483648
        decide
      freed := by
        change false = true ↔ ({0} : Finset ℕ).card + 1 = 0
        decide }
  threads := fun _ => .idle

/-- **The invariant holds along every run** whose primitives succeed and in which fewer than
`2^31` handles are live. -/
theorem inv_of_exec (hn : 0 < n) {es : List (Event α T)}
    (h : Exec step Assumed (State.init n) es s) : Inv n s :=
  h.stateInvariant (inv_init hn) fun hI hs hG => (step_move hs hG.1 hG.2.1).inv hI hG.2.2

end Inv

end NativeSync.Channel
