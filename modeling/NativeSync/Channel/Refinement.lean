import NativeSync.Foundations.Fifo
import NativeSync.Foundations.Linearization
import NativeSync.Channel.Moves

/-!
# The generic channel is a bounded queue that returns what it does not take

The channel refines the abstract queue of `Foundations.Fifo` with items of no size: every operation
takes effect in the critical section in which it completes (`Move.linearized`), and a value that is
not accepted comes back in the result.

A value is boxed when it is submitted, and `Located` follows the box: at any time it is with its
caller, in one slot, delivered, or released with the core, and in one of these places only.
-/

namespace NativeSync.Channel

open Foundations

variable {α T : Type}

/-! ## The abstract channel -/

/-- The bounds of the abstract queue: only the number of its items is bounded. -/
def bounds (capacity : ℕ) : Bounds α :=
  { capacity, maxSize := 0, budget := 0, size := fun _ => 0 }

/-- The result of a non-blocking send for the answer of the queue. -/
def specTrySend (v : α) : Offer → Option (TrySendResult α)
  | .accepted => some .sent
  | .closed => some (.closed v)
  | .full => some (.full v)
  | _ => none

/-- The result of a blocking send for the answer of the queue, if it need not wait. -/
def specSend (v : α) : Offer → Option (Except α Unit)
  | .accepted => some (.ok ())
  | .closed => some (.error v)
  | _ => none

/-- The result of a receive for the answer of the queue, if it need not wait. -/
def specRecv (block : Bool) : Poll α → Option (Result α)
  | .item x => some (if block then .recv (.ok (some x)) else .tryRecv (.ok (.received x)))
  | .empty => if block then none else some (.tryRecv (.ok .empty))
  | .closed => some (if block then .recv (.ok none) else .tryRecv (.ok .closed))

/-- An operation on the abstract channel: its result and its effect. -/
def specStep (capacity : ℕ) (q : Fifo α) : Op α → Option (Result α × Fifo α)
  | .send .trySend v =>
    let r := q.offer (bounds capacity) v
    (specTrySend v r.1).map fun x => (.trySend (.ok x), r.2)
  | .send .send v =>
    let r := q.offer (bounds capacity) v
    (specSend v r.1).map fun x => (.send (.ok x), r.2)
  | .recv block => (specRecv block q.poll.1).map fun x => (x, q.poll.2)
  | .length => some (.length (.ok q.queue.length), q)
  | .senderClose => some (.unit (.ok ()), q.close)
  | .receiverClose => some (.unit (.ok ()), q.close)
  | .share => some (.unit (.ok ()), q.join)
  | .drop .sender => some (.unit (.ok ()), q.leave)
  | .drop .receiver => some (.unit (.ok ()), q.close)

/-- The legal moves of the abstract channel, labelled with thread, operation and result. -/
def SpecMove (capacity : ℕ) (q : Fifo α) (x : T × Op α × Result α) (q' : Fifo α) : Prop :=
  specStep capacity q x.2.1 = some (x.2.2, q')

/-- The abstract channel of a state. -/
def State.abs (s : State α T) : Fifo α :=
  { queue := s.core.ring.toList.map Box.val
    closed := s.core.closed
    producers := s.senders.card }

/-- The completed operation that an event shows. -/
def Event.completed : Event α T → Option (T × Op α × Result α)
  | .ret t op r => some (t, op, r)
  | _ => none

/-- The operation that a thread at a point is in. -/
def Point.op : Point α → Option (Op α)
  | idle => none
  | send _ kind message => some (.send kind message.val)
  | receive block => some (.recv block)

variable {n : ℕ} {s s' : State α T} {e : List (Event α T)}

/-- An offer is refused by a closed queue first, then by a full one. -/
theorem answer_eq (q : Fifo α) (v : α) : q.answer (bounds n) v =
    if q.closed then .closed else if q.queue.length = n then .full else .accepted := by
  simp [Fifo.answer, Fifo.total, bounds]

theorem Inv.length_abs (h : Inv n s) : s.abs.queue.length = s.core.ring.count := by
  rw [State.abs, List.length_map, RingBuffer.length_toList h.ring]

theorem Inv.answer_abs (h : Inv n s) (v : α) : s.abs.answer (bounds n) v =
    if s.core.closed then .closed
    else if s.core.ring.count = s.core.ring.capacity then .full else .accepted := by
  rw [answer_eq, h.length_abs, h.capacity]
  rfl

theorem filterMap_freeEvents (core : Core α) :
    (freeEvents core : List (Event α T)).filterMap Event.completed = [] := by
  unfold freeEvents
  split_ifs
  · rw [List.filterMap_append, List.filterMap_map]
    simp [Function.comp_def, Event.completed]
  · rfl

variable [DecidableEq T]

/-- **Every move is silent or completes one operation as the abstract channel does.** -/
theorem Move.linearized (hm : Move s s' e) (h : Inv n s) :
    Linearized (SpecMove n) State.abs Event.completed State.threads Point.op s s' e := by
  cases hm with
  | callSend t k kind v ht hk => exact .stays (.refl _) (.inl (by rw [ht]; rfl)) rfl rfl
  | callRecv t block ht hr => exact .stays (.refl _) (.inl (by rw [ht]; rfl)) rfl rfl
  | sendClosed t k kind m ht ho =>
    refine .returns (x := .run .idle) (.refl _) (by rw [ht.point]; rfl) rfl rfl ?_
    rw [h.open_iff, Bool.not_eq_false] at ho
    have ha := h.answer_abs m.val
    rw [ho, if_pos rfl] at ha
    change specStep n s.abs (.send kind m.val) = some (_, s.abs)
    cases kind <;> simp [specStep, Fifo.offer, ha, specTrySend, specSend, SendKind.closed]
  | sendFull t k m ht ho hf =>
    refine .returns (x := .run .idle) (.refl _) (by rw [ht.point]; rfl) rfl rfl ?_
    have ha := h.answer_abs m.val
    rw [ho.1, if_neg (by decide), if_pos hf] at ha
    change specStep n s.abs (.send .trySend m.val) = some (_, s.abs)
    simp [specStep, Fifo.offer, ha, specTrySend]
  | sendSleep t k m ht ho hf => exact .stays (.refl _) (.inr (by rw [ht.point]; rfl)) rfl rfl
  | sent t k kind m f ht ho hf hs =>
    refine .returns (.of_signalled hs) (by rw [ht.point]; rfl) rfl rfl ?_
    have ha := h.answer_abs m.val
    rw [ho.1, if_neg (by decide), if_neg hf] at ha
    have hab : State.abs { s with core := s.core.enqueue m, threads := f } =
        { s.abs with queue := s.abs.queue ++ [m.val] } := by
      simp only [State.abs, h.toList_enqueue hf m, List.map_append, List.map_cons, List.map_nil]
      rfl
    rw [hab]
    cases kind <;>
      simp [SpecMove, specStep, Fifo.offer, ha, specTrySend, specSend, SendKind.sent]
  | recvSleep t ht hc ho => exact .stays (.refl _) (.inr (by rw [ht.point]; rfl)) rfl rfl
  | recvNothing t block ht hc hblock =>
    refine .returns (x := .run .idle) (.refl _) (by rw [ht.point]; rfl) rfl rfl ?_
    have hq : s.abs.queue = [] := by
      rw [← List.length_eq_zero_iff, h.length_abs, hc]
    have hcl : s.abs.closed = s.core.closed := rfl
    change specStep n s.abs (.recv block) = some (_, s.abs)
    cases block
    · cases hcl' : s.core.closed <;>
        simp [specStep, Fifo.poll, hq, hcl, hcl', specRecv, nothingResult]
    · simp [specStep, Fifo.poll, hq, hcl, hblock rfl, specRecv, nothingResult]
  | received t block m f ht hc hm hs =>
    refine .returns (.of_signalled hs) (by rw [ht.point]; rfl) rfl rfl ?_
    have hq : s.abs.queue = m.val :: (s.core.dequeue.ring.toList.map Box.val) := by
      simp only [State.abs, h.toList_dequeue hc hm, List.map_cons]
    cases block <;> simp [SpecMove, specStep, Fifo.poll, hq, specRecv, receivedResult] <;> rfl
  | spurious t p ht => exact .stays (.refl _) (.inr (by rw [ht]; rfl)) rfl rfl
  | closed t op alive ht hop =>
    refine .atOnce (by rw [ht]; rfl) (woken_wakeAll _) rfl ?_
    rcases hop with ⟨rfl, -⟩ | ⟨rfl, -⟩ <;> rfl
  | share t k k' ht hk hk' =>
    refine .atOnce (by rw [ht]; rfl) (.refl _) rfl ?_
    simp [SpecMove, specStep, State.abs, Fifo.join, Finset.card_insert_of_notMem hk']
  | length t ht hr =>
    refine .atOnce (by rw [ht]; rfl) (.refl _) rfl ?_
    rw [SpecMove, specStep, h.length_abs]
  | dropSender t k ht hk hu =>
    refine .atOnce (by rw [ht]; rfl) (woken_ite _ _)
      (by rw [List.filterMap_append, filterMap_freeEvents]; rfl) ?_
    have hlast : decide (s.core.dropSender.senders = 0) = decide (s.senders.card = 1) :=
      decide_eq_decide.2 (h.counted.dropSender_eq_zero_iff hk)
    have hclosed : s.core.dropSender.closed = (s.core.closed || decide (s.senders.card = 1)) := by
      rw [← hlast]
      rfl
    simp only [SpecMove, specStep, State.abs, Fifo.leave, hclosed, Finset.card_erase_of_mem hk]
    rfl
  | dropReceiver t ht hr hu =>
    refine .atOnce (by rw [ht]; rfl) (woken_ite _ _)
      (by rw [List.filterMap_append, filterMap_freeEvents]; rfl) ?_
    rw [SpecMove, specStep, State.abs, State.abs, h.closed_dropReceiver]
    rfl

/-! ## Where a box is -/

/-- The thread has the box `addr` in its hands. -/
def holds (addr : ℕ) (x : Pc (Point α)) : Bool :=
  match x.point with
  | .send _ _ message => message.addr == addr
  | _ => false

/-- The box was handed back to the caller. -/
def Event.isReturned (addr : ℕ) : Event α T → Bool
  | .returned a => a == addr
  | _ => false

/-- The box was handed to the receiver. -/
def Event.isDelivered (addr : ℕ) : Event α T → Bool
  | .delivered a => a == addr
  | _ => false

/-- The box was given up. -/
def Event.isReleased (addr : ℕ) : Event α T → Bool
  | .released a => a == addr
  | _ => false

/-- In how many slots the box is; the slots are gone once the core has been freed. -/
def State.inSlots (s : State α T) (addr : ℕ) : ℕ :=
  if s.freed then 0 else (s.core.ring.slotList.map Box.addr).count addr

variable [Fintype T]

/-- How often the box is with its caller: in the hands of a thread that submits it, or handed
back. -/
def withCaller (s : State α T) (es : List (Event α T)) (addr : ℕ) : ℕ :=
  num (holds addr) s.threads + es.countP (Event.isReturned addr)

/-- Every box made so far is in exactly one place, and no other box is anywhere. -/
def Located (s : State α T) (es : List (Event α T)) (addr : ℕ) : Prop :=
  withCaller s es addr + s.inSlots addr + es.countP (Event.isDelivered addr) +
    es.countP (Event.isReleased addr) = if addr < s.boxes then 1 else 0

omit [DecidableEq T] [Fintype T] in
theorem Inv.inSlots_eq (h : Inv n s) (addr : ℕ) :
    s.inSlots addr = if s.freed then 0 else (s.core.ring.toList.map Box.addr).count addr := by
  unfold State.inSlots
  split_ifs
  · rfl
  · exact ((RingBuffer.perm_slotList h.ring).map Box.addr).count_eq addr

omit [DecidableEq T] [Fintype T] in
/-- A core with a live sender handle has not been freed. -/
theorem Inv.not_freed_of_sender (h : Inv n s) {k : ℕ} (hk : k ∈ s.senders) : s.freed = false := by
  have hpos : 0 < s.senders.card := Finset.card_pos.2 ⟨k, hk⟩
  rw [← Bool.not_eq_true, h.counted.freed]
  omega

omit [DecidableEq T] [Fintype T] in
/-- A core with its receiver handle has not been freed. -/
theorem Inv.not_freed_of_receiver (h : Inv n s) (hr : s.receiver = true) : s.freed = false := by
  rw [← Bool.not_eq_true, h.counted.freed, hr, Bool.toNat_true]
  omega

omit [DecidableEq T] [Fintype T] in
theorem holds_of_point {addr : ℕ} {x y : Pc (Point α)} (h : x.point = y.point) :
    holds addr x = holds addr y := by
  unfold holds
  rw [h]

omit [DecidableEq T] in
theorem num_holds_woken (addr : ℕ) {f f' : T → Pc (Point α)} (hw : Woken f f') :
    num (holds addr) f' = num (holds addr) f :=
  num_congr fun t => holds_of_point (hw.point t)

/-- How often a box is held after thread `t` has moved to `x` and threads were notified. -/
theorem num_holds_update (addr : ℕ) {t : T} {x : Pc (Point α)} {p : Point α}
    {f : T → Pc (Point α)} (ht : (s.threads t).point = p)
    (hw : Woken (Function.update s.threads t x) f) :
    num (holds addr) f + (holds addr (.run p)).toNat =
      num (holds addr) s.threads + (holds addr x).toNat := by
  rw [num_holds_woken addr hw, ← num_update (holds addr) s.threads t x,
    holds_of_point (y := .run p) ht]

omit [DecidableEq T] [Fintype T] in
theorem countP_isReleased_free (core : Core α) (addr : ℕ) :
    (freeEvents core : List (Event α T)).countP (Event.isReleased addr) =
      if core.refs = 0 then (core.ring.slotList.map Box.addr).count addr else 0 := by
  unfold freeEvents
  split_ifs
  · rw [List.countP_append, List.countP_map, List.count, List.countP_map]
    simp [Function.comp_def, Event.isReleased]
  · rfl

omit [DecidableEq T] [Fintype T] in
theorem countP_free_eq_zero {core : Core α} {p : Event α T → Bool}
    (hp : ∀ a, p (.released a) = false) (hf : p .freed = false) :
    (freeEvents core).countP p = 0 := by
  unfold freeEvents
  split_ifs
  · rw [List.countP_append, List.countP_map]
    simp [Function.comp_def, hp, hf]
  · rfl

omit [DecidableEq T] in
/-- Giving up a reference moves the boxes in the slots, if it was the last one. -/
theorem Located.free {es : List (Event α T)} {addr : ℕ} (hl : Located s es addr)
    (hnf : s.freed = false) (core : Core α) {f : T → Pc (Point α)} {senders : Finset ℕ}
    {receiver : Bool} (hring : core.ring = s.core.ring) (hw : Woken s.threads f)
    (t : T) (op : Op α) (r : Result α) :
    Located { s with core, threads := f, senders, receiver
                     freed := s.freed || decide (core.refs = 0) }
      (es ++ (freeEvents core ++ [.ret t op r])) addr := by
  have hn := num_holds_woken addr hw
  have h₁ : (freeEvents core : List (Event α T)).countP (Event.isReturned addr) = 0 :=
    countP_free_eq_zero (fun _ => rfl) rfl
  have h₂ : (freeEvents core : List (Event α T)).countP (Event.isDelivered addr) = 0 :=
    countP_free_eq_zero (fun _ => rfl) rfl
  have h₃ := countP_isReleased_free (T := T) core addr
  rw [hring] at h₃
  simp only [Located, withCaller, State.inSlots, List.countP_append, List.countP_cons,
    List.countP_nil, Event.isReturned, Event.isDelivered, Event.isReleased, hnf, Bool.false_or,
    hring, h₁, h₂, h₃, hn] at hl ⊢
  by_cases h0 : core.refs = 0
  · simp only [h0, decide_true, if_true, Bool.false_eq_true, if_false, Nat.add_zero] at hl ⊢
    omega
  · simpa [h0] using hl

omit [DecidableEq T] in
/-- An operation in one step that leaves the slots alone moves no box. -/
theorem Located.atOnce {es : List (Event α T)} {addr : ℕ} (hl : Located s es addr)
    (core : Core α) (senders : Finset ℕ) {f : T → Pc (Point α)}
    (hring : core.ring = s.core.ring) (hw : Woken s.threads f) (t : T) (op : Op α)
    (r : Result α) :
    Located { s with core, threads := f, senders } (es ++ [.ret t op r]) addr := by
  have hn := num_holds_woken addr hw
  simpa [Located, withCaller, State.inSlots, List.countP_append, Event.isReturned,
    Event.isDelivered, Event.isReleased, hring, hn] using hl

/-- A step of thread `t` that moves boxes from one place to another. -/
theorem Located.step {es : List (Event α T)} {addr : ℕ} (hl : Located s es addr) {t : T}
    {x : Pc (Point α)} {p : Point α} {f : T → Pc (Point α)} {core : Core α} {boxes : ℕ}
    (ht : (s.threads t).point = p) (hw : Woken (Function.update s.threads t x) f)
    (hsum : (holds addr x).toNat + State.inSlots { s with core, threads := f, boxes } addr +
        e.countP (Event.isReturned addr) + e.countP (Event.isDelivered addr) +
        e.countP (Event.isReleased addr) + (if addr < s.boxes then 1 else 0) =
      (holds addr (.run p)).toNat + s.inSlots addr + if addr < boxes then 1 else 0) :
    Located { s with core, threads := f, boxes } (es ++ e) addr := by
  have hn := num_holds_update addr ht hw
  simp only [Located, withCaller, List.countP_append] at hl ⊢
  omega

/-- A send that fails hands its box back. -/
theorem Located.handBack {es : List (Event α T)} {addr : ℕ} (hl : Located s es addr) {t : T}
    {k : ℕ} {kind : SendKind} {m : Box α} (ht : (s.threads t).point = .send k kind m) (op : Op α)
    (r : Result α) :
    Located (s.move t (.run .idle)) (es ++ [.returned m.addr, .ret t op r]) addr := by
  refine hl.step (x := .run .idle) ht (.refl _) ?_
  change 0 + s.inSlots addr + _ + _ + _ + _ = (m.addr == addr).toNat + s.inSlots addr + _
  by_cases ha : m.addr = addr <;>
    simp [ha, Event.isReturned, Event.isDelivered, Event.isReleased, Nat.add_comm]

/-- **A move moves boxes from one place to another.** -/
theorem Move.located (hm : Move s s' e) (h : Inv n s) {es : List (Event α T)} {addr : ℕ}
    (hl : Located s es addr) : Located s' (es ++ e) addr := by
  cases hm with
  | callSend t k kind v ht hk =>
    refine hl.step (p := .idle) (by rw [ht]; rfl) (.refl _) ?_
    change (s.boxes == addr).toNat + s.inSlots addr + 0 + 0 + 0 + _ = 0 + s.inSlots addr + _
    by_cases ha : s.boxes = addr
    · subst ha
      simp [Nat.add_comm]
    · have hlt : addr < s.boxes + 1 ↔ addr < s.boxes := by omega
      simp [ha, hlt]
  | callRecv t block ht hr =>
    exact hl.step (p := .idle) (x := .run (.receive block)) (by rw [ht]; rfl) (.refl _) rfl
  | sendClosed t k kind m ht ho => exact hl.handBack ht.point _ _
  | sendFull t k m ht ho hf => exact hl.handBack ht.point _ _
  | sendSleep t k m ht ho hf =>
    exact hl.step (x := .wait .asleep (.send k .send m)) ht.point (.refl _) rfl
  | sent t k kind m f ht ho hf hs =>
    refine hl.step ht.point (.of_signalled hs) ?_
    have hnf := h.not_freed_of_sender ((h.threads t).1 k (by rw [ht.point]; rfl))
    have hperm := (RingBuffer.perm_slotList
      (RingBuffer.wf_push h.ring (lt_of_le_of_ne h.ring.count_le hf) m)).map Box.addr
    have hslots : State.inSlots { s with core := s.core.enqueue m, threads := f } addr =
        s.inSlots addr + if m.addr = addr then 1 else 0 := by
      rw [h.inSlots_eq]
      simp only [State.inSlots, hnf, Bool.false_eq_true, if_false]
      refine (hperm.count_eq addr).trans ?_
      rw [show (s.core.ring.push m).toList = _ from h.toList_enqueue hf m, List.map_append,
        List.count_append, List.map_singleton, List.count_singleton]
      simp
    change 0 + State.inSlots { s with core := s.core.enqueue m, threads := f } addr + 0 + 0 + 0 +
      _ = (m.addr == addr).toNat + _ + _
    rw [hslots]
    by_cases ha : m.addr = addr <;> simp [ha, Nat.add_comm]
  | recvSleep t ht hc ho =>
    exact hl.step (x := .wait .asleep (.receive true)) ht.point (.refl _) rfl
  | recvNothing t block ht hc hblock => exact hl.step (x := .run .idle) ht.point (.refl _) rfl
  | received t block m f ht hc hm hs =>
    refine hl.step ht.point (.of_signalled hs) ?_
    have hnf := h.not_freed_of_receiver ((h.threads t).2 (by rw [ht.point]; rfl))
    have hperm := (RingBuffer.perm_slotList (RingBuffer.wf_pop h.ring hc)).map Box.addr
    have hslots : s.inSlots addr =
        State.inSlots { s with core := s.core.dequeue, threads := f } addr +
          if m.addr = addr then 1 else 0 := by
      rw [h.inSlots_eq]
      simp only [State.inSlots, hnf, Bool.false_eq_true, if_false]
      rw [h.toList_dequeue hc hm, List.map_cons, List.count_cons]
      simp only [beq_iff_eq, Nat.add_right_cancel_iff]
      exact (hperm.count_eq addr).symm
    change 0 + State.inSlots { s with core := s.core.dequeue, threads := f } addr + _ + _ + _ + _ =
      0 + _ + _
    rw [hslots]
    by_cases ha : m.addr = addr <;>
      simp [ha, Event.isReturned, Event.isDelivered, Event.isReleased, Nat.add_comm]
  | spurious t p ht =>
    exact hl.step (p := p) (x := .wait .spurious p) (by rw [ht]; rfl) (.refl _) rfl
  | closed t op alive ht hop =>
    exact hl.atOnce { s.core with closed := true, receiverAlive := alive } s.senders rfl
      (woken_wakeAll _) t op _
  | share t k k' ht hk hk' => exact hl.atOnce _ (insert k' s.senders) rfl (.refl _) t .share _
  | length t ht hr => exact hl.atOnce s.core s.senders rfl (.refl _) t .length _
  | dropSender t k ht hk hu =>
    exact hl.free (h.not_freed_of_sender hk) s.core.dropSender rfl (woken_ite _ _) t _ _
  | dropReceiver t ht hr hu =>
    exact hl.free (h.not_freed_of_receiver hr) s.core.dropReceiver rfl (woken_ite _ _) t _ _

/-! ## Runs -/

omit [Fintype T] in
/-- Only the end of the core releases boxes, and the core does not come back. -/
theorem Move.freed (hm : Move s s' e) (addr : ℕ)
    (h : s.freed = true ∨ 0 < e.countP (Event.isReleased addr)) : s'.freed = true := by
  have hfree : ∀ (core : Core α) (t : T) (op : Op α) (r : Result α),
      (s.freed = true ∨
        0 < (freeEvents core ++ [Event.ret t op r]).countP (Event.isReleased addr)) →
      (s.freed || decide (core.refs = 0)) = true := by
    rintro core t op r (hs | hr)
    · rw [hs, Bool.true_or]
    · rw [List.countP_append, countP_isReleased_free] at hr
      split_ifs at hr with h0
      · simp [h0]
      · simp [Event.isReleased] at hr
  cases hm with
  | dropSender t k ht hk hu => exact hfree _ _ _ _ h
  | dropReceiver t ht hr hu => exact hfree _ _ _ _ h
  | _ => simpa [Event.isReleased, State.move] using h

omit [DecidableEq T] in
theorem located_init (addr : ℕ) : Located (State.init n : State α T) [] addr := by
  have h0 : num (holds addr) (State.init n : State α T).threads = 0 := num_eq_zero.2 fun _ => rfl
  have hslots : ((State.init n : State α T).core.ring.slotList.map Box.addr).count addr = 0 := by
    simp [State.init, channelReceiver, channelNew, RingBuffer.slotList, RingBuffer.empty]
  simp only [Located, withCaller, h0, State.inSlots, hslots]
  rfl

/-- The outcome of a non-blocking send, seen as that of a blocking one. -/
def TrySendResult.toResult : TrySendResult α → Except α Unit
  | sent => .ok ()
  | full v => .error v
  | closed v => .error v

/-- The two wrappers report the same outcome of the native call. -/
theorem sendResult_eq (returned : Option (Box α)) (result status : ℤ) :
    sendResult returned result status =
      (trySendResult returned result status).map fun r => r.map TrySendResult.toResult := by
  unfold sendResult trySendResult
  split_ifs <;> cases returned <;> rfl

/-- **The channel refines a bounded queue and loses no value.** Along every run, the completed
operations are, in the order of the sections in which they complete, a run of the abstract channel;
every further step is silent or completes one operation, with the result and the effect of the
abstract one; the two sends agree unless the channel is open and full; and every box is in exactly
one place, released only with the core. -/
theorem channel_refines_fifo (hn : 0 < n) {es : List (Event α T)} {s : State α T}
    (h : Exec step Assumed (State.init n) es s) :
    History (SpecMove n) ⟨[], false, 1⟩ (es.filterMap Event.completed) s.abs ∧
    (∀ a s' e, step s a = some (s', e) → Assumed s a s' →
      Linearized (SpecMove n) State.abs Event.completed State.threads Point.op s s' e) ∧
    (∀ (core : Core α) (m : Box α), ¬(core.Open ∧ core.ring.count = core.ring.capacity) →
      (∀ os, send core m os = trySend core m os) ∧ sendWoken core m {} = trySend core m {}) ∧
    (∀ (returned : Option (Box α)) (result status : ℤ), sendResult returned result status =
      (trySendResult returned result status).map fun r => r.map TrySendResult.toResult) ∧
    ∀ addr, Located s es addr ∧ (0 < es.countP (Event.isReleased addr) → s.freed = true) := by
  refine ⟨?_, ?_, ?_, sendResult_eq, fun addr => ?_⟩
  · exact h.history (I := Inv n) Event.completed State.abs (inv_init hn)
      (fun hI hs hG => (step_move hs hG.1 hG.2.1).inv hI hG.2.2)
      fun hI hs hG => ((step_move hs hG.1 hG.2.1).linearized hI).history
  · exact fun a s' e hs hG => (step_move hs hG.1 hG.2.1).linearized (inv_of_exec hn h)
  · exact fun core m hnf => ⟨fun os => send_eq_trySend core m os hnf, send_eq_trySend core m {} hnf⟩
  · refine (h.invariant (I := fun es s => Inv n s ∧ Located s es addr ∧
      (0 < es.countP (Event.isReleased addr) → s.freed = true))
      ⟨inv_init hn, located_init addr, nofun⟩ fun {es s a s' e} ⟨hI, hl, hf⟩ hs hG => ?_).2
    have hm := step_move hs hG.1 hG.2.1
    refine ⟨hm.inv hI hG.2.2, hm.located hI hl, fun hpos => hm.freed addr ?_⟩
    rw [List.countP_append] at hpos
    rcases Nat.eq_zero_or_pos (es.countP (Event.isReleased addr)) with h0 | h0
    · exact .inr (by omega)
    · exact .inl (hf h0)

/-- A value is received, one stays in its slot, one comes back from the full channel, and the
handles are dropped. -/
theorem channel_refines_fifo_full_channel :
    ∃ (es : List (Event ℕ (Fin 2))) (s : State ℕ (Fin 2)),
      Exec step Assumed (State.init 1) es s ∧ s.boxes = 3 ∧ s.freed = true ∧
      es.countP (Event.isDelivered 0) = 1 ∧ es.countP (Event.isReturned 1) = 1 ∧
      es.countP (Event.isReleased 2) = 1 ∧ ∀ addr, Located s es addr := by
  obtain ⟨es, s, h, ht⟩ := Exec.exists_of_run step Assumed (State.init (α := ℕ) (T := Fin 2) 1)
    [.callSend 0 0 .send 7 0, .lock 0 {} none, .callSend 1 0 .trySend 8 0, .lock 1 {} none,
      .callRecv 0 true, .lock 0 {} none, .callSend 1 0 .trySend 9 0, .lock 1 {} none,
      .dropSender 0 0 {}, .dropReceiver 1 {}]
    (fun s es => decide (s.boxes = 3 ∧ s.freed = true ∧ es.countP (Event.isDelivered 0) = 1 ∧
      es.countP (Event.isReturned 1) = 1 ∧ es.countP (Event.isReleased 2) = 1)) (by decide +kernel)
  obtain ⟨hb, hf, hd, hr, hl⟩ := of_decide_eq_true ht
  exact ⟨es, s, h, hb, hf, hd, hr, hl,
    fun addr => ((channel_refines_fifo (by decide) h).2.2.2.2 addr).1⟩

end NativeSync.Channel
