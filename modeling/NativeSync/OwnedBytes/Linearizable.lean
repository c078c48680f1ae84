import NativeSync.Foundations.Fifo
import NativeSync.Foundations.Linearization
import NativeSync.OwnedBytes.Invariant

/-!
# The OwnedBytes channel is a bounded queue

The channel refines the abstract queue of `Foundations.Fifo`, with byte strings for items and
their lengths for sizes: every operation takes effect in the critical section in which it
completes, and there its result and its effect are those of the abstract operation (`specStep`).
The order of these sections is the linearization.

A blocking operation has no abstract answer where it would have to wait; a non-blocking one
reports it.
-/

namespace NativeSync.OwnedBytes

open Foundations

/-! ## The abstract channel -/

/-- The bounds of the abstract queue of a channel. -/
def Limits.bounds (L : Limits) : Bounds (List UInt8) :=
  { capacity := L.capacity, maxSize := L.maxMessageBytes, budget := L.maxQueuedBytes
    size := List.length }

/-- The result of a non-blocking send for the answer of the queue. -/
def specTrySend (L : Limits) (bytes : Bytes) : Offer → TrySendResult
  | .accepted => .sent
  | .tooLarge => .messageTooLarge bytes.length L.maxMessageBytes
  | .closed => .closed
  | .full => .full
  | .overBudget => .queueByteLimitReached bytes.length L.maxQueuedBytes

/-- The result of a blocking send for the answer of the queue, if it need not wait. -/
def specSend (L : Limits) (bytes : Bytes) : Offer → Option SendResult
  | .accepted => some .sent
  | .tooLarge => some (.messageTooLarge bytes.length L.maxMessageBytes)
  | .closed => some .closed
  | .full => none
  | .overBudget => none

/-- The result of a receive for the answer of the queue, if it need not wait. -/
def specRecv (block : Bool) : Poll (List UInt8) → Option Result
  | .item x => some (if block then .recv (.ok (some x)) else .tryRecv (.ok (.received x)))
  | .empty => if block then none else some (.tryRecv (.ok .empty))
  | .closed => some (if block then .recv (.ok none) else .tryRecv (.ok .closed))

/-- An operation on the abstract channel: its result and its effect. -/
def specStep (L : Limits) (q : Fifo (List UInt8)) : Op → Option (Result × Fifo (List UInt8))
  | .send .trySend bytes =>
    let r := q.offer L.bounds bytes.data
    some (.trySend (.ok (specTrySend L bytes r.1)), r.2)
  | .send .send bytes =>
    let r := q.offer L.bounds bytes.data
    (specSend L bytes r.1).map fun x => (.send (.ok (decide (x = .sent))), r.2)
  | .send .sendChecked bytes =>
    let r := q.offer L.bounds bytes.data
    (specSend L bytes r.1).map fun x => (.sendChecked (.ok x), r.2)
  | .recv block => (specRecv block q.poll.1).map fun x => (x, q.poll.2)
  | .length => some (.length (.ok q.queue.length), q)
  | .senderClose => some (.unit (.ok ()), q.close)
  | .receiverClose => some (.unit (.ok ()), q.close)
  | .share => some (.unit (.ok ()), q.join)
  | .drop .sender => some (.unit (.ok ()), q.leave)
  | .drop .receiver => some (.unit (.ok ()), q.close)

variable {T : Type}

/-- The legal moves of the abstract channel, labelled with thread, operation and result. -/
def SpecMove (L : Limits) (q : Fifo (List UInt8)) (x : T × Op × Result) (q' : Fifo (List UInt8)) :
    Prop :=
  specStep L q x.2.1 = some (x.2.2, q')

/-- The abstract channel of a state. -/
def State.abs (s : State T) : Fifo (List UInt8) :=
  { queue := s.core.ring.toList.map Message.data
    closed := s.core.closed
    producers := s.senders.card }

/-- The completed operation that an event shows. -/
def Event.returned : Event T → Option (T × Op × Result)
  | .ret t op r => some (t, op, r)
  | _ => none

/-- The payload that a completed operation put into the channel. -/
def acceptedOf : T × Op × Result → Option (List UInt8)
  | (_, .send _ bytes, .trySend (.ok .sent)) => some bytes.data
  | (_, .send _ bytes, .send (.ok true)) => some bytes.data
  | (_, .send _ bytes, .sendChecked (.ok .sent)) => some bytes.data
  | _ => none

/-- The payload that a completed operation took out of the channel. -/
def receivedOf : T × Op × Result → Option (List UInt8)
  | (_, _, .tryRecv (.ok (.received x))) => some x
  | (_, _, .recv (.ok (some x))) => some x
  | _ => none

/-! ## The abstract channel delivers in order -/

theorem specStep_queue {L : Limits} {q q' : Fifo (List UInt8)} {t : T} {op : Op} {r : Result}
    (h : specStep L q op = some (r, q')) :
    (receivedOf (t, op, r)).toList ++ q'.queue = q.queue ++ (acceptedOf (t, op, r)).toList := by
  cases op with
  | send kind bytes =>
    have hq : (q.offer L.bounds bytes.data).2.queue =
        q.queue ++ if (q.offer L.bounds bytes.data).1 = .accepted then [bytes.data] else [] := by
      by_cases ha : q.answer L.bounds bytes.data = .accepted <;> simp [Fifo.offer, ha]
    rcases hr : (q.offer L.bounds bytes.data).1 <;> cases kind <;>
      simp [specStep, hr, specSend, specTrySend] at h <;> obtain ⟨rfl, rfl⟩ := h <;>
      simp [hq, hr, receivedOf, acceptedOf]
  | recv block =>
    rcases hq : q.queue with _ | ⟨x, rest⟩
    · rcases hc : q.closed <;> cases block <;> simp [specStep, Fifo.poll, hq, hc, specRecv] at h <;>
        obtain ⟨rfl, rfl⟩ := h <;> simp [hq, receivedOf, acceptedOf]
    · cases block <;> simp [specStep, Fifo.poll, hq, specRecv] at h <;> obtain ⟨rfl, rfl⟩ := h <;>
        simp [receivedOf, acceptedOf]
  | drop role =>
    cases role <;> simp [specStep] at h <;> obtain ⟨rfl, rfl⟩ := h <;>
      simp [receivedOf, acceptedOf, Fifo.leave, Fifo.close]
  | length | senderClose | receiverClose | share =>
    simp [specStep] at h
    obtain ⟨rfl, rfl⟩ := h
    simp [receivedOf, acceptedOf, Fifo.join, Fifo.close]

/-! ## The answers of the abstract channel -/

variable {L : Limits} {s s' : State T}

theorem Inv.total_abs (h : Inv L s) : (s.abs.total L.bounds : ℤ) = s.core.queuedBytes := by
  rw [h.core.queued, lengthSum_eq h.core.messages]
  simp only [Fifo.total, State.abs, List.map_map]
  rfl

theorem Inv.length_abs (h : Inv L s) : s.abs.queue.length = s.core.ring.count := by
  rw [State.abs, List.length_map, RingBuffer.length_toList h.core.ring]

theorem Inv.answer_accepted (h : Inv L s) {bytes : Bytes}
    (hle : bytes.length ≤ L.maxMessageBytes) (ho : s.core.Open) (hf : s.core.Fits bytes.length) :
    s.abs.answer L.bounds bytes.data = .accepted := by
  have hq := (h.core.hasByteCapacity_iff _).1 hf.2
  have hc : ¬s.abs.queue.length = L.bounds.capacity := by
    rw [h.length_abs]
    exact fun hc => hf.1 (hc.trans h.core.capacity.symm)
  have ht := h.total_abs
  unfold Bytes.length at hle hq
  rw [Fifo.answer, if_neg, if_neg, if_neg hc, if_neg]
  · show ¬L.maxQueuedBytes < s.abs.total L.bounds + bytes.data.length
    omega
  · simp [State.abs, ho.1]
  · show ¬L.maxMessageBytes < bytes.data.length
    omega

/-- A refused send gets the answer of the abstract channel for its code. -/
theorem Inv.answer_refused (h : Inv L s) {bytes : Bytes} {block : Bool} {code : ℤ}
    (hle : code ≠ 3 → bytes.length ≤ L.maxMessageBytes)
    (hr : Refused s.core bytes.length block code) :
    (code = 3 ∧ s.abs.answer L.bounds bytes.data = .tooLarge) ∨
    (code = 2 ∧ s.abs.answer L.bounds bytes.data = .closed) ∨
    (block = false ∧ code = 1 ∧ s.abs.answer L.bounds bytes.data = .full) ∨
    (block = false ∧ code = 4 ∧ s.abs.answer L.bounds bytes.data = .overBudget) := by
  have hsize : code ≠ 3 → ¬L.bounds.maxSize < L.bounds.size bytes.data := by
    intro h3
    have := hle h3
    unfold Bytes.length at this
    show ¬L.maxMessageBytes < bytes.data.length
    omega
  have hcap : s.abs.queue.length = L.bounds.capacity ↔
      s.core.ring.count = s.core.ring.capacity := by
    rw [h.length_abs, h.core.capacity]
    rfl
  cases hr with
  | tooLarge hl =>
    rw [h.core.maxMessage] at hl
    unfold Bytes.length at hl
    exact .inl ⟨rfl, if_pos (by show L.maxMessageBytes < bytes.data.length; omega)⟩
  | closed hc =>
    rw [h.open_iff, Bool.not_eq_false] at hc
    have hc' : s.abs.closed = true := hc
    exact .inr (.inl ⟨rfl, by rw [Fifo.answer, if_neg (hsize (by decide)), if_pos hc']⟩)
  | full ho hb hf =>
    refine .inr (.inr (.inl ⟨hb, rfl, ?_⟩))
    rw [Fifo.answer, if_neg (hsize (by decide)), if_neg (by simp [State.abs, ho.1]),
      if_pos (hcap.2 hf)]
  | overBudget ho hb hf hq =>
    have hq' := mt (h.core.hasByteCapacity_iff bytes.length).2 (by rw [hq]; decide)
    have ht := h.total_abs
    unfold Bytes.length at hq'
    refine .inr (.inr (.inr ⟨hb, rfl, ?_⟩))
    rw [Fifo.answer, if_neg (hsize (by decide)), if_neg (by simp [State.abs, ho.1]),
      if_neg (mt hcap.1 hf), if_pos]
    show L.maxQueuedBytes < s.abs.total L.bounds + bytes.data.length
    omega

/-! ## Every move is a move of the abstract channel -/

/-- The operation that a thread at a point is in. -/
def Point.op : Point → Option Op
  | idle => none
  | submit _ kind bytes _ => some (.send kind bytes)
  | copy _ kind bytes => some (.send kind bytes)
  | receive block => some (.recv block)

theorem filterMap_releaseEvent (message : Option Message) :
    (releaseEvent message : List (Event T)).filterMap Event.returned = [] := by
  cases message <;> rfl

theorem filterMap_freeEvents (core : Core) :
    (freeEvents core : List (Event T)).filterMap Event.returned = [] := by
  unfold freeEvents
  split_ifs
  · rw [List.filterMap_append, List.filterMap_map]
    simp [Function.comp_def, Event.returned]
  · rfl

variable [DecidableEq T]

/-- **Every move is silent or completes one operation as the abstract channel does.** -/
theorem Move.linearized {b : Option Bytes} {e : List (Event T)} (hm : Move b s s' e) (h : Inv L s) :
    Linearized (SpecMove L) State.abs Event.returned State.threads Point.op s s' e := by
  cases hm with
  | callSend t n kind bytes hb ht hn => exact .stays (.refl _) (.inl (by rw [ht]; rfl)) rfl rfl
  | callRecv t block ht hr hu => exact .stays (.refl _) (.inl (by rw [ht]; rfl)) rfl rfl
  | sendRefused t n kind bytes message code ht hlen hc =>
    have hle : code ≠ 3 → bytes.length ≤ L.maxMessageBytes :=
      fun h3 => h.length_le ht fun h' => hlen h' h3
    refine .returns (x := .run .idle) (.refl _) (by rw [ht.point]; rfl) rfl
      (by rw [List.filterMap_append, filterMap_releaseEvent]; rfl) ?_
    change specStep L s.abs (.send kind bytes) = some (_, s.abs)
    rcases h.answer_refused hle hc with ⟨rfl, ha⟩ | ⟨rfl, ha⟩ | ⟨hb, rfl, ha⟩ | ⟨hb, rfl, ha⟩
    · cases kind <;> simp [specStep, Fifo.offer, ha, specTrySend, specSend, SendKind.result,
        trySendResult, sendResult, sendCheckedResult, h.core.maxMessage, Except.map]
    · cases kind <;> simp [specStep, Fifo.offer, ha, specTrySend, specSend, SendKind.result,
        trySendResult, sendResult, sendCheckedResult, Except.map]
    · cases kind <;> simp [SendKind.block] at hb
      simp [specStep, Fifo.offer, ha, specTrySend, SendKind.result, trySendResult]
    · cases kind <;> simp [SendKind.block] at hb
      simp [specStep, Fifo.offer, ha, specTrySend, SendKind.result, trySendResult,
        h.core.maxQueued]
  | sendSleep t n kind bytes message ht hlen hblock ho hf =>
    exact .stays (.refl _) (.inr (by rw [ht.point]; rfl)) rfl rfl
  | sendCopy t n kind bytes ht hlen ho hf =>
    exact .stays (.refl _) (.inr (by rw [ht.point]; rfl)) rfl rfl
  | copied t n kind bytes ht => exact .stays (.refl _) (.inr (by rw [ht]; rfl)) rfl rfl
  | sent t n kind bytes m f ht hlen ho hf hs =>
    have hdata : m.data = bytes.data := ((h.ready ht).2 m rfl).1
    refine .returns (.of_signalled hs) (by rw [ht.point]; rfl) rfl rfl ?_
    have ha := h.answer_accepted (h.length_le ht hlen) ho hf
    have hab : State.abs { s with core := s.core.enqueue m bytes.length, threads := f } =
        { s.abs with queue := s.abs.queue ++ [bytes.data] } := by
      simp only [State.abs, h.core.toList_enqueue hf m, List.map_append, List.map_cons,
        List.map_nil, hdata]
      rfl
    rw [hab]
    cases kind <;> simp [SpecMove, specStep, Fifo.offer, ha, specTrySend, specSend,
      SendKind.result, trySendResult, sendResult, sendCheckedResult, Except.map]
  | recvSleep t ht hc ho => exact .stays (.refl _) (.inr (by rw [ht.point]; rfl)) rfl rfl
  | recvNothing t block ht hc hblock =>
    refine .returns (x := .run .idle) (.refl _) (by rw [ht.point]; rfl) rfl rfl ?_
    have hq : s.abs.queue = [] := by
      rw [← List.length_eq_zero_iff, h.length_abs, hc]
    have hcl : s.abs.closed = s.core.closed := rfl
    change specStep L s.abs (.recv block) = some (_, s.abs)
    cases block
    · cases hcl' : s.core.closed <;>
        simp [specStep, Fifo.poll, hq, hcl, hcl', specRecv, recvOpResult, tryRecvResult]
    · simp [specStep, Fifo.poll, hq, hcl, hblock rfl, specRecv, recvOpResult, recvResult]
  | received t block m f ht hc hm hs =>
    have hl := h.core.toList_dequeue hc hm
    refine .returns (.of_signalled hs) (by rw [ht.point]; rfl) rfl rfl ?_
    have hq : s.abs.queue = m.data :: ((s.core.dequeue m).ring.toList.map Message.data) := by
      simp only [State.abs, hl, List.map_cons]
    have hok := (h.core.messages m (by rw [hl]; exact List.mem_cons_self)).1
    have hdata : intoMoonbit m = m.data := by
      unfold intoMoonbit
      rw [hok]
      split_ifs with hpos
      · simp
      · exact (List.length_eq_zero_iff.1 (by omega)).symm
    cases block <;> simp [SpecMove, specStep, Fifo.poll, hq, specRecv, recvOpResult,
      tryRecvResult, recvResult, hdata] <;> rfl
  | spurious t p ht => exact .stays (.refl _) (.inr (by rw [ht]; rfl)) rfl rfl
  | closed t op alive ht hop =>
    refine .atOnce (by rw [ht]; rfl) (woken_wakeAll _) rfl ?_
    rcases hop with ⟨rfl, -⟩ | ⟨rfl, -⟩ <;> rfl
  | share t n n' ht hn hn' =>
    refine .atOnce (by rw [ht]; rfl) (.refl _) rfl ?_
    simp [SpecMove, specStep, State.abs, Fifo.join, Finset.card_insert_of_notMem hn']
  | length t ht hr =>
    refine .atOnce (by rw [ht]; rfl) (.refl _) rfl ?_
    rw [SpecMove, specStep, h.length_abs]
  | dropSender t n ht hn hu =>
    refine .atOnce (by rw [ht]; rfl) (woken_ite _ _)
      (by rw [List.filterMap_append, filterMap_freeEvents]; rfl) ?_
    have hlast : decide (s.core.dropSender.senders = 0) = decide (s.senders.card = 1) :=
      decide_eq_decide.2 (h.counted.dropSender_eq_zero_iff hn)
    have hclosed : s.core.dropSender.closed = (s.core.closed || decide (s.senders.card = 1)) := by
      rw [← hlast]
      rfl
    simp only [SpecMove, specStep, State.abs, Fifo.leave, hclosed, Finset.card_erase_of_mem hn]
    rfl
  | dropReceiver t ht hr hu =>
    refine .atOnce (by rw [ht]; rfl) (woken_ite _ _)
      (by rw [List.filterMap_append, filterMap_freeEvents]; rfl) ?_
    rw [SpecMove, specStep, State.abs, State.abs, h.closed_dropReceiver]
    rfl

/-! ## Runs -/

variable [Fintype T]

/-- **The channel is linearizable.** Along every run, the completed operations are, in the order
of the sections in which they complete, a run of the abstract channel that ends in the abstract
channel of the state; every further step is silent or completes one operation, with the result
and the effect of the abstract one; and what was received is a prefix of what was accepted. -/
theorem owned_bytes_linearizable (L : Limits) {es : List (Event T)} {s : State T}
    (h : Exec step Assumed (State.init L.core) es s) :
    History (SpecMove L) ⟨[], false, 1⟩ (es.filterMap Event.returned) s.abs ∧
    (∀ a s' e, step s a = some (s', e) → Assumed s a s' →
      Linearized (SpecMove L) State.abs Event.returned State.threads Point.op s s' e) ∧
    (es.filterMap Event.returned).filterMap acceptedOf =
      (es.filterMap Event.returned).filterMap receivedOf ++ s.abs.queue ∧
    (es.filterMap Event.returned).filterMap receivedOf <+:
      (es.filterMap Event.returned).filterMap acceptedOf := by
  have hh : History (SpecMove L) ⟨[], false, 1⟩ (es.filterMap Event.returned) s.abs :=
    h.history (I := Inv L) Event.returned State.abs (inv_init L)
      (fun hI hs hG => (step_move hs hG.1 hG.2.1).inv hI hG.2.2)
      fun hI hs hG => ((step_move hs hG.1 hG.2.1).linearized hI).history
  have hq := History.accepted_eq Fifo.queue acceptedOf receivedOf
    (fun hA => specStep_queue hA) hh rfl
  exact ⟨hh, fun a s' e hs hG => (step_move hs hG.1 hG.2.1).linearized (inv_of_exec h), hq,
    hq ▸ List.prefix_append _ _⟩

/-- The actions of a send that goes through at once. -/
def sendActions (t : T) (kind : SendKind) (bytes : Bytes) : List (Action T) :=
  [.callSend t 0 kind bytes 0, .lock t {} none, .copy t, .lock t {} none]

theorem owned_bytes_linearizable_two_sends :
    ∃ (es : List (Event (Fin 2))) (s : State (Fin 2)),
      Exec step Assumed (State.init fourBytes.core) es s ∧
      (es.filterMap Event.returned).filterMap acceptedOf = [[1, 2], [3]] ∧
      (es.filterMap Event.returned).filterMap receivedOf = [[1, 2]] ∧
      History (SpecMove fourBytes) ⟨[], false, 1⟩ (es.filterMap Event.returned) s.abs := by
  obtain ⟨es, s, h, ht⟩ := Exec.exists_of_run step Assumed
    (State.init (T := Fin 2) fourBytes.core)
    (sendActions 0 .send ⟨[1, 2], by decide⟩ ++ sendActions 1 .trySend ⟨[3], by decide⟩ ++
      [.callRecv 1 true, .lock 1 {} none])
    (fun _ es => decide ((es.filterMap Event.returned).filterMap acceptedOf = [[1, 2], [3]] ∧
      (es.filterMap Event.returned).filterMap receivedOf = [[1, 2]])) (by decide +kernel)
  obtain ⟨ha, hr⟩ := of_decide_eq_true ht
  exact ⟨es, s, h, ha, hr, (owned_bytes_linearizable fourBytes h).1⟩

end NativeSync.OwnedBytes
