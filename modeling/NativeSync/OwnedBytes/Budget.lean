import NativeSync.OwnedBytes.Outcomes

/-!
# The ring and the byte budget of the OwnedBytes channel

`Sound` is the part of the invariant that does not depend on what the primitives return or on how
many handles are live: the invariant of the core, and that of the threads. The byte counter is
raised by the length that the sender captured and lowered by the length stored in the copy; they
agree because the copy that a thread carries has the length of its message (`PcOk`).
-/

namespace NativeSync.OwnedBytes

open Foundations

variable {T : Type} {L : Limits} {s s' : State T} {es e : List (Event T)} {t : T} {p : Point}

/-- The invariant of the channel whatever the primitives return. -/
structure Sound (L : Limits) (s : State T) : Prop where
  core : CoreInv L s.core
  threads : ∀ t, PcOk L s.senders s.receiver (s.threads t)

namespace Sound

theorem ready (h : Sound L s) (ht : (s.threads t).Ready p) : PointOk L s.senders s.receiver p := by
  rw [← ht.point]; exact (h.threads t).1

/-- A thread about to run a pass of a send knows that its message is not too large. -/
theorem length_le (h : Sound L s) {n : ℕ} {kind : SendKind} {bytes : Bytes}
    {message : Option Message} (ht : (s.threads t).Ready (.submit n kind bytes message))
    (hlen : s.threads t = .run (.submit n kind bytes message) →
      bytes.length ≤ s.core.maxMessageBytes) : bytes.length ≤ L.maxMessageBytes := by
  rcases ht with ht | ⟨w, -, ht⟩
  · rw [← h.core.maxMessage]; exact hlen ht
  · exact ((h.threads t).2 _ _ ht).2

/-- The copy that a thread carries is a copy of its message. -/
theorem carried (h : Sound L s) {n : ℕ} {kind : SendKind} {bytes : Bytes} {m : Message}
    (ht : (s.threads t).Ready (.submit n kind bytes (some m))) :
    m.Ok L ∧ m.length = bytes.length := by
  obtain ⟨hdata, hlen, hle⟩ := (h.ready ht).2 m rfl
  exact ⟨⟨by rw [hlen, hdata]; rfl, by rw [hlen]; exact hle⟩, hlen⟩

theorem init (L : Limits) : Sound L (State.init (T := T) L.core) :=
  ⟨(inv_init L).core, (inv_init L).threads⟩

variable [DecidableEq T]

/-- The invariant after a step that changes the core, moves thread `t` and notifies threads. -/
theorem update (h : Sound L s) {core : Core} {x : Pc Point} {f : T → Pc Point} {copies : ℕ}
    (hcore : CoreInv L core) (hx : PcOk L s.senders s.receiver x)
    (hw : Woken (Function.update s.threads t x) f) :
    Sound L { s with core, threads := f, copies } :=
  ⟨hcore, PcOk.woken (forall_update hx fun u _ => h.threads u) hw⟩

theorem move (h : Sound L s) {x : Pc Point} (hx : PcOk L s.senders s.receiver x) :
    Sound L (s.move t x) :=
  h.update (t := t) h.core hx (.refl _)

omit [DecidableEq T] in
/-- The invariant after a step that makes or drops a handle. -/
theorem setHandles (h : Sound L s) {core : Core} {f : T → Pc Point} {senders : Finset ℕ}
    {receiver freed : Bool} (hcore : CoreInv L core) (hw : Woken s.threads f)
    (hs : ∀ u, ∀ n ∈ (s.threads u).point.handle, n ∈ s.senders → n ∈ senders)
    (hr : ∀ u, (s.threads u).point.receiving = true → s.receiver = true → receiver = true) :
    Sound L { s with core, threads := f, senders, receiver, freed } :=
  ⟨hcore, PcOk.woken (fun u => (h.threads u).mono (hs u) (hr u)) hw⟩

end Sound

/-- **Every outcome keeps the invariant.** -/
theorem Outcome.sound [DecidableEq T] {a : Action T} (ho : Outcome a s s' e) (h : Sound L s) :
    Sound L s' := by
  cases ho with
  | callSend t n kind bytes ht hn ha => exact h.move (.run ⟨hn, fun m hm => by cases hm⟩)
  | callRecv t block ht hr => exact h.move (.run hr)
  | aside t op r ht => exact h
  | sendEnded t n kind bytes message r ht => exact h.move .idle
  | sendSleep t n kind bytes message ht hb hlen =>
    exact h.move (.wait (h.ready ht) ⟨hb, h.length_le ht hlen⟩)
  | sendCopy t n kind bytes ht hlen =>
    exact h.move (.run ⟨(h.ready ht).1, h.length_le ht hlen⟩)
  | copied t n kind bytes ht ha =>
    have hp := h.ready (.inl ht)
    have hc := messageCopy_ok s.copies bytes
    have hok : PointOk L s.senders s.receiver
        (.submit n kind bytes (some (messageCopy s.copies bytes bytes.length))) :=
      ⟨hp.1, fun m hm => by cases hm; exact ⟨hc.1, hc.2, hp.2⟩⟩
    exact h.update (t := t) h.core (.run hok) (.refl _)
  | sent t n kind bytes m f hin hlen ho hf hw =>
    obtain ⟨hok, hl⟩ := h.carried hin.ready
    exact h.update (t := t) (h.core.enqueue hf hok hl) .idle hw
  | recvSleep t block ht hb => exact h.move (.wait (h.ready ht) hb)
  | recvEnded t block r ht => exact h.move .idle
  | received t block m f hin hc hm hw =>
    exact h.update (t := t) (h.core.dequeue hc hm) .idle hw
  | spurious t p ht =>
    have hok := h.threads t
    rw [ht] at hok
    exact h.move (.wait hok.1 (hok.2 _ _ rfl))
  | closed t op alive f r ht hw =>
    exact ⟨h.core.congr rfl rfl rfl rfl fun _ => rfl, PcOk.woken h.threads hw⟩
  | share t n n' r ht hn hn' =>
    exact h.setHandles (h.core.congr rfl rfl rfl rfl h.core.alive) (.refl _)
      (fun _ _ _ hm => Finset.mem_insert_of_mem hm) fun _ _ hr => hr
  | dropSender t n ht hn hu =>
    refine h.setHandles (h.core.congr rfl rfl rfl rfl fun ha => ?_) (woken_ite _ _)
      (fun u m hm hm' => Finset.mem_erase.2 ⟨fun e => hu u (e ▸ hm), hm'⟩) fun _ _ hr => hr
    change (s.core.closed || decide _) = true
    rw [h.core.alive ha, Bool.true_or]
  | dropReceiver t ht hr hu =>
    refine h.setHandles (h.core.congr rfl rfl rfl rfl fun _ => ?_) (woken_ite _ _)
      (fun _ _ _ hm => hm) fun u hu' _ => by rw [hu u] at hu'; cases hu'
    change (s.core.closed || s.core.receiverAlive) = true
    cases ha : s.core.receiverAlive
    · rw [h.core.alive ha, Bool.true_or]
    · rw [Bool.or_true]

variable [Fintype T] [DecidableEq T]

/-- **The invariant holds along every run**, whatever the primitives return. -/
theorem sound_of_exec (h : Exec freeStep AnyStatus (State.init L.core) es s) : Sound L s :=
  h.stateInvariant (Sound.init L) fun hI hs _ => (freeStep_outcome hs).sound hI

/-! ## The arithmetic of the core -/

section Arithmetic

variable {core : Core}

omit [Fintype T] [DecidableEq T]

/-- A queued copy is one of those that the queue stands for. -/
theorem CoreInv.slot_ok (h : CoreInv L core) {i : ℕ} {m : Message} (hi : i < core.ring.count)
    (hm : core.ring.slots (core.ring.index i) = some m) : m.Ok L :=
  h.messages m (List.mem_filterMap.2 ⟨i, List.mem_range.2 hi, hm⟩)

/-- The indices and the free budget fit into an `int32`. -/
theorem CoreInv.indices (h : CoreInv L core) :
    (core.ring.tail : ℤ) + 1 ≤ int32Max ∧ (core.ring.head : ℤ) + 1 ≤ int32Max ∧
      0 ≤ core.maxQueuedBytes - core.queuedBytes ∧
      core.maxQueuedBytes - core.queuedBytes ≤ int32Max := by
  have h₁ := h.ring.tail_lt
  have h₂ := h.ring.head_lt
  have h₃ := L.capacity_le
  have h₄ := L.maxQueuedBytes_le
  have h₅ := h.queued_nonneg
  have h₆ := h.budget
  rw [h.capacity] at h₁ h₂
  rw [h.maxQueued]
  unfold int32Max
  exact ⟨by omega, by omega, by omega, by omega⟩

/-- The sums of an enqueue fit into an `int32`. -/
theorem CoreInv.enqueue_fits (h : CoreInv L core) {n : ℤ} (hn : 0 ≤ n) (hf : core.Fits n) :
    (core.ring.count : ℤ) + 1 ≤ int32Max ∧ 0 ≤ core.queuedBytes + n ∧
      core.queuedBytes + n ≤ int32Max := by
  have h₁ := h.count_lt hf
  have h₂ := L.capacity_le
  have h₃ := (h.hasByteCapacity_iff n).1 hf.2
  have h₄ := L.maxQueuedBytes_le
  have h₅ := h.queued_nonneg
  rw [h.capacity] at h₁
  unfold int32Max
  exact ⟨by omega, by omega, by omega⟩

/-- The differences of a dequeue fit into an `int32`. -/
theorem CoreInv.dequeue_fits (h : CoreInv L core) (hc : core.ring.count ≠ 0) {m : Message}
    (hm : core.ring.slots core.ring.head = some m) :
    0 ≤ core.queuedBytes - m.length ∧ core.queuedBytes - m.length ≤ int32Max := by
  have h₁ := (h.dequeue hc hm).queued_nonneg
  have h₂ := (h.dequeue hc hm).budget
  have h₃ := L.maxQueuedBytes_le
  unfold int32Max
  exact ⟨h₁, by change core.queuedBytes - m.length ≤ _ at h₂; omega⟩

/-- The slot that an enqueue writes is empty. -/
theorem CoreInv.tail_free (h : CoreInv L core) (hc : core.ring.count ≠ core.ring.capacity) :
    core.ring.slots core.ring.tail = none := by
  have hlt : core.ring.count < core.ring.capacity := lt_of_le_of_ne h.ring.count_le hc
  rw [h.ring.tail_eq, ← Option.not_isSome_iff_eq_none, h.ring.slot_isSome _ hlt]
  exact lt_irrefl _

end Arithmetic

/-- **The ring and the byte budget.** In every state that any run reaches, whatever its primitives
return and however many handles it makes:

* the cursors are in range, `tail` is `count` places after `head`, and the slots that hold a copy
  are the `count` slots from `head` on;
* every queued length is within the limit for one message, and `queued_bytes` is the sum of the
  queued lengths, within the budget;
* a channel without receiver is closed;
* no sum or difference that the code computes leaves the range of an `int32`: the cursors before
  they wrap around and the free budget at any time, the new count and the new sum where a message of
  length `n` is enqueued, the new sum where the message at the head is dequeued. -/
theorem owned_bytes_budget (h : Exec freeStep AnyStatus (State.init L.core) es s) :
    (s.core.ring.capacity = L.capacity ∧ s.core.ring.count ≤ s.core.ring.capacity ∧
      s.core.ring.head < s.core.ring.capacity ∧ s.core.ring.tail < s.core.ring.capacity ∧
      s.core.ring.tail = (s.core.ring.head + s.core.ring.count) % s.core.ring.capacity ∧
      ∀ i < s.core.ring.capacity,
        (s.core.ring.slots ((s.core.ring.head + i) % s.core.ring.capacity)).isSome = true ↔
          i < s.core.ring.count) ∧
    ((∀ i < s.core.ring.count, ∀ m,
        s.core.ring.slots ((s.core.ring.head + i) % s.core.ring.capacity) = some m →
          0 ≤ m.length ∧ m.length ≤ L.maxMessageBytes) ∧
      s.core.maxMessageBytes = L.maxMessageBytes ∧ s.core.maxQueuedBytes = L.maxQueuedBytes ∧
      s.core.queuedBytes = lengthSum s.core.ring.toList ∧ 0 ≤ s.core.queuedBytes ∧
      s.core.queuedBytes ≤ L.maxQueuedBytes) ∧
    (s.core.receiverAlive = false → s.core.closed = true) ∧
    ((s.core.ring.tail : ℤ) + 1 ≤ int32Max ∧ (s.core.ring.head : ℤ) + 1 ≤ int32Max ∧
      0 ≤ s.core.maxQueuedBytes - s.core.queuedBytes ∧
      s.core.maxQueuedBytes - s.core.queuedBytes ≤ int32Max) ∧
    (∀ n, 0 ≤ n → s.core.Fits n → (s.core.ring.count : ℤ) + 1 ≤ int32Max ∧
      0 ≤ s.core.queuedBytes + n ∧ s.core.queuedBytes + n ≤ int32Max) ∧
    (∀ m, s.core.ring.count ≠ 0 → s.core.ring.slots s.core.ring.head = some m →
      0 ≤ s.core.queuedBytes - m.length ∧ s.core.queuedBytes - m.length ≤ int32Max) := by
  have hI := (sound_of_exec h).core
  refine ⟨⟨hI.capacity, hI.ring.count_le, hI.ring.head_lt, hI.ring.tail_lt, hI.ring.tail_eq,
    hI.ring.slot_isSome⟩, ⟨fun i hi m hm => ?_, hI.maxMessage, hI.maxQueued, hI.queued,
    hI.queued_nonneg, hI.budget⟩, hI.alive, hI.indices, fun n hn hf => hI.enqueue_fits hn hf,
    fun m hc hm => hI.dequeue_fits hc hm⟩
  obtain ⟨hlen, hle⟩ := hI.slot_ok hi hm
  exact ⟨hlen ▸ Int.natCast_nonneg _, hle⟩

/-- A message of two bytes. -/
def twoBytes : Bytes := ⟨[1, 2], by decide⟩

/-- A send whose signal fails and a receive whose unlock fails leave the budget exact: of two
messages of two bytes that fill it one is left. -/
theorem owned_bytes_budget_after_failures :
    ∃ (es : List (Event (Fin 1))) (s : State (Fin 1)),
      Exec freeStep AnyStatus (State.init fourBytes.core) es s ∧
      .ret 0 (.send .trySend twoBytes) (.trySend (.error (.channelOperationFailed 9))) ∈ es ∧
      .ret 0 (.recv false) (.tryRecv (.error (.channelOperationFailed 8))) ∈ es ∧
      s.core.ring.count = 1 ∧ s.core.queuedBytes = 2 ∧
      s.core.queuedBytes = lengthSum s.core.ring.toList := by
  obtain ⟨es, s, h, ht⟩ := Exec.exists_of_run freeStep AnyStatus
    (State.init (T := Fin 1) fourBytes.core)
    [.callSend 0 0 .trySend twoBytes 0, .lock 0 {} none, .copy 0, .lock 0 { cond₁ := 9 } none,
      .callSend 0 0 .trySend twoBytes 0, .lock 0 {} none, .copy 0, .lock 0 {} none,
      .callRecv 0 false, .lock 0 { unlock := 8 } none]
    (fun s es => decide (
      .ret 0 (.send .trySend twoBytes) (.trySend (.error (.channelOperationFailed 9))) ∈ es ∧
      .ret 0 (.recv false) (.tryRecv (.error (.channelOperationFailed 8))) ∈ es ∧
      s.core.ring.count = 1 ∧ s.core.queuedBytes = 2))
    (by decide +kernel)
  obtain ⟨h₁, h₂, h₃, h₄⟩ := of_decide_eq_true ht
  obtain ⟨-, ⟨-, -, -, hsum, -⟩, -⟩ := owned_bytes_budget h
  exact ⟨es, s, h, h₁, h₂, h₃, h₄, hsum⟩

end NativeSync.OwnedBytes
