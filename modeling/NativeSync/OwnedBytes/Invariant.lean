import NativeSync.OwnedBytes.Moves
import Mathlib.Algebra.Order.BigOperators.Group.List

/-!
# The OwnedBytes channel: its invariant

`Inv L s` collects what holds of every state of a channel with limits `L` as long as the
primitives succeed and fewer than `2^31` handles are live:

* `CoreInv`: the ring is well formed, every queued copy has its own length, which is at most the
  limit for one message, the byte counter is the sum of the queued lengths and within the budget,
  and a channel without receiver is closed;
* the counters of the core are the numbers of live handles;
* `PcOk`: a thread inside an operation uses a live handle, the copy it carries is a copy of its
  message, and only a blocking operation on a message that is not too large waits.

`Move.inv` is the step, `inv_of_exec` the run.
-/

namespace NativeSync.OwnedBytes

open Foundations

/-- A native copy with its own length, within the limit for one message. -/
def Message.Ok (L : Limits) (m : Message) : Prop :=
  m.length = m.data.length ∧ m.length ≤ L.maxMessageBytes

/-- The sum of the lengths of some copies. -/
def lengthSum (ms : List Message) : ℤ := (ms.map Message.length).sum

/-- The invariant of the core. -/
structure CoreInv (L : Limits) (core : Core) : Prop where
  capacity : core.ring.capacity = L.capacity
  maxMessage : core.maxMessageBytes = L.maxMessageBytes
  maxQueued : core.maxQueuedBytes = L.maxQueuedBytes
  ring : core.ring.Wf
  messages : ∀ m ∈ core.ring.toList, m.Ok L
  queued : core.queuedBytes = lengthSum core.ring.toList
  budget : core.queuedBytes ≤ L.maxQueuedBytes
  alive : core.receiverAlive = false → core.closed = true

/-- A point of an operation with live handles and, where it carries one, a copy of its message. -/
def PointOk (L : Limits) (senders : Finset ℕ) (receiver : Bool) : Point → Prop
  | .idle => True
  | .submit h _ bytes message => h ∈ senders ∧
      ∀ m ∈ message, m.data = bytes.data ∧ m.length = bytes.length ∧
        bytes.length ≤ L.maxMessageBytes
  | .copy h _ bytes => h ∈ senders ∧ bytes.length ≤ L.maxMessageBytes
  | .receive _ => receiver = true

/-- A point at which a thread can wait. -/
def WaitOk (L : Limits) : Point → Prop
  | .submit _ kind bytes _ => kind.block = true ∧ bytes.length ≤ L.maxMessageBytes
  | .receive block => block = true
  | _ => False

/-- The invariant of one thread. -/
def PcOk (L : Limits) (senders : Finset ℕ) (receiver : Bool) (x : Pc Point) : Prop :=
  PointOk L senders receiver x.point ∧ x.WaitsAt (WaitOk L)

/-- The invariant of the channel. -/
structure Inv {T : Type} (L : Limits) (s : State T) : Prop where
  core : CoreInv L s.core
  counted : Counted s.core.toEndpoints s.senders s.receiver s.freed
  threads : ∀ t, PcOk L s.senders s.receiver (s.threads t)
  single : ∀ t u, (s.threads t).point.receiving = true → (s.threads u).point.receiving = true →
    t = u

/-! ## The core -/

variable {L : Limits} {core : Core}

@[simp] theorem lengthSum_append (ms ms' : List Message) :
    lengthSum (ms ++ ms') = lengthSum ms + lengthSum ms' := by simp [lengthSum]

@[simp] theorem lengthSum_cons (m : Message) (ms : List Message) :
    lengthSum (m :: ms) = m.length + lengthSum ms := by simp [lengthSum]

@[simp] theorem lengthSum_nil : lengthSum [] = 0 := rfl

/-- The sum of the lengths of copies that have their own length. -/
theorem lengthSum_eq {ms : List Message} (h : ∀ m ∈ ms, m.Ok L) :
    lengthSum ms = ((ms.map fun m => m.data.length).sum : ℕ) := by
  induction ms with
  | nil => rfl
  | cons m ms ih =>
    rw [lengthSum_cons, (h m List.mem_cons_self).1,
      ih fun m' hm' => h m' (List.mem_cons_of_mem _ hm'), List.map_cons, List.sum_cons]
    exact (Nat.cast_add _ _).symm

theorem CoreInv.queued_nonneg (h : CoreInv L core) : 0 ≤ core.queuedBytes := by
  rw [h.queued, lengthSum_eq h.messages]; exact Int.natCast_nonneg _

theorem CoreInv.hasByteCapacity_iff (h : CoreInv L core) (n : ℤ) :
    core.hasByteCapacity n = true ↔ core.queuedBytes + n ≤ L.maxQueuedBytes := by
  rw [Core.hasByteCapacity, decide_eq_true_eq, h.maxQueued]
  omega

/-- An empty channel has room for every message that is not too large. -/
theorem CoreInv.fits_of_empty (h : CoreInv L core) (hc : core.ring.count = 0) {n : ℤ}
    (hn : n ≤ L.maxMessageBytes) : core.Fits n := by
  have hq : core.queuedBytes = 0 := by
    rw [h.queued, (RingBuffer.toList_eq_nil_iff h.ring).2 hc, lengthSum_nil]
  have hle := L.message_le_queued
  refine ⟨?_, (h.hasByteCapacity_iff n).2 (by omega)⟩
  rw [hc, h.capacity]
  exact L.capacity_pos.ne

theorem CoreInv.count_lt (h : CoreInv L core) {n : ℤ} (hf : core.Fits n) :
    core.ring.count < core.ring.capacity :=
  lt_of_le_of_ne h.ring.count_le hf.1

theorem CoreInv.toList_enqueue (h : CoreInv L core) {n : ℤ} (hf : core.Fits n) (m : Message) :
    (core.enqueue m n).ring.toList = core.ring.toList ++ [m] :=
  RingBuffer.toList_push h.ring (h.count_lt hf) m

theorem CoreInv.enqueue (h : CoreInv L core) {m : Message} {n : ℤ} (hf : core.Fits n)
    (hm : m.Ok L) (hn : m.length = n) : CoreInv L (core.enqueue m n) where
  capacity := h.capacity
  maxMessage := h.maxMessage
  maxQueued := h.maxQueued
  ring := RingBuffer.wf_push h.ring (h.count_lt hf) m
  messages := by
    rw [h.toList_enqueue hf m]
    intro m' hm'
    rcases List.mem_append.1 hm' with h' | h'
    · exact h.messages m' h'
    · obtain rfl := List.mem_singleton.1 h'
      exact hm
  queued := by
    rw [h.toList_enqueue hf m, lengthSum_append, ← h.queued]
    simp [Core.enqueue, lengthSum, hn]
  budget := (h.hasByteCapacity_iff n).1 hf.2
  alive := h.alive

theorem CoreInv.toList_dequeue (h : CoreInv L core) (hc : core.ring.count ≠ 0) {m : Message}
    (hm : core.ring.slots core.ring.head = some m) :
    core.ring.toList = m :: (core.dequeue m).ring.toList := by
  obtain ⟨x, hx, hl⟩ := RingBuffer.exists_pop h.ring hc
  obtain rfl : x = m := Option.some.inj (hx.symm.trans hm)
  exact hl

theorem CoreInv.dequeue (h : CoreInv L core) (hc : core.ring.count ≠ 0) {m : Message}
    (hm : core.ring.slots core.ring.head = some m) : CoreInv L (core.dequeue m) := by
  have hl := h.toList_dequeue hc hm
  have hq : core.queuedBytes = m.length + lengthSum (core.dequeue m).ring.toList := by
    rw [h.queued, hl, lengthSum_cons]
  have hmok : m.Ok L := h.messages m (by rw [hl]; exact List.mem_cons_self)
  refine ⟨h.capacity, h.maxMessage, h.maxQueued, RingBuffer.wf_pop h.ring hc, fun m' hm' =>
    h.messages m' (by rw [hl]; exact List.mem_cons_of_mem _ hm'), ?_, ?_, h.alive⟩
  · simp only [Core.dequeue] at hq ⊢
    omega
  · have hb := h.budget
    have hlen := hmok.1
    simp only [Core.dequeue]
    omega

/-- Changing the counters or closing the channel keeps the invariant of the core. -/
theorem CoreInv.congr {core' : Core} (h : CoreInv L core) (hr : core'.ring = core.ring)
    (hm : core'.maxMessageBytes = core.maxMessageBytes)
    (hq : core'.maxQueuedBytes = core.maxQueuedBytes)
    (hb : core'.queuedBytes = core.queuedBytes)
    (ha : core'.receiverAlive = false → core'.closed = true) : CoreInv L core' :=
  ⟨by rw [hr]; exact h.capacity, hm.trans h.maxMessage, hq.trans h.maxQueued,
    by rw [hr]; exact h.ring, by rw [hr]; exact h.messages, by rw [hb, hr]; exact h.queued,
    by rw [hb]; exact h.budget, ha⟩

/-! ## The threads -/

variable {T : Type} {senders senders' : Finset ℕ} {receiver receiver' : Bool}

theorem PcOk.idle : PcOk L senders receiver (.run .idle) := ⟨trivial, Pc.waitsAt_run _⟩

theorem PcOk.run {p : Point} (h : PointOk L senders receiver p) :
    PcOk L senders receiver (.run p) :=
  ⟨h, Pc.waitsAt_run _⟩

theorem PcOk.wait {w : Wake} {p : Point} (h : PointOk L senders receiver p) (hw : WaitOk L p) :
    PcOk L senders receiver (.wait w p) :=
  ⟨h, Pc.waitsAt_wait.2 hw⟩

theorem PcOk.woken {f f' : T → Pc Point} (h : ∀ t, PcOk L senders receiver (f t))
    (hw : Woken f f') (t : T) : PcOk L senders receiver (f' t) :=
  ⟨by rw [hw.point t]; exact (h t).1, hw.waitsAt (h t).2⟩

theorem PointOk.mono {p : Point} (h : PointOk L senders receiver p)
    (hs : ∀ n ∈ p.handle, n ∈ senders → n ∈ senders')
    (hr : p.receiving = true → receiver = true → receiver' = true) :
    PointOk L senders' receiver' p := by
  cases p with
  | idle => trivial
  | submit n kind bytes message => exact ⟨hs n rfl h.1, h.2⟩
  | copy n kind bytes => exact ⟨hs n rfl h.1, h.2⟩
  | receive block => exact hr rfl h

theorem PcOk.mono {x : Pc Point} (h : PcOk L senders receiver x)
    (hs : ∀ n ∈ x.point.handle, n ∈ senders → n ∈ senders')
    (hr : x.point.receiving = true → receiver = true → receiver' = true) :
    PcOk L senders' receiver' x :=
  ⟨h.1.mono hs hr, h.2⟩

section Moves

variable {s s' : State T} {t : T} {p : Point}

theorem Inv.ready (h : Inv L s) (ht : (s.threads t).Ready p) :
    PointOk L s.senders s.receiver p := by
  rw [← ht.point]; exact (h.threads t).1

theorem Inv.open_iff (h : Inv L s) : s.core.Open ↔ s.core.closed = false := by
  refine ⟨fun ho => ho.1, fun hc => ⟨hc, ?_⟩⟩
  by_contra ha
  rw [h.core.alive (Bool.eq_false_of_not_eq_true ha)] at hc
  cases hc

/-- Without its receiver the channel is closed. -/
theorem Inv.closed_dropReceiver (h : Inv L s) : s.core.dropReceiver.closed = true := by
  show (s.core.closed || s.core.receiverAlive) = true
  cases ha : s.core.receiverAlive
  · rw [h.core.alive ha, Bool.true_or]
  · rw [Bool.or_true]

/-- A thread about to run a pass of a send knows that its message is not too large: it has just
checked it, or it had before it went to sleep. -/
theorem Inv.length_le (h : Inv L s) {n : ℕ} {kind : SendKind} {bytes : Bytes}
    {message : Option Message} (ht : (s.threads t).Ready (.submit n kind bytes message))
    (hlen : s.threads t = .run (.submit n kind bytes message) →
      bytes.length ≤ s.core.maxMessageBytes) : bytes.length ≤ L.maxMessageBytes := by
  rcases ht with ht | ⟨w, -, ht⟩
  · rw [← h.core.maxMessage]; exact hlen ht
  · exact ((h.threads t).2 _ _ ht).2

/-- Nobody else is in a receive. -/
theorem Inv.others (h : Inv L s) {block : Bool} (ht : (s.threads t).Ready (.receive block)) (u : T)
    (hu : u ≠ t) : (s.threads u).point.receiving = false := by
  by_contra hn
  exact hu (h.single u t (Bool.eq_true_of_not_eq_false hn) (by rw [ht.point]; rfl))

variable [DecidableEq T]

/-- The invariant after a step that changes the core, moves thread `t` and notifies threads. -/
theorem Inv.update (h : Inv L s) {core : Core} {x : Pc Point} {f : T → Pc Point} {copies : ℕ}
    (hcore : CoreInv L core) (hends : core.toEndpoints = s.core.toEndpoints)
    (hx : PcOk L s.senders s.receiver x)
    (hrecv : x.point.receiving = true →
      ∀ u, u ≠ t → (s.threads u).point.receiving = false)
    (hw : Woken (Function.update s.threads t x) f) :
    Inv L { s with core, threads := f, copies } where
  core := hcore
  counted := by
    show Counted core.toEndpoints s.senders s.receiver s.freed
    rw [hends]
    exact h.counted
  threads := PcOk.woken (forall_update hx fun u _ => h.threads u) hw
  single := by
    intro u v hu hv
    have hu' : (Function.update s.threads t x u).point.receiving = true := by rwa [← hw.point u]
    have hv' : (Function.update s.threads t x v).point.receiving = true := by rwa [← hw.point v]
    by_cases hut : u = t <;> by_cases hvt : v = t
    · rw [hut, hvt]
    · subst hut
      rw [Function.update_self] at hu'
      rw [Function.update_of_ne hvt, hrecv hu' v hvt] at hv'
      cases hv'
    · subst hvt
      rw [Function.update_self] at hv'
      rw [Function.update_of_ne hut, hrecv hv' u hut] at hu'
      cases hu'
    · rw [Function.update_of_ne hut] at hu'
      rw [Function.update_of_ne hvt] at hv'
      exact h.single u v hu' hv'

theorem Inv.move (h : Inv L s) {x : Pc Point} (hx : PcOk L s.senders s.receiver x)
    (hrecv : x.point.receiving = true →
      ∀ u, u ≠ t → (s.threads u).point.receiving = false) : Inv L (s.move t x) :=
  h.update (t := t) h.core rfl hx hrecv (.refl _)

theorem Inv.move_idle (h : Inv L s) : Inv L (s.move t (.run .idle)) :=
  h.move .idle fun e => by cases e

theorem messageCopy_ok (n : ℕ) (bytes : Bytes) :
    (messageCopy n bytes bytes.length).data = bytes.data ∧
      (messageCopy n bytes bytes.length).length = bytes.length := by
  refine ⟨?_, rfl⟩
  show (if (bytes.data.length : ℤ) > 0 then bytes.data.take (bytes.data.length : ℤ).toNat else []) =
    bytes.data
  split_ifs with h
  · simp
  · have h0 : bytes.data.length = 0 := by omega
    exact (List.length_eq_zero_iff.1 h0).symm

omit [DecidableEq T] in
/-- The invariant after a step that makes or drops a handle. -/
theorem Inv.setHandles (h : Inv L s) {core : Core} {f : T → Pc Point} {senders : Finset ℕ}
    {receiver freed : Bool} (hcore : CoreInv L core)
    (hcount : Counted core.toEndpoints senders receiver freed) (hw : Woken s.threads f)
    (hs : ∀ u, ∀ n ∈ (s.threads u).point.handle, n ∈ s.senders → n ∈ senders)
    (hr : ∀ u, (s.threads u).point.receiving = true → s.receiver = true → receiver = true) :
    Inv L { s with core, threads := f, senders, receiver, freed } where
  core := hcore
  counted := hcount
  threads := PcOk.woken (fun u => (h.threads u).mono (hs u) (hr u)) hw
  single := fun u v hu hv => h.single u v (by rwa [← hw.point u]) (by rwa [← hw.point v])

/-- **A move keeps the invariant**, as long as fewer than `2^31` handles are live. -/
theorem Move.inv {b : Option Bytes} {e : List (Event T)} (hm : Move b s s' e) (h : Inv L s)
    (hb : s'.handles < 2147483648) : Inv L s' := by
  cases hm with
  | callSend t n kind bytes hb ht hn =>
    exact h.move (.run ⟨hn, fun m hm => by cases hm⟩) fun e => by cases e
  | callRecv t block ht hr hu => exact h.move (.run hr) fun _ u _ => hu u
  | sendRefused t n kind bytes message code ht hlen hc => exact h.move_idle
  | sendSleep t n kind bytes message ht hlen hblock ho hf =>
    exact h.move (.wait (h.ready ht) ⟨hblock, h.length_le ht hlen⟩) fun e => by cases e
  | sendCopy t n kind bytes ht hlen ho hf =>
    exact h.move (.run ⟨(h.ready ht).1, h.length_le ht hlen⟩) fun e => by cases e
  | copied t n kind bytes ht =>
    have hp := h.ready (.inl ht)
    have hc := messageCopy_ok s.copies bytes
    have hok : PointOk L s.senders s.receiver
        (.submit n kind bytes (some (messageCopy s.copies bytes bytes.length))) :=
      ⟨hp.1, fun m hm => by cases hm; exact ⟨hc.1, hc.2, hp.2⟩⟩
    exact h.update (t := t) h.core rfl (.run hok) (fun e => by cases e) (.refl _)
  | sent t n kind bytes m f ht hlen ho hf hs =>
    obtain ⟨hdata, hlen', hle⟩ := (h.ready ht).2 m rfl
    have hok : m.Ok L := ⟨by rw [hlen', hdata]; rfl, by rw [hlen']; exact hle⟩
    exact h.update (t := t) (h.core.enqueue hf hok hlen') rfl .idle (fun e => by cases e)
      (.of_signalled hs)
  | recvSleep t ht hc ho =>
    exact h.move (.wait (h.ready ht) rfl) fun _ u hu => h.others ht u hu
  | recvNothing t block ht hc hblock => exact h.move_idle
  | received t block m f ht hc hm hs =>
    exact h.update (t := t) (h.core.dequeue hc hm) rfl .idle (fun e => by cases e)
      (.of_signalled hs)
  | spurious t p ht =>
    have hp : s.threads t = .wait .asleep p := ht
    have hok := h.threads t
    rw [hp] at hok
    refine h.move ⟨hok.1, fun w q e => ?_⟩ fun hr u hu => ?_
    · cases e
      exact hok.2 _ _ rfl
    · by_contra hn
      exact hu (h.single u t (Bool.eq_true_of_not_eq_false hn) (by rw [hp]; exact hr))
  | closed t op alive ht hop =>
    have hw : Woken s.threads (wakeAll Point.cond s.threads) := woken_wakeAll _
    refine ⟨h.core.congr rfl rfl rfl rfl fun _ => rfl,
      ⟨h.counted.senders, h.counted.refs, h.counted.bound, h.counted.freed⟩,
      PcOk.woken h.threads hw, fun u v hu hv => ?_⟩
    rw [hw.point] at hu hv
    exact h.single u v hu hv
  | share t n n' ht hn hn' =>
    exact h.setHandles (h.core.congr rfl rfl rfl rfl h.core.alive) (h.counted.share hn hn' hb)
      (.refl _) (fun _ _ _ hm => Finset.mem_insert_of_mem hm) fun _ _ hr => hr
  | length t ht hr => exact h
  | dropSender t n ht hn hu =>
    refine h.setHandles (h.core.congr rfl rfl rfl rfl fun ha => ?_) (h.counted.dropSender hn)
      (woken_ite _ _) (fun u m hm hm' => Finset.mem_erase.2 ⟨fun e => hu u (e ▸ hm), hm'⟩)
      fun _ _ hr => hr
    show (s.core.closed || decide _) = true
    rw [h.core.alive ha, Bool.true_or]
  | dropReceiver t ht hr hu =>
    have hcount := h.counted
    rw [hr] at hcount
    exact h.setHandles (h.core.congr rfl rfl rfl rfl fun _ => h.closed_dropReceiver)
      hcount.dropReceiver (woken_ite _ _) (fun _ _ _ hm => hm)
      fun u hu' _ => by rw [hu u] at hu'; cases hu'

end Moves

/-! ## Runs -/

theorem inv_init (L : Limits) : Inv L (State.init (T := T) L.core) where
  core :=
    { capacity := rfl
      maxMessage := rfl
      maxQueued := rfl
      ring := RingBuffer.wf_empty L.capacity_pos
      messages := fun _ hm => by cases hm
      queued := rfl
      budget := by
        show (0 : ℤ) ≤ L.maxQueuedBytes
        omega
      alive := fun h => by cases h }
  counted :=
    { senders := rfl
      refs := rfl
      bound := by
        show ({0} : Finset ℕ).card + 1 < 2147483648
        decide
      freed := by
        show false = true ↔ ({0} : Finset ℕ).card + 1 = 0
        decide }
  threads := fun _ => .idle
  single := fun _ _ h => by cases h

/-- **The invariant holds along every run** whose primitives succeed and in which fewer than
`2^31` handles are live. -/
theorem inv_of_exec [Fintype T] [DecidableEq T] {s : State T} {es : List (Event T)}
    (h : Exec step Assumed (State.init L.core) es s) : Inv L s :=
  h.stateInvariant (inv_init L) fun hI hs hG => (step_move hs hG.1 hG.2.1).inv hI hG.2.2

end NativeSync.OwnedBytes
