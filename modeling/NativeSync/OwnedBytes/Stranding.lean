import NativeSync.OwnedBytes.Wakeups
import Mathlib.Data.Nat.Find
import Mathlib.Tactic.Ring

/-!
# The OwnedBytes channel: stranded senders

Blocked senders wait on one condition variable with different predicates, since each waits for
room for its own message, while a dequeue wakes one of them. `Stranded` is the state that this can
lead to: every thread rests, and yet a sender sleeps for whose message there is room.

`room ℓ` is the number of messages of length `ℓ` that fit the queue together. As long as all
messages have the same room, a dequeue makes room for exactly one of them, whichever, and nobody
is stranded: the demand for senders, the room less the number of queued messages, is covered. As
soon as two messages differ in their room, there is a run that strands the sender of the
smaller one.
-/

namespace NativeSync.OwnedBytes

open Foundations

variable {T : Type}

/-- Every thread rests, and a sender sleeps although the channel is open and has room for its
message. -/
def Stranded (s : State T) : Prop :=
  s.core.Open ∧ (∀ t, s.threads t = .run .idle ∨ ∃ p, s.threads t = .wait .asleep p) ∧
  ∃ t h kind bytes message, s.threads t = .wait .asleep (.submit h kind bytes message) ∧
    s.core.ring.count < s.core.ring.capacity ∧
    bytes.length ≤ s.core.maxQueuedBytes - s.core.queuedBytes

/-- The assumptions on a step, and the lengths of the messages that are sent. -/
def Sends (Λ : Set ℕ) [Fintype T] [DecidableEq T] (s : State T) (a : Action T) (s' : State T) :
    Prop :=
  Assumed s a s' ∧ ∀ bytes ∈ a.bytes, bytes.data.length ∈ Λ

/-- How many messages of length `ℓ` fit the queue together. -/
def Limits.room (L : Limits) (ℓ : ℕ) : ℕ :=
  Nat.findGreatest (fun n => n * ℓ ≤ L.maxQueuedBytes) L.capacity

/-- All messages of these lengths, other than the ones that are too large, have the same room. -/
def SameRoom (L : Limits) (Λ : Set ℕ) : Prop :=
  ∀ ℓ ∈ Λ, ∀ ℓ' ∈ Λ, ℓ ≤ L.maxMessageBytes → ℓ' ≤ L.maxMessageBytes → L.room ℓ = L.room ℓ'

/-! ## Room -/

variable {L : Limits} {ℓ : ℕ}

theorem Limits.room_le (L : Limits) (ℓ : ℕ) : L.room ℓ ≤ L.capacity := Nat.findGreatest_le _

theorem Limits.room_mul_le (L : Limits) (ℓ : ℕ) : L.room ℓ * ℓ ≤ L.maxQueuedBytes :=
  Nat.findGreatest_spec (P := fun n => n * ℓ ≤ L.maxQueuedBytes) (Nat.zero_le _)
    (by rw [Nat.zero_mul]; exact Nat.zero_le _)

theorem Limits.lt_mul_of_room_lt {n : ℕ} (h : L.room ℓ < n) (hn : n ≤ L.capacity) :
    L.maxQueuedBytes < n * ℓ :=
  not_le.1 (Nat.findGreatest_is_greatest (P := fun n => n * ℓ ≤ L.maxQueuedBytes) h hn)

/-- The total of `n` messages each of which fits `k` times. -/
theorem mul_lengthSum_le {k B : ℤ} {ms : List Message} (h : ∀ m ∈ ms, k * m.length ≤ B) :
    k * lengthSum ms ≤ ms.length * B := by
  induction ms with
  | nil => simp
  | cons m ms ih =>
    have h₁ := h m List.mem_cons_self
    have h₂ := ih fun m' hm' => h m' (List.mem_cons_of_mem _ hm')
    rw [lengthSum_cons, List.length_cons, mul_add]
    push_cast
    linarith

/-- The total of `n` messages none of which fits `k` times. -/
theorem le_mul_lengthSum {k B : ℤ} {ms : List Message} (h : ∀ m ∈ ms, B ≤ k * m.length) :
    ms.length * B ≤ k * lengthSum ms := by
  induction ms with
  | nil => simp
  | cons m ms ih =>
    have h₁ := h m List.mem_cons_self
    have h₂ := ih fun m' hm' => h m' (List.mem_cons_of_mem _ hm')
    rw [lengthSum_cons, List.length_cons, mul_add]
    push_cast
    linarith

/-- With fewer messages queued than the common room, there is room for one more. -/
theorem CoreInv.fits_of_lt {core : Core} (h : CoreInv L core) {k : ℕ} (hk : k ≤ L.capacity)
    (hm : ∀ m ∈ core.ring.toList, k * m.data.length ≤ L.maxQueuedBytes)
    (hℓ : k * ℓ ≤ L.maxQueuedBytes) (hc : core.ring.count < k) : core.Fits ℓ := by
  refine ⟨by rw [h.capacity]; omega, (h.hasByteCapacity_iff _).2 ?_⟩
  have hsum : (k : ℤ) * lengthSum core.ring.toList ≤ core.ring.toList.length * L.maxQueuedBytes :=
    mul_lengthSum_le fun m hm' => by
      rw [(h.messages m hm').1]
      exact_mod_cast hm m hm'
  rw [RingBuffer.length_toList h.ring, ← h.queued] at hsum
  have hℓ' : (k : ℤ) * ℓ ≤ L.maxQueuedBytes := by exact_mod_cast hℓ
  have hc' : ((core.ring.count : ℤ) + 1) * L.maxQueuedBytes ≤ k * L.maxQueuedBytes :=
    mul_le_mul_of_nonneg_right (by omega) (by omega)
  have hkpos : (0 : ℤ) < k := by omega
  refine le_of_mul_le_mul_left ?_ hkpos
  linarith

/-- With at least as many messages queued as the common room, there is no room for one more. -/
theorem CoreInv.le_of_fits {core : Core} (h : CoreInv L core) {k : ℕ}
    (hm : ∀ m ∈ core.ring.toList, L.maxQueuedBytes < (k + 1) * m.data.length)
    (hℓ : L.maxQueuedBytes < (k + 1) * ℓ) (hf : core.Fits ℓ) : core.ring.count < k := by
  by_contra hc
  have hb := (h.hasByteCapacity_iff _).1 hf.2
  have hsum : (core.ring.toList.length : ℤ) * L.maxQueuedBytes ≤
      (k + 1) * lengthSum core.ring.toList :=
    le_mul_lengthSum fun m hm' => by
      rw [(h.messages m hm').1]
      exact_mod_cast (hm m hm').le
  rw [RingBuffer.length_toList h.ring, ← h.queued] at hsum
  have hℓ' : (L.maxQueuedBytes : ℤ) < (k + 1) * ℓ := by exact_mod_cast hℓ
  have hc' : ((k : ℤ) + 1) * L.maxQueuedBytes ≤ (core.ring.count + 1) * L.maxQueuedBytes :=
    mul_le_mul_of_nonneg_right (by omega) (by omega)
  have hk : ((k : ℤ) + 1) * (core.queuedBytes + ℓ) ≤ (k + 1) * L.maxQueuedBytes :=
    mul_le_mul_of_nonneg_left hb (by omega)
  linarith

/-! ## The lengths in use -/

/-- The message of the send that a thread at a point is in. -/
def Point.bytes : Point → Option Bytes
  | submit _ _ bytes _ => some bytes
  | copy _ _ bytes => some bytes
  | _ => none

/-- The messages in the queue and those being sent have lengths in `Λ`. -/
structure Lengths (Λ : Set ℕ) (s : State T) : Prop where
  queue : ∀ m ∈ s.core.ring.toList, m.data.length ∈ Λ
  points : ∀ t, ∀ bytes ∈ (s.threads t).point.bytes, bytes.data.length ∈ Λ

variable {Λ : Set ℕ} {s s' : State T}

theorem Lengths.ready (h : Lengths Λ s) {t : T} {p : Point} (ht : (s.threads t).Ready p) :
    ∀ bytes ∈ p.bytes, bytes.data.length ∈ Λ := by
  rw [← ht.point]
  exact h.points t

theorem Lengths.woken (h : Lengths Λ s) {f : T → Pc Point} (hw : Woken s.threads f) (t : T) :
    ∀ bytes ∈ (f t).point.bytes, bytes.data.length ∈ Λ := by
  rw [hw.point]
  exact h.points t

variable [DecidableEq T]

theorem Lengths.update (h : Lengths Λ s) {t : T} {x : Pc Point}
    (hx : ∀ bytes ∈ x.point.bytes, bytes.data.length ∈ Λ) (u : T) :
    ∀ bytes ∈ (Function.update s.threads t x u).point.bytes, bytes.data.length ∈ Λ :=
  forall_update (Q := fun _ (y : Pc Point) => ∀ bytes ∈ y.point.bytes, bytes.data.length ∈ Λ) hx
    (fun v _ => h.points v) u

theorem Move.lengths {b : Option Bytes} {e : List (Event T)} (hm : Move b s s' e) (h : Inv L s)
    (hb : ∀ bytes ∈ b, bytes.data.length ∈ Λ) (hl : Lengths Λ s) : Lengths Λ s' := by
  cases hm with
  | callSend t n kind bytes hb' ht hn =>
    exact ⟨hl.queue, hl.update fun x hx => hb x (by rw [hb']; exact hx)⟩
  | callRecv t block ht hr hu => exact ⟨hl.queue, hl.update nofun⟩
  | sendRefused t n kind bytes message code ht hlen hr => exact ⟨hl.queue, hl.update nofun⟩
  | sendSleep t n kind bytes message ht hlen hblock ho hf =>
    exact ⟨hl.queue, hl.update (hl.ready ht)⟩
  | sendCopy t n kind bytes ht hlen ho hf =>
    exact ⟨hl.queue, hl.update fun x hx => hl.ready ht x hx⟩
  | copied t n kind bytes ht =>
    exact ⟨hl.queue, hl.update fun x hx => hl.ready (.inl ht) x hx⟩
  | sent t n kind bytes m f ht hlen ho hf hs =>
    refine ⟨fun m' hm' => ?_, fun u x hx => ?_⟩
    · have hdata : m.data = bytes.data := ((h.ready ht).2 m rfl).1
      have hm'' : m' ∈ (s.core.enqueue m bytes.length).ring.toList := hm'
      rw [h.core.toList_enqueue hf m, List.mem_append, List.mem_singleton] at hm''
      rcases hm'' with hm'' | rfl
      · exact hl.queue m' hm''
      · rw [hdata]
        exact hl.ready ht bytes rfl
    · rw [(Woken.of_signalled hs).point] at hx
      exact hl.update (x := .run .idle) nofun u x hx
  | recvSleep t ht hcount ho => exact ⟨hl.queue, hl.update nofun⟩
  | recvNothing t block ht hcount hb => exact ⟨hl.queue, hl.update nofun⟩
  | received t block m f ht hcount hm hs =>
    refine ⟨fun m' hm' => hl.queue m' ?_, fun u x hx => ?_⟩
    · rw [h.core.toList_dequeue hcount hm]
      exact List.mem_cons_of_mem _ hm'
    · rw [(Woken.of_signalled hs).point] at hx
      exact hl.update (x := .run .idle) nofun u x hx
  | spurious t p ht =>
    refine ⟨hl.queue, hl.update fun x hx => hl.points t x ?_⟩
    rw [ht]
    exact hx
  | closed t op alive ht hop => exact ⟨hl.queue, hl.woken (woken_wakeAll _)⟩
  | share t n n' ht hn hn' => exact ⟨hl.queue, hl.points⟩
  | length t ht hr => exact hl
  | dropSender t n ht hn hu => exact ⟨hl.queue, hl.woken (woken_ite _ _)⟩
  | dropReceiver t ht hr hu => exact ⟨hl.queue, hl.woken (woken_ite _ _)⟩

/-! ## Messages with the same room strand nobody -/

section SameRoom

variable [Fintype T]

/-- What holds of a run all of whose messages have the room `k`. -/
structure RoomInv (L : Limits) (Λ : Set ℕ) (k : ℕ) (s : State T) : Prop where
  inv : Inv L s
  lengths : Lengths Λ s
  covered : Covered Point.cond .writable inserting (s.core.demand fun c => k - c) s.threads

theorem roomInv_of_exec {k : ℕ} (hk : ∀ ℓ ∈ Λ, ℓ ≤ L.maxMessageBytes → L.room ℓ = k)
    {es : List (Event T)} (h : Exec step (Sends Λ) (State.init L.core) es s) :
    RoomInv L Λ k s := by
  refine h.stateInvariant ⟨inv_init L, ⟨nofun, nofun⟩, NoSleeper.covered fun _ => rfl⟩
    fun {s a s' e} hI hs hG => ?_
  have hm := step_move hs hG.1.1 hG.1.2.1
  refine ⟨hm.inv hI.inv hG.1.2.2, hm.lengths hI.inv hG.2 hI.lengths,
    hm.covered hI.inv (fun c => by omega) (fun c => by omega)
      (fun t n kind bytes message ht hle hf => ?_) hI.covered⟩
  -- a sender that goes to sleep finds as many messages queued as the room
  have hle' : bytes.data.length ≤ L.maxMessageBytes := by
    unfold Bytes.length at hle
    omega
  have hroom := hk _ (hI.lengths.ready ht bytes rfl) hle'
  by_contra hc
  refine hf (hI.inv.core.fits_of_lt (k := k) (by rw [← hroom]; exact L.room_le _)
    (fun m hm => ?_) (by rw [← hroom]; exact L.room_mul_le _) (by omega))
  have hok := hI.inv.core.messages m hm
  have hlen : m.data.length ≤ L.maxMessageBytes := by
    have := hok.1
    have := hok.2
    omega
  rw [← hk _ (hI.lengths.queue m hm) hlen]
  exact L.room_mul_le _

omit [DecidableEq T] in
theorem not_stranded_of_roomInv {k : ℕ} (hk : ∀ ℓ ∈ Λ, ℓ ≤ L.maxMessageBytes → L.room ℓ = k)
    (h : RoomInv L Λ k s) : ¬Stranded s := by
  rintro ⟨ho, hrest, t, n, kind, bytes, message, ht, hc, hq⟩
  have hnone : num inserting s.threads = 0 := num_eq_zero.2 fun u => by
    rcases hrest u with hu | ⟨p, hu⟩ <;> rw [hu] <;> rfl
  have hcov := h.covered (num_pos.2 ⟨t, by rw [ht]; rfl⟩)
  rw [hnone, Core.demand_of_open _ ho.1] at hcov
  have hle := ((h.inv.threads t).2 _ _ ht).2
  have hcap := h.inv.core.capacity
  have hover : ∀ ℓ ∈ Λ, ℓ ≤ L.maxMessageBytes → L.maxQueuedBytes < (k + 1) * ℓ :=
    fun ℓ hℓ hℓ' => L.lt_mul_of_room_lt (by rw [hk ℓ hℓ hℓ']; omega) (by omega)
  have hlt := h.inv.core.le_of_fits (ℓ := bytes.data.length) (k := k)
    (fun m hm => hover _ (h.lengths.queue m hm) ?_)
    (hover _ (h.lengths.points t bytes (by rw [ht]; rfl)) ?_) ⟨by omega, decide_eq_true hq⟩
  · omega
  · have hok := h.inv.core.messages m hm
    have := hok.1
    have := hok.2
    omega
  · unfold Bytes.length at hle
    omega

end SameRoom

/-! ## Messages with different room strand a sender -/

section Strand

variable [Fintype T]

/-- A step that sends nothing. -/
theorem Sends.of_none {Λ : Set ℕ} {s s' : State T} {a : Action T}
    (hG : Assumed s a s') (hb : a.bytes = none) : Sends Λ s a s' := by
  refine ⟨hG, fun bytes hx => ?_⟩
  rw [hb] at hx
  cases hx

theorem submitLoop_fits {core : Core} {n : ℤ} (ho : core.Open) (hf : core.Fits n) (block : Bool)
    (message : Option Message) : submitLoop core n block message {} =
      match message with
      | none => { core, exit := .copy }
      | some m =>
        { core := core.enqueue m n, wakes := [.signal .readable], exit := .ret 0 0 none } := by
  have ho' := mt (Endpoints.not_open_iff _).2 (not_not.2 ho)
  have hf' := mt (Core.not_fits_iff core n).2 (not_not.2 hf)
  have hwait : ¬(block && !core.closed && core.receiverAlive &&
      (core.ring.count == core.ring.capacity || !core.hasByteCapacity n)) = true := by
    rw [Bool.and_eq_true]
    exact fun h => hf' h.2
  cases message <;>
    rw [submitLoop_ok, if_neg hwait, if_neg ho', if_neg (by simpa using hf.1),
      if_neg (by simp [hf.2])]

theorem submitLoop_sleep {core : Core} {n : ℤ} (ho : core.Open) (hf : ¬core.Fits n)
    (message : Option Message) :
    submitLoop core n true message {} = { core, exit := .sleep } := by
  rw [submitLoop_ok, if_pos]
  simp [ho.1, ho.2, (Core.not_fits_iff core n).1 hf]

theorem submit_ok {core : Core} {n : ℤ} (hlen : n ≤ core.maxMessageBytes) (block : Bool)
    (message : Option Message) :
    submit core n block message {} = submitLoop core n block message {} := by
  rw [submit, if_neg (by simp), if_neg (not_lt.2 hlen)]

/-- A state in which all threads rest and messages of the lengths `ls` are queued. -/
structure Filled (L : Limits) (ls : List ℕ) (s : State T) : Prop where
  inv : Inv L s
  opened : s.core.closed = false
  sender : 0 ∈ s.senders
  receiver : s.receiver = true
  idle : ∀ t, s.threads t = .run .idle
  queue : s.core.ring.toList.map (fun m => m.data.length) = ls

/-- A message of `ℓ` bytes. -/
def zeros (L : Limits) (ℓ : ℕ) (h : ℓ ≤ L.maxMessageBytes) : Bytes :=
  ⟨List.replicate ℓ 0, by
    have := L.message_le_queued
    have := L.maxQueuedBytes_le
    rw [List.length_replicate]
    omega⟩

theorem zeros_length (h : ℓ ≤ L.maxMessageBytes) : (zeros L ℓ h).length = ℓ := by
  simp [zeros, Bytes.length]

theorem zeros_mem (h : ℓ ≤ L.maxMessageBytes) (hℓ : ℓ ∈ Λ) :
    ∀ bytes ∈ some (zeros L ℓ h), bytes.data.length ∈ Λ := by
  rintro bytes ⟨⟩
  simpa [zeros] using hℓ

omit [DecidableEq T] [Fintype T] in
theorem Filled.count {ls : List ℕ} (h : Filled L ls s) : s.core.ring.count = ls.length := by
  rw [← h.queue, List.length_map, RingBuffer.length_toList h.inv.core.ring]

omit [DecidableEq T] [Fintype T] in
theorem Filled.queued {ls : List ℕ} (h : Filled L ls s) : s.core.queuedBytes = ls.sum := by
  rw [h.inv.core.queued, lengthSum_eq h.inv.core.messages, h.queue]

omit [DecidableEq T] [Fintype T] in
theorem Filled.fits_iff {ls : List ℕ} (h : Filled L ls s) :
    s.core.Fits ℓ ↔ ls.length ≠ L.capacity ∧ ls.sum + ℓ ≤ L.maxQueuedBytes := by
  rw [Core.Fits, h.inv.core.hasByteCapacity_iff, h.queued, h.count, h.inv.core.capacity]
  exact and_congr_right fun _ => by omega

theorem inv_of_sends {s₀ : State T} {es : List (Event T)} (h₀ : Inv L s₀)
    (h : Exec step (Sends Λ) s₀ es s) : Inv L s :=
  h.stateInvariant h₀ fun hI hs hG => (step_move hs hG.1.1 hG.1.2.1).inv hI hG.1.2.2

/-- A send into a channel with room: the four steps of `sync_owned_bytes_submit`. -/
theorem Filled.send {ls : List ℕ} (h : Filled L ls s) (t : T) (hℓ : ℓ ∈ Λ)
    (hle : ℓ ≤ L.maxMessageBytes) (hf : s.core.Fits ℓ) :
    ∃ es s', Exec step (Sends Λ) s es s' ∧ Filled L (ls ++ [ℓ]) s' := by
  have ho : s.core.Open := h.inv.open_iff.2 h.opened
  have hb : s.handles < 2147483648 := h.inv.counted.bound
  set bytes := zeros L ℓ hle with hbytes
  have hn : bytes.length = ℓ := zeros_length hle
  have hlen : bytes.length ≤ s.core.maxMessageBytes := by
    rw [hn, h.inv.core.maxMessage]
    omega
  rw [← hn] at hf
  set m := messageCopy s.copies bytes bytes.length with hm
  have e₁ : step s (.callSend t 0 .trySend bytes 0) =
      some (s.move t (.run (.submit 0 .trySend bytes none)), []) := by
    simp [step, h.idle t, h.sender]
  have e₂ : step (s.move t (.run (.submit 0 .trySend bytes none))) (.lock t {} none) =
      some (s.move t (.run (.copy 0 .trySend bytes)), []) := by
    simp [step, State.move, submit_ok hlen, submitLoop_fits ho hf, State.endSubmit]
  have e₃ : step (s.move t (.run (.copy 0 .trySend bytes))) (.copy t) =
      some ({ s.move t (.run (.submit 0 .trySend bytes (some m))) with copies := s.copies + 1 },
        [.copied s.copies]) := by
    simp [step, State.move, hm]
  have hno : ∀ u, (Function.update s.threads t (.run .idle) u).asleepOn Point.cond .readable =
      false :=
    NoSleeper.update (fun u => by rw [h.idle u]; rfl) rfl
  have e₄ : step { s.move t (.run (.submit 0 .trySend bytes (some m))) with
        copies := s.copies + 1 } (.lock t {} none) =
      some ({ s with
          core := s.core.enqueue m bytes.length
          threads := Function.update s.threads t (.run .idle)
          copies := s.copies + 1 },
        [.ret t (.send .trySend bytes)
          (SendKind.trySend.result (s.core.enqueue m bytes.length) bytes 0 0)]) := by
    simp [step, State.move, submit_ok hlen, submitLoop_fits ho hf, State.endSubmit, signal, hno]
  have hstart : Exec step (Sends Λ) s [] s := .start
  have hrun := (((hstart.step e₁ ⟨⟨rfl, rfl, hb⟩, zeros_mem hle hℓ⟩).step e₂
    (.of_none ⟨rfl, rfl, hb⟩ rfl)).step e₃ (.of_none ⟨rfl, rfl, hb⟩ rfl)).step e₄
    (.of_none ⟨rfl, rfl, hb⟩ rfl)
  refine ⟨_, _, hrun, inv_of_sends h.inv hrun, h.opened, h.sender, h.receiver,
    forall_update (Q := fun _ (y : Pc Point) => y = .run .idle) rfl fun u _ => h.idle u, ?_⟩
  have hdata : m.data.length = ℓ := by
    rw [hm, (messageCopy_ok _ _).1]
    simp [hbytes, zeros]
  show (s.core.enqueue m bytes.length).ring.toList.map _ = _
  rw [h.inv.core.toList_enqueue hf m, List.map_append, h.queue, List.map_singleton, hdata]

theorem exists_filled (ls : List ℕ) (t : T) (hls : ∀ ℓ ∈ ls, ℓ ∈ Λ ∧ ℓ ≤ L.maxMessageBytes)
    (hlen : ls.length ≤ L.capacity) (hsum : ls.sum ≤ L.maxQueuedBytes) :
    ∃ es s, Exec step (Sends Λ) (State.init (T := T) L.core) es s ∧ Filled L ls s := by
  induction ls using List.reverseRecOn with
  | nil =>
    exact ⟨[], _, .start, inv_init L, rfl, Finset.mem_singleton_self 0, rfl, fun _ => rfl, rfl⟩
  | append_singleton ls ℓ ih =>
    rw [List.length_append, List.length_singleton] at hlen
    rw [List.sum_append, List.sum_singleton] at hsum
    obtain ⟨es, s, hrun, hfill⟩ := ih (fun x hx => hls x (List.mem_append_left _ hx)) (by omega)
      (by omega)
    obtain ⟨hℓ, hle⟩ := hls ℓ (List.mem_append_right _ (List.mem_singleton_self ℓ))
    obtain ⟨es', s', hrun', hfill'⟩ := hfill.send t hℓ hle (hfill.fits_iff.2 ⟨by omega, hsum⟩)
    exact ⟨_, s', hrun.trans hrun', hfill'⟩

variable {t u : T} {bytes : Bytes}

/-- A blocking send into an open channel without room goes to sleep. -/
theorem exec_send_sleep (ht : s.threads t = .run .idle) (hh : 0 ∈ s.senders) (ho : s.core.Open)
    (hle : bytes.length ≤ s.core.maxMessageBytes) (hf : ¬s.core.Fits bytes.length)
    (hb : s.handles < 2147483648) (hℓ : bytes.data.length ∈ Λ) :
    Exec step (Sends Λ) s [] (s.move t (.wait .asleep (.submit 0 .send bytes none))) := by
  have e₁ : step s (.callSend t 0 .send bytes 0) =
      some (s.move t (.run (.submit 0 .send bytes none)), []) := by
    simp [step, ht, hh]
  have e₂ : step (s.move t (.run (.submit 0 .send bytes none))) (.lock t {} none) =
      some (s.move t (.wait .asleep (.submit 0 .send bytes none)), []) := by
    simp [step, State.move, submit_ok hle, SendKind.block, submitLoop_sleep ho hf, State.endSubmit]
  have hstart : Exec step (Sends Λ) s [] s := .start
  exact (hstart.step e₁ ⟨⟨rfl, rfl, hb⟩, fun b hb' => by cases hb'; exact hℓ⟩).step e₂
    (.of_none ⟨rfl, rfl, hb⟩ rfl)

/-- A woken sender that finds no room goes to sleep again. -/
theorem exec_resume_sleep (ht : s.threads t = .wait .notified (.submit 0 .send bytes none))
    (ho : s.core.Open) (hf : ¬s.core.Fits bytes.length) (hb : s.handles < 2147483648) :
    Exec step (Sends Λ) s [] (s.move t (.wait .asleep (.submit 0 .send bytes none))) := by
  have e : step s (.resume t {} none) =
      some (s.move t (.wait .asleep (.submit 0 .send bytes none)), []) := by
    simp [step, ht, submitWoken, SendKind.block, submitLoop_sleep ho hf, State.endSubmit]
  have hstart : Exec step (Sends Λ) s [] s := .start
  exact hstart.step e (.of_none ⟨rfl, rfl, hb⟩ rfl)

/-- A non-blocking receive takes the first message and wakes sender `u`. -/
theorem exec_tryRecv {m : Message} {p : Point} (ht : s.threads t = .run .idle)
    (hr : s.receiver = true) (hu : ∀ v, (s.threads v).point.receiving = false)
    (hc : s.core.ring.count ≠ 0) (hm : s.core.ring.slots s.core.ring.head = some m)
    (hsleep : s.threads u = .wait .asleep p) (hp : p.cond = some .writable)
    (hb : s.handles < 2147483648) :
    ∃ es, Exec step (Sends Λ) s es { s.move u (.wait .notified p) with
      core := s.core.dequeue m } := by
  have e₁ : step s (.callRecv t false) = some (s.move t (.run (.receive false)), []) := by
    rw [step, if_pos ⟨ht, hr, hu⟩]
  have hback : Function.update s.threads t (.run .idle) = s.threads := by
    rw [← ht, Function.update_eq_self]
  have e₂ : ∃ e, step (s.move t (.run (.receive false))) (.lock t {} (some u)) =
      some ({ s.move u (.wait .notified p) with core := s.core.dequeue m }, e) := by
    simp [step, State.move, receive, receiveLoop_ok, hc, hm, State.endReceive, signal, hback,
      hsleep, hp, Pc.notify]
  obtain ⟨e, e₂⟩ := e₂
  have hstart : Exec step (Sends Λ) s [] s := .start
  exact ⟨_, (hstart.step e₁ (.of_none ⟨rfl, rfl, hb⟩ rfl)).step e₂ (.of_none ⟨rfl, rfl, hb⟩ rfl)⟩

/-- Two senders sleep; a dequeue makes room for the first and wakes the second, which sleeps
again. -/
theorem Filled.strand {a b : ℕ} {ls : List ℕ} {s : State (Fin 3)} (h : Filled L (a :: ls) s)
    (ha : a ∈ Λ) (hb : b ∈ Λ) (hale : a ≤ L.maxMessageBytes) (hble : b ≤ L.maxMessageBytes)
    (hfa : ¬s.core.Fits a) (hfb : ¬s.core.Fits b) (hover : L.maxQueuedBytes < ls.sum + b) :
    ∃ es s', Exec step (Sends Λ) s es s' ∧ Stranded s' := by
  have ho : s.core.Open := h.inv.open_iff.2 h.opened
  have hbound : s.handles < 2147483648 := h.inv.counted.bound
  have hmax := h.inv.core.maxMessage
  have hla := zeros_length hale
  have hlb := zeros_length hble
  have hcount : s.core.ring.count ≠ 0 := by
    rw [h.count]
    exact Nat.succ_ne_zero _
  obtain ⟨m, hm, hl⟩ := RingBuffer.exists_pop h.inv.core.ring hcount
  have hqueued : (s.core.dequeue m).queuedBytes = ls.sum := by
    have hq := h.queue
    rw [hl, List.map_cons, List.cons.injEq] at hq
    have hsum := h.queued
    have hmlen := (h.inv.core.messages m (by rw [hl]; exact List.mem_cons_self)).1
    rw [List.sum_cons] at hsum
    show s.core.queuedBytes - m.length = _
    omega
  have hbudget : (s.core.dequeue m).maxQueuedBytes = L.maxQueuedBytes := h.inv.core.maxQueued
  have hsleep : ¬(s.core.dequeue m).Fits (zeros L b hble).length := by
    intro hf
    have := of_decide_eq_true hf.2
    omega
  -- thread 1 sends `a`, thread 2 sends `b`, thread 0 receives and wakes thread 2
  have r₁ : Exec step (Sends Λ) s [] _ := exec_send_sleep (t := 1) (h.idle 1) h.sender ho
    (by rw [hla]; omega) (by rwa [hla]) hbound (zeros_mem hale ha _ rfl)
  have r₂ : Exec step (Sends Λ) s ([] ++ []) _ := r₁.trans <|
    exec_send_sleep (t := 2) (by simp [State.move, h.idle 2]) h.sender ho
      (show (zeros L b hble).length ≤ s.core.maxMessageBytes by rw [hlb]; omega)
      (show ¬s.core.Fits (zeros L b hble).length by rwa [hlb]) hbound (zeros_mem hble hb _ rfl)
  obtain ⟨es, r₃⟩ := exec_tryRecv (Λ := Λ) (t := 0) (u := 2) (m := m)
    (s := (s.move 1 (.wait .asleep (.submit 0 .send (zeros L a hale) none))).move 2
      (.wait .asleep (.submit 0 .send (zeros L b hble) none)))
    (by simp [State.move, h.idle 0]) h.receiver
    (fun v => by
      match v with
      | 0 => simp [State.move, h.idle 0, Point.receiving]
      | 1 => rfl
      | 2 => rfl) hcount hm rfl rfl hbound
  have r₄ := (r₂.trans r₃).trans (exec_resume_sleep (t := 2) rfl ho hsleep hbound)
  refine ⟨_, _, r₄, ho, fun v => ?_, 1, 0, .send, zeros L a hale, none, rfl, ?_, ?_⟩
  · match v with
    | 0 => exact .inl (by simp [State.move, h.idle 0])
    | 1 => exact .inr ⟨_, rfl⟩
    | 2 => exact .inr ⟨_, rfl⟩
  · have := h.inv.core.ring.count_le
    show s.core.ring.count - 1 < s.core.ring.capacity
    omega
  · show (zeros L a hale).length ≤
      (s.core.dequeue m).maxQueuedBytes - (s.core.dequeue m).queuedBytes
    have hbud := h.inv.core.budget
    have hsum := h.queued
    rw [List.sum_cons] at hsum
    rw [hla, hbudget, hqueued]
    omega

end Strand

/-- Between `k` messages of length `a`, which fit, and `k` of length `b`, which do not, there is a
last number of longer messages that fit. -/
theorem exists_mix {a b k B : ℕ} (ha : k * a ≤ B) (hb : B < k * b) :
    ∃ j r, j + 1 + r = k ∧ (r + 1) * a + j * b ≤ B ∧ B < r * a + (j + 1) * b := by
  classical
  have hex : ∃ i r, i + r = k ∧ B < r * a + i * b := ⟨k, 0, rfl, by omega⟩
  obtain ⟨r, hr, hlt⟩ := Nat.find_spec hex
  obtain ⟨j, hj⟩ : ∃ j, Nat.find hex = j + 1 := by
    refine Nat.exists_eq_succ_of_ne_zero fun h0 => ?_
    rw [h0, Nat.zero_mul] at hlt
    have : r = k := by omega
    rw [this] at hlt
    omega
  rw [hj] at hr hlt
  refine ⟨j, r, hr, ?_, hlt⟩
  by_contra hgt
  exact Nat.find_min hex (m := j) (by omega) ⟨r + 1, by omega, by omega⟩

/-- If two messages differ in their room, a run strands the sender of the one with more room. -/
theorem exists_stranded {a b : ℕ} (ha : a ∈ Λ) (hb : b ∈ Λ) (hale : a ≤ L.maxMessageBytes)
    (hble : b ≤ L.maxMessageBytes) (hroom : L.room b < L.room a) :
    ∃ (es : List (Event (Fin 3))) (s : State (Fin 3)),
      Exec step (Sends Λ) (State.init L.core) es s ∧ Stranded s := by
  have hcap := L.room_le a
  have hover := L.lt_mul_of_room_lt hroom hcap
  obtain ⟨j, r, hk, hfit, hnot⟩ := exists_mix (L.room_mul_le a) hover
  have hab : a < b := by
    have := (L.room_mul_le a).trans_lt hover
    exact lt_of_mul_lt_mul_left this (Nat.zero_le _)
  have hsum : (a :: (List.replicate r a ++ List.replicate j b)).sum = (r + 1) * a + j * b := by
    simp only [List.sum_cons, List.sum_append, List.sum_replicate_nat]
    ring
  have hlen : (a :: (List.replicate r a ++ List.replicate j b)).length = L.room a := by
    simp only [List.length_cons, List.length_append, List.length_replicate]
    omega
  have hmem : ∀ ℓ ∈ a :: (List.replicate r a ++ List.replicate j b),
      ℓ ∈ Λ ∧ ℓ ≤ L.maxMessageBytes := by
    intro ℓ hℓ
    simp only [List.mem_cons, List.mem_append, List.mem_replicate] at hℓ
    rcases hℓ with rfl | ⟨-, rfl⟩ | ⟨-, rfl⟩
    · exact ⟨ha, hale⟩
    · exact ⟨ha, hale⟩
    · exact ⟨hb, hble⟩
  obtain ⟨es, s, hrun, hfill⟩ := exists_filled (T := Fin 3) _ 0 hmem (hlen ▸ hcap) (hsum ▸ hfit)
  have htail : L.maxQueuedBytes < (List.replicate r a ++ List.replicate j b).sum + b := by
    rw [List.sum_append, List.sum_replicate_nat, List.sum_replicate_nat]
    rw [Nat.succ_mul] at hnot
    omega
  have hfb : ¬s.core.Fits b := fun hf => by
    have := (hfill.fits_iff.1 hf).2
    rw [List.sum_cons] at this
    omega
  have hfa : ¬s.core.Fits a := fun hf => by
    obtain ⟨hne, hle⟩ := hfill.fits_iff.1 hf
    rw [hlen] at hne
    have hlt := L.lt_mul_of_room_lt (n := L.room a + 1) (Nat.lt_succ_self _) (by omega)
    have hmul : j * a ≤ j * b := Nat.mul_le_mul_left _ hab.le
    have hexp : (L.room a + 1) * a = (r + 1) * a + j * a + a := by
      rw [← hk]
      ring
    omega
  obtain ⟨es', s', hrun', hstr⟩ := hfill.strand ha hb hale hble hfa hfb htail
  exact ⟨_, s', hrun.trans hrun', hstr⟩

/-- **Nobody is stranded exactly when all messages have the same room.** -/
theorem owned_bytes_not_stranded_iff (L : Limits) (Λ : Set ℕ) :
    (∀ (T : Type) [Fintype T] [DecidableEq T] (es : List (Event T)) (s : State T),
      Exec step (Sends Λ) (State.init L.core) es s → ¬Stranded s) ↔ SameRoom L Λ := by
  constructor
  · intro h ℓ hℓ ℓ' hℓ' hle hle'
    rcases lt_trichotomy (L.room ℓ) (L.room ℓ') with hlt | heq | hgt
    · obtain ⟨es, s, hrun, hs⟩ := exists_stranded hℓ' hℓ hle' hle hlt
      exact absurd hs (h _ es s hrun)
    · exact heq
    · obtain ⟨es, s, hrun, hs⟩ := exists_stranded hℓ hℓ' hle hle' hgt
      exact absurd hs (h _ es s hrun)
  · intro h T _ _ es s hrun
    by_cases hex : ∃ ℓ ∈ Λ, ℓ ≤ L.maxMessageBytes
    · obtain ⟨ℓ, hℓ, hle⟩ := hex
      have hk : ∀ ℓ' ∈ Λ, ℓ' ≤ L.maxMessageBytes → L.room ℓ' = L.room ℓ :=
        fun ℓ' hℓ' hle' => h ℓ' hℓ' ℓ hℓ hle' hle
      exact not_stranded_of_roomInv hk (roomInv_of_exec hk hrun)
    · -- no message is ever short enough to wait
      have hk : ∀ ℓ' ∈ Λ, ℓ' ≤ L.maxMessageBytes → L.room ℓ' = 0 :=
        fun ℓ' hℓ' hle' => absurd ⟨ℓ', hℓ', hle'⟩ hex
      exact not_stranded_of_roomInv hk (roomInv_of_exec hk hrun)

/-- **A sender is stranded**: of two sleepers whose messages of two bytes both fit the emptied
queue, the dequeue of a message of four bytes wakes one. -/
theorem owned_bytes_stranded_sender :
    ∃ (es : List (Event (Fin 3))) (s : State (Fin 3)),
      Exec step Assumed (State.init fourBytes.core) es s ∧ Stranded s := by
  obtain ⟨es, s, h, ht⟩ := Exec.exists_of_run step Assumed (State.init (T := Fin 3) fourBytes.core)
    (oneSignal ++ [.resume 1 {} none, .copy 1, .lock 1 {} none])
    (fun s _ => decide (s.core.closed = false ∧ s.core.receiverAlive = true ∧
      s.threads 0 = .run .idle ∧ s.threads 1 = .run .idle ∧
      s.threads 2 = .wait .asleep (.submit 0 .sendChecked ⟨[7, 8], by decide⟩ none) ∧
      s.core.ring.count < s.core.ring.capacity ∧ 2 ≤ s.core.maxQueuedBytes - s.core.queuedBytes))
    (by decide +kernel)
  obtain ⟨ho, ha, h₀, h₁, h₂, hc, hq⟩ := of_decide_eq_true ht
  refine ⟨es, s, h, ⟨ho, ha⟩, fun t => ?_, 2, 0, .sendChecked, _, none, h₂, hc, hq⟩
  match t with
  | 0 => exact .inl h₀
  | 1 => exact .inl h₁
  | 2 => exact .inr ⟨_, h₂⟩

end NativeSync.OwnedBytes
