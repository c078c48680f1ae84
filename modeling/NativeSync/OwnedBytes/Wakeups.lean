import NativeSync.OwnedBytes.Invariant

/-!
# The OwnedBytes channel: who may sleep

A send that finds no room sleeps on `writable`, a receive that finds nothing on `readable`. Every
dequeue signals `writable` once, every enqueue signals `readable` once, and every way of closing
the channel wakes all sleepers of both.

* `Awake`: nobody sleeps once the channel is closed, and the receiver does not sleep while a
  message is queued. There is one receiver, so that a single signal wakes all of them.
* A woken sender may find no room for its own message and sleep again, so the signals to the
  senders are counted. `Move.covered` is the general law: a demand for senders that depends on the
  number of queued messages, goes up by at most one with a dequeue, goes down with an enqueue and
  is zero whenever a sender goes to sleep, stays covered by the blocking senders that are on their
  way to insert (`inserting`).

An empty queue has room for every message, so the demand for one sender while the queue is empty
is such a demand.
-/

namespace NativeSync.OwnedBytes

open Foundations

/-- The thread is a blocking sender on its way to insert: it has been notified or has woken up, it
copies its message, or it comes back with the copy. -/
def inserting : Pc Point → Bool
  | .run (.submit _ kind _ (some _)) => kind.block
  | .run (.copy _ kind _) => kind.block
  | .wait .notified (.submit _ kind _ _) => kind.block
  | .wait .spurious (.submit _ kind _ _) => kind.block
  | _ => false

/-- The demand for senders of an open channel, `need` of the number of queued messages. -/
def Core.demand (core : Core) (need : ℕ → ℕ) : ℕ :=
  if core.closed then 0 else need core.ring.count

theorem Core.demand_of_closed {core : Core} (need : ℕ → ℕ) (h : core.closed = true) :
    core.demand need = 0 := if_pos h

theorem Core.demand_of_open {core : Core} (need : ℕ → ℕ) (h : core.closed = false) :
    core.demand need = need core.ring.count := by
  rw [Core.demand, h]
  rfl

variable {T : Type} {L : Limits} {s s' : State T} {t : T}

/-- A sender on its way to insert blocks and has a message that is not too large. -/
theorem Inv.of_inserting (h : Inv L s) {n : ℕ} {kind : SendKind} {bytes : Bytes}
    {message : Option Message} (ht : (s.threads t).Ready (.submit n kind bytes message))
    (hi : inserting (s.threads t) = true) :
    kind.block = true ∧ bytes.length ≤ L.maxMessageBytes := by
  rcases ht with ht | ⟨w, -, ht⟩
  · have hp := h.ready (.inl ht)
    rw [ht] at hi
    cases message with
    | none => cases hi
    | some m => exact ⟨hi, (hp.2 m rfl).2.2⟩
  · exact (h.threads t).2 _ _ ht

theorem not_inserting_of_ready {block : Bool} (ht : (s.threads t).Ready (.receive block)) :
    inserting (s.threads t) = false := by
  rcases ht with ht | ⟨w, hw, ht⟩ <;> rw [ht]
  · rfl
  · cases w <;> rfl

section Demand

variable [Fintype T] [DecidableEq T] {need : ℕ → ℕ}

/-- **The demand for senders stays covered.** -/
theorem Move.covered {b : Option Bytes} {e : List (Event T)} (hm : Move b s s' e) (h : Inv L s)
    (henq : ∀ c, need (c + 1) ≤ need c - 1) (hdeq : ∀ c, need c ≤ need (c + 1) + 1)
    (hsleep : ∀ t n kind bytes message, (s.threads t).Ready (.submit n kind bytes message) →
      bytes.length ≤ L.maxMessageBytes → ¬s.core.Fits bytes.length → need s.core.ring.count = 0)
    (hc : Covered Point.cond .writable inserting (s.core.demand need) s.threads) :
    Covered Point.cond .writable inserting (s'.core.demand need) s'.threads := by
  cases hm with
  | callSend t n kind bytes hb ht hn => exact hc.update rfl (by rw [ht]; rfl)
  | callRecv t block ht hr hu => exact hc.update rfl (by rw [ht]; rfl)
  | sendRefused t n kind bytes message code ht hlen hr =>
    cases hi : inserting (s.threads t) with
    | false => exact hc.update rfl (by rw [hi]; rfl)
    | true =>
      -- a sender on its way to insert is refused only by a closed channel
      obtain ⟨hblock, hle⟩ := h.of_inserting ht hi
      have hclosed : s.core.closed = true := by
        cases hr with
        | tooLarge hl => rw [h.core.maxMessage] at hl; omega
        | closed hc' => rwa [Inv.open_iff h, Bool.not_eq_false] at hc'
        | full _ hb _ => rw [hb] at hblock; cases hblock
        | overBudget _ hb _ _ => rw [hb] at hblock; cases hblock
      show Covered _ _ _ (s.core.demand need) _
      rw [Core.demand_of_closed need hclosed]
      exact covered_zero _
  | sendSleep t n kind bytes message ht hlen hblock ho hf =>
    show Covered _ _ _ (s.core.demand need) _
    rw [Core.demand_of_open need ho.1, hsleep t n kind bytes message ht (h.length_le ht hlen) hf]
    exact covered_zero _
  | sendCopy t n kind bytes ht hlen ho hf =>
    refine hc.update rfl ?_
    cases hi : inserting (s.threads t) with
    | false => exact Nat.add_le_add_left (Nat.zero_le _) _
    | true =>
      show s.core.demand need + _ ≤ s.core.demand need + kind.block.toNat
      rw [(h.of_inserting ht hi).1]
  | copied t n kind bytes ht => exact hc.update rfl (by rw [ht]; rfl)
  | sent t n kind bytes m f ht hlen ho hf hs =>
    have hd : Core.demand (s.core.enqueue m bytes.length) need = need (s.core.ring.count + 1) :=
      Core.demand_of_open need ho.1
    rw [Core.demand_of_open need ho.1] at hc
    show Covered _ _ _ (Core.demand (s.core.enqueue m bytes.length) need) f
    rw [hd]
    have hle := henq s.core.ring.count
    have hu : Covered Point.cond .writable inserting (need (s.core.ring.count + 1))
        (Function.update s.threads t (.run .idle)) := by
      by_cases h0 : need (s.core.ring.count + 1) = 0
      · rw [h0]
        exact covered_zero _
      · refine hc.update rfl ?_
        have := Bool.toNat_le (inserting (s.threads t))
        omega
    exact hu.signalled_same hs fun p hp => by cases p <;> simp_all [Point.cond, inserting]
  | recvSleep t ht hcount ho => exact hc.update rfl (by rw [not_inserting_of_ready ht]; rfl)
  | recvNothing t block ht hcount hb => exact hc.update rfl (by rw [not_inserting_of_ready ht]; rfl)
  | received t block m f ht hcount hm hs =>
    have hu : Covered Point.cond .writable inserting (s.core.demand need)
        (Function.update s.threads t (.run .idle)) :=
      hc.update rfl (by rw [not_inserting_of_ready ht]; rfl)
    refine (hu.signalled hs fun u p hp hw => ?_).mono ?_
    · by_cases hut : u = t
      · subst hut
        simp at hp
      · rw [Function.update_of_ne hut] at hp
        have hok := (h.threads u).2 _ _ hp
        cases p with
        | submit n kind bytes message => exact ⟨rfl, hok.1⟩
        | _ => cases hw
    · unfold Core.demand
      obtain ⟨c, hc'⟩ := Nat.exists_eq_succ_of_ne_zero hcount
      simp only [Core.dequeue, RingBuffer.count_pop, hc', Nat.succ_eq_add_one, Nat.add_sub_cancel]
      split_ifs
      · omega
      · exact hdeq c
  | spurious t p ht => exact hc.update rfl (by rw [ht]; exact Nat.le_add_right _ _)
  | closed t op alive ht hop =>
    show Covered _ _ _ (Core.demand _ need) _
    rw [Core.demand_of_closed need rfl]
    exact covered_zero _
  | share t n n' ht hn hn' => exact hc
  | length t ht hr => exact hc
  | dropSender t n ht hn hu =>
    show Covered _ _ _ (Core.demand s.core.dropSender need) _
    by_cases hlast : s.core.dropSender.senders = 0
    · have hclosed : s.core.dropSender.closed = true := by
        show (s.core.closed || decide (s.core.dropSender.senders = 0)) = true
        simp [hlast]
      rw [Core.demand_of_closed need hclosed]
      exact covered_zero _
    · have hsame : s.core.dropSender.closed = s.core.closed := by
        show (s.core.closed || decide (s.core.dropSender.senders = 0)) = s.core.closed
        simp [hlast]
      simp only [if_neg hlast, Core.demand, hsame]
      exact hc
  | dropReceiver t ht hr hu =>
    have hclosed : s.core.dropReceiver.closed = true := h.closed_dropReceiver
    show Covered _ _ _ (Core.demand s.core.dropReceiver need) _
    rw [Core.demand_of_closed need hclosed]
    exact covered_zero _

end Demand

/-! ## Closing and receiving -/

/-- Who is awake: everybody once the channel is closed, the receiver while a message is queued. -/
structure Awake (s : State T) : Prop where
  closed : s.core.closed = true → ∀ c, NoSleeper Point.cond c s.threads
  readable : s.core.ring.count ≠ 0 → NoSleeper Point.cond .readable s.threads

theorem Awake.of_wakeAll {core : Core} {f : T → Pc Point} {senders : Finset ℕ}
    {receiver freed : Bool} {copies : ℕ} :
    Awake { core, threads := wakeAll Point.cond f, senders, receiver, copies, freed } :=
  ⟨fun _ c => noSleeper_wakeAll f c, fun _ => noSleeper_wakeAll f _⟩

theorem Point.receiving_of_cond {p : Point} (h : p.cond = some .readable) : p.receiving = true := by
  cases p <;> simp_all [Point.cond, Point.receiving]

variable [DecidableEq T]

/-- A move of one thread that leaves the core alone, to where it does not sleep. -/
theorem Awake.move (h : Awake s) {x : Pc Point}
    (hx : ∀ c, x.asleepOn Point.cond c = false) : Awake (s.move t x) :=
  ⟨fun hc c => (h.closed hc c).update (hx c), fun hc => (h.readable hc).update (hx _)⟩

theorem Move.awake {b : Option Bytes} {e : List (Event T)} (hm : Move b s s' e) (h : Inv L s)
    (ha : Awake s) : Awake s' := by
  cases hm with
  | callSend t n kind bytes hb ht hn => exact ha.move fun _ => rfl
  | callRecv t block ht hr hu => exact ha.move fun _ => rfl
  | sendRefused t n kind bytes message code ht hlen hr => exact ha.move fun _ => rfl
  | sendSleep t n kind bytes message ht hlen hblock ho hf =>
    refine ⟨fun hc => ?_, fun hc => (ha.readable hc).update rfl⟩
    have hopen : s.core.closed = true := hc
    rw [ho.1] at hopen
    cases hopen
  | sendCopy t n kind bytes ht hlen ho hf => exact ha.move fun _ => rfl
  | copied t n kind bytes ht =>
    exact ⟨fun hc c => (ha.closed hc c).update rfl, fun hc => (ha.readable hc).update rfl⟩
  | sent t n kind bytes m f ht hlen ho hf hs =>
    refine ⟨fun hc => ?_, fun _ => ?_⟩
    · have hopen : s.core.closed = true := hc
      rw [ho.1] at hopen
      cases hopen
    · -- one receiver, so that the signal leaves no sleeper
      refine hs.noSleeper fun u v hu hv => ?_
      have hrecv : ∀ w, (Function.update s.threads t (.run .idle) w).asleepOn Point.cond
          .readable = true → (s.threads w).point.receiving = true := by
        intro w hw
        obtain ⟨p, hp, hcond⟩ := (Pc.asleepOn_iff _).1 hw
        by_cases hwt : w = t
        · subst hwt
          simp at hp
        · rw [Function.update_of_ne hwt] at hp
          rw [hp]
          exact Point.receiving_of_cond hcond
      exact h.single u v (hrecv u hu) (hrecv v hv)
  | recvSleep t ht hcount ho =>
    refine ⟨fun hc => ?_, fun hc => absurd hcount hc⟩
    have hopen : s.core.closed = true := hc
    rw [ho] at hopen
    cases hopen
  | recvNothing t block ht hcount hb => exact ha.move fun _ => rfl
  | received t block m f ht hcount hm hs =>
    have hw := Woken.of_signalled hs
    exact ⟨fun hc c => ((ha.closed hc c).update rfl).woken hw,
      fun _ => ((ha.readable hcount).update rfl).woken hw⟩
  | spurious t p ht => exact ha.move fun _ => rfl
  | closed t op alive ht hop => exact .of_wakeAll
  | share t n n' ht hn hn' => exact ⟨ha.closed, ha.readable⟩
  | length t ht hr => exact ha
  | dropSender t n ht hn hu =>
    by_cases hlast : s.core.dropSender.senders = 0
    · simp only [if_pos hlast]
      exact .of_wakeAll
    · simp only [if_neg hlast]
      refine ⟨fun hc => ha.closed ?_, ha.readable⟩
      have hc' : (s.core.closed || decide (s.core.dropSender.senders = 0)) = true := hc
      simpa [hlast] using hc'
  | dropReceiver t ht hr hu =>
    cases halive : s.core.receiverAlive with
    | true => simpa only [if_true] using .of_wakeAll
    | false =>
      have hw := ha.closed (h.core.alive halive)
      exact ⟨fun _ => hw, fun _ => hw _⟩

/-! ## Runs -/

variable [Fintype T]

/-- The demand for one sender while the queue is empty. -/
def needOne (count : ℕ) : ℕ := if count = 0 then 1 else 0

theorem awake_of_exec {es : List (Event T)} (h : Exec step Assumed (State.init L.core) es s) :
    Awake s :=
  (h.stateInvariant (I := fun s => Inv L s ∧ Awake s)
    ⟨inv_init L, ⟨fun _ _ _ => rfl, fun _ _ => rfl⟩⟩ fun ⟨hI, ha⟩ hs hG =>
      have hm := step_move hs hG.1 hG.2.1
      ⟨hm.inv hI hG.2.2, hm.awake hI ha⟩).2

theorem needOne_covered {es : List (Event T)} (h : Exec step Assumed (State.init L.core) es s) :
    Covered Point.cond .writable inserting (s.core.demand needOne) s.threads := by
  refine (h.stateInvariant (I := fun s => Inv L s ∧
    Covered Point.cond .writable inserting (s.core.demand needOne) s.threads)
    ⟨inv_init L, NoSleeper.covered fun _ => rfl⟩ fun {s a s' e} ⟨hI, hc⟩ hs hG => ?_).2
  have hm := step_move hs hG.1 hG.2.1
  refine ⟨hm.inv hI hG.2.2, hm.covered hI (fun c => ?_) (fun c => ?_)
    (fun t n kind bytes message ht hle hf => ?_) hc⟩
  · simp [needOne]
  · unfold needOne
    split_ifs <;> omega
  · exact if_neg fun h0 => hf (hI.core.fits_of_empty h0 hle)

/-- The operation of a thread at a point is a blocking send. -/
def Point.blockingSend : Point → Bool
  | submit _ kind _ _ => kind.block
  | copy _ kind _ => kind.block
  | _ => false

/-- **No deadlock.** While the channel is open and empty, a sleeping sender has another blocking
sender on its way to insert; the receiver does not sleep while a message is queued; nobody sleeps
once the channel is closed; and in no state do all threads rest, a sender and the receiver
asleep. -/
theorem owned_bytes_no_deadlock (L : Limits) {es : List (Event T)} {s : State T}
    (h : Exec step Assumed (State.init L.core) es s) :
    (∀ t, s.core.closed = false → s.core.ring.count = 0 →
      (s.threads t).asleepOn Point.cond .writable = true →
      ∃ u, u ≠ t ∧ (s.threads u).point.blockingSend = true ∧
        inserting (s.threads u) = true) ∧
    (∀ t, (s.threads t).asleepOn Point.cond .readable = true → s.core.ring.count = 0) ∧
    (s.core.closed = true → ∀ t c, (s.threads t).asleepOn Point.cond c = false) ∧
    ¬((∀ t, s.threads t = .run .idle ∨ ∃ p, s.threads t = .wait .asleep p) ∧
      (∃ t, (s.threads t).asleepOn Point.cond .writable = true) ∧
      ∃ t, (s.threads t).asleepOn Point.cond .readable = true) := by
  have ha := awake_of_exec h
  have hclosed : s.core.closed = true → ∀ t c, (s.threads t).asleepOn Point.cond c = false :=
    fun hc t c => ha.closed hc c t
  have hreadable : ∀ t, (s.threads t).asleepOn Point.cond .readable = true →
      s.core.ring.count = 0 := by
    intro t ht
    by_contra hc
    rw [ha.readable hc t] at ht
    cases ht
  have hwritable : ∀ t, s.core.closed = false → s.core.ring.count = 0 →
      (s.threads t).asleepOn Point.cond .writable = true →
      ∃ u, u ≠ t ∧ (s.threads u).point.blockingSend = true ∧ inserting (s.threads u) = true := by
    intro t ho hc ht
    have hcov := needOne_covered h (num_pos.2 ⟨t, ht⟩)
    rw [Core.demand_of_open _ ho, hc] at hcov
    obtain ⟨u, hu⟩ := num_pos.1 hcov
    refine ⟨u, fun hut => ?_, ?_, hu⟩
    · obtain ⟨p, hp, -⟩ := (Pc.asleepOn_iff _).1 ht
      rw [hut, hp] at hu
      cases hu
    · generalize s.threads u = x at hu
      rcases x with (_ | ⟨_, _, _, _ | _⟩ | _ | _) | ⟨_ | _ | _, _ | _ | _ | _⟩ <;>
        first | exact hu | cases hu
  refine ⟨hwritable, hreadable, hclosed, fun ⟨hrest, ⟨t, ht⟩, u, hu⟩ => ?_⟩
  cases hc : s.core.closed with
  | true =>
    rw [hclosed hc] at ht
    cases ht
  | false =>
    obtain ⟨v, -, -, hv⟩ := hwritable t hc (hreadable u hu) ht
    rcases hrest v with hv' | ⟨p, hv'⟩ <;> rw [hv'] at hv <;> cases hv

/-- A message of four bytes is queued, two senders of two bytes sleep, and the message is
received: the signal goes to the first of them. -/
def oneSignal : List (Action (Fin 3)) :=
  [.callSend 0 0 .trySend ⟨[1, 2, 3, 4], by decide⟩ 0, .lock 0 {} none, .copy 0, .lock 0 {} none,
    .callSend 1 0 .send ⟨[5, 6], by decide⟩ 0, .lock 1 {} none,
    .callSend 2 0 .sendChecked ⟨[7, 8], by decide⟩ 0, .lock 2 {} none,
    .callRecv 0 false, .lock 0 {} (some 1)]

theorem owned_bytes_no_deadlock_one_signal :
    ∃ (es : List (Event (Fin 3))) (s : State (Fin 3)),
      Exec step Assumed (State.init fourBytes.core) es s ∧ s.core.closed = false ∧
      s.core.ring.count = 0 ∧ (s.threads 2).asleepOn Point.cond .writable = true ∧
      ∃ u, u ≠ 2 ∧ (s.threads u).point.blockingSend = true ∧ inserting (s.threads u) = true := by
  obtain ⟨es, s, h, ht⟩ := Exec.exists_of_run step Assumed (State.init (T := Fin 3) fourBytes.core)
    oneSignal (fun s _ => !s.core.closed && s.core.ring.count == 0 &&
      (s.threads 2).asleepOn Point.cond .writable) (by decide +kernel)
  simp only [Bool.and_eq_true, Bool.not_eq_true', beq_iff_eq] at ht
  obtain ⟨⟨ho, hc⟩, ha⟩ := ht
  exact ⟨es, s, h, ho, hc, ha, (owned_bytes_no_deadlock fourBytes h).1 2 ho hc ha⟩

end NativeSync.OwnedBytes
