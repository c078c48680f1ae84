import NativeSync.Channel.Moves

/-!
# The generic channel loses no wake-up

Every enqueue fills one slot and signals `readable` once; every dequeue frees one slot and signals
`writable` once. So the free slots of an open channel are covered by the senders that have been
notified and have not resumed, as long as somebody sleeps on `writable`, and the queued values by
the notified receivers. A slot may be taken by a sender that never slept, and a sender may wake up
without having been notified; both only lower the demand. Once the channel is closed, nobody sleeps.
-/

namespace NativeSync.Channel

open Foundations

variable {α T : Type} {n : ℕ} {s s' : State α T} {e : List (Event α T)} {t : T}

/-- The demand for senders: the free slots of an open channel. -/
def Core.freeSlots (core : Core α) : ℕ :=
  if core.closed then 0 else core.ring.capacity - core.ring.count

theorem Core.freeSlots_of_closed {core : Core α} (h : core.closed = true) : core.freeSlots = 0 :=
  if_pos h

theorem Core.freeSlots_of_full {core : Core α} (h : core.ring.count = core.ring.capacity) :
    core.freeSlots = 0 := by
  unfold Core.freeSlots
  split_ifs
  · rfl
  · rw [h, Nat.sub_self]

variable [Fintype T]

/-- No wake-up is lost. -/
structure Awake (s : State α T) : Prop where
  writable : Covered Point.cond .writable (Pc.notifiedOn Point.cond .writable) s.core.freeSlots
    s.threads
  readable : Covered Point.cond .readable (Pc.notifiedOn Point.cond .readable) s.core.ring.count
    s.threads
  closed : s.core.closed = true → ∀ c, NoSleeper Point.cond c s.threads

theorem Awake.of_wakeAll {core : Core α} {f : T → Pc (Point α)} {senders : Finset ℕ}
    {receiver freed : Bool} {boxes : ℕ} :
    Awake { core, threads := wakeAll Point.cond f, senders, receiver, boxes, freed } :=
  ⟨(noSleeper_wakeAll f _).covered, (noSleeper_wakeAll f _).covered, fun _ => noSleeper_wakeAll f⟩

variable [DecidableEq T]

/-- **A move loses no wake-up.** -/
theorem Move.awake (hm : Move s s' e) (h : Inv n s) (ha : Awake s) : Awake s' := by
  cases hm with
  | callSend t k kind v ht hk =>
    have hc : ∀ c, Point.cond (s.threads t).point ≠ some c := by
      intro c
      rw [ht]
      exact nofun
    exact ⟨ha.writable.pass rfl (hc _), ha.readable.pass rfl (hc _), fun hcl c =>
      (ha.closed hcl c).update rfl⟩
  | callRecv t block ht hr =>
    have hc : ∀ c, Point.cond (s.threads t).point ≠ some c := by
      intro c
      rw [ht]
      exact nofun
    exact ⟨ha.writable.pass rfl (hc _), ha.readable.pass rfl (hc _), fun hcl c =>
      (ha.closed hcl c).update rfl⟩
  | sendClosed t k kind m ht ho =>
    rw [h.open_iff, Bool.not_eq_false] at ho
    refine ⟨?_, ha.readable.pass rfl (by rw [ht.point]; exact nofun), fun hcl c =>
      (ha.closed hcl c).update rfl⟩
    exact ((ha.closed ho _).update rfl).covered
  | sendFull t k m ht ho hf =>
    refine ⟨?_, ha.readable.pass rfl (by rw [ht.point]; exact nofun), fun hcl c =>
      (ha.closed hcl c).update rfl⟩
    change Covered _ _ _ s.core.freeSlots _
    rw [Core.freeSlots_of_full hf]
    exact covered_zero _
  | sendSleep t k m ht ho hf =>
    refine ⟨?_, ha.readable.pass rfl (by rw [ht.point]; exact nofun), fun hcl => ?_⟩
    · change Covered _ _ _ s.core.freeSlots _
      rw [Core.freeSlots_of_full hf]
      exact covered_zero _
    · exact absurd (ho.1.symm.trans hcl) nofun
  | sent t k kind m f ht ho hf hs =>
    have hle : (s.core.enqueue m).freeSlots ≤ s.core.freeSlots - 1 := by
      simp only [Core.freeSlots, Core.enqueue, ho.1, Bool.false_eq_true, if_false,
        RingBuffer.capacity_push, RingBuffer.count_push]
      omega
    refine ⟨(ha.writable.leave rfl hle).signal_other hs nofun, ?_, fun hcl => ?_⟩
    · exact (ha.readable.pass rfl (by rw [ht.point]; exact nofun)).signal_notified hs
    · exact absurd (ho.1.symm.trans hcl) nofun
  | recvSleep t ht hc ho =>
    refine ⟨ha.writable.pass rfl (by rw [ht.point]; exact nofun), ?_, fun hcl => ?_⟩
    · change Covered _ _ _ s.core.ring.count _
      rw [hc]
      exact covered_zero _
    · exact absurd (ho.symm.trans hcl) nofun
  | recvNothing t block ht hc hblock =>
    refine ⟨ha.writable.pass rfl (by rw [ht.point]; exact nofun), ?_, fun hcl c =>
      (ha.closed hcl c).update rfl⟩
    change Covered _ _ _ s.core.ring.count _
    rw [hc]
    exact covered_zero _
  | received t block m f ht hc hm hs =>
    have hw := Woken.of_signalled hs
    have hle : s.core.dequeue.freeSlots ≤ s.core.freeSlots + 1 := by
      cases hcl : s.core.closed
      · simp only [Core.freeSlots, Core.dequeue, hcl, Bool.false_eq_true, if_false,
          RingBuffer.capacity_pop, RingBuffer.count_pop]
        omega
      · have hz : s.core.dequeue.freeSlots = 0 := Core.freeSlots_of_closed hcl
        rw [hz]
        exact Nat.zero_le _
    refine ⟨?_, ?_, fun hcl c => ((ha.closed hcl c).update rfl).woken hw⟩
    · exact ((ha.writable.pass rfl (by rw [ht.point]; exact nofun)).signal_notified hs).mono hle
    · exact (ha.readable.leave rfl le_rfl).signal_other hs nofun
  | spurious t p ht =>
    exact ⟨ha.writable.spurious ht, ha.readable.spurious ht, fun hcl c =>
      (ha.closed hcl c).update rfl⟩
  | closed t op alive ht hop => exact .of_wakeAll
  | share t k k' ht hk hk' => exact ⟨ha.writable, ha.readable, ha.closed⟩
  | length t ht hr => exact ha
  | dropSender t k ht hk hu =>
    by_cases hlast : s.core.dropSender.senders = 0
    · simp only [if_pos hlast]
      exact .of_wakeAll
    · have hsame : s.core.dropSender.closed = s.core.closed := by
        change (s.core.closed || decide (s.core.dropSender.senders = 0)) = s.core.closed
        simp [hlast]
      simp only [if_neg hlast]
      refine ⟨?_, ha.readable, fun hcl => ha.closed (hsame ▸ hcl)⟩
      have hfree : s.core.dropSender.freeSlots = s.core.freeSlots := by
        unfold Core.freeSlots
        rw [hsame]
        rfl
      rw [hfree]
      exact ha.writable
  | dropReceiver t ht hr hu =>
    cases halive : s.core.receiverAlive with
    | true => simpa only [if_true] using .of_wakeAll
    | false =>
      have hw := ha.closed (h.alive halive)
      exact ⟨(hw _).covered, (hw _).covered, fun _ => hw⟩

/-! ## Runs -/

theorem awake_of_exec (hn : 0 < n) {es : List (Event α T)}
    (h : Exec step Assumed (State.init n) es s) : Awake s := by
  refine (h.stateInvariant (I := fun s => Inv n s ∧ Awake s) ⟨inv_init hn, ?_⟩
    fun ⟨hI, ha⟩ hs hG => ?_).2
  · exact ⟨NoSleeper.covered fun _ => rfl, covered_zero _, fun _ _ _ => rfl⟩
  · have hm := step_move hs hG.1 hG.2.1
    exact ⟨hm.inv hI hG.2.2, hm.awake hI ha⟩

/-- **No wake-up is lost.** While a sender sleeps on an open channel, the free slots are at most the
notified senders; while a receiver sleeps, the queued values are at most the notified receivers; and
nobody sleeps once the channel is closed. -/
theorem channel_no_lost_wakeup (hn : 0 < n) {es : List (Event α T)} {s : State α T}
    (h : Exec step Assumed (State.init n) es s) :
    (s.core.closed = false → (∃ t, (s.threads t).asleepOn Point.cond .writable = true) →
      s.core.ring.capacity - s.core.ring.count ≤
        num (Pc.notifiedOn Point.cond .writable) s.threads) ∧
    ((∃ t, (s.threads t).asleepOn Point.cond .readable = true) →
      s.core.ring.count ≤ num (Pc.notifiedOn Point.cond .readable) s.threads) ∧
    (s.core.closed = true → ∀ t c, (s.threads t).asleepOn Point.cond c = false) := by
  have ha := awake_of_exec hn h
  refine ⟨fun ho hsleep => ?_, fun hsleep => ha.readable (num_pos.2 hsleep), fun hc t c =>
    ha.closed hc c t⟩
  have hcov := ha.writable (num_pos.2 hsleep)
  rwa [Core.freeSlots, ho, if_neg (by decide)] at hcov

/-- One slot, two sleeping senders, and a receive that wakes the first of them. -/
theorem channel_no_lost_wakeup_one_slot :
    ∃ (es : List (Event ℕ (Fin 3))) (s : State ℕ (Fin 3)),
      Exec step Assumed (State.init 1) es s ∧ s.core.closed = false ∧
      (s.threads 2).asleepOn Point.cond .writable = true ∧
      s.core.ring.capacity - s.core.ring.count = 1 ∧
      1 ≤ num (Pc.notifiedOn Point.cond .writable) s.threads := by
  obtain ⟨es, s, h, ht⟩ := Exec.exists_of_run step Assumed (State.init (α := ℕ) (T := Fin 3) 1)
    [.callSend 0 0 .trySend 7 0, .lock 0 {} none, .callSend 1 0 .send 8 0, .lock 1 {} none,
      .callSend 2 0 .send 9 0, .lock 2 {} none, .callRecv 0 false, .lock 0 {} (some 1)]
    (fun s _ => decide (s.core.closed = false ∧
      (s.threads 2).asleepOn Point.cond .writable = true ∧
      s.core.ring.capacity - s.core.ring.count = 1)) (by decide +kernel)
  obtain ⟨ho, ha, hc⟩ := of_decide_eq_true ht
  exact ⟨es, s, h, ho, ha, hc, hc ▸ (channel_no_lost_wakeup (by decide) h).1 ho ⟨2, ha⟩⟩

end NativeSync.Channel
