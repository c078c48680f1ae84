import NativeSync.Foundations.Progress
import NativeSync.Channel.Wakeups

/-!
# The generic channel makes progress

A send or a receive is a number of passes through the mutex, each after a wake-up, and a pass wakes
at most one other thread. So the passes of a run are paid for by its calls and by the wake-ups for no
reason, whatever the primitives return: no thread ever goes round its `while` loop for nothing.

If the primitives succeed, passes can be made until every operation has returned or is blocked with
good reason: the senders on a full queue, or the receiver on an empty one, never both, and nobody
after the channel was closed.
-/

namespace NativeSync.Channel

open Foundations

variable {α T : Type}

/-- The steps that a thread takes by itself. -/
def Action.own : Action α T → Bool
  | lock .. => true
  | resume .. => true
  | _ => false

/-- What is left to do for a thread: it returns, and wakes another. -/
def Point.cost : Point α → ℕ
  | idle => 0
  | _ => 2

variable [Fintype T]

/-- The potential: the weights of the threads. -/
def potential (s : State α T) : ℕ := weigh (passWeight Point.cost) s.threads

variable [DecidableEq T] {s s' : State α T} {e es : List (Event α T)} {t : T} {pick : Option T}
  {h n : ℕ} {kind : SendKind} {message : Box α} {block : Bool} {os : Os} {p : Point α}

/-! ## A pass lowers the potential -/

theorem endSend_lowers {sec : Section (Core α) Cond (SendExit α)}
    (ht : (s.threads t).Ready (.send h kind message))
    (hw : wakeWeight (Fintype.card T) sec.wakes ≤ 1)
    (hs : s.endSend t h kind message pick sec = some (s', e)) : potential s' < potential s := by
  unfold State.endSend at hs
  split at hs
  · cases hs
    have hp := weigh_moved Point.cost ht (.wait .asleep (.send h kind message))
    change potential (s.move t _) + 2 = potential s + 1 at hp
    omega
  · obtain ⟨f, hf, hs⟩ := Option.bind_eq_some_iff.1 hs
    obtain ⟨r, -, hs⟩ := Option.map_eq_some_iff.1 hs
    cases hs
    have hp := weigh_pass Point.cost ht hf
    change _ + 2 ≤ potential s + 0 + _ at hp
    change weigh _ f < potential s
    omega

theorem endReceive_lowers {sec : Section (Core α) Cond (ReceiveExit α)}
    (ht : (s.threads t).Ready (.receive block)) (hw : wakeWeight (Fintype.card T) sec.wakes ≤ 1)
    (hs : s.endReceive t block pick sec = some (s', e)) : potential s' < potential s := by
  unfold State.endReceive at hs
  split at hs
  · cases hs
    have hp := weigh_moved Point.cost ht (.wait .asleep (.receive block))
    change potential (s.move t _) + 2 = potential s + 1 at hp
    omega
  · obtain ⟨f, hf, hs⟩ := Option.bind_eq_some_iff.1 hs
    obtain ⟨r, -, hs⟩ := Option.map_eq_some_iff.1 hs
    cases hs
    have hp := weigh_pass Point.cost ht hf
    change _ + 2 ≤ potential s + 0 + _ at hp
    change weigh _ f < potential s
    omega

theorem wakeWeight_enqueue (core : Core α) (message : Box α) (os : Os) :
    wakeWeight n (enqueue core message os).wakes ≤ 1 := by
  unfold enqueue
  split_ifs <;> simp [Notify.weight]

theorem wakeWeight_trySend (core : Core α) (message : Box α) (os : Os) :
    wakeWeight n (trySend core message os).wakes ≤ 1 := by
  unfold trySend
  split_ifs
  · simp
  · simp
  · simp
  · exact wakeWeight_enqueue ..

theorem wakeWeight_sendLoop (core : Core α) (message : Box α) (os : Os) :
    wakeWeight n (sendLoop core message os).wakes ≤ 1 := by
  unfold sendLoop
  split_ifs
  · simp
  · simp
  · simp
  · exact wakeWeight_enqueue ..

theorem wakeWeight_receiveLoop (core : Core α) (block : Bool) (os : Os) :
    wakeWeight n (receiveLoop core block os).wakes ≤ 1 := by
  unfold receiveLoop
  split_ifs <;> simp [Notify.weight]

/-- **Every own step lowers the potential**, whatever the primitives return. -/
theorem step_lowers {a : Action α T} (hs : step s a = some (s', e)) (ha : a.own = true) :
    potential s' < potential s := by
  cases a with
  | lock t os pick =>
    simp only [step] at hs
    split at hs
    · rename_i ht
      exact endSend_lowers (.inl ht) (wakeWeight_trySend ..) hs
    · rename_i ht
      refine endSend_lowers (.inl ht) ?_ hs
      unfold send
      split_ifs
      · simp
      · exact wakeWeight_sendLoop ..
    · rename_i ht
      refine endReceive_lowers (.inl ht) ?_ hs
      unfold receive
      split_ifs
      · simp
      · exact wakeWeight_receiveLoop ..
    · cases hs
  | resume t os pick =>
    simp only [step] at hs
    split at hs
    · cases hs
    · rename_i w h m hne ht
      refine endSend_lowers (.inr ⟨w, hne, ht⟩) ?_ hs
      unfold sendWoken
      split_ifs
      · simp
      · exact wakeWeight_sendLoop ..
    · rename_i w b hne ht
      refine endReceive_lowers (.inr ⟨w, hne, ht⟩) ?_ hs
      unfold receiveWoken
      split_ifs
      · simp
      · exact wakeWeight_receiveLoop ..
    · cases hs
  | _ => cases ha

/-! ## Other steps raise it by a constant -/

theorem potential_woken {f : T → Pc (Point α)} {ns : List (Notify Cond)}
    (hd : deliver Point.cond pick ns s.threads = some f)
    (hw : wakeWeight (Fintype.card T) ns ≤ 2 * Fintype.card T) :
    weigh (passWeight Point.cost) f ≤ potential s + (2 * Fintype.card T + 2) := by
  have hle := weigh_deliver (gentle_passWeight Point.cost) hd
  unfold potential
  omega

/-- The end of a finalizer. -/
theorem finalize_raises {core : Core α} {role : Role} {s₀ : State α T}
    (h₀ : s₀.threads = s.threads)
    (hs : (finalize core role os).bind (s₀.endFinalize t role) = some (s', e)) :
    potential s' ≤ potential s + (2 * Fintype.card T + 2) := by
  obtain ⟨sec, hsec, hs⟩ := Option.bind_eq_some_iff.1 hs
  obtain ⟨c, hc, rfl⟩ := Option.map_eq_some_iff.1 hsec
  obtain ⟨f, hf, hs⟩ := Option.map_eq_some_iff.1 hs
  cases hs
  rw [h₀] at hf
  exact potential_woken hf (Endpoints.wakeWeight_finalize hc)

/-- **No step raises the potential by more than a constant.** -/
theorem step_raises {a : Action α T} (hs : step s a = some (s', e)) (ha : a.own = false) :
    potential s' ≤ potential s + (2 * Fintype.card T + 2) := by
  have hcall : ∀ t p, weigh (passWeight Point.cost) (Function.update s.threads t (.run p)) ≤
      potential s + (2 * Fintype.card T + 2) := by
    intro t p
    have hup := weigh_update (passWeight Point.cost) s.threads t (.run p)
    have hp : passWeight Point.cost (.run p) ≤ 2 := by cases p <;> simp [passWeight, Point.cost]
    unfold potential
    omega
  cases a with
  | callSend t h kind value injected =>
    simp only [step] at hs
    split_ifs at hs
    · obtain ⟨r, -, hs⟩ := Option.map_eq_some_iff.1 hs
      cases hs
      exact Nat.le_add_right _ _
    · cases hs
      exact hcall _ _
  | callRecv t block =>
    simp only [step] at hs
    split_ifs at hs
    cases hs
    exact hcall _ _
  | spurious t =>
    simp only [step] at hs
    split at hs
    · rename_i p ht
      cases hs
      exact (weigh_spurious Point.cost ht).trans (by unfold potential; omega)
    · cases hs
  | senderClose t h os =>
    obtain ⟨-, hs⟩ := Option.ite_none_right_eq_some.1 hs
    obtain ⟨f, hf, hs⟩ := Option.map_eq_some_iff.1 hs
    cases hs
    exact potential_woken hf (Endpoints.wakeWeight_senderClose _ _ os)
  | receiverClose t os =>
    obtain ⟨-, hs⟩ := Option.ite_none_right_eq_some.1 hs
    obtain ⟨f, hf, hs⟩ := Option.map_eq_some_iff.1 hs
    cases hs
    exact potential_woken hf (Endpoints.wakeWeight_receiverClose _ _ os)
  | share t h h' os =>
    obtain ⟨-, hs⟩ := Option.ite_none_right_eq_some.1 hs
    cases hs
    exact Nat.le_add_right _ _
  | length t os =>
    obtain ⟨-, hs⟩ := Option.ite_none_right_eq_some.1 hs
    cases hs
    exact Nat.le_add_right _ _
  | dropSender t h os =>
    obtain ⟨-, hs⟩ := Option.ite_none_right_eq_some.1 hs
    exact finalize_raises (by rfl) hs
  | dropReceiver t os =>
    obtain ⟨-, hs⟩ := Option.ite_none_right_eq_some.1 hs
    exact finalize_raises (by rfl) hs
  | _ => cases ha

theorem hasPotential (G : State α T → Action α T → State α T → Prop) :
    Potential step G Action.own (fun _ => True) potential (2 * Fintype.card T + 2) where
  keep := fun _ _ _ => trivial
  lowers := fun _ hs _ ha => step_lowers hs ha
  raises := fun _ hs _ ha => step_raises hs ha

/-! ## Who can take a step -/

/-- The points at which the code waits. -/
def Point.Waits : Point α → Prop
  | send _ .send _ => True
  | receive block => block = true
  | _ => False

omit [Fintype T] in
theorem Move.waitsAt (hm : Move s s' e) (h : ∀ t, (s.threads t).WaitsAt Point.Waits) :
    ∀ t, (s'.threads t).WaitsAt Point.Waits := by
  -- most moves end at a point
  have hrun : ∀ {t p f}, Woken (Function.update s.threads t (.run p)) f →
      ∀ u, (f u).WaitsAt Point.Waits := fun hw => hw.waitsAt_update h (Pc.waitsAt_run _)
  cases hm with
  | callSend t k kind v ht hk => exact hrun (.refl _)
  | callRecv t block ht hr => exact hrun (.refl _)
  | sendClosed t k kind m ht ho => exact hrun (.refl _)
  | sendFull t k m ht ho hf => exact hrun (.refl _)
  | sendSleep t k m ht ho hf =>
    exact (Woken.refl _).waitsAt_update h (Pc.waitsAt_wait.2 trivial)
  | sent t k kind m f ht ho hf hs => exact hrun (.of_signalled hs)
  | recvSleep t ht hc ho => exact (Woken.refl _).waitsAt_update h (Pc.waitsAt_wait.2 rfl)
  | recvNothing t block ht hc hblock => exact hrun (.refl _)
  | received t block m f ht hc hm hs => exact hrun (.of_signalled hs)
  | spurious t p ht =>
    exact (Woken.refl _).waitsAt_update h (Pc.waitsAt_wait.2 (h t _ p ht))
  | closed t op alive ht hop => exact fun u => (woken_wakeAll _).waitsAt (h u)
  | share t k k' ht hk hk' => exact h
  | length t ht hr => exact h
  | dropSender t k ht hk hu => exact fun u => (woken_ite _ _).waitsAt (h u)
  | dropReceiver t ht hr hu => exact fun u => (woken_ite _ _).waitsAt (h u)

theorem waitsAt_of_exec (h : Exec step Assumed (State.init n) es s) :
    ∀ t, (s.threads t).WaitsAt Point.Waits :=
  h.stateInvariant (I := fun s => ∀ t, (s.threads t).WaitsAt Point.Waits)
    (fun _ => Pc.waitsAt_run _) fun hI hs hG => (step_move hs hG.1 hG.2.1).waitsAt hI

theorem enqueue_enabled (s : State α T) (t : T) (h : ℕ) (kind : SendKind) (message : Box α) :
    ∃ pick r, s.endSend t h kind message pick (enqueue s.core message {}) = some r := by
  obtain ⟨pick, g, hg⟩ := exists_signal Point.cond .readable
    (Function.update s.threads t (.run .idle))
  refine ⟨pick, ?_⟩
  simp only [State.endSend, enqueue, if_true, deliver_signal, hg, Option.bind_some]
  cases kind <;> exact ⟨_, rfl⟩

theorem sendLoop_enabled (s : State α T) (t : T) (h : ℕ) (message : Box α) :
    ∃ pick r, s.endSend t h .send message pick (sendLoop s.core message {}) = some r := by
  simp only [sendLoop, ne_eq, not_true_eq_false, if_false]
  split_ifs
  · exact ⟨none, _, rfl⟩
  · exact ⟨none, _, rfl⟩
  · exact enqueue_enabled s t h .send message

theorem trySend_enabled (s : State α T) (t : T) (h : ℕ) (message : Box α) :
    ∃ pick r, s.endSend t h .trySend message pick (trySend s.core message {}) = some r := by
  simp only [trySend, ne_eq, not_true_eq_false, if_false]
  split_ifs
  · exact ⟨none, _, rfl⟩
  · exact ⟨none, _, rfl⟩
  · exact enqueue_enabled s t h .trySend message

theorem receiveLoop_enabled (hI : Inv n s) (t : T) (block : Bool) :
    ∃ pick r, s.endReceive t block pick (receiveLoop s.core block {}) = some r := by
  simp only [receiveLoop, ne_eq, not_true_eq_false, if_false]
  split_ifs with h₁ h₂ h₃
  · exact ⟨none, _, rfl⟩
  · cases block <;> exact ⟨none, _, rfl⟩
  · cases block <;> exact ⟨none, _, rfl⟩
  · obtain ⟨m, hm, -⟩ := RingBuffer.exists_pop hI.ring (by simpa using h₂)
    obtain ⟨pick, g, hg⟩ := exists_signal Point.cond .writable
      (Function.update s.threads t (.run .idle))
    refine ⟨pick, ?_⟩
    simp only [State.endReceive, deliver_signal, hg, Option.bind_some, hm]
    cases block <;> exact ⟨_, rfl⟩

theorem endSend_handles {sec : Section (Core α) Cond (SendExit α)}
    (hs : s.endSend t h kind message pick sec = some (s', e)) : s'.handles = s.handles := by
  unfold State.endSend at hs
  split at hs
  · cases hs
    rfl
  · obtain ⟨f, -, hs⟩ := Option.bind_eq_some_iff.1 hs
    obtain ⟨r, -, hs⟩ := Option.map_eq_some_iff.1 hs
    cases hs
    rfl

theorem endReceive_handles {sec : Section (Core α) Cond (ReceiveExit α)}
    (hs : s.endReceive t block pick sec = some (s', e)) : s'.handles = s.handles := by
  unfold State.endReceive at hs
  split at hs
  · cases hs
    rfl
  · obtain ⟨f, -, hs⟩ := Option.bind_eq_some_iff.1 hs
    obtain ⟨r, -, hs⟩ := Option.map_eq_some_iff.1 hs
    cases hs
    rfl

/-- A thread in an operation can go on. -/
theorem able_of_run (hI : Inv n s) (ht : s.threads t = .run p) (hp : p ≠ .idle) :
    Able step Assumed Action.own s := by
  have hbound : s.handles < 2147483648 := hI.counted.bound
  cases p with
  | idle => exact absurd rfl hp
  | send h kind m =>
    cases kind with
    | trySend =>
      obtain ⟨pick, ⟨s', e⟩, hs⟩ := trySend_enabled s t h m
      refine ⟨.lock t {} pick, s', e, rfl, by simp only [step, ht]; exact hs, rfl, rfl, ?_⟩
      rwa [endSend_handles hs]
    | send =>
      obtain ⟨pick, ⟨s', e⟩, hs⟩ := sendLoop_enabled s t h m
      refine ⟨.lock t {} pick, s', e, rfl, by simp only [step, ht]; exact hs, rfl, rfl, ?_⟩
      rwa [endSend_handles hs]
  | receive block =>
    obtain ⟨pick, ⟨s', e⟩, hs⟩ := receiveLoop_enabled hI t block
    refine ⟨.lock t {} pick, s', e, rfl, by simp only [step, ht]; exact hs, rfl, rfl, ?_⟩
    rwa [endReceive_handles hs]

/-- And so can one that has been woken. -/
theorem able_of_woken (hI : Inv n s) {w : Wake} (hp : p.Waits) (ht : s.threads t = .wait w p)
    (hw : w ≠ .asleep) : Able step Assumed Action.own s := by
  have hbound : s.handles < 2147483648 := hI.counted.bound
  cases p with
  | idle => cases hp
  | send h kind m =>
    cases kind with
    | trySend => cases hp
    | send =>
      obtain ⟨pick, ⟨s', e⟩, hs⟩ := sendLoop_enabled s t h m
      have hstep : step s (.resume t {} pick) = some (s', e) := by
        cases w with
        | asleep => exact absurd rfl hw
        | notified => simp only [step, ht]; exact hs
        | spurious => simp only [step, ht]; exact hs
      refine ⟨.resume t {} pick, s', e, rfl, hstep, rfl, rfl, ?_⟩
      rwa [endSend_handles hs]
  | receive block =>
    obtain ⟨pick, ⟨s', e⟩, hs⟩ := receiveLoop_enabled hI t block
    have hstep : step s (.resume t {} pick) = some (s', e) := by
      cases w with
      | asleep => exact absurd rfl hw
      | notified => simp only [step, ht]; exact hs
      | spurious => simp only [step, ht]; exact hs
    refine ⟨.resume t {} pick, s', e, rfl, hstep, rfl, rfl, ?_⟩
    rwa [endReceive_handles hs]

/-- **In a stuck channel every thread is at rest.** -/
theorem rested_of_stuck (hI : Inv n s) (hw : ∀ t, (s.threads t).WaitsAt Point.Waits)
    (hst : Stuck step Assumed Action.own s) (t : T) : (s.threads t).Rested (· = .idle) :=
  hst.rested (fun _ _ => able_of_run hI)
    (fun u w p hu => able_of_woken hI (hw u w p hu) hu) t

/-- Who takes a step of its own is not at rest. -/
theorem not_rested_of_own {a : Action α T} (ha : a.own = true) (hs : step s a = some (s', e)) :
    ∃ t, ¬(s.threads t).Rested (· = .idle) := by
  cases a with
  | lock t os pick =>
    refine ⟨t, ?_⟩
    rintro (⟨p, rfl, h⟩ | ⟨p, h⟩) <;> simp [step, h] at hs
  | resume t os pick =>
    refine ⟨t, ?_⟩
    rintro (⟨p, rfl, h⟩ | ⟨p, h⟩) <;> simp [step, h] at hs
  | _ => cases ha

/-! ## Stuck channels -/

/-- Every operation has returned, or is blocked with good reason. -/
def Settled (s : State α T) : Prop :=
  ∀ t, s.threads t = .run .idle ∨
    (∃ h message, s.threads t = .wait .asleep (.send h .send message) ∧ s.core.Open ∧
      s.core.ring.count = s.core.ring.capacity) ∨
    s.threads t = .wait .asleep (.receive true) ∧ s.core.Open ∧ s.core.ring.count = 0

/-- **A stuck channel is settled.** -/
theorem settled_of_stuck (hn : 0 < n) (h : Exec step Assumed (State.init n) es s)
    (hst : Stuck step Assumed Action.own s) : Settled s := by
  have hI := inv_of_exec hn h
  have ha := awake_of_exec hn h
  have hw := waitsAt_of_exec h
  have hr := rested_of_stuck hI hw hst
  have hnone : ∀ c, num (Pc.notifiedOn Point.cond c) s.threads = 0 := fun c =>
    num_eq_zero.2 fun t => (hr t).notifiedOn _ c
  intro t
  rcases hr t with ⟨p, rfl, ht⟩ | ⟨p, ht⟩
  · exact .inl ht
  have hok := hw t _ p ht
  -- a closed channel has woken the sleeper
  have hopen : ∀ c, p.cond = some c → s.core.closed = false := by
    intro c hc
    by_contra hcl
    have hno := ha.closed (Bool.eq_true_of_not_eq_false hcl) c t
    rw [ht, Pc.asleepOn_asleep, hc] at hno
    simp at hno
  cases p with
  | idle => cases hok
  | send k kind m =>
    cases kind with
    | trySend => cases hok
    | send =>
      have ho := hopen .writable rfl
      have hcov := ha.writable (num_pos.2 ⟨t, by rw [ht]; rfl⟩)
      rw [hnone, Core.freeSlots, ho, if_neg Bool.false_ne_true] at hcov
      have hle := hI.ring.count_le
      exact .inr (.inl ⟨k, m, ht, hI.open_iff.2 ho, by omega⟩)
  | receive block =>
    obtain rfl : block = true := hok
    have ho := hopen .readable rfl
    have hcov := ha.readable (num_pos.2 ⟨t, by rw [ht]; rfl⟩)
    rw [hnone] at hcov
    exact .inr (.inr ⟨ht, hI.open_iff.2 ho, by omega⟩)

/-- **The channel makes progress.** In every run, whatever the primitives return, there are at most
`2 * n + 2` passes of the `n` threads for each call, also of share and drop, and each wake-up for no
reason. If the primitives succeed, no error is injected and the handles can be counted, then from
every state that is reached passes lead to one in which no more can be made; and there every
operation has returned, or the channel is open and the operation is a send and the queue full, or a
receive and the queue empty. -/
theorem channel_progress (hn : 0 < n) :
    (∀ G m k es s, Paced (step (α := α) (T := T)) G Action.own (State.init n) m k es s →
      m ≤ (2 * Fintype.card T + 2) * k) ∧
    ∀ es s, Exec (step (α := α) (T := T)) Assumed (State.init n) es s →
      (∃ m es' s', Paced step Assumed Action.own s m 0 es' s' ∧
        Stuck step Assumed Action.own s' ∧ Settled s') ∧
      (Stuck step Assumed Action.own s → Settled s) := by
  refine ⟨fun G m k es s h => ?_, fun es s h => ⟨?_, settled_of_stuck hn h⟩⟩
  · have hb := (hasPotential G).bound trivial h
    have hzero : potential (State.init n : State α T) = 0 := Finset.sum_eq_zero fun _ _ => rfl
    omega
  · obtain ⟨m, es', s', hrun, hst⟩ := (hasPotential Assumed).settles (s := s) trivial
    exact ⟨m, es', s', hrun, hst, settled_of_stuck hn (h.trans hrun.exec) hst⟩

/-- One slot: a sender that has been woken for no reason goes back to sleep, and then nobody can take
a step. -/
theorem channel_progress_one_slot :
    ∃ (m k : ℕ) (es : List (Event ℕ (Fin 2))) (s : State ℕ (Fin 2)),
      Paced step Assumed Action.own (State.init 1) m k es s ∧
      Stuck step Assumed Action.own s ∧ (s.threads 1).asleepOn Point.cond .writable = true ∧
      s.core.ring.count = s.core.ring.capacity ∧ m ≤ 6 * k := by
  obtain ⟨es, s, h, ht⟩ := Exec.exists_of_run step Assumed (State.init (α := ℕ) (T := Fin 2) 1)
    [.callSend 0 0 .trySend 7 0, .lock 0 {} none, .callSend 1 0 .send 8 0, .lock 1 {} none,
      .spurious 1, .resume 1 {} none]
    (fun s _ => decide (s.threads 0 = .run .idle ∧
      s.threads 1 = .wait .asleep (.send 0 .send ⟨1, 8⟩))) (by decide +kernel)
  obtain ⟨h₀, h₁⟩ := of_decide_eq_true ht
  obtain ⟨m, k, hp⟩ := h.paced Action.own
  have hr : ∀ t, (s.threads t).Rested (· = .idle) := by
    intro t
    match t with
    | 0 => exact .inl ⟨_, rfl, h₀⟩
    | 1 => exact .inr ⟨_, h₁⟩
  have hst : Stuck step Assumed Action.own s := stuck_of_rested hr not_rested_of_own
  obtain ⟨hbound, hsettled⟩ := channel_progress (α := ℕ) (T := Fin 2) (n := 1) (by decide)
  refine ⟨m, k, es, s, hp, hst, by rw [h₁]; rfl, ?_, hbound _ _ _ _ _ hp⟩
  rcases (hsettled es s h).2 hst 1 with hidle | ⟨_, _, -, -, hfull⟩ | ⟨hrecv, -⟩
  · rw [h₁] at hidle
    cases hidle
  · exact hfull
  · rw [h₁] at hrecv
    cases hrecv

end NativeSync.Channel
