import NativeSync.Foundations.Progress
import NativeSync.OwnedBytes.Wakeups

/-!
# The OwnedBytes channel makes progress

A send passes through the mutex, leaves it to copy the message, comes back and may sleep in between;
but it copies at most once, and every further pass is paid for by a wake-up. So the steps of the
threads are bounded by the calls, whatever the primitives return.

If the primitives succeed, such steps can be taken until every operation has returned or sleeps: a
blocking send with messages in the queue, or the receive with none, and both only while the channel
is open. That a sleeping sender may have room for its message by then is the defect that
`OwnedBytes.Stranding` describes; it does not stop the receiver.
-/

namespace NativeSync.OwnedBytes

open Foundations

variable {T : Type}

/-- The steps that a thread takes by itself. -/
def Action.own : Action T → Bool
  | lock .. => true
  | copy .. => true
  | resume .. => true
  | _ => false

/-- What is left to do for a thread: it copies its message, comes back, returns and wakes
another. -/
def Point.cost : Point → ℕ
  | idle => 0
  | submit _ _ _ none => 4
  | copy .. => 3
  | submit _ _ _ (some _) => 2
  | receive _ => 2

variable [Fintype T]

/-- The potential: the weights of the threads. -/
def potential (s : State T) : ℕ := weigh (passWeight Point.cost) s.threads

variable [DecidableEq T] {s s' : State T} {e es : List (Event T)} {t : T} {pick : Option T}
  {h n : ℕ} {kind : SendKind} {bytes : Bytes} {message : Option Message} {block : Bool} {os : Os}
  {L : Limits} {core : Core} {length : ℤ}

/-! ## A pass lowers the potential -/

omit [Fintype T] [DecidableEq T] in
theorem two_le_cost : 2 ≤ (Point.submit h kind bytes message).cost := by
  cases message <;> simp [Point.cost]

theorem endSubmit_lowers {sec : Section Core Cond SubmitExit}
    (ht : (s.threads t).Ready (.submit h kind bytes message))
    (hw : wakeWeight (Fintype.card T) sec.wakes ≤ 1)
    (hcopy : sec.exit = .copy → message = none)
    (hs : s.endSubmit t h kind bytes message pick sec = some (s', e)) :
    potential s' < potential s := by
  have hcost : 2 ≤ (Point.submit h kind bytes message).cost := two_le_cost
  unfold State.endSubmit at hs
  split at hs
  · cases hs
    have hp := weigh_moved Point.cost ht (.wait .asleep (.submit h kind bytes message))
    change potential (s.move t _) + _ = potential s + (_ - 1) at hp
    omega
  · rename_i hexit
    obtain rfl := hcopy hexit
    cases hs
    have hp := weigh_moved Point.cost ht (.run (.copy h kind bytes))
    change potential (s.move t _) + 4 = potential s + 3 at hp
    omega
  · obtain ⟨f, hf, hs⟩ := Option.map_eq_some_iff.1 hs
    cases hs
    have hp := weigh_pass Point.cost ht hf
    change _ + _ ≤ potential s + 0 + _ at hp
    change weigh _ f < potential s
    omega

theorem endReceive_lowers {sec : Section Core Cond ReceiveExit}
    (ht : (s.threads t).Ready (.receive block))
    (hw : wakeWeight (Fintype.card T) sec.wakes ≤ 1)
    (hs : s.endReceive t block pick sec = some (s', e)) : potential s' < potential s := by
  unfold State.endReceive at hs
  split at hs
  · cases hs
    have hp := weigh_moved Point.cost ht (.wait .asleep (.receive block))
    change potential (s.move t _) + 2 = potential s + 1 at hp
    omega
  · obtain ⟨f, hf, hs⟩ := Option.map_eq_some_iff.1 hs
    cases hs
    have hp := weigh_pass Point.cost ht hf
    change _ + 2 ≤ potential s + 0 + _ at hp
    change weigh _ f < potential s
    omega

theorem submitLoop_wakes :
    wakeWeight n (submitLoop core length block message os).wakes ≤ 1 ∧
      ((submitLoop core length block message os).exit = .copy → message = none) := by
  cases message with
  | none =>
    simp only [submitLoop]
    split_ifs <;> simp
  | some m =>
    simp only [submitLoop]
    split_ifs <;> simp [Notify.weight]

theorem receiveLoop_wakes {sec : Section Core Cond ReceiveExit}
    (h : receiveLoop core block os = some sec) : wakeWeight n sec.wakes ≤ 1 := by
  cases hm : core.ring.slots core.ring.head with
  | none =>
    simp only [receiveLoop, hm] at h
    split_ifs at h <;> cases h <;> simp
  | some m =>
    simp only [receiveLoop, hm] at h
    split_ifs at h <;> cases h <;> simp [Notify.weight]

/-- **Every own step lowers the potential**, whatever the primitives return. -/
theorem step_lowers {a : Action T} (hs : step s a = some (s', e)) (ha : a.own = true) :
    potential s' < potential s := by
  cases a with
  | lock t os pick =>
    simp only [step] at hs
    split at hs
    · rename_i h kind bytes message ht
      have hsec : wakeWeight (Fintype.card T)
            (submit s.core bytes.length kind.block message os).wakes ≤ 1 ∧
          ((submit s.core bytes.length kind.block message os).exit = .copy → message = none) := by
        unfold submit
        split_ifs
        · simp
        · simp
        · exact submitLoop_wakes
      exact endSubmit_lowers (.inl ht) hsec.1 hsec.2 hs
    · rename_i b ht
      obtain ⟨sec, hsec, hs⟩ := Option.bind_eq_some_iff.1 hs
      refine endReceive_lowers (.inl ht) ?_ hs
      unfold receive at hsec
      split_ifs at hsec
      · cases hsec
        simp
      · exact receiveLoop_wakes hsec
    · cases hs
  | copy t =>
    simp only [step] at hs
    split at hs
    · rename_i h kind bytes ht
      cases hs
      have hp := weigh_moved Point.cost (.inl ht)
        (.run (.submit h kind bytes (some (messageCopy s.copies bytes bytes.length))))
      change _ + 3 = potential s + 2 at hp
      change weigh _ (Function.update _ _ _) < _
      omega
    · cases hs
  | resume t os pick =>
    simp only [step] at hs
    split at hs
    · cases hs
    · rename_i w h kind bytes message hne ht
      have hsec : wakeWeight (Fintype.card T)
            (submitWoken s.core bytes.length kind.block message os).wakes ≤ 1 ∧
          ((submitWoken s.core bytes.length kind.block message os).exit = .copy →
            message = none) := by
        unfold submitWoken
        split_ifs
        · simp
        · exact submitLoop_wakes
      exact endSubmit_lowers (.inr ⟨w, hne, ht⟩) hsec.1 hsec.2 hs
    · rename_i w b hne ht
      obtain ⟨sec, hsec, hs⟩ := Option.bind_eq_some_iff.1 hs
      refine endReceive_lowers (.inr ⟨w, hne, ht⟩) ?_ hs
      unfold receiveWoken at hsec
      split_ifs at hsec
      · cases hsec
        simp
      · exact receiveLoop_wakes hsec
    · cases hs
  | _ => cases ha

/-! ## Other steps raise it by a constant -/

/-- What a call, a wake-up for no reason or a broadcast to both sides adds at most. -/
def callWeight (n : ℕ) : ℕ := 2 * n + 4

theorem potential_woken {f : T → Pc Point} {ns : List (Notify Cond)}
    (hd : deliver Point.cond pick ns s.threads = some f)
    (hw : wakeWeight (Fintype.card T) ns ≤ 2 * Fintype.card T) :
    weigh (passWeight Point.cost) f ≤ potential s + callWeight (Fintype.card T) := by
  have hle := weigh_deliver (gentle_passWeight Point.cost) hd
  unfold potential callWeight
  omega

/-- The end of a finalizer. -/
theorem finalize_raises {role : Role} {s₀ : State T} (h₀ : s₀.threads = s.threads)
    (hs : (finalize core role os).bind (s₀.endFinalize t role) = some (s', e)) :
    potential s' ≤ potential s + callWeight (Fintype.card T) := by
  obtain ⟨sec, hsec, hs⟩ := Option.bind_eq_some_iff.1 hs
  obtain ⟨c, hc, rfl⟩ := Option.map_eq_some_iff.1 hsec
  obtain ⟨f, hf, hs⟩ := Option.map_eq_some_iff.1 hs
  cases hs
  rw [h₀] at hf
  exact potential_woken hf (Endpoints.wakeWeight_finalize hc)

/-- **No step raises the potential by more than a constant.** -/
theorem step_raises {a : Action T} (hs : step s a = some (s', e)) (ha : a.own = false) :
    potential s' ≤ potential s + callWeight (Fintype.card T) := by
  have hcall : ∀ t p, weigh (passWeight Point.cost) (Function.update s.threads t (.run p)) ≤
      potential s + callWeight (Fintype.card T) := by
    intro t p
    have hup := weigh_update (passWeight Point.cost) s.threads t (.run p)
    have hp : passWeight Point.cost (.run p) ≤ 4 := by
      change p.cost ≤ 4
      unfold Point.cost
      split <;> omega
    unfold potential callWeight
    omega
  cases a with
  | callSend t h kind bytes injected =>
    simp only [step] at hs
    split_ifs at hs
    · cases hs
      exact Nat.le_add_right _ _
    · cases hs
      exact hcall _ _
  | callRecv t block =>
    simp only [step, Option.ite_none_right_eq_some, Option.some.injEq, Prod.mk.injEq] at hs
    obtain ⟨-, rfl, -⟩ := hs
    exact hcall _ _
  | spurious t =>
    simp only [step] at hs
    split at hs
    · rename_i p ht
      cases hs
      exact (weigh_spurious Point.cost ht).trans (by unfold potential callWeight; omega)
    · cases hs
  | senderClose t h os =>
    obtain ⟨-, hs⟩ := Option.ite_none_right_eq_some.1 hs
    obtain ⟨f, hf, hs⟩ := Option.map_eq_some_iff.1 hs
    cases hs
    exact potential_woken hf (Endpoints.wakeWeight_senderClose _ _ os)
  | receiverClose t os =>
    obtain ⟨-, hs⟩ := Option.ite_none_right_eq_some.1 hs
    obtain ⟨f, hf, hs⟩ := Option.map_eq_some_iff.1 hs
    cases hs
    exact potential_woken hf (Endpoints.wakeWeight_receiverClose _ _ os)
  | share t h h' os =>
    obtain ⟨-, hs⟩ := Option.ite_none_right_eq_some.1 hs
    cases hs
    exact Nat.le_add_right _ _
  | length t os =>
    obtain ⟨-, hs⟩ := Option.ite_none_right_eq_some.1 hs
    cases hs
    exact Nat.le_add_right _ _
  | dropSender t h os =>
    obtain ⟨-, hs⟩ := Option.ite_none_right_eq_some.1 hs
    exact finalize_raises (by rfl) hs
  | dropReceiver t os =>
    obtain ⟨-, hs⟩ := Option.ite_none_right_eq_some.1 hs
    exact finalize_raises (by rfl) hs
  | _ => cases ha

theorem hasPotential (G : State T → Action T → State T → Prop) :
    Potential step G Action.own (fun _ => True) potential (callWeight (Fintype.card T)) where
  keep := fun _ _ _ => trivial
  lowers := fun _ hs _ ha => step_lowers hs ha
  raises := fun _ hs _ ha => step_raises hs ha

/-! ## Who can take a step -/

theorem submitLoop_enabled (s : State T) (t : T) (h : ℕ) (kind : SendKind) (bytes : Bytes)
    (message : Option Message) :
    ∃ pick r, s.endSubmit t h kind bytes message pick
      (submitLoop s.core bytes.length kind.block message {}) = some r := by
  cases message with
  | none =>
    simp only [submitLoop, ne_eq, not_true_eq_false, if_false]
    split_ifs <;> exact ⟨none, _, rfl⟩
  | some m =>
    simp only [submitLoop, ne_eq, not_true_eq_false, if_false]
    split_ifs
    · exact ⟨none, _, rfl⟩
    · exact ⟨none, _, rfl⟩
    · exact ⟨none, _, rfl⟩
    · exact ⟨none, _, rfl⟩
    · obtain ⟨pick, g, hg⟩ := exists_signal Point.cond .readable
        (Function.update s.threads t (.run .idle))
      refine ⟨pick, ?_⟩
      simp only [State.endSubmit, deliver_signal, hg, Option.map_some]
      exact ⟨_, rfl⟩

theorem receiveLoop_enabled (hI : Inv L s) (t : T) (block : Bool) :
    ∃ pick r, (receiveLoop s.core block {}).bind (s.endReceive t block pick) = some r := by
  simp only [receiveLoop, ne_eq, not_true_eq_false, if_false]
  split_ifs with h₁ h₂
  · exact ⟨none, _, rfl⟩
  · exact ⟨none, _, rfl⟩
  · exact ⟨none, _, rfl⟩
  · obtain ⟨m, hm, -⟩ := RingBuffer.exists_pop hI.core.ring (by simpa using h₂)
    obtain ⟨pick, g, hg⟩ := exists_signal Point.cond .writable
      (Function.update s.threads t (.run .idle))
    refine ⟨pick, ?_⟩
    simp only [hm, Option.bind_some, State.endReceive, deliver_signal, hg, Option.map_some]
    exact ⟨_, rfl⟩

theorem submit_enabled (s : State T) (t : T) (h : ℕ) (kind : SendKind) (bytes : Bytes)
    (message : Option Message) :
    ∃ pick r, s.endSubmit t h kind bytes message pick
      (submit s.core bytes.length kind.block message {}) = some r := by
  simp only [submit, ne_eq, not_true_eq_false, if_false]
  split_ifs
  · exact ⟨none, _, rfl⟩
  · exact submitLoop_enabled s t h kind bytes message

theorem endSubmit_handles {sec : Section Core Cond SubmitExit}
    (hs : s.endSubmit t h kind bytes message pick sec = some (s', e)) :
    s'.handles = s.handles := by
  unfold State.endSubmit at hs
  split at hs
  · cases hs
    rfl
  · cases hs
    rfl
  · obtain ⟨f, -, hs⟩ := Option.map_eq_some_iff.1 hs
    cases hs
    rfl

theorem endReceive_handles {sec : Section Core Cond ReceiveExit}
    (hs : s.endReceive t block pick sec = some (s', e)) : s'.handles = s.handles := by
  unfold State.endReceive at hs
  split at hs
  · cases hs
    rfl
  · obtain ⟨f, -, hs⟩ := Option.map_eq_some_iff.1 hs
    cases hs
    rfl

/-- A thread in an operation can go on. -/
theorem able_of_run (hI : Inv L s) (ht : s.threads t = .run p) (hp : p ≠ .idle) :
    Able step Assumed Action.own s := by
  have hbound : s.handles < 2147483648 := hI.counted.bound
  cases p with
  | idle => exact absurd rfl hp
  | submit h kind bytes message =>
    obtain ⟨pick, ⟨s', e⟩, hs⟩ := submit_enabled s t h kind bytes message
    refine ⟨.lock t {} pick, s', e, rfl, by simp only [step, ht]; exact hs, rfl, rfl, ?_⟩
    rwa [endSubmit_handles hs]
  | copy h kind bytes =>
    have hstep : (step s (.copy t)).isSome = true := by simp only [step, ht, Option.isSome_some]
    obtain ⟨⟨s', e⟩, hs⟩ := Option.isSome_iff_exists.1 hstep
    refine ⟨.copy t, s', e, rfl, hs, rfl, rfl, ?_⟩
    simp only [step, ht, Option.some.injEq, Prod.mk.injEq] at hs
    obtain ⟨rfl, -⟩ := hs
    exact hbound
  | receive block =>
    obtain ⟨pick, ⟨s', e⟩, hs⟩ := receiveLoop_enabled hI t block
    refine ⟨.lock t {} pick, s', e, rfl, by simp only [step, ht]; exact hs, rfl, rfl, ?_⟩
    obtain ⟨sec, -, hs⟩ := Option.bind_eq_some_iff.1 hs
    rwa [endReceive_handles hs]

/-- And so can one that has been woken. -/
theorem able_of_woken (hI : Inv L s) {w : Wake} (ht : s.threads t = .wait w p)
    (hw : w ≠ .asleep) : Able step Assumed Action.own s := by
  have hbound : s.handles < 2147483648 := hI.counted.bound
  have hok := (hI.threads t).2 w p ht
  cases p with
  | idle => cases hok
  | copy h kind bytes => cases hok
  | submit h kind bytes message =>
    obtain ⟨pick, ⟨s', e⟩, hs⟩ := submitLoop_enabled s t h kind bytes message
    have hstep : step s (.resume t {} pick) = some (s', e) := by
      cases w with
      | asleep => exact absurd rfl hw
      | notified => simp only [step, ht]; exact hs
      | spurious => simp only [step, ht]; exact hs
    refine ⟨.resume t {} pick, s', e, rfl, hstep, rfl, rfl, ?_⟩
    rwa [endSubmit_handles hs]
  | receive block =>
    obtain ⟨pick, ⟨s', e⟩, hs⟩ := receiveLoop_enabled hI t block
    have hstep : step s (.resume t {} pick) = some (s', e) := by
      cases w with
      | asleep => exact absurd rfl hw
      | notified => simp only [step, ht]; exact hs
      | spurious => simp only [step, ht]; exact hs
    refine ⟨.resume t {} pick, s', e, rfl, hstep, rfl, rfl, ?_⟩
    obtain ⟨sec, -, hs⟩ := Option.bind_eq_some_iff.1 hs
    rwa [endReceive_handles hs]

/-- **In a stuck channel every thread is at rest.** -/
theorem rested_of_stuck (hI : Inv L s) (hst : Stuck step Assumed Action.own s) (t : T) :
    (s.threads t).Rested (· = .idle) :=
  hst.rested (fun _ _ => able_of_run hI) (fun _ _ _ => able_of_woken hI) t

/-- Who takes a step of its own is not at rest. -/
theorem not_rested_of_own {a : Action T} (ha : a.own = true) (hs : step s a = some (s', e)) :
    ∃ t, ¬(s.threads t).Rested (· = .idle) := by
  cases a with
  | lock t os pick =>
    refine ⟨t, ?_⟩
    rintro (⟨p, rfl, h⟩ | ⟨p, h⟩) <;> simp [step, h] at hs
  | copy t =>
    refine ⟨t, ?_⟩
    rintro (⟨p, rfl, h⟩ | ⟨p, h⟩) <;> simp [step, h] at hs
  | resume t os pick =>
    refine ⟨t, ?_⟩
    rintro (⟨p, rfl, h⟩ | ⟨p, h⟩) <;> simp [step, h] at hs
  | _ => cases ha

/-! ## Stuck channels -/

/-- Every operation has returned or sleeps: a blocking send while messages are queued, a receive
while none is, both on an open channel. -/
def Settled (s : State T) : Prop :=
  ∀ t, s.threads t = .run .idle ∨
    (∃ h kind bytes message, s.threads t = .wait .asleep (.submit h kind bytes message) ∧
      kind.block = true ∧ s.core.Open ∧ s.core.ring.count ≠ 0) ∨
    s.threads t = .wait .asleep (.receive true) ∧ s.core.Open ∧ s.core.ring.count = 0

/-- A thread at rest is not on its way to insert. -/
theorem not_inserting_of_rested {x : Pc Point} (h : x.Rested (· = .idle)) :
    inserting x = false := by
  rcases h with ⟨p, rfl, rfl⟩ | ⟨p, rfl⟩ <;> rfl

/-- **A stuck channel is settled.** -/
theorem settled_of_stuck (h : Exec step Assumed (State.init L.core) es s)
    (hst : Stuck step Assumed Action.own s) : Settled s := by
  have hI := inv_of_exec h
  have ha := awake_of_exec h
  have hr := rested_of_stuck hI hst
  intro t
  rcases hr t with ⟨p, rfl, ht⟩ | ⟨p, ht⟩
  · exact .inl ht
  have hok := (hI.threads t).2 _ p ht
  have hopen : ∀ c, p.cond = some c → s.core.closed = false := by
    intro c hc
    by_contra hcl
    have hno := ha.closed (Bool.eq_true_of_not_eq_false hcl) c t
    rw [ht, Pc.asleepOn_asleep, hc] at hno
    simp at hno
  cases p with
  | idle => cases hok
  | copy h kind bytes => cases hok
  | submit k kind bytes message =>
    have ho := hopen .writable rfl
    refine .inr (.inl ⟨k, kind, bytes, message, ht, hok.1, hI.open_iff.2 ho, fun hc => ?_⟩)
    -- on an empty queue another sender would be on its way to insert
    have hcov := needOne_covered h (num_pos.2 ⟨t, by rw [ht]; rfl⟩)
    rw [Core.demand_of_open _ ho, hc, num_eq_zero.2 fun u => not_inserting_of_rested (hr u)] at hcov
    exact absurd hcov (by decide)
  | receive block =>
    obtain rfl : block = true := hok
    have ho := hopen .readable rfl
    refine .inr (.inr ⟨ht, hI.open_iff.2 ho, ?_⟩)
    by_contra hc
    have hno := ha.readable hc t
    rw [ht] at hno
    cases hno

/-- **The OwnedBytes channel makes progress.** In every run, whatever the primitives return, the `n`
threads take by themselves at most `2 * n + 4` steps for each call, also of share and drop, and each
wake-up for no reason. If the primitives succeed, no error is injected and the handles can be
counted, then from every state that is reached such steps lead to one in which no more can be taken;
and there every operation has returned, or the channel is open and the operation is a blocking send
and messages are queued, or a receive and none is. -/
theorem owned_bytes_progress (L : Limits) :
    (∀ G m k es s, Paced (step (T := T)) G Action.own (State.init L.core) m k es s →
      m ≤ (2 * Fintype.card T + 4) * k) ∧
    ∀ es s, Exec (step (T := T)) Assumed (State.init L.core) es s →
      (∃ m es' s', Paced step Assumed Action.own s m 0 es' s' ∧
        Stuck step Assumed Action.own s' ∧ Settled s') ∧
      (Stuck step Assumed Action.own s → Settled s) := by
  refine ⟨fun G m k es s h => ?_, fun es s h => ⟨?_, settled_of_stuck h⟩⟩
  · have hb := (hasPotential G).bound trivial h
    have hzero : potential (State.init L.core : State T) = 0 := Finset.sum_eq_zero fun _ _ => rfl
    change _ ≤ callWeight (Fintype.card T) * k
    omega
  · obtain ⟨m, es', s', hrun, hst⟩ := (hasPotential Assumed).settles (s := s) trivial
    exact ⟨m, es', s', hrun, hst, settled_of_stuck (h.trans hrun.exec) hst⟩

/-- One message of four bytes fills the channel; a second sender sleeps without having copied its
message, and then nobody can take a step. -/
theorem owned_bytes_progress_four_bytes :
    ∃ (m k : ℕ) (es : List (Event (Fin 2))) (s : State (Fin 2)),
      Paced step Assumed Action.own (State.init fourBytes.core) m k es s ∧
      Stuck step Assumed Action.own s ∧ (s.threads 1).asleepOn Point.cond .writable = true ∧
      s.core.ring.count ≠ 0 ∧ m ≤ 8 * k := by
  obtain ⟨es, s, h, ht⟩ := Exec.exists_of_run step Assumed (State.init (T := Fin 2) fourBytes.core)
    [.callSend 0 0 .trySend ⟨[1, 2, 3, 4], by decide⟩ 0, .lock 0 {} none, .copy 0, .lock 0 {} none,
      .callSend 1 0 .send ⟨[5, 6], by decide⟩ 0, .lock 1 {} none]
    (fun s _ => decide (s.threads 0 = .run .idle ∧
      s.threads 1 = .wait .asleep (.submit 0 .send ⟨[5, 6], by decide⟩ none)))
    (by decide +kernel)
  obtain ⟨h₀, h₁⟩ := of_decide_eq_true ht
  obtain ⟨m, k, hp⟩ := h.paced Action.own
  have hr : ∀ t, (s.threads t).Rested (· = .idle) := by
    intro t
    match t with
    | 0 => exact .inl ⟨_, rfl, h₀⟩
    | 1 => exact .inr ⟨_, h₁⟩
  have hst : Stuck step Assumed Action.own s := stuck_of_rested hr not_rested_of_own
  obtain ⟨hbound, hsettled⟩ := owned_bytes_progress (T := Fin 2) fourBytes
  refine ⟨m, k, es, s, hp, hst, by rw [h₁]; rfl, ?_, hbound _ _ _ _ _ hp⟩
  rcases (hsettled es s h).2 hst 1 with hidle | ⟨_, _, _, _, -, -, -, hcount⟩ | ⟨hrecv, -⟩
  · rw [h₁] at hidle
    cases hidle
  · exact hcount
  · rw [h₁] at hrecv
    cases hrecv

end NativeSync.OwnedBytes
