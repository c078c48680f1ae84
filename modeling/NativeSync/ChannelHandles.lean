import NativeSync.OwnedBytes.Outcomes
import NativeSync.Channel.Failures

/-!
# The handle counters of the channels

`share` of either channel adds one to the 32-bit counters `senders` and `refs` and tests nothing, as
the `share` of the thread pool does. `step_ends` says what a step does to the endpoints and handles,
whatever its primitives return; so the counters are exact, the channel is closed by the last sender
or by the receiver and the core is freed by the last handle, as long as no share is one too many
(`Ends.Crowded`).
-/

namespace NativeSync

open Foundations

theorem Ends.Step.same {x y : Ends} (h : y = x) : Ends.Step x .other y := by
  rw [h]
  exact .other x.core rfl rfl (.inr ⟨rfl, rfl⟩)

/-- The sender's `close`. -/
theorem Ends.Step.senderClose (x : Ends) (os : Os) :
    Ends.Step x .other { x with core := (x.core.senderClose os).core } := by
  unfold Endpoints.senderClose
  split_ifs
  · exact .same rfl
  · exact .other _ rfl rfl (.inl rfl)

/-- The receiver's `close`. -/
theorem Ends.Step.receiverClose (x : Ends) (os : Os) :
    Ends.Step x .other { x with core := (x.core.receiverClose os).core } := by
  unfold Endpoints.receiverClose
  split_ifs
  · exact .same rfl
  · exact .other _ rfl rfl (.inl rfl)

/-- The sender's `share` counts one more, or nothing where its lock fails. -/
theorem Ends.Step.senderShare (x : Ends) {h h' : ℕ} (hh : h ∈ x.senders) (hh' : h' ∉ x.senders)
    (os : Os) : Ends.Step x (if os.lock = 0 then .share else .other)
      { x with
        core := (x.core.senderShare os).core
        senders := if (x.core.senderShare os).exit.2 then insert h' x.senders else x.senders } := by
  by_cases hl : os.lock = 0
  · simp only [Endpoints.senderShare, hl, ne_eq, not_true_eq_false, if_false, if_true]
    exact .share h h' hh hh'
  · simp only [Endpoints.senderShare, hl, ne_eq, not_false_eq_true, if_true, if_false,
      Bool.false_eq_true]
    exact .same rfl

namespace OwnedBytes

variable {T : Type}

/-- The endpoints and handles of a state. -/
def State.ends (s : State T) : Ends := ⟨s.core.toEndpoints, s.senders, s.receiver, s.freed⟩

/-- What an action does to the handles. -/
def Action.kind : Action T → Ends.Kind
  | share _ _ _ os => if os.lock = 0 then .share else .other
  | dropSender .. => .drop .sender
  | dropReceiver .. => .drop .receiver
  | _ => .other

theorem submitLoop_endpoints (core : Core) (n : ℤ) (block : Bool) (message : Option Message)
    (os : Os) : (submitLoop core n block message os).core.toEndpoints = core.toEndpoints := by
  cases message <;> unfold submitLoop <;> dsimp only <;> split_ifs <;> rfl

theorem receiveLoop_endpoints {core : Core} {block : Bool} {os : Os}
    {sec : Section Core Cond ReceiveExit} (h : receiveLoop core block os = some sec) :
    sec.core.toEndpoints = core.toEndpoints := by
  unfold receiveLoop at h
  split at h
  · split at h <;> cases h <;> rfl
  · split at h
    · cases h
      rfl
    · split at h <;> cases h
      rfl

variable [Fintype T] [DecidableEq T] {s s' : State T} {e : List (Event T)} {a : Action T} {t : T}
  {pick : Option T}

theorem endSubmit_ends {h : ℕ} {kind : SendKind} {bytes : Bytes} {message : Option Message}
    {sec : Section Core Cond SubmitExit} (hc : sec.core.toEndpoints = s.core.toEndpoints)
    (hs : s.endSubmit t h kind bytes message pick sec = some (s', e)) : s'.ends = s.ends := by
  unfold State.endSubmit at hs
  split at hs
  · cases hs
    rfl
  · cases hs
    rfl
  · simp only [Option.map_eq_some_iff, Prod.mk.injEq] at hs
    obtain ⟨f, -, rfl, -⟩ := hs
    simp only [State.ends, hc]

theorem endReceive_ends {block : Bool} {sec : Section Core Cond ReceiveExit}
    (hc : sec.core.toEndpoints = s.core.toEndpoints)
    (hs : s.endReceive t block pick sec = some (s', e)) : s'.ends = s.ends := by
  unfold State.endReceive at hs
  split at hs
  · cases hs
    rfl
  · simp only [Option.map_eq_some_iff, Prod.mk.injEq] at hs
    obtain ⟨f, -, rfl, -⟩ := hs
    simp only [State.ends, hc]

/-- **What a step does to the handles**, whatever the primitives return. -/
theorem step_ends (hs : freeStep s a = some (s', e)) : Ends.Step s.ends a.kind s'.ends := by
  replace hs := (freeStep_eq_some.1 hs).2
  cases a with
  | callSend t h kind bytes injected =>
    simp only [manyStep, step] at hs
    split_ifs at hs <;> cases hs <;> exact .same rfl
  | callRecv t block =>
    simp only [manyStep] at hs
    split_ifs at hs
    cases hs
    exact .same rfl
  | lock t os pick =>
    refine .same ?_
    simp only [manyStep, step] at hs
    split at hs
    · refine endSubmit_ends ?_ hs
      unfold submit
      split_ifs
      · rfl
      · rfl
      · exact submitLoop_endpoints ..
    · obtain ⟨sec, hsec, hs⟩ := Option.bind_eq_some_iff.1 hs
      refine endReceive_ends ?_ hs
      unfold receive at hsec
      split_ifs at hsec
      · cases hsec
        rfl
      · exact receiveLoop_endpoints hsec
    · cases hs
  | copy t =>
    simp only [manyStep, step] at hs
    split at hs <;> cases hs
    exact .same rfl
  | spurious t =>
    simp only [manyStep, step] at hs
    split at hs <;> cases hs
    exact .same rfl
  | resume t os pick =>
    refine .same ?_
    simp only [manyStep, step] at hs
    split at hs
    · cases hs
    · refine endSubmit_ends ?_ hs
      unfold submitWoken
      split_ifs
      · rfl
      · exact submitLoop_endpoints ..
    · obtain ⟨sec, hsec, hs⟩ := Option.bind_eq_some_iff.1 hs
      refine endReceive_ends ?_ hs
      unfold receiveWoken at hsec
      split_ifs at hsec
      · cases hsec
        rfl
      · exact receiveLoop_endpoints hsec
    · cases hs
  | senderClose t h os =>
    simp only [manyStep, step, Option.ite_none_right_eq_some, Option.map_eq_some_iff,
      Prod.mk.injEq] at hs
    obtain ⟨-, f, -, rfl, -⟩ := hs
    exact .senderClose s.ends os
  | receiverClose t os =>
    simp only [manyStep, step, Option.ite_none_right_eq_some, Option.map_eq_some_iff,
      Prod.mk.injEq] at hs
    obtain ⟨-, f, -, rfl, -⟩ := hs
    exact .receiverClose s.ends os
  | share t h h' os =>
    simp only [manyStep, step, Option.ite_none_right_eq_some, Option.some.injEq,
      Prod.mk.injEq] at hs
    obtain ⟨⟨-, hh, hh'⟩, rfl, -⟩ := hs
    exact .senderShare s.ends hh hh' os
  | length t os =>
    simp only [manyStep, step, Option.ite_none_right_eq_some, Option.some.injEq,
      Prod.mk.injEq] at hs
    obtain ⟨-, rfl, -⟩ := hs
    exact .same rfl
  | dropSender t h os =>
    simp only [manyStep, step, Option.ite_none_right_eq_some] at hs
    obtain ⟨⟨-, hh, -⟩, hs⟩ := hs
    obtain ⟨sec, hsec, -⟩ := Option.bind_eq_some_iff.1 hs
    obtain rfl := finalize_os hsec
    rw [finalize, Endpoints.finalize_sender_ok, Option.map_some, Option.bind_some] at hs
    obtain ⟨rfl, -⟩ := endFinalize_eq hs
    exact .dropSender h hh
  | dropReceiver t os =>
    simp only [manyStep, step, Option.ite_none_right_eq_some] at hs
    obtain ⟨⟨-, hr, -⟩, hs⟩ := hs
    obtain ⟨sec, hsec, -⟩ := Option.bind_eq_some_iff.1 hs
    obtain rfl := finalize_os hsec
    rw [finalize, Endpoints.finalize_receiver_ok, Option.map_some, Option.bind_some] at hs
    obtain ⟨rfl, -⟩ := endFinalize_eq hs
    exact .dropReceiver hr

end OwnedBytes

namespace Channel

variable {α T : Type}

/-- The endpoints and handles of a state. -/
def State.ends (s : State α T) : Ends := ⟨s.core.toEndpoints, s.senders, s.receiver, s.freed⟩

/-- What an action does to the handles. -/
def Action.kind : Action α T → Ends.Kind
  | share _ _ _ os => if os.lock = 0 then .share else .other
  | dropSender .. => .drop .sender
  | dropReceiver .. => .drop .receiver
  | _ => .other

theorem trySend_endpoints (core : Core α) (m : Box α) (os : Os) :
    (trySend core m os).core.toEndpoints = core.toEndpoints := by
  unfold trySend
  split_ifs <;> rfl

theorem sendLoop_endpoints (core : Core α) (m : Box α) (os : Os) :
    (sendLoop core m os).core.toEndpoints = core.toEndpoints := by
  unfold sendLoop
  split_ifs <;> rfl

theorem receiveLoop_endpoints (core : Core α) (block : Bool) (os : Os) :
    (receiveLoop core block os).core.toEndpoints = core.toEndpoints := by
  unfold receiveLoop
  split_ifs <;> rfl

/-- A finalizer goes on only if its primitives succeed. -/
theorem finalize_os {core : Core α} {role : Role} {os : Os} {sec : Section (Core α) Cond Unit}
    (hs : finalize core role os = some sec) : os = {} := by
  by_contra hne
  simp [finalize, Endpoints.finalize, hne] at hs

variable [Fintype T] [DecidableEq T] {s s' : State α T} {e : List (Event α T)} {a : Action α T}
  {t : T} {pick : Option T}

theorem endSend_ends {h : ℕ} {kind : SendKind} {m : Box α}
    {sec : Section (Core α) Cond (SendExit α)}
    (hc : sec.core.toEndpoints = s.core.toEndpoints)
    (hs : s.endSend t h kind m pick sec = some (s', e)) : s'.ends = s.ends := by
  obtain ⟨core, f, rfl, rfl | rfl⟩ := endSend_frame hs
  · rfl
  · simp only [State.ends, hc]

theorem endReceive_ends {block : Bool} {sec : Section (Core α) Cond (ReceiveExit α)}
    (hc : sec.core.toEndpoints = s.core.toEndpoints)
    (hs : s.endReceive t block pick sec = some (s', e)) : s'.ends = s.ends := by
  obtain ⟨core, f, rfl, rfl | rfl⟩ := endReceive_frame hs
  · rfl
  · simp only [State.ends, hc]

/-- **What a step does to the handles**, whatever the primitives return. -/
theorem step_ends (hs : step s a = some (s', e)) : Ends.Step s.ends a.kind s'.ends := by
  cases a with
  | callSend t h kind v injected =>
    simp only [step] at hs
    split_ifs at hs
    · obtain ⟨r, -, hs⟩ := Option.map_eq_some_iff.1 hs
      cases hs
      exact .same rfl
    · cases hs
      exact .same rfl
  | callRecv t block =>
    simp only [step] at hs
    split_ifs at hs
    cases hs
    exact .same rfl
  | lock t os pick =>
    refine .same ?_
    simp only [step] at hs
    split at hs
    · exact endSend_ends (trySend_endpoints ..) hs
    · refine endSend_ends ?_ hs
      unfold send
      split_ifs
      · rfl
      · exact sendLoop_endpoints ..
    · refine endReceive_ends ?_ hs
      unfold receive
      split_ifs
      · rfl
      · exact receiveLoop_endpoints ..
    · cases hs
  | spurious t =>
    simp only [step] at hs
    split at hs <;> cases hs
    exact .same rfl
  | resume t os pick =>
    refine .same ?_
    simp only [step] at hs
    split at hs
    · cases hs
    · refine endSend_ends ?_ hs
      unfold sendWoken
      split_ifs
      · rfl
      · exact sendLoop_endpoints ..
    · refine endReceive_ends ?_ hs
      unfold receiveWoken
      split_ifs
      · rfl
      · exact receiveLoop_endpoints ..
    · cases hs
  | senderClose t h os =>
    simp only [step, Option.ite_none_right_eq_some, Option.map_eq_some_iff, Prod.mk.injEq] at hs
    obtain ⟨-, f, -, rfl, -⟩ := hs
    exact .senderClose s.ends os
  | receiverClose t os =>
    simp only [step, Option.ite_none_right_eq_some, Option.map_eq_some_iff, Prod.mk.injEq] at hs
    obtain ⟨-, f, -, rfl, -⟩ := hs
    exact .receiverClose s.ends os
  | share t h h' os =>
    simp only [step, Option.ite_none_right_eq_some, Option.some.injEq, Prod.mk.injEq] at hs
    obtain ⟨⟨-, hh, hh'⟩, rfl, -⟩ := hs
    exact .senderShare s.ends hh hh' os
  | length t os =>
    simp only [step, Option.ite_none_right_eq_some, Option.some.injEq, Prod.mk.injEq] at hs
    obtain ⟨-, rfl, -⟩ := hs
    exact .same rfl
  | dropSender t h os =>
    simp only [step, Option.ite_none_right_eq_some] at hs
    obtain ⟨⟨-, hh, -⟩, hs⟩ := hs
    obtain ⟨sec, hsec, -⟩ := Option.bind_eq_some_iff.1 hs
    obtain rfl := finalize_os hsec
    rw [finalize, Endpoints.finalize_sender_ok, Option.map_some, Option.bind_some] at hs
    obtain ⟨rfl, -⟩ := endFinalize_eq hs
    exact .dropSender h hh
  | dropReceiver t os =>
    simp only [step, Option.ite_none_right_eq_some] at hs
    obtain ⟨⟨-, hr, -⟩, hs⟩ := hs
    obtain ⟨sec, hsec, -⟩ := Option.bind_eq_some_iff.1 hs
    obtain rfl := finalize_os hsec
    rw [finalize, Endpoints.finalize_receiver_ok, Option.map_some, Option.bind_some] at hs
    obtain ⟨rfl, -⟩ := endFinalize_eq hs
    exact .dropReceiver hr

end Channel

/-! ## The counters along a run -/

/-- The endpoints of a new channel. -/
theorem Ends.proper_init {c : Endpoints} (hs : c.senders = 1) (hr : c.refs = 2)
    (ha : c.receiverAlive = true) : Ends.Proper ⟨c, {0}, true, false⟩ := by
  have hcard : Ends.handles ⟨c, {0}, true, false⟩ = 2 := rfl
  refine ⟨⟨?_, ?_, fun h => ?_⟩, ?_, ?_⟩
  · change c.senders = wrap32 ({0} : Finset ℕ).card
    rw [hs]
    rfl
  · rw [hcard]
    exact hr
  · rw [ha] at h
    cases h
  · rw [hcard]
    decide
  · rw [hcard]
    change false = true ↔ 2 = 0
    decide

/-- What a step does to a channel whose counters are exact. -/
theorem Ends.Proper.step {x y : Ends} {k : Ends.Kind} (hx : x.Proper) (h : Ends.Step x k y) :
    (∀ role, k = .drop role →
      (x.core.closed = false → (y.core.closed = true ↔ role = .receiver ∨ x.senders.card = 1)) ∧
        (y.core.refs = 0 ↔ y.handles = 0)) ∧
      (y.Exact ↔ ¬x.Crowded k) := by
  refine ⟨fun role hk => ?_, h.exact_iff hx.counts hx.bound⟩
  subst hk
  have hb : x.handles ≤ 4294967296 := hx.bound.trans (by decide)
  exact ⟨h.closed_iff hx.counts hb, h.refs_eq_zero hx.counts (not_earlyFree hb)⟩

/-- **When the handle counters are exact.** In every run of either channel without a share that is
one too many, and whatever the primitives return, the counters are the numbers of live handles, and
the core is freed exactly when there are none. Of the next step: a drop closes an open channel
exactly when it is that of the last sender or of the receiver; it brings the references to zero
exactly when it is that of the last handle; and the counters are exact after it if and only if it is
not a share that is one too many. -/
theorem channel_handles_iff {α T : Type} [Fintype T] [DecidableEq T] :
    (∀ (L : OwnedBytes.Limits) (es : List (OwnedBytes.Event T)) (s : OwnedBytes.State T),
      Exec OwnedBytes.freeStep (fun s a _ => ¬s.ends.Crowded a.kind)
        (OwnedBytes.State.init L.core) es s →
      (s.ends.Exact ∧ s.ends.handles ≤ 2147483647 ∧ (s.freed = true ↔ s.ends.handles = 0)) ∧
        ∀ (a : OwnedBytes.Action T) (s' : OwnedBytes.State T) (e : List (OwnedBytes.Event T)),
          OwnedBytes.freeStep s a = some (s', e) →
          (∀ role, a.kind = .drop role →
            (s.core.closed = false →
              (s'.core.closed = true ↔ role = .receiver ∨ s.senders.card = 1)) ∧
              (s'.core.refs = 0 ↔ s'.ends.handles = 0)) ∧
          (s'.ends.Exact ↔ ¬s.ends.Crowded a.kind)) ∧
    (∀ (n : ℕ) (es : List (Channel.Event α T)) (s : Channel.State α T),
      Exec Channel.step (fun s a _ => ¬s.ends.Crowded a.kind) (Channel.State.init n) es s →
      (s.ends.Exact ∧ s.ends.handles ≤ 2147483647 ∧ (s.freed = true ↔ s.ends.handles = 0)) ∧
        ∀ (a : Channel.Action α T) (s' : Channel.State α T) (e : List (Channel.Event α T)),
          Channel.step s a = some (s', e) →
          (∀ role, a.kind = .drop role →
            (s.core.closed = false →
              (s'.core.closed = true ↔ role = .receiver ∨ s.senders.card = 1)) ∧
              (s'.core.refs = 0 ↔ s'.ends.handles = 0)) ∧
          (s'.ends.Exact ↔ ¬s.ends.Crowded a.kind)) := by
  refine ⟨fun L es s h => ?_, fun n es s h => ?_⟩
  · have hp : s.ends.Proper :=
      h.stateInvariant (I := fun s => s.ends.Proper) (Ends.proper_init rfl rfl rfl)
        fun hI hs hG => (OwnedBytes.step_ends hs).proper hI hG
    exact ⟨⟨hp.counts.exact_iff.2 hp.bound, hp.bound, hp.freed⟩,
      fun a s' e hs => hp.step (OwnedBytes.step_ends hs)⟩
  · have hp : s.ends.Proper :=
      h.stateInvariant (I := fun s => s.ends.Proper) (Ends.proper_init rfl rfl rfl)
        fun hI hs hG => (Channel.step_ends hs).proper hI hG
    exact ⟨⟨hp.counts.exact_iff.2 hp.bound, hp.bound, hp.freed⟩,
      fun a s' e hs => hp.step (Channel.step_ends hs)⟩

/-- A sender is shared and one of the two is dropped; dropping the other one closes the channel. -/
theorem channel_handles_iff_last_sender :
    (∃ (es : List (OwnedBytes.Event (Fin 1))) (s s' : OwnedBytes.State (Fin 1))
        (e : List (OwnedBytes.Event (Fin 1))),
      Exec OwnedBytes.freeStep (fun s a _ => ¬s.ends.Crowded a.kind)
        (OwnedBytes.State.init OwnedBytes.fourBytes.core) es s ∧
      OwnedBytes.freeStep s (.dropSender 0 7 {}) = some (s', e) ∧ s.core.closed = false ∧
      s.senders = {7} ∧ s.core.senders = s.senders.card ∧ s'.core.closed = true) ∧
    (∃ (es : List (Channel.Event ℕ (Fin 1))) (s s' : Channel.State ℕ (Fin 1))
        (e : List (Channel.Event ℕ (Fin 1))),
      Exec Channel.step (fun s a _ => ¬s.ends.Crowded a.kind) (Channel.State.init 2) es s ∧
      Channel.step s (.dropSender 0 7 {}) = some (s', e) ∧ s.core.closed = false ∧
      s.senders = {7} ∧ s.core.senders = s.senders.card ∧ s'.core.closed = true) := by
  constructor
  · obtain ⟨es, s, s', e, h, hs, ht⟩ := Exec.exists_step_of_run OwnedBytes.freeStep
      (fun s a _ => ¬s.ends.Crowded a.kind)
      (OwnedBytes.State.init (T := Fin 1) OwnedBytes.fourBytes.core)
      [.share 0 0 7 {}, .dropSender 0 0 {}] (.dropSender 0 7 {})
      (fun s _ _ => decide (s.core.closed = false ∧ s.senders = {7}))
      (by decide +kernel)
    obtain ⟨hc, h7⟩ := of_decide_eq_true ht
    obtain ⟨⟨hx, -⟩, hnext⟩ := (channel_handles_iff (α := ℕ)).1 _ es s h
    have hclosed := ((hnext _ s' e hs).1 .sender rfl).1 hc
    exact ⟨es, s, s', e, h, hs, hc, h7, hx.senders, hclosed.2 (.inr (by rw [h7]; rfl))⟩
  · obtain ⟨es, s, s', e, h, hs, ht⟩ := Exec.exists_step_of_run Channel.step
      (fun s a _ => ¬s.ends.Crowded a.kind) (Channel.State.init 2 : Channel.State ℕ (Fin 1))
      [.share 0 0 7 {}, .dropSender 0 0 {}] (.dropSender 0 7 {})
      (fun s _ _ => decide (s.core.closed = false ∧ s.senders = {7}))
      (by decide +kernel)
    obtain ⟨hc, h7⟩ := of_decide_eq_true ht
    obtain ⟨⟨hx, -⟩, hnext⟩ := channel_handles_iff.2 _ es s h
    have hclosed := ((hnext _ s' e hs).1 .sender rfl).1 hc
    exact ⟨es, s, s', e, h, hs, hc, h7, hx.senders, hclosed.2 (.inr (by rw [h7]; rfl))⟩

/-! ## Too many shares -/

namespace OwnedBytes

variable {T : Type} [Fintype T] [DecidableEq T]

/-- A share of the first of `n + 1` senders. -/
theorem freeStep_share {s : State T} {t : T} (n : ℕ) (senders refs : ℤ)
    (ht : s.threads t = .run .idle) (hf : s.freed = false) :
    freeStep
        { s with core := { s.core with senders, refs }, senders := Finset.range (n + 1) }
        (.share t 0 (n + 1) {}) =
      some ({ s with
          core := { s.core with senders := wrap32 (senders + 1), refs := arcInc refs }
          senders := Finset.range (n + 1 + 1) },
        [.ret t .share (.unit (.ok ()))]) := by
  have hmem : 0 ∈ Finset.range (n + 1) := Finset.mem_range.2 (Nat.succ_pos _)
  have hnew : n + 1 ∉ Finset.range (n + 1) := Finset.notMem_range_self
  refine freeStep_eq_some.2 ⟨hf, ?_⟩
  simp only [manyStep, step, ht, hmem, hnew, not_false_eq_true, and_self, if_true]
  rw [Finset.range_add_one (n := n + 1)]
  rfl

/-- A thread shares its sender any number of times. -/
theorem exec_shares {s : State T} {t : T} (ht : s.threads t = .run .idle) (hf : s.freed = false)
    {k : ℕ} (hk : s.senders = Finset.range (k + 1)) (n : ℕ) :
    ∃ es senders refs, Exec freeStep AnyStatus s es
      { s with
        core := { s.core with senders, refs }
        senders := Finset.range (k + n + 1) } := by
  induction n with
  | zero =>
    refine ⟨[], s.core.senders, s.core.refs, ?_⟩
    rw [Nat.add_zero, ← hk]
    exact .start
  | succ n ih =>
    obtain ⟨es, senders, refs, h⟩ := ih
    exact ⟨es ++ [.ret t .share (.unit (.ok ()))], wrap32 (senders + 1), arcInc refs,
      h.step (freeStep_share _ _ _ ht hf) trivial⟩

end OwnedBytes

/-- After `2^31 - 1` shares there are `2^31` live senders, and the counter is negative. -/
theorem channel_handles_wrap :
    ∃ (es : List (OwnedBytes.Event (Fin 1))) (s : OwnedBytes.State (Fin 1)),
      Exec OwnedBytes.freeStep AnyStatus
        (OwnedBytes.State.init OwnedBytes.fourBytes.core) es s ∧
      s.senders.card = 2147483648 ∧ s.core.senders = -2147483648 := by
  obtain ⟨es, senders, refs, h⟩ := OwnedBytes.exec_shares
    (s := OwnedBytes.State.init (T := Fin 1) OwnedBytes.fourBytes.core) (t := 0) (k := 0) rfl rfl
    rfl 2147483647
  have hcounts := h.stateInvariant (I := fun s => s.ends.Counts)
    (Ends.proper_init rfl rfl rfl).counts fun hI hs _ => (OwnedBytes.step_ends hs).counts hI
  have hcard : (Finset.range (0 + 2147483647 + 1)).card = 2147483648 := Finset.card_range _
  refine ⟨es, _, h, hcard, hcounts.senders.trans ?_⟩
  change wrap32 ((Finset.range (0 + 2147483647 + 1)).card : ℤ) = _
  rw [hcard]
  rfl

end NativeSync
