import NativeSync.OwnedBytes.System

/-!
# The OwnedBytes channel: what a step can do

`step_move` says once what every step of the system does when the primitives succeed: it is one of
the moves of `Move`, each of which names the state it leads to and the facts about the core that
the code has checked under the mutex. Every invariant of the channel is proved from the moves.
-/

namespace NativeSync.OwnedBytes

open Foundations

variable {T : Type}

/-- There is room for a message of this length: a free slot and enough of the byte budget. -/
def Core.Fits (core : Core) (length : ℤ) : Prop :=
  core.ring.count ≠ core.ring.capacity ∧ core.hasByteCapacity length = true

/-- The core after a message was enqueued. -/
def Core.enqueue (core : Core) (m : Message) (length : ℤ) : Core :=
  { core with ring := core.ring.push m, queuedBytes := core.queuedBytes + length }

/-- The core after the message at the head was dequeued. -/
def Core.dequeue (core : Core) (m : Message) : Core :=
  { core with ring := core.ring.pop, queuedBytes := core.queuedBytes - m.length }

/-- Why a send fails, with its code: the message is too large, the channel is closed, or it does
not block and there is no room. -/
inductive Refused (core : Core) (length : ℤ) (block : Bool) : ℤ → Prop
  | tooLarge (h : core.maxMessageBytes < length) : Refused core length block 3
  | closed (h : ¬core.Open) : Refused core length block 2
  | full (h : core.Open) (hb : block = false) (hf : core.ring.count = core.ring.capacity) :
      Refused core length block 1
  | overBudget (h : core.Open) (hb : block = false) (hf : core.ring.count ≠ core.ring.capacity)
      (hq : core.hasByteCapacity length = false) : Refused core length block 4

/-- The event of a copy that is given up. -/
def releaseEvent (message : Option Message) : List (Event T) :=
  (message.map fun m => Event.released m.addr).toList

/-- The core after a sender handle was finalized and gave up its reference. -/
def Core.dropSender (core : Core) : Core :=
  core.setEndpoints core.toEndpoints.dropSender.release

/-- The core after the receiver handle was finalized and gave up its reference. -/
def Core.dropReceiver (core : Core) : Core :=
  core.setEndpoints core.toEndpoints.dropReceiver.release

/-- The events of giving up a reference: the last one releases the queued copies and the core. -/
def freeEvents (core : Core) : List (Event T) :=
  if core.refs = 0 then (core.ring.slotList.map fun m => Event.released m.addr) ++ [.freed]
  else []

variable [DecidableEq T]

/-- The moves of the system; `b` is the message that a call brings along. -/
inductive Move (b : Option Bytes) (s : State T) : State T → List (Event T) → Prop
  | callSend (t : T) (h : ℕ) (kind : SendKind) (bytes : Bytes) (hb : b = some bytes)
      (ht : s.threads t = .run .idle) (hh : h ∈ s.senders) :
      Move b s (s.move t (.run (.submit h kind bytes none))) []
  | callRecv (t : T) (block : Bool) (ht : s.threads t = .run .idle) (hr : s.receiver = true)
      (hu : ∀ u, (s.threads u).point.receiving = false) :
      Move b s (s.move t (.run (.receive block))) []
  | sendRefused (t : T) (h : ℕ) (kind : SendKind) (bytes : Bytes) (message : Option Message)
      (code : ℤ) (ht : (s.threads t).Ready (.submit h kind bytes message))
      (hlen : s.threads t = .run (.submit h kind bytes message) → code ≠ 3 →
        bytes.length ≤ s.core.maxMessageBytes)
      (hc : Refused s.core bytes.length kind.block code) :
      Move b s (s.move t (.run .idle)) (releaseEvent message ++
        [.ret t (.send kind bytes) (kind.result s.core bytes code 0)])
  | sendSleep (t : T) (h : ℕ) (kind : SendKind) (bytes : Bytes) (message : Option Message)
      (ht : (s.threads t).Ready (.submit h kind bytes message))
      (hlen : s.threads t = .run (.submit h kind bytes message) →
        bytes.length ≤ s.core.maxMessageBytes)
      (hb : kind.block = true) (ho : s.core.Open) (hf : ¬s.core.Fits bytes.length) :
      Move b s (s.move t (.wait .asleep (.submit h kind bytes message))) []
  | sendCopy (t : T) (h : ℕ) (kind : SendKind) (bytes : Bytes)
      (ht : (s.threads t).Ready (.submit h kind bytes none))
      (hlen : s.threads t = .run (.submit h kind bytes none) →
        bytes.length ≤ s.core.maxMessageBytes)
      (ho : s.core.Open) (hf : s.core.Fits bytes.length) :
      Move b s (s.move t (.run (.copy h kind bytes))) []
  | copied (t : T) (h : ℕ) (kind : SendKind) (bytes : Bytes)
      (ht : s.threads t = .run (.copy h kind bytes)) :
      Move b s { s.move t (.run (.submit h kind bytes
          (some (messageCopy s.copies bytes bytes.length)))) with copies := s.copies + 1 }
        [.copied s.copies]
  | sent (t : T) (h : ℕ) (kind : SendKind) (bytes : Bytes) (m : Message) (f : T → Pc Point)
      (ht : (s.threads t).Ready (.submit h kind bytes (some m)))
      (hlen : s.threads t = .run (.submit h kind bytes (some m)) →
        bytes.length ≤ s.core.maxMessageBytes)
      (ho : s.core.Open) (hf : s.core.Fits bytes.length)
      (hs : Signalled Point.cond .readable (Function.update s.threads t (.run .idle)) f) :
      Move b s { s with core := s.core.enqueue m bytes.length, threads := f }
        [.ret t (.send kind bytes) (kind.result s.core bytes 0 0)]
  | recvSleep (t : T) (ht : (s.threads t).Ready (.receive true)) (hc : s.core.ring.count = 0)
      (ho : s.core.closed = false) : Move b s (s.move t (.wait .asleep (.receive true))) []
  | recvNothing (t : T) (block : Bool) (ht : (s.threads t).Ready (.receive block))
      (hc : s.core.ring.count = 0) (hb : block = true → s.core.closed = true) :
      Move b s (s.move t (.run .idle)) [.ret t (.recv block)
        (recvOpResult block none (if s.core.closed then 2 else 1) 0)]
  | received (t : T) (block : Bool) (m : Message) (f : T → Pc Point)
      (ht : (s.threads t).Ready (.receive block)) (hc : s.core.ring.count ≠ 0)
      (hm : s.core.ring.slots s.core.ring.head = some m)
      (hs : Signalled Point.cond .writable (Function.update s.threads t (.run .idle)) f) :
      Move b s { s with core := s.core.dequeue m, threads := f }
        [.released m.addr, .ret t (.recv block) (recvOpResult block (some m) 0 0)]
  | spurious (t : T) (p : Point) (ht : s.threads t = .wait .asleep p) :
      Move b s (s.move t (.wait .spurious p)) []
  | closed (t : T) (op : Op) (alive : Bool) (ht : s.threads t = .run .idle)
      (hop : op = .senderClose ∧ alive = s.core.receiverAlive ∨
        op = .receiverClose ∧ alive = false) :
      Move b s { s with
          core := { s.core with closed := true, receiverAlive := alive }
          threads := wakeAll Point.cond s.threads }
        [.ret t op (.unit (.ok ()))]
  | share (t : T) (h h' : ℕ) (ht : s.threads t = .run .idle) (hh : h ∈ s.senders)
      (hh' : h' ∉ s.senders) :
      Move b s { s with
          core := { s.core with senders := wrap32 (s.core.senders + 1), refs := arcInc s.core.refs }
          senders := insert h' s.senders }
        [.ret t .share (.unit (.ok ()))]
  | length (t : T) (ht : s.threads t = .run .idle) (hr : s.receiver = true) :
      Move b s s [.ret t .length (.length (.ok s.core.ring.count))]
  | dropSender (t : T) (h : ℕ) (ht : s.threads t = .run .idle) (hh : h ∈ s.senders)
      (hu : ∀ u, (s.threads u).point.handle ≠ some h) :
      Move b s { s with
          core := s.core.dropSender
          threads :=
            if s.core.dropSender.senders = 0 then wakeAll Point.cond s.threads else s.threads
          senders := s.senders.erase h
          freed := s.freed || decide (s.core.dropSender.refs = 0) }
        (freeEvents s.core.dropSender ++ [.ret t (.drop .sender) (.unit (.ok ()))])
  | dropReceiver (t : T) (ht : s.threads t = .run .idle) (hr : s.receiver = true)
      (hu : ∀ u, (s.threads u).point.receiving = false) :
      Move b s { s with
          core := s.core.dropReceiver
          threads := if s.core.receiverAlive then wakeAll Point.cond s.threads else s.threads
          receiver := false
          freed := s.freed || decide (s.core.dropReceiver.refs = 0) }
        (freeEvents s.core.dropReceiver ++ [.ret t (.drop .receiver) (.unit (.ok ()))])

/-! ## The critical sections with successful primitives -/

theorem submitLoop_ok (core : Core) (length : ℤ) (block : Bool) (message : Option Message) :
    submitLoop core length block message {} =
      if block && !core.closed && core.receiverAlive &&
          (core.ring.count == core.ring.capacity || !core.hasByteCapacity length) then
        { core, exit := .sleep }
      else if core.closed || !core.receiverAlive then { core, exit := .ret 2 0 message }
      else if core.ring.count == core.ring.capacity then { core, exit := .ret 1 0 message }
      else if !core.hasByteCapacity length then { core, exit := .ret 4 0 message }
      else
        match message with
        | none => { core, exit := .copy }
        | some m =>
          { core := core.enqueue m length, wakes := [.signal .readable]
            exit := .ret 0 0 none } := by
  simp only [submitLoop, ne_eq, not_true_eq_false, if_false, recordError_zero, if_true]
  rfl

theorem receiveLoop_ok (core : Core) (block : Bool) :
    receiveLoop core block {} =
      if block && core.ring.count == 0 && !core.closed then some { core, exit := .sleep }
      else if core.ring.count == 0 then
        some { core, exit := .ret (if core.closed then 2 else 1) 0 none }
      else
        match core.ring.slots core.ring.head with
        | none => none
        | some m =>
          some { core := core.dequeue m, wakes := [.signal .writable]
                 exit := .ret 0 0 (some m) } := by
  simp only [receiveLoop, ne_eq, not_true_eq_false, if_false, recordError_zero, if_true]
  rfl

theorem Core.not_fits_iff (core : Core) (length : ℤ) : ¬core.Fits length ↔
    (core.ring.count == core.ring.capacity || !core.hasByteCapacity length) = true := by
  cases hq : core.hasByteCapacity length <;> simp [Core.Fits, hq]

/-! ## Every step is a move -/

variable [Fintype T] {b : Option Bytes} {s s' : State T} {e : List (Event T)}

theorem submitLoop_move {t : T} {h : ℕ} {kind : SendKind} {bytes : Bytes}
    {message : Option Message} {pick : Option T}
    (ht : (s.threads t).Ready (.submit h kind bytes message))
    (hlen : s.threads t = .run (.submit h kind bytes message) →
      bytes.length ≤ s.core.maxMessageBytes)
    (hs : s.endSubmit t h kind bytes message pick
      (submitLoop s.core bytes.length kind.block message {}) = some (s', e)) : Move b s s' e := by
  rw [submitLoop_ok] at hs
  split_ifs at hs with h₁ h₂ h₃ h₄
  · obtain ⟨rfl, rfl⟩ := by simpa [State.endSubmit] using hs
    simp only [Bool.and_eq_true, Bool.not_eq_true'] at h₁
    exact .sendSleep t h kind bytes message ht hlen h₁.1.1.1 ⟨h₁.1.1.2, h₁.1.2⟩
      ((Core.not_fits_iff _ _).2 h₁.2)
  · obtain ⟨rfl, rfl⟩ := by simpa [State.endSubmit, deliver] using hs
    exact .sendRefused t h kind bytes message 2 ht (fun h' _ => hlen h')
      (.closed ((Endpoints.not_open_iff _).2 h₂))
  · obtain ⟨rfl, rfl⟩ := by simpa [State.endSubmit] using hs
    have ho : s.core.Open := by rwa [← not_not (a := s.core.Open), Endpoints.not_open_iff]
    have hb : kind.block = false := by
      by_contra hb
      simp_all [Endpoints.Open]
    exact .sendRefused t h kind bytes message 1 ht (fun h' _ => hlen h')
      (.full ho hb (by simpa using h₃))
  · obtain ⟨rfl, rfl⟩ := by simpa [State.endSubmit] using hs
    have ho : s.core.Open := by rwa [← not_not (a := s.core.Open), Endpoints.not_open_iff]
    have hb : kind.block = false := by
      by_contra hb
      simp_all [Endpoints.Open]
    exact .sendRefused t h kind bytes message 4 ht (fun h' _ => hlen h')
      (.overBudget ho hb (by simpa using h₃) (by simpa using h₄))
  · have ho : s.core.Open := by rwa [← not_not (a := s.core.Open), Endpoints.not_open_iff]
    have hf : s.core.Fits bytes.length := ⟨by simpa using h₃, by simpa using h₄⟩
    rcases message with _ | m
    · obtain ⟨rfl, rfl⟩ := by simpa [State.endSubmit] using hs
      exact .sendCopy t h kind bytes ht hlen ho hf
    · simp only [State.endSubmit, deliver_signal, Option.map_eq_some_iff, Prod.mk.injEq] at hs
      obtain ⟨f, hf', rfl, rfl⟩ := hs
      exact .sent t h kind bytes m f ht hlen ho hf (signal_signalled hf')

theorem receiveLoop_move {t : T} {block : Bool} {pick : Option T}
    (ht : (s.threads t).Ready (.receive block))
    (hs : (receiveLoop s.core block {}).bind (s.endReceive t block pick) = some (s', e)) :
    Move b s s' e := by
  rw [receiveLoop_ok] at hs
  by_cases h₁ : (block && s.core.ring.count == 0 && !s.core.closed) = true
  · rw [if_pos h₁] at hs
    simp only [Bool.and_eq_true, beq_iff_eq, Bool.not_eq_true'] at h₁
    obtain ⟨⟨rfl, h₂⟩, h₃⟩ := h₁
    obtain ⟨rfl, rfl⟩ := by simpa [State.endReceive] using hs
    exact .recvSleep t ht h₂ h₃
  rw [if_neg h₁] at hs
  by_cases hc : s.core.ring.count = 0
  · have hb : block = true → s.core.closed = true := by
      rintro rfl
      simpa [hc] using h₁
    rw [if_pos (by simpa using hc)] at hs
    simp only [Option.bind_some, State.endReceive, deliver_nil, Option.map_some,
      Option.some.injEq, Prod.mk.injEq] at hs
    obtain ⟨rfl, rfl⟩ := hs
    exact .recvNothing t block ht hc hb
  · rw [if_neg (by simpa using hc)] at hs
    cases hm : s.core.ring.slots s.core.ring.head with
    | none => simp [hm] at hs
    | some m =>
      simp only [hm, Option.bind_some, State.endReceive, deliver_signal, Option.map_eq_some_iff,
        Prod.mk.injEq] at hs
      obtain ⟨f, hf, rfl, rfl⟩ := hs
      exact .received t block m f ht hc hm (signal_signalled hf)

theorem endFinalize_eq {t : T} {role : Role} {c : Endpoints} {p : Prop} [Decidable p]
    (hs : s.endFinalize t role
      { core := s.core.setEndpoints c
        wakes := if p then [.broadcast .readable, .broadcast .writable] else [], exit := () } =
        some (s', e)) :
    s' = { s with
      core := s.core.setEndpoints c.release
      threads := if p then wakeAll Point.cond s.threads else s.threads
      freed := s.freed || decide (c.release.refs = 0) } ∧
    e = freeEvents (s.core.setEndpoints c.release) ++
      [.ret t (.drop role) (.unit (.ok ()))] := by
  simp only [State.endFinalize, deliver_wakeAll, Option.map_some, Option.some.injEq,
    Prod.mk.injEq] at hs
  obtain ⟨rfl, rfl⟩ := hs
  by_cases h : arcDec c.refs = 0 <;>
    simp [coreRelease, Core.setEndpoints, Endpoints.release, freeEvents, h]

/-- **Every step whose primitives succeed is a move.** -/
theorem step_move {a : Action T} (hs : step s a = some (s', e)) (hos : a.os = {})
    (hinj : a.injected = 0) : Move a.bytes s s' e := by
  cases a with
  | callSend t h kind bytes injected =>
    obtain rfl : injected = 0 := hinj
    simp only [step] at hs
    split_ifs at hs with h₁ h₂
    · exact absurd rfl h₂
    · obtain ⟨rfl, rfl⟩ := by simpa using hs
      exact .callSend t h kind bytes rfl h₁.1 h₁.2
  | callRecv t block =>
    simp only [step] at hs
    split_ifs at hs with h₁
    obtain ⟨rfl, rfl⟩ := by simpa using hs
    exact .callRecv t block h₁.1 h₁.2.1 h₁.2.2
  | lock t os pick =>
    obtain rfl : os = {} := hos
    simp only [step] at hs
    split at hs
    · rename_i h kind bytes message ht
      simp only [submit, ne_eq, not_true_eq_false, if_false] at hs
      split_ifs at hs with hlen
      · obtain ⟨rfl, rfl⟩ := by simpa [State.endSubmit] using hs
        exact .sendRefused t h kind bytes message 3 (.inl ht) (fun _ h3 => absurd rfl h3)
          (.tooLarge hlen)
      · exact submitLoop_move (.inl ht) (fun _ => not_lt.1 hlen) hs
    · rename_i block ht
      simp only [receive, ne_eq, not_true_eq_false, if_false] at hs
      exact receiveLoop_move (.inl ht) hs
    · simp at hs
  | copy t =>
    simp only [step] at hs
    split at hs
    · rename_i h kind bytes ht
      obtain ⟨rfl, rfl⟩ := by simpa using hs
      exact .copied t h kind bytes ht
    · simp at hs
  | spurious t =>
    simp only [step] at hs
    split at hs
    · rename_i p ht
      obtain ⟨rfl, rfl⟩ := by simpa using hs
      exact .spurious t p ht
    · simp at hs
  | resume t os pick =>
    obtain rfl : os = {} := hos
    simp only [step] at hs
    split at hs
    · simp at hs
    · rename_i w h kind bytes message hw ht
      simp only [submitWoken, ne_eq, not_true_eq_false, if_false] at hs
      refine submitLoop_move (.inr ⟨w, hw, ht⟩) (fun h' => ?_) hs
      rw [ht] at h'; cases h'
    · rename_i w block hw ht
      simp only [receiveWoken, ne_eq, not_true_eq_false, if_false] at hs
      exact receiveLoop_move (.inr ⟨w, hw, ht⟩) hs
    · simp at hs
  | senderClose t h os =>
    obtain rfl : os = {} := hos
    simp only [step] at hs
    split_ifs at hs with h₁
    obtain ⟨rfl, rfl⟩ := by simpa [senderClose, Endpoints.senderClose, Section.map, wakeBoth,
      wakeBothError, statusResult] using hs
    exact .closed t .senderClose _ h₁.1 (.inl ⟨rfl, rfl⟩)
  | receiverClose t os =>
    obtain rfl : os = {} := hos
    simp only [step] at hs
    split_ifs at hs with h₁
    obtain ⟨rfl, rfl⟩ := by simpa [receiverClose, Endpoints.receiverClose, Section.map, wakeBoth,
      wakeBothError, statusResult] using hs
    exact .closed t .receiverClose _ h₁.1 (.inr ⟨rfl, rfl⟩)
  | share t h h' os =>
    obtain rfl : os = {} := hos
    simp only [step, senderShare, Endpoints.senderShare, Section.map, ne_eq, not_true_eq_false,
      if_false, if_true] at hs
    split_ifs at hs with h₁
    obtain ⟨rfl, rfl⟩ := by simpa [statusResult] using hs
    exact .share t h h' h₁.1 h₁.2.1 h₁.2.2
  | length t os =>
    obtain rfl : os = {} := hos
    simp only [step] at hs
    split_ifs at hs with h₁
    obtain ⟨rfl, rfl⟩ := by simpa [receiverLen, statusResult] using hs
    exact .length t h₁.1 h₁.2
  | dropSender t h os =>
    obtain rfl : os = {} := hos
    simp only [step] at hs
    split_ifs at hs with h₁
    rw [finalize, Endpoints.finalize_sender_ok, Option.map_some, Option.bind_some] at hs
    obtain ⟨rfl, rfl⟩ := endFinalize_eq hs
    exact .dropSender t h h₁.1 h₁.2.1 h₁.2.2
  | dropReceiver t os =>
    obtain rfl : os = {} := hos
    simp only [step] at hs
    split_ifs at hs with h₁
    rw [finalize, Endpoints.finalize_receiver_ok, Option.map_some, Option.bind_some] at hs
    obtain ⟨rfl, rfl⟩ := endFinalize_eq hs
    exact .dropReceiver t h₁.1 h₁.2.1 h₁.2.2

end NativeSync.OwnedBytes
