import NativeSync.OwnedBytes.Invariant
import NativeSync.Handles

/-!
# The OwnedBytes channel: what a step can do when primitives fail

`Move` describes the steps whose primitives succeed. `Outcome` describes all of them, whatever the
primitives return: a pass of a send or of a receive that fails before it touches the queue ends the
call and leaves the core alone, one that fails after it has touched the queue ends the call as well,
and the failed notifications wake nobody. `freeStep_outcome` is the inversion lemma.
-/

namespace NativeSync.OwnedBytes

open Foundations

variable {T : Type}

/-- A pass of thread `t` from `p` on has got the mutex: its lock, or the wait it resumes from, has
succeeded. -/
def Entered (s : State T) (a : Action T) (t : T) (p : Point) : Prop :=
  (s.threads t).Entered (∃ os pick, a = .lock t os pick ∧ os.lock = 0)
    (∃ os pick, a = .resume t os pick ∧ os.wake = 0) p

variable [DecidableEq T]

/-- What a step does, whatever the primitives return. -/
inductive Outcome (a : Action T) (s : State T) : State T → List (Event T) → Prop
  | callSend (t : T) (h : ℕ) (kind : SendKind) (bytes : Bytes) (ht : s.threads t = .run .idle)
      (hh : h ∈ s.senders) (ha : a = .callSend t h kind bytes 0) :
      Outcome a s (s.move t (.run (.submit h kind bytes none))) []
  | callRecv (t : T) (block : Bool) (ht : s.threads t = .run .idle) (hr : s.receiver = true) :
      Outcome a s (s.move t (.run (.receive block))) []
  | aside (t : T) (op : Op) (r : Result) (ht : s.threads t = .run .idle) :
      Outcome a s s [.ret t op r]
  | sendEnded (t : T) (h : ℕ) (kind : SendKind) (bytes : Bytes) (message : Option Message)
      (r : Result) (ht : (s.threads t).Ready (.submit h kind bytes message)) :
      Outcome a s (s.move t (.run .idle)) (releaseEvent message ++ [.ret t (.send kind bytes) r])
  | sendSleep (t : T) (h : ℕ) (kind : SendKind) (bytes : Bytes) (message : Option Message)
      (ht : (s.threads t).Ready (.submit h kind bytes message)) (hb : kind.block = true)
      (hlen : s.threads t = .run (.submit h kind bytes message) →
        bytes.length ≤ s.core.maxMessageBytes) :
      Outcome a s (s.move t (.wait .asleep (.submit h kind bytes message))) []
  | sendCopy (t : T) (h : ℕ) (kind : SendKind) (bytes : Bytes)
      (ht : (s.threads t).Ready (.submit h kind bytes none))
      (hlen : s.threads t = .run (.submit h kind bytes none) →
        bytes.length ≤ s.core.maxMessageBytes) :
      Outcome a s (s.move t (.run (.copy h kind bytes))) []
  | copied (t : T) (h : ℕ) (kind : SendKind) (bytes : Bytes)
      (ht : s.threads t = .run (.copy h kind bytes)) (ha : a = .copy t) :
      Outcome a s { s.move t (.run (.submit h kind bytes
          (some (messageCopy s.copies bytes bytes.length)))) with copies := s.copies + 1 }
        [.copied s.copies]
  | sent (t : T) (h : ℕ) (kind : SendKind) (bytes : Bytes) (m : Message) (f : T → Pc Point)
      (hin : Entered s a t (.submit h kind bytes (some m)))
      (hlen : s.threads t = .run (.submit h kind bytes (some m)) →
        bytes.length ≤ s.core.maxMessageBytes)
      (ho : s.core.Open) (hf : s.core.Fits bytes.length)
      (hw : Woken (Function.update s.threads t (.run .idle)) f) :
      Outcome a s { s with core := s.core.enqueue m bytes.length, threads := f }
        [.ret t (.send kind bytes) (kind.result s.core bytes 0 (lateError a.os))]
  | recvSleep (t : T) (block : Bool) (ht : (s.threads t).Ready (.receive block))
      (hb : block = true) : Outcome a s (s.move t (.wait .asleep (.receive block))) []
  | recvEnded (t : T) (block : Bool) (r : Result) (ht : (s.threads t).Ready (.receive block)) :
      Outcome a s (s.move t (.run .idle)) [.ret t (.recv block) r]
  | received (t : T) (block : Bool) (m : Message) (f : T → Pc Point)
      (hin : Entered s a t (.receive block)) (hc : s.core.ring.count ≠ 0)
      (hm : s.core.ring.slots s.core.ring.head = some m)
      (hw : Woken (Function.update s.threads t (.run .idle)) f) :
      Outcome a s { s with core := s.core.dequeue m, threads := f }
        [.released m.addr,
          .ret t (.recv block) (recvOpResult block (some m) 0 (lateError a.os))]
  | spurious (t : T) (p : Point) (ht : s.threads t = .wait .asleep p) :
      Outcome a s (s.move t (.wait .spurious p)) []
  | closed (t : T) (op : Op) (alive : Bool) (f : T → Pc Point) (r : Result)
      (ht : s.threads t = .run .idle) (hw : Woken s.threads f) :
      Outcome a s { s with
          core := { s.core with closed := true, receiverAlive := alive }, threads := f }
        [.ret t op r]
  | share (t : T) (h h' : ℕ) (r : Result) (ht : s.threads t = .run .idle) (hh : h ∈ s.senders)
      (hh' : h' ∉ s.senders) :
      Outcome a s { s with
          core := { s.core with senders := wrap32 (s.core.senders + 1), refs := arcInc s.core.refs }
          senders := insert h' s.senders }
        [.ret t .share r]
  | dropSender (t : T) (h : ℕ) (ht : s.threads t = .run .idle) (hh : h ∈ s.senders)
      (hu : ∀ u, (s.threads u).point.handle ≠ some h) :
      Outcome a s { s with
          core := s.core.dropSender
          threads :=
            if s.core.dropSender.senders = 0 then wakeAll Point.cond s.threads else s.threads
          senders := s.senders.erase h
          freed := s.freed || decide (s.core.dropSender.refs = 0) }
        (freeEvents s.core.dropSender ++ [.ret t (.drop .sender) (.unit (.ok ()))])
  | dropReceiver (t : T) (ht : s.threads t = .run .idle) (hr : s.receiver = true)
      (hu : ∀ u, (s.threads u).point.receiving = false) :
      Outcome a s { s with
          core := s.core.dropReceiver
          threads := if s.core.receiverAlive then wakeAll Point.cond s.threads else s.threads
          receiver := false
          freed := s.freed || decide (s.core.dropReceiver.refs = 0) }
        (freeEvents s.core.dropReceiver ++ [.ret t (.drop .receiver) (.unit (.ok ()))])

/-! ## Every step has such an outcome -/

variable [Fintype T] {a : Action T} {s s' : State T} {e : List (Event T)} {t : T} {h : ℕ}
  {kind : SendKind} {bytes : Bytes} {message : Option Message} {block : Bool} {pick : Option T}
  {os : Os}

/-- A pass of a send that ends without having touched the core. -/
theorem endSubmit_ended {sec : Section Core Cond SubmitExit} {code error : ℤ}
    (ht : (s.threads t).Ready (.submit h kind bytes message)) (hc : sec.core = s.core)
    (hw : sec.wakes = []) (hx : sec.exit = .ret code error message)
    (hs : s.endSubmit t h kind bytes message pick sec = some (s', e)) : Outcome a s s' e := by
  simp only [State.endSubmit, hx, hw, hc, deliver_nil, Option.map_some, Option.some.injEq,
    Prod.mk.injEq] at hs
  obtain ⟨rfl, rfl⟩ := hs
  exact .sendEnded t h kind bytes message _ ht

omit [DecidableEq T] [Fintype T] in
/-- With its copy made and room for it, a pass of a send enqueues. -/
theorem submitLoop_of_fits {core : Core} {length : ℤ} (m : Message) (ho : core.Open)
    (hf : core.Fits length) :
    submitLoop core length block (some m) os =
      { core := core.enqueue m length
        wakes := if os.cond₁ = 0 then [.signal .readable] else []
        exit := .ret 0 (lateError os) none } := by
  obtain ⟨hclosed, halive⟩ := ho
  have hcount : (core.ring.count == core.ring.capacity) = false := by simpa using hf.1
  simp only [submitLoop, hclosed, halive, hcount, hf.2, Bool.not_true, Bool.not_false,
    Bool.or_false, Bool.and_false, Bool.false_eq_true, if_false]
  rfl

/-- A pass of a send from its loop on. -/
theorem submitLoop_outcome (hin : Entered s a t (.submit h kind bytes message)) (hos : a.os = os)
    (hlen : s.threads t = .run (.submit h kind bytes message) →
      bytes.length ≤ s.core.maxMessageBytes)
    (hs : s.endSubmit t h kind bytes message pick
      (submitLoop s.core bytes.length kind.block message os) = some (s', e)) :
    Outcome a s s' e := by
  have ht := hin.ready
  by_cases hgo : message.isSome = true ∧ s.core.Open ∧ s.core.Fits bytes.length
  · obtain ⟨hm, ho, hf⟩ := hgo
    obtain ⟨m, rfl⟩ := Option.isSome_iff_exists.1 hm
    rw [submitLoop_of_fits m ho hf] at hs
    simp only [State.endSubmit, Option.map_eq_some_iff, Prod.mk.injEq] at hs
    obtain ⟨f, hf', rfl, rfl⟩ := hs
    subst hos
    exact .sent t h kind bytes m f hin hlen ho hf (.of_deliver hf')
  · unfold submitLoop at hs
    split at hs
    · rename_i h₁
      split_ifs at hs
      · exact endSubmit_ended ht rfl rfl rfl hs
      · obtain ⟨rfl, rfl⟩ := by simpa [State.endSubmit] using hs
        simp only [Bool.and_eq_true] at h₁
        exact .sendSleep t h kind bytes message ht h₁.1.1.1 hlen
    · split at hs
      · exact endSubmit_ended ht rfl rfl rfl hs
      · rename_i h₂
        split at hs
        · exact endSubmit_ended ht rfl rfl rfl hs
        · rename_i h₃
          split at hs
          · exact endSubmit_ended ht rfl rfl rfl hs
          · rename_i h₄
            cases message with
            | none =>
              dsimp only at hs
              split_ifs at hs
              · exact endSubmit_ended ht rfl rfl rfl hs
              · obtain ⟨rfl, rfl⟩ := by simpa [State.endSubmit] using hs
                exact .sendCopy t h kind bytes ht hlen
            | some m =>
              have ho : s.core.Open := by
                rwa [← not_not (a := s.core.Open), Endpoints.not_open_iff]
              exact absurd ⟨rfl, ho, by simpa using h₃, by simpa using h₄⟩ hgo

/-- A pass of a receive that ends without having touched the core. -/
theorem endReceive_ended {status error : ℤ} (ht : (s.threads t).Ready (.receive block))
    (hs : (some { core := s.core, exit := ReceiveExit.ret status error none }).bind
      (s.endReceive t block pick) = some (s', e)) : Outcome a s s' e := by
  simp only [State.endReceive, Option.bind_some, deliver_nil, Option.map_some, Option.some.injEq,
    Prod.mk.injEq] at hs
  obtain ⟨rfl, rfl⟩ := hs
  exact .recvEnded t block _ ht

omit [DecidableEq T] [Fintype T] in
/-- A pass of a receive that finds a message dequeues it. -/
theorem receiveLoop_of_count {core : Core} {m : Message} (hc : core.ring.count ≠ 0)
    (hm : core.ring.slots core.ring.head = some m) :
    receiveLoop core block os = some
      { core := core.dequeue m
        wakes := if os.cond₁ = 0 then [.signal .writable] else []
        exit := .ret 0 (lateError os) (some m) } := by
  have hcount : (core.ring.count == 0) = false := by simpa using hc
  simp only [receiveLoop, hcount, hm, Bool.and_false, Bool.false_and, Bool.false_eq_true, if_false]
  rfl

/-- A pass of a receive from its loop on. -/
theorem receiveLoop_outcome (hin : Entered s a t (.receive block)) (hos : a.os = os)
    (hs : (receiveLoop s.core block os).bind (s.endReceive t block pick) = some (s', e)) :
    Outcome a s s' e := by
  have ht := hin.ready
  by_cases hc : s.core.ring.count = 0
  · have hcount : (s.core.ring.count == 0) = true := by simpa using hc
    unfold receiveLoop at hs
    rw [hcount, Bool.and_true, if_pos rfl] at hs
    split_ifs at hs with h₁ h₂
    · exact endReceive_ended ht hs
    · obtain ⟨rfl, rfl⟩ := by simpa [State.endReceive] using hs
      simp only [Bool.and_eq_true] at h₁
      exact .recvSleep t block ht h₁.1
    · exact endReceive_ended ht hs
    · exact endReceive_ended ht hs
  · cases hm : s.core.ring.slots s.core.ring.head with
    | none =>
      have hcount : (s.core.ring.count == 0) = false := by simpa using hc
      simp [receiveLoop, hcount, hm] at hs
    | some m =>
      rw [receiveLoop_of_count hc hm] at hs
      simp only [Option.bind_some, State.endReceive, Option.map_eq_some_iff, Prod.mk.injEq] at hs
      obtain ⟨f, hf, rfl, rfl⟩ := hs
      subst hos
      exact .received t block m f hin hc hm (.of_deliver hf)

/-- A section that closes the channel, as far as it gets. -/
theorem close_outcome {c : Endpoints} (alive : Bool) {op : Op} {exit : ℤ}
    (ht : s.threads t = .run .idle) (hc : c = { s.core.toEndpoints with
      closed := true, receiverAlive := alive })
    (hs : (deliver Point.cond none (wakeBoth os) s.threads).map (fun f =>
      (({ s with core := s.core.setEndpoints c, threads := f } : State T),
        [Event.ret t op (.unit (statusResult () exit))])) = some (s', e)) : Outcome a s s' e := by
  simp only [Option.map_eq_some_iff, Prod.mk.injEq] at hs
  obtain ⟨f, hf, rfl, rfl⟩ := hs
  subst hc
  exact .closed t op alive f _ ht (.of_deliver hf)

omit [Fintype T] [DecidableEq T] in
/-- A finalizer goes on only if its primitives succeed. -/
theorem finalize_os {core : Core} {role : Role} {sec : Section Core Cond Unit}
    (hs : finalize core role os = some sec) : os = {} := by
  by_contra hne
  simp [finalize, Endpoints.finalize, hne] at hs

/-- **Every step has an outcome.** -/
theorem freeStep_outcome (hs : freeStep s a = some (s', e)) : Outcome a s s' e := by
  replace hs := (freeStep_eq_some.1 hs).2
  cases a with
  | callSend t h kind bytes injected =>
    simp only [manyStep, step] at hs
    split_ifs at hs with h₁ h₂
    · obtain ⟨rfl, rfl⟩ := by simpa using hs
      exact .aside t _ _ h₁.1
    · obtain ⟨rfl, rfl⟩ := by simpa using hs
      exact .callSend t h kind bytes h₁.1 h₁.2 (by rw [not_not.1 h₂])
  | callRecv t block =>
    simp only [manyStep] at hs
    split_ifs at hs with h₁
    obtain ⟨rfl, rfl⟩ := by simpa using hs
    exact .callRecv t block h₁.1 h₁.2
  | lock t os pick =>
    simp only [manyStep, step] at hs
    split at hs
    · rename_i h kind bytes message ht
      unfold submit at hs
      split_ifs at hs with hl hlen
      · exact endSubmit_ended (.inl ht) rfl rfl rfl hs
      · exact endSubmit_ended (.inl ht) rfl rfl rfl hs
      · exact submitLoop_outcome (.inl ⟨⟨os, pick, rfl, not_not.1 hl⟩, ht⟩) rfl
          (fun _ => not_lt.1 hlen) hs
    · rename_i block ht
      unfold receive at hs
      split_ifs at hs with hl
      · exact endReceive_ended (.inl ht) hs
      · exact receiveLoop_outcome (.inl ⟨⟨os, pick, rfl, not_not.1 hl⟩, ht⟩) rfl hs
    · simp at hs
  | copy t =>
    simp only [manyStep, step] at hs
    split at hs
    · rename_i h kind bytes ht
      obtain ⟨rfl, rfl⟩ := by simpa using hs
      exact .copied t h kind bytes ht rfl
    · simp at hs
  | spurious t =>
    simp only [manyStep, step] at hs
    split at hs
    · rename_i p ht
      obtain ⟨rfl, rfl⟩ := by simpa using hs
      exact .spurious t p ht
    · simp at hs
  | resume t os pick =>
    simp only [manyStep, step] at hs
    split at hs
    · simp at hs
    · rename_i w h kind bytes message hw ht
      unfold submitWoken at hs
      split_ifs at hs with hk
      · exact endSubmit_ended (.inr ⟨w, hw, ht⟩) rfl rfl rfl hs
      · refine submitLoop_outcome (.inr ⟨⟨os, pick, rfl, not_not.1 hk⟩, w, hw, ht⟩) rfl
          (fun h' => ?_) hs
        rw [ht] at h'
        cases h'
    · rename_i w block hw ht
      unfold receiveWoken at hs
      split_ifs at hs with hk
      · exact endReceive_ended (.inr ⟨w, hw, ht⟩) hs
      · exact receiveLoop_outcome (.inr ⟨⟨os, pick, rfl, not_not.1 hk⟩, w, hw, ht⟩) rfl hs
    · simp at hs
  | senderClose t h os =>
    simp only [manyStep, step, Option.ite_none_right_eq_some] at hs
    obtain ⟨h₁, hs⟩ := hs
    by_cases hl : os.lock = 0
    · simp only [senderClose, Endpoints.senderClose, hl, ne_eq, not_true_eq_false, if_false,
        Section.map] at hs
      exact close_outcome s.core.receiverAlive h₁.1 rfl hs
    · obtain ⟨rfl, rfl⟩ := by
        simpa [senderClose, Endpoints.senderClose, hl, Section.map, Core.setEndpoints] using hs
      exact .aside t _ _ h₁.1
  | receiverClose t os =>
    simp only [manyStep, step, Option.ite_none_right_eq_some] at hs
    obtain ⟨h₁, hs⟩ := hs
    by_cases hl : os.lock = 0
    · simp only [receiverClose, Endpoints.receiverClose, hl, ne_eq, not_true_eq_false, if_false,
        Section.map] at hs
      exact close_outcome false h₁.1 rfl hs
    · obtain ⟨rfl, rfl⟩ := by
        simpa [receiverClose, Endpoints.receiverClose, hl, Section.map, Core.setEndpoints] using hs
      exact .aside t _ _ h₁.1
  | share t h h' os =>
    simp only [manyStep, step, Option.ite_none_right_eq_some] at hs
    obtain ⟨h₁, hs⟩ := hs
    by_cases hl : os.lock = 0
    · simp only [senderShare, Endpoints.senderShare, hl, ne_eq, not_true_eq_false, if_false,
        Section.map, if_true, Option.some.injEq, Prod.mk.injEq] at hs
      obtain ⟨rfl, rfl⟩ := hs
      exact .share t h h' _ h₁.1 h₁.2.1 h₁.2.2
    · obtain ⟨rfl, rfl⟩ := by
        simpa [senderShare, Endpoints.senderShare, hl, Section.map, Core.setEndpoints] using hs
      exact .aside t _ _ h₁.1
  | length t os =>
    simp only [manyStep, step, Option.ite_none_right_eq_some, Option.some.injEq,
      Prod.mk.injEq] at hs
    obtain ⟨h₁, rfl, rfl⟩ := hs
    exact .aside t _ _ h₁.1
  | dropSender t h os =>
    simp only [manyStep, step, Option.ite_none_right_eq_some] at hs
    obtain ⟨h₁, hs⟩ := hs
    obtain ⟨sec, hsec, -⟩ := Option.bind_eq_some_iff.1 hs
    obtain rfl := finalize_os hsec
    rw [finalize, Endpoints.finalize_sender_ok, Option.map_some, Option.bind_some] at hs
    obtain ⟨rfl, rfl⟩ := endFinalize_eq hs
    exact .dropSender t h h₁.1 h₁.2.1 h₁.2.2
  | dropReceiver t os =>
    simp only [manyStep, step, Option.ite_none_right_eq_some] at hs
    obtain ⟨h₁, hs⟩ := hs
    obtain ⟨sec, hsec, -⟩ := Option.bind_eq_some_iff.1 hs
    obtain rfl := finalize_os hsec
    rw [finalize, Endpoints.finalize_receiver_ok, Option.map_some, Option.bind_some] at hs
    obtain ⟨rfl, rfl⟩ := endFinalize_eq hs
    exact .dropReceiver t h₁.1 h₁.2.1 h₁.2.2

end NativeSync.OwnedBytes
