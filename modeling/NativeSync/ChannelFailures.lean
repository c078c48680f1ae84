import NativeSync.OwnedBytes.Failures
import NativeSync.Channel.Failures

/-!
# The channels when an operation raises

An operation of either channel that raises `ChannelOperationFailed` has left the queue alone, except
where its last pass had already enqueued or dequeued when the notification or the unlock failed. The
wrapper then drops the result of the native call: a receive has taken a message that nobody gets,
and a send has delivered a message that its caller takes to be refused.
-/

namespace NativeSync

open Foundations

/-- **When a failing operation leaves the queue alone**, for both channels, in every reachable state
and whatever the primitives return: a section at which no send and no receive ends leaves the queue
alone, and a last section that raises does so if and only if it does not fail late. -/
theorem channel_failure_atomic_iff {α T : Type} [Fintype T] [DecidableEq T] :
    (∀ (L : OwnedBytes.Limits) (es : List (OwnedBytes.Event T)) (s : OwnedBytes.State T),
      Exec OwnedBytes.freeStep AnyStatus (OwnedBytes.State.init L.core) es s →
      ∀ (a : OwnedBytes.Action T) (s' : OwnedBytes.State T) (e : List (OwnedBytes.Event T)),
        OwnedBytes.freeStep s a = some (s', e) →
        ((∀ x ∈ e, x.ends = false) → s'.core.queue = s.core.queue) ∧
          (((∃ x ∈ e, x.raised = true) → s'.core.queue = s.core.queue) ↔
            ¬OwnedBytes.Late s a)) ∧
    (∀ (n : ℕ) (es : List (Channel.Event α T)) (s : Channel.State α T), 0 < n →
      Exec Channel.step AnyStatus (Channel.State.init n) es s →
      ∀ (a : Channel.Action α T) (s' : Channel.State α T) (e : List (Channel.Event α T)),
        Channel.step s a = some (s', e) →
        ((∀ x ∈ e, x.ends = false) → s'.core.ring = s.core.ring) ∧
          (((∃ x ∈ e, x.raised = true) → s'.core.ring = s.core.ring) ↔ ¬Channel.Late s a)) :=
  ⟨fun _ _ _ h _ _ _ hs => OwnedBytes.failure_atomic_iff h hs,
    fun _ _ _ _ _ _ _ _ hs => Channel.failure_atomic_iff hs⟩

/-- In either channel with one message queued, a receive whose lock fails raises and leaves the
message there. -/
theorem channel_failure_atomic_iff_lock :
    (∃ (es : List (OwnedBytes.Event (Fin 1))) (s s' : OwnedBytes.State (Fin 1))
        (e : List (OwnedBytes.Event (Fin 1))),
      Exec OwnedBytes.freeStep AnyStatus
        (OwnedBytes.State.init OwnedBytes.fourBytes.core) es s ∧
      OwnedBytes.freeStep s (.lock 0 { lock := 5 } none) = some (s', e) ∧
      (∃ x ∈ e, x.raised = true) ∧ s.core.ring.count = 1 ∧ s'.core.queue = s.core.queue) ∧
    (∃ (es : List (Channel.Event ℕ (Fin 1))) (s s' : Channel.State ℕ (Fin 1))
        (e : List (Channel.Event ℕ (Fin 1))),
      Exec Channel.step AnyStatus (Channel.State.init 2) es s ∧
      Channel.step s (.lock 0 { lock := 5 } none) = some (s', e) ∧
      (∃ x ∈ e, x.raised = true) ∧ s.core.ring.count = 1 ∧ s'.core.ring = s.core.ring) := by
  have hnot : ¬(({ lock := 5 } : Os).cond₁ ≠ 0 ∨ ({ lock := 5 } : Os).unlock ≠ 0) := by decide
  constructor
  · obtain ⟨es, s, s', e, h, hs, ht⟩ := Exec.exists_step_of_run OwnedBytes.freeStep
      AnyStatus (OwnedBytes.State.init (T := Fin 1) OwnedBytes.fourBytes.core)
      [.callSend 0 0 .trySend OwnedBytes.twoBytes 0, .lock 0 {} none, .copy 0, .lock 0 {} none,
        .callRecv 0 false] (.lock 0 { lock := 5 } none)
      (fun s _ e => decide ((∃ x ∈ e, x.raised = true) ∧ s.core.ring.count = 1))
      (by decide +kernel)
    obtain ⟨hr, hc⟩ := of_decide_eq_true ht
    obtain ⟨-, hiff⟩ := (channel_failure_atomic_iff (α := ℕ)).1 _ es s h _ s' e hs
    exact ⟨es, s, s', e, h, hs, hr, hc, hiff.2 (fun hl => hnot hl.1) hr⟩
  · obtain ⟨es, s, s', e, h, hs, ht⟩ := Exec.exists_step_of_run Channel.step AnyStatus
      (Channel.State.init 2 : Channel.State ℕ (Fin 1))
      [.callSend 0 0 .trySend 7 0, .lock 0 {} none, .callRecv 0 false]
      (.lock 0 { lock := 5 } none)
      (fun s _ e => decide ((∃ x ∈ e, x.raised = true) ∧ s.core.ring.count = 1))
      (by decide +kernel)
    obtain ⟨hr, hc⟩ := of_decide_eq_true ht
    obtain ⟨-, hiff⟩ := channel_failure_atomic_iff.2 2 es s (by decide) h _ s' e hs
    exact ⟨es, s, s', e, h, hs, hr, hc, hiff.2 (fun hl => hnot hl.1) hr⟩

/-- In an OwnedBytes channel with one message queued, a receive whose unlock fails raises, and the
message is gone. In a generic channel, a send whose signal fails raises and has queued its value, so
that the value is there twice after another try. -/
theorem channel_failure_not_atomic :
    (∃ (es : List (OwnedBytes.Event (Fin 1))) (s s' : OwnedBytes.State (Fin 1))
        (e : List (OwnedBytes.Event (Fin 1))),
      Exec OwnedBytes.freeStep AnyStatus
        (OwnedBytes.State.init OwnedBytes.fourBytes.core) es s ∧
      OwnedBytes.freeStep s (.lock 0 { unlock := 8 } none) = some (s', e) ∧
      .ret 0 (.recv false) (.tryRecv (.error (.channelOperationFailed 8))) ∈ e ∧
      s.core.ring.count = 1 ∧ s'.core.ring.count = 0) ∧
    (∃ (es : List (Channel.Event ℕ (Fin 1))) (s : Channel.State ℕ (Fin 1)),
      Exec Channel.step AnyStatus (Channel.State.init 2) es s ∧
      es = [.ret 0 (.send .trySend 7) (.trySend (.error (.channelOperationFailed 9))),
        .ret 0 (.send .trySend 7) (.trySend (.ok .sent))] ∧
      s.core.ring.toList.map Channel.Box.val = [7, 7]) := by
  constructor
  · obtain ⟨es, s, s', e, h, hs, ht⟩ := Exec.exists_step_of_run OwnedBytes.freeStep
      AnyStatus (OwnedBytes.State.init (T := Fin 1) OwnedBytes.fourBytes.core)
      [.callSend 0 0 .trySend OwnedBytes.twoBytes 0, .lock 0 {} none, .copy 0, .lock 0 {} none,
        .callRecv 0 false] (.lock 0 { unlock := 8 } none)
      (fun s s' e => decide (
        .ret 0 (.recv false) (.tryRecv (.error (.channelOperationFailed 8))) ∈ e ∧
        s.core.ring.count = 1 ∧ s'.core.ring.count = 0))
      (by decide +kernel)
    exact ⟨es, s, s', e, h, hs, of_decide_eq_true ht⟩
  · obtain ⟨es, s, h, ht⟩ := Exec.exists_of_run Channel.step AnyStatus
      (Channel.State.init 2 : Channel.State ℕ (Fin 1))
      [.callSend 0 0 .trySend 7 0, .lock 0 { cond₁ := 9 } none, .callSend 0 0 .trySend 7 0,
        .lock 0 {} none]
      (fun s es => decide (
        es = [.ret 0 (.send .trySend 7) (.trySend (.error (.channelOperationFailed 9))),
          .ret 0 (.send .trySend 7) (.trySend (.ok .sent))] ∧
        s.core.ring.toList.map Channel.Box.val = [7, 7]))
      (by decide +kernel)
    exact ⟨es, s, h, of_decide_eq_true ht⟩

end NativeSync
