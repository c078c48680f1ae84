import NativeSync.Foundations.Progress
import NativeSync.Foundations.Threads
import NativeSync.Native
import Mathlib.Data.Finset.Card

/-!
# The endpoints of a channel

Both channels of the library, the one that copies byte strings (`channel/native.c`) and the generic
one (`unsafe/channel/native.c`), count their handles and close in the same way. `Endpoints` is the
part of their cores that these operations read and write, and each operation is one critical
section on it:

* closing from either side marks the channel closed and wakes all sleepers of both sides;
* sharing counts one more sender;
* a finalizer counts one sender less and closes the channel after the last one, or takes away the
  receiver and closes the channel; it then gives up its reference, and the last one frees the core.

`Counted` says that the two 32-bit counters are the numbers of live handles. It is kept by every
operation as long as fewer than `2^31` handles are live.
-/

namespace NativeSync

open Foundations

/-- The condition variables of a channel. -/
inductive Cond
  | readable
  | writable
  deriving DecidableEq

/-- The counters and flags of a channel's core. -/
structure Endpoints where
  refs : ℤ
  senders : ℤ
  receiverAlive : Bool
  closed : Bool

/-- The two kinds of handles. -/
inductive Role
  | sender
  | receiver
  deriving DecidableEq

/-- The notifications of a section that wakes both sides, as far as the calls succeed. -/
def wakeBoth (os : Os) : List (Notify Cond) :=
  (if os.cond₁ = 0 then [.broadcast .readable] else []) ++
    (if os.cond₂ = 0 then [.broadcast .writable] else [])

/-- The error of a section that wakes both sides. -/
def wakeBothError (os : Os) : ℤ :=
  recordError (recordError (recordError 0 os.cond₁) os.cond₂) os.unlock

/-- The wrappers that return nothing, and `length`: raise on a nonzero status. -/
def statusResult {β : Type} (value : β) (status : ℤ) : Except SyncError β :=
  if status ≠ 0 then .error (.channelOperationFailed status) else .ok value

/-- The result is a raised `ChannelOperationFailed`. -/
def operationFailed {β : Type} : Except SyncError β → Bool
  | .error (.channelOperationFailed _) => true
  | _ => false

namespace Endpoints

/-- The channel takes messages: it is not closed and its receiver is there. -/
def Open (c : Endpoints) : Prop := c.closed = false ∧ c.receiverAlive = true

theorem not_open_iff (c : Endpoints) : ¬c.Open ↔ (c.closed || !c.receiverAlive) = true := by
  cases hc : c.closed <;> cases ha : c.receiverAlive <;> simp [Open, hc, ha]

/-- The sender's `close`; the exit is `*error`. -/
def senderClose (c : Endpoints) (os : Os) : Section Endpoints Cond ℤ :=
  if os.lock ≠ 0 then { core := c, exit := os.lock }
  else { core := { c with closed := true }, wakes := wakeBoth os, exit := wakeBothError os }

/-- The receiver's `close`; the exit is `*error`. -/
def receiverClose (c : Endpoints) (os : Os) : Section Endpoints Cond ℤ :=
  if os.lock ≠ 0 then { core := c, exit := os.lock }
  else
    { core := { c with closed := true, receiverAlive := false }
      wakes := wakeBoth os, exit := wakeBothError os }

/-- The sender's `share`; the exit is `*status` and whether a handle was made. -/
def senderShare (c : Endpoints) (os : Os) : Section Endpoints Cond (ℤ × Bool) :=
  if os.lock ≠ 0 then { core := c, exit := (os.lock, false) }
  else
    { core := { c with senders := wrap32 (c.senders + 1), refs := arcInc c.refs }
      exit := (recordError 0 os.unlock, true) }

/-- The critical section of the finalizer, which aborts when a primitive fails. -/
def finalize (c : Endpoints) (role : Role) (os : Os) : Option (Section Endpoints Cond Unit) :=
  if os ≠ {} then none
  else
    match role with
    | .sender =>
      let c := { c with senders := wrap32 (c.senders - 1) }
      if c.senders = 0 then
        some { core := { c with closed := true }, wakes := wakeBoth os, exit := () }
      else some { core := c, exit := () }
    | .receiver =>
      if c.receiverAlive then
        some { core := { c with receiverAlive := false, closed := true }
               wakes := wakeBoth os, exit := () }
      else some { core := c, exit := () }

/-! ## The sections with successful primitives -/

/-- After a sender handle was finalized: the last sender closes the channel. -/
def dropSender (c : Endpoints) : Endpoints :=
  { c with
    senders := wrap32 (c.senders - 1)
    closed := c.closed || decide (wrap32 (c.senders - 1) = 0) }

/-- After the receiver handle was finalized. -/
def dropReceiver (c : Endpoints) : Endpoints :=
  { c with receiverAlive := false, closed := c.closed || c.receiverAlive }

/-- With one reference less. -/
def release (c : Endpoints) : Endpoints := { c with refs := arcDec c.refs }

theorem finalize_sender_ok (c : Endpoints) :
    c.finalize .sender {} = some
      { core := c.dropSender
        wakes := if c.dropSender.senders = 0 then
          [.broadcast .readable, .broadcast .writable] else []
        exit := () } := by
  by_cases h : wrap32 (c.senders - 1) = 0 <;> simp [finalize, dropSender, wakeBoth, h]

theorem finalize_receiver_ok (c : Endpoints) :
    c.finalize .receiver {} = some
      { core := c.dropReceiver
        wakes := if c.receiverAlive then [.broadcast .readable, .broadcast .writable] else []
        exit := () } := by
  obtain ⟨refs, senders, alive, closed⟩ := c
  cases alive <;> simp [finalize, dropReceiver, wakeBoth]

end Endpoints

/-! ## Waking everybody -/

section WakeAll

variable {T P : Type} (cond : P → Option Cond)

/-- Every sleeper is notified. -/
def wakeAll (f : T → Pc P) : T → Pc P :=
  broadcast cond .writable (broadcast cond .readable f)

variable {cond}

theorem woken_wakeAll (f : T → Pc P) : Woken f (wakeAll cond f) :=
  (Woken.of_broadcast _ f).trans (Woken.of_broadcast _ _)

theorem woken_ite (p : Prop) [Decidable p] (f : T → Pc P) :
    Woken f (if p then wakeAll cond f else f) := by
  split_ifs
  · exact woken_wakeAll f
  · exact .refl f

theorem noSleeper_wakeAll (f : T → Pc P) (c : Cond) : NoSleeper cond c (wakeAll cond f) := by
  cases c
  · exact (noSleeper_broadcast f).woken (Woken.of_broadcast _ _)
  · exact noSleeper_broadcast _

theorem deliver_wakeAll [Fintype T] [DecidableEq T] (p : Prop) [Decidable p] (f : T → Pc P) :
    deliver cond (none : Option T)
      (if p then [.broadcast Cond.readable, .broadcast .writable] else []) f =
      some (if p then wakeAll cond f else f) := by
  split_ifs <;> rfl

end WakeAll

/-! ## Counting the handles -/

/-- The counters of the core are the numbers of live handles, fewer than `2^31`, and the core has
been freed when there is none. -/
structure Counted (c : Endpoints) (S : Finset ℕ) (receiver freed : Bool) : Prop where
  senders : c.senders = S.card
  refs : c.refs = (S.card + receiver.toNat : ℕ)
  bound : S.card + receiver.toNat < 2147483648
  freed : freed = true ↔ S.card + receiver.toNat = 0

namespace Counted

variable {c : Endpoints} {S : Finset ℕ} {receiver freed : Bool} {h : ℕ}

/-- The last sender is the one whose finalizer finds the counter at one. -/
theorem dropSender_eq_zero_iff (hc : Counted c S receiver freed) (hh : h ∈ S) :
    c.dropSender.senders = 0 ↔ S.card = 1 := by
  have hbound := hc.bound
  have hpos : 0 < S.card := Finset.card_pos.2 ⟨h, hh⟩
  show wrap32 (c.senders - 1) = 0 ↔ _
  rw [hc.senders, wrap32_of_mem (by omega) (by omega)]
  omega

theorem share {h' : ℕ} (hc : Counted c S receiver freed) (hh : h ∈ S)
    (hh' : h' ∉ S) (hb : (insert h' S).card + receiver.toNat < 2147483648) :
    Counted { c with senders := wrap32 (c.senders + 1), refs := arcInc c.refs }
      (insert h' S) receiver freed := by
  have hcard : (insert h' S).card = S.card + 1 := Finset.card_insert_of_notMem hh'
  have hpos : 0 < S.card := Finset.card_pos.2 ⟨h, hh⟩
  refine ⟨?_, ?_, hb, ?_⟩
  · show wrap32 (c.senders + 1) = _
    rw [hc.senders, wrap32_of_mem (by omega) (by omega), hcard]
    omega
  · show wrap32 (c.refs + 1) = _
    rw [hc.refs, wrap32_of_mem (by omega) (by omega), hcard]
    omega
  · rw [hc.freed]
    omega

theorem dropSender (hc : Counted c S receiver freed) (hh : h ∈ S) :
    Counted c.dropSender.release (S.erase h) receiver
      (freed || decide (c.dropSender.release.refs = 0)) := by
  have hcard : (S.erase h).card = S.card - 1 := Finset.card_erase_of_mem hh
  have hpos : 0 < S.card := Finset.card_pos.2 ⟨h, hh⟩
  have hbound := hc.bound
  have hrefs : c.dropSender.release.refs = ((S.erase h).card + receiver.toNat : ℕ) := by
    show wrap32 (c.refs - 1) = _
    rw [hc.refs, wrap32_of_mem (by omega) (by omega), hcard]
    omega
  refine ⟨?_, hrefs, by omega, ?_⟩
  · show wrap32 (c.senders - 1) = _
    rw [hc.senders, wrap32_of_mem (by omega) (by omega), hcard]
    omega
  · have hnf : freed = false := by
      rw [← Bool.not_eq_true, hc.freed]
      omega
    rw [hnf, Bool.false_or, decide_eq_true_eq, hrefs]
    omega

theorem dropReceiver (hc : Counted c S true freed) :
    Counted c.dropReceiver.release S false
      (freed || decide (c.dropReceiver.release.refs = 0)) := by
  have hbound := hc.bound
  have hrefs : c.dropReceiver.release.refs = (S.card + Bool.toNat false : ℕ) := by
    show wrap32 (c.refs - 1) = _
    rw [hc.refs, wrap32_of_mem (by rw [Bool.toNat_true]; omega) (by omega), Bool.toNat_true,
      Bool.toNat_false]
    omega
  refine ⟨hc.senders, hrefs, by rw [Bool.toNat_false]; omega, ?_⟩
  have hnf : freed = false := by
    rw [← Bool.not_eq_true, hc.freed, Bool.toNat_true]
    omega
  rw [hnf, Bool.false_or, decide_eq_true_eq, hrefs]
  omega

end Counted

/-! ## What the sections notify -/

section Weights

variable {n : ℕ} {os : Os}

theorem wakeWeight_wakeBoth (n : ℕ) (os : Os) : wakeWeight n (wakeBoth os) ≤ 2 * n := by
  unfold wakeBoth
  split_ifs <;> simp [Notify.weight] <;> omega

theorem Endpoints.wakeWeight_senderClose (n : ℕ) (c : Endpoints) (os : Os) :
    wakeWeight n (c.senderClose os).wakes ≤ 2 * n := by
  unfold Endpoints.senderClose
  split_ifs
  · exact Nat.zero_le _
  · exact wakeWeight_wakeBoth n os

theorem Endpoints.wakeWeight_receiverClose (n : ℕ) (c : Endpoints) (os : Os) :
    wakeWeight n (c.receiverClose os).wakes ≤ 2 * n := by
  unfold Endpoints.receiverClose
  split_ifs
  · exact Nat.zero_le _
  · exact wakeWeight_wakeBoth n os

theorem Endpoints.wakeWeight_finalize {c : Endpoints} {role : Role}
    {sec : Section Endpoints Cond Unit} (h : c.finalize role os = some sec) :
    wakeWeight n sec.wakes ≤ 2 * n := by
  cases role with
  | sender =>
    simp only [Endpoints.finalize] at h
    split_ifs at h <;> cases h
    · exact wakeWeight_wakeBoth n os
    · exact Nat.zero_le _
  | receiver =>
    simp only [Endpoints.finalize] at h
    split_ifs at h <;> cases h
    · exact wakeWeight_wakeBoth n os
    · exact Nat.zero_le _

end Weights

end NativeSync
