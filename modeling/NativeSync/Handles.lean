import NativeSync.Endpoints

/-!
# Any number of handles

`Counted` bounds the number of live handles. Here it is not bounded: the counters of a channel's
core are 32 bits wide, nothing stops `share` at the largest of them, and what they hold is the
number of live handles modulo `2^32` (`Counts`). So they are exact as long as at most `INT32_MAX`
handles are live (`Counts.exact_iff`), the last sender is the one that closes as long as there are
at most `2^32` of them (`Step.closed_iff`), and the last handle the one that frees unless a drop
leaves a multiple of `2^32` (`EarlyFree`, `Step.freed_iff`).

`Ends.Step` is what a step of either channel does to its endpoints and handles.
-/

namespace NativeSync

open Foundations

theorem wrap32_eq_self {n : ℕ} : wrap32 n = n ↔ n ≤ 2147483647 := by
  constructor
  · intro h
    by_contra hn
    rw [wrap32, Int.bmod_def] at h
    split_ifs at h <;> omega
  · intro h
    exact wrap32_of_mem (by omega) (by omega)

theorem wrap32_eq_zero_iff {n : ℕ} : wrap32 n = 0 ↔ 4294967296 ∣ n := by
  rw [wrap32, Int.bmod_def]
  split_ifs <;> omega

/-- The endpoints of a channel with its live handles. -/
structure Ends where
  core : Endpoints
  senders : Finset ℕ
  receiver : Bool
  freed : Bool

namespace Ends

/-- The number of live handles. -/
def handles (x : Ends) : ℕ := x.senders.card + x.receiver.toNat

/-- The kinds of steps: one that counts nothing, one that makes a handle and one that drops one. -/
inductive Kind
  | other
  | share
  | drop (role : Role)
  deriving DecidableEq

/-- What a step does to the endpoints and handles. -/
inductive Step (x : Ends) : Kind → Ends → Prop
  | other (c : Endpoints) (hs : c.senders = x.core.senders) (hr : c.refs = x.core.refs)
      (hc : c.closed = true ∨ c.closed = x.core.closed ∧ c.receiverAlive = x.core.receiverAlive) :
      Step x .other { x with core := c }
  | share (h h' : ℕ) (hh : h ∈ x.senders) (hh' : h' ∉ x.senders) :
      Step x .share { x with
        core := { x.core with senders := wrap32 (x.core.senders + 1), refs := arcInc x.core.refs }
        senders := insert h' x.senders }
  | dropSender (h : ℕ) (hh : h ∈ x.senders) :
      Step x (.drop .sender) { x with
        core := x.core.dropSender.release
        senders := x.senders.erase h
        freed := x.freed || decide (x.core.dropSender.release.refs = 0) }
  | dropReceiver (hr : x.receiver = true) :
      Step x (.drop .receiver) { x with
        core := x.core.dropReceiver.release
        receiver := false
        freed := x.freed || decide (x.core.dropReceiver.release.refs = 0) }

/-- The counters hold the numbers of live handles modulo `2^32`, and a channel without receiver is
closed. -/
structure Counts (x : Ends) : Prop where
  senders : x.core.senders = wrap32 x.senders.card
  refs : x.core.refs = wrap32 x.handles
  alive : x.core.receiverAlive = false → x.core.closed = true

/-- The counters are the numbers of live handles. -/
structure Exact (x : Ends) : Prop where
  senders : x.core.senders = x.senders.card
  refs : x.core.refs = x.handles

variable {x y : Ends} {k : Kind}

theorem wrap32_succ {c : ℤ} {n : ℕ} (h : c = wrap32 n) : wrap32 (c + 1) = wrap32 (n + 1 : ℕ) := by
  rw [h, wrap32_add]
  push_cast
  rfl

theorem wrap32_pred {c : ℤ} {n : ℕ} (h : c = wrap32 n) (hn : 0 < n) :
    wrap32 (c - 1) = wrap32 (n - 1 : ℕ) := by
  rw [h, Int.sub_eq_add_neg, wrap32_add, ← Int.sub_eq_add_neg, Nat.cast_sub hn]
  rfl

/-- **A step keeps the counts**, however many handles there are. -/
theorem Step.counts (h : Step x k y) (hx : Counts x) : Counts y := by
  cases h with
  | other c hs hr hc =>
    refine ⟨hs.trans hx.senders, hr.trans hx.refs, fun ha => ?_⟩
    rcases hc with hc | ⟨hc, hal⟩
    · exact hc
    · exact hc.trans (hx.alive (hal ▸ ha))
  | share h h' hh hh' =>
    have hcard : (insert h' x.senders).card = x.senders.card + 1 :=
      Finset.card_insert_of_notMem hh'
    refine ⟨?_, ?_, hx.alive⟩
    · change wrap32 (x.core.senders + 1) = wrap32 (insert h' x.senders).card
      rw [wrap32_succ hx.senders, hcard]
    · change wrap32 (x.core.refs + 1) = wrap32 ((insert h' x.senders).card + x.receiver.toNat : ℕ)
      rw [wrap32_succ hx.refs, hcard, handles, Nat.add_right_comm]
  | dropSender h hh =>
    have hcard : (x.senders.erase h).card = x.senders.card - 1 := Finset.card_erase_of_mem hh
    have hpos : 0 < x.senders.card := Finset.card_pos.2 ⟨h, hh⟩
    refine ⟨?_, ?_, fun ha => ?_⟩
    · change wrap32 (x.core.senders - 1) = wrap32 (x.senders.erase h).card
      rw [wrap32_pred hx.senders hpos, hcard]
    · change wrap32 (x.core.refs - 1) = wrap32 ((x.senders.erase h).card + x.receiver.toNat : ℕ)
      rw [wrap32_pred hx.refs (Nat.add_pos_left hpos _), hcard, handles,
        Nat.sub_add_comm hpos]
    · change (x.core.closed || _) = true
      rw [hx.alive ha, Bool.true_or]
  | dropReceiver hr =>
    have hpos : 0 < x.handles := by
      rw [handles, hr]
      exact Nat.succ_pos _
    refine ⟨hx.senders, ?_, fun _ => ?_⟩
    · change wrap32 (x.core.refs - 1) = wrap32 (x.senders.card + 0 : ℕ)
      rw [wrap32_pred hx.refs hpos, handles, hr]
      rfl
    · change (x.core.closed || x.core.receiverAlive) = true
      cases ha : x.core.receiverAlive
      · rw [hx.alive ha, Bool.true_or]
      · rw [Bool.or_true]

/-- **The counters are exact as long as at most `INT32_MAX` handles are live.** -/
theorem Counts.exact_iff (hx : Counts x) : x.Exact ↔ x.handles ≤ 2147483647 := by
  constructor
  · intro he
    exact wrap32_eq_self.1 (hx.refs.symm.trans he.refs)
  · intro hb
    have hle : x.senders.card ≤ 2147483647 := le_trans (Nat.le_add_right _ _) hb
    exact ⟨hx.senders.trans (wrap32_eq_self.2 hle), hx.refs.trans (wrap32_eq_self.2 hb)⟩

/-- **A drop closes the channel exactly when it is that of the last sender or of the receiver**, as
long as at most `2^32` handles are live. -/
theorem Step.closed_iff {role : Role} (h : Step x (.drop role) y) (hx : Counts x)
    (hb : x.handles ≤ 4294967296) (ho : x.core.closed = false) :
    y.core.closed = true ↔ role = .receiver ∨ x.senders.card = 1 := by
  cases h with
  | dropSender h hh =>
    have hpos : 0 < x.senders.card := Finset.card_pos.2 ⟨h, hh⟩
    unfold handles at hb
    change (x.core.closed || decide (wrap32 (x.core.senders - 1) = 0)) = true ↔ _
    rw [ho, Bool.false_or, decide_eq_true_eq, wrap32_pred hx.senders hpos,
      wrap32_eq_zero (by omega)]
    refine ⟨fun h0 => .inr (by omega), fun h1 => ?_⟩
    rcases h1 with h1 | h1
    · cases h1
    · omega
  | dropReceiver hr =>
    have halive : x.core.receiverAlive = true := by
      by_contra ha
      rw [hx.alive (Bool.eq_false_of_not_eq_true ha)] at ho
      cases ho
    change (x.core.closed || x.core.receiverAlive) = true ↔ _
    rw [halive, Bool.or_true]
    exact ⟨fun _ => .inl rfl, fun _ => rfl⟩

/-- The step is a drop that brings the references to zero although handles are left: `2^32` of them
or a multiple. -/
def EarlyFree (x : Ends) (k : Kind) : Prop :=
  (k = .drop .sender ∨ k = .drop .receiver) ∧ 1 < x.handles ∧ 4294967296 ∣ x.handles - 1

instance (x : Ends) (k : Kind) : Decidable (EarlyFree x k) :=
  inferInstanceAs (Decidable (_ ∧ _ ∧ _))

theorem not_earlyFree (hb : x.handles ≤ 4294967296) : ¬EarlyFree x k := by
  rintro ⟨-, h₁, h₂⟩
  omega

/-- A drop takes one handle away. -/
theorem Step.handles_drop {role : Role} (h : Step x (.drop role) y) :
    y.handles + 1 = x.handles := by
  cases h with
  | dropSender h hh =>
    change (x.senders.erase h).card + x.receiver.toNat + 1 = _
    rw [Nat.add_right_comm, Finset.card_erase_add_one hh, handles]
  | dropReceiver hr =>
    change x.senders.card + 0 + 1 = x.senders.card + x.receiver.toNat
    rw [hr]
    rfl

/-- **A drop brings the references to zero exactly when it is that of the last handle**, unless it
is an early free. -/
theorem Step.refs_eq_zero {role : Role} (h : Step x (.drop role) y) (hx : Counts x)
    (he : ¬EarlyFree x (.drop role)) : y.core.refs = 0 ↔ y.handles = 0 := by
  have hy := h.handles_drop
  rw [(h.counts hx).refs, wrap32_eq_zero_iff]
  constructor
  · intro hd
    by_contra h0
    refine he ⟨?_, by omega, ?_⟩
    · cases role
      · exact .inl rfl
      · exact .inr rfl
    · rwa [← hy, Nat.add_sub_cancel]
  · intro h0
    rw [h0]
    exact dvd_zero _

/-- The core is freed exactly when no handle is live. -/
theorem Step.freed_iff (h : Step x k y) (hx : Counts x) (he : ¬EarlyFree x k)
    (hf : x.freed = true ↔ x.handles = 0) : y.freed = true ↔ y.handles = 0 := by
  cases h with
  | other c hs hr hc => exact hf
  | share h h' hh hh' =>
    have hx₀ : x.handles ≠ 0 := by
      have hpos : 0 < x.senders.card := Finset.card_pos.2 ⟨h, hh⟩
      unfold handles
      omega
    have hcard : (insert h' x.senders).card = x.senders.card + 1 :=
      Finset.card_insert_of_notMem hh'
    refine ⟨fun h0 => absurd (hf.1 h0) hx₀, fun h0 => ?_⟩
    change (insert h' x.senders).card + _ = 0 at h0
    omega
  | dropSender h hh =>
    have hstep := Step.dropSender (x := x) h hh
    have hfalse : x.freed = false := by
      rw [← Bool.not_eq_true, hf, ← hstep.handles_drop]
      exact Nat.succ_ne_zero _
    rw [← hstep.refs_eq_zero hx he, hfalse, Bool.false_or, decide_eq_true_eq]
  | dropReceiver hr =>
    have hstep := Step.dropReceiver (x := x) hr
    have hfalse : x.freed = false := by
      rw [← Bool.not_eq_true, hf, ← hstep.handles_drop]
      exact Nat.succ_ne_zero _
    rw [← hstep.refs_eq_zero hx he, hfalse, Bool.false_or, decide_eq_true_eq]

/-- A step that drops nothing frees nothing, and counts its handle if it makes one. -/
theorem Step.refs_of_not_drop (h : Step x k y) (hk : ∀ role, k ≠ .drop role) :
    y.freed = x.freed ∧ (y.core.refs = x.core.refs ∧ y.handles = x.handles ∨
      y.core.refs = arcInc x.core.refs ∧ y.handles = x.handles + 1 ∧ 0 < x.handles) := by
  cases h with
  | other c hs hr hc => exact ⟨rfl, .inl ⟨hr, rfl⟩⟩
  | share h h' hh hh' =>
    have hpos : 0 < x.senders.card := Finset.card_pos.2 ⟨h, hh⟩
    refine ⟨rfl, .inr ⟨rfl, ?_, Nat.add_pos_left hpos _⟩⟩
    change (insert h' x.senders).card + _ = _
    rw [Finset.card_insert_of_notMem hh', handles, Nat.add_right_comm]
  | dropSender h hh => exact absurd rfl (hk .sender)
  | dropReceiver hr => exact absurd rfl (hk .receiver)

/-- The step is a share that is one too many: `INT32_MAX` handles are live already. -/
def Crowded (x : Ends) (k : Kind) : Prop := k = .share ∧ x.handles = 2147483647

instance (x : Ends) (k : Kind) : Decidable (Crowded x k) := inferInstanceAs (Decidable (_ ∧ _))

/-- A share adds one handle, another step adds none. -/
theorem Step.handles_le (h : Step x k y) :
    (k = .share → y.handles = x.handles + 1) ∧ (k ≠ .share → y.handles ≤ x.handles) := by
  cases h with
  | other c hs hr hc => exact ⟨fun hk => (by cases hk), fun _ => le_refl _⟩
  | share h h' hh hh' =>
    refine ⟨fun _ => ?_, fun hk => absurd rfl hk⟩
    change (insert h' x.senders).card + _ = _
    rw [Finset.card_insert_of_notMem hh', handles, Nat.add_right_comm]
  | dropSender h hh =>
    exact ⟨fun hk => (by cases hk), fun _ => Nat.add_le_add_right (Finset.card_erase_le) _⟩
  | dropReceiver hr =>
    exact ⟨fun hk => (by cases hk), fun _ => Nat.add_le_add_left (Nat.zero_le _) _⟩

/-- **The counters stay exact exactly when the step is not a share too many.** -/
theorem Step.exact_iff (h : Step x k y) (hx : Counts x) (hb : x.handles ≤ 2147483647) :
    y.Exact ↔ ¬Crowded x k := by
  rw [(h.counts hx).exact_iff]
  obtain ⟨hshare, hother⟩ := h.handles_le
  by_cases hk : k = .share
  · rw [hshare hk]
    constructor
    · intro hy hc
      have hfull := hc.2
      omega
    · intro hc
      have hne : x.handles ≠ 2147483647 := fun hfull => hc ⟨hk, hfull⟩
      omega
  · exact ⟨fun _ hc => hk hc.1, fun _ => (hother hk).trans hb⟩

/-- What holds of the endpoints as long as no share was one too many. -/
structure Proper (x : Ends) : Prop where
  counts : Counts x
  bound : x.handles ≤ 2147483647
  freed : x.freed = true ↔ x.handles = 0

theorem Step.proper (h : Step x k y) (hx : Proper x) (hc : ¬Crowded x k) : Proper y where
  counts := h.counts hx.counts
  bound := (h.counts hx.counts).exact_iff.1 ((h.exact_iff hx.counts hx.bound).2 hc)
  freed := h.freed_iff hx.counts (not_earlyFree (hx.bound.trans (by decide))) hx.freed

end Ends

end NativeSync
