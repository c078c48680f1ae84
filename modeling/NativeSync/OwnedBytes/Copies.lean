import NativeSync.OwnedBytes.Budget
import NativeSync.ChannelHandles

/-!
# The native copies of the OwnedBytes channel

Every call of `sync_owned_bytes_message_copy` makes a fresh copy; `State.copies` counts them, and
the number of a copy is its token. A token is carried by a submit in progress, sits in a slot, or is
released.

* `Outcome.balance` is the balance of one step of the channel: a token that leaves one place comes
  to another.
* `madeOk_step` says how many copies a call has made by the time its thread stands at a point: at
  most one.

A step of the channel is a pass through the mutex together with what its thread does outside the
mutex afterwards. The system in which these parts are steps of their own, and the tokens over its
runs, are in `OwnedBytes.Custody`.
-/

namespace NativeSync.OwnedBytes

open Foundations

variable {T : Type}

/-! ## Where a copy is -/

/-- A thread at the point carries the copy `n`. -/
def Point.carries (n : ℕ) : Point → Bool
  | submit _ _ _ (some m) => m.addr == n
  | _ => false

/-- The number of slots that hold the copy `n`; the slots are gone when the core was freed. -/
def State.queued (s : State T) (n : ℕ) : ℕ :=
  if s.freed then 0 else (s.core.ring.slotList.map Message.addr).count n

/-- How often the copy `n` was released. -/
def released [DecidableEq T] (es : List (Event T)) (n : ℕ) : ℕ := es.count (.released n)

section Counts

variable [DecidableEq T] {n : ℕ}

theorem released_append (es es' : List (Event T)) (n : ℕ) :
    released (es ++ es') n = released es n + released es' n := List.count_append

theorem released_ret (t : T) (op : Op) (r : Result) : released [.ret t op r] n = 0 :=
  List.count_eq_zero.2 (by simp)

theorem released_map (ms : List Message) (n : ℕ) :
    released (ms.map fun m => (Event.released m.addr : Event T)) n =
      (ms.map Message.addr).count n := by
  induction ms with
  | nil => rfl
  | cons m ms ih =>
    simp only [released, List.map_cons, List.count_cons] at ih ⊢
    rw [ih]
    simp

/-- A submit that ends gives up what it carried. -/
theorem released_releaseEvent (h : ℕ) (kind : SendKind) (bytes : Bytes) (message : Option Message)
    (n : ℕ) : released (releaseEvent message : List (Event T)) n =
      ((Point.submit h kind bytes message).carries n).toNat := by
  cases message with
  | none => rfl
  | some m =>
    simp only [released, releaseEvent, Option.map_some, Option.toList_some, List.count_singleton,
      Point.carries, Bool.toNat, Bool.cond_eq_ite]
    simp

theorem released_freeEvents (core : Core) (n : ℕ) :
    released (freeEvents core : List (Event T)) n =
      if core.refs = 0 then (core.ring.slotList.map Message.addr).count n else 0 := by
  unfold freeEvents
  split_ifs
  · rw [released_append, released_map]
    have : released ([.freed] : List (Event T)) n = 0 := List.count_eq_zero.2 (by simp)
    rw [this, Nat.add_zero]
  · rfl

end Counts

/-! ## The balance of a step -/

section Balance

variable {L : Limits} {s s' : State T} {e : List (Event T)} {t : T} {n : ℕ}

/-- In a well formed ring the slots hold what the queue holds. -/
theorem queued_eq (hs : Sound L s) (hf : s.freed = false) (n : ℕ) :
    s.queued n = (s.core.ring.toList.map Message.addr).count n := by
  rw [State.queued, hf, if_neg Bool.false_ne_true]
  exact ((RingBuffer.perm_slotList hs.core.ring).map Message.addr).count_eq n

variable [Fintype T] [DecidableEq T]

/-- The tokens that the threads carry, when thread `t` moves from `p` to `x` and threads are
notified. -/
theorem carried_move {p : Point} {x : Pc Point} {f : T → Pc Point} {k k' : ℕ}
    (ht : (s.threads t).point = p) (hw : Woken (Function.update s.threads t x) f)
    (hk : (x.point.carries n).toNat + k' = (p.carries n).toNat + k) :
    numAt (Point.carries n) f + k' = numAt (Point.carries n) s.threads + k := by
  have hstep := numAt_step (q := Point.carries n) hw
  rw [ht] at hstep
  omega

omit [Fintype T] [DecidableEq T] in
theorem toNat_lt_succ (n k : ℕ) :
    (k == n).toNat + (decide (n < k)).toNat = (decide (n < k + 1)).toNat := by
  rcases lt_trichotomy n k with hn | rfl | hn
  · simp [hn, hn.ne', Nat.lt_succ_of_lt hn]
  · simp
  · simp [hn.ne, not_lt.2 hn.le, Nat.not_lt.2 (Nat.succ_le_of_lt hn)]

/-- **The balance of a step**: a copy that it makes is new, and every other token that leaves one
place comes to another. -/
theorem Outcome.balance {a : Action T} (ho : Outcome a s s' e) (hs : Sound L s)
    (hfree : s.freed = false) (n : ℕ) :
    numAt (Point.carries n) s'.threads +
        (s'.queued n + released e n + (decide (n < s.copies)).toNat) =
      numAt (Point.carries n) s.threads + (s.queued n + (decide (n < s'.copies)).toNat) := by
  cases ho with
  | callSend t h kind bytes ht hh ha =>
    exact carried_move (p := .idle) (by rw [ht]; rfl) (.refl _) rfl
  | callRecv t block ht hr => exact carried_move (p := .idle) (by rw [ht]; rfl) (.refl _) rfl
  | aside t op r ht => rw [released_ret, Nat.add_zero]
  | sendEnded t h kind bytes message r ht =>
    refine carried_move ht.point (.refl _) ?_
    rw [released_append, released_ret, released_releaseEvent h kind bytes]
    change 0 + (s.queued n + (_ + 0) + _) = _ + (s.queued n + (decide (n < s.copies)).toNat)
    omega
  | sendSleep t h kind bytes message ht hb hlen => exact carried_move ht.point (.refl _) rfl
  | sendCopy t h kind bytes ht hlen => exact carried_move ht.point (.refl _) rfl
  | copied t h kind bytes ht ha =>
    refine carried_move (p := .copy h kind bytes) (by rw [ht]; rfl) (.refl _) ?_
    have hr : released [(.copied s.copies : Event T)] n = 0 := List.count_eq_zero.2 (by simp)
    rw [hr]
    change (s.copies == n).toNat + (s.queued n + 0 + (decide (n < s.copies)).toNat) =
      0 + (s.queued n + (decide (n < s.copies + 1)).toNat)
    rw [← toNat_lt_succ]
    omega
  | sent t h kind bytes m f hin hlen ho hfits hw =>
    obtain ⟨hok, hl⟩ := hs.carried hin.ready
    have hs' : Sound L { s with core := s.core.enqueue m bytes.length, threads := f } :=
      hs.update (t := t) (hs.core.enqueue hfits hok hl) .idle hw
    refine carried_move hin.ready.point hw ?_
    rw [queued_eq hs' hfree, queued_eq hs hfree, hs.core.toList_enqueue hfits, released_ret,
      List.map_append, List.count_append]
    change 0 + (_ + List.count n [m.addr] + 0 + _) = (m.addr == n).toNat + (_ + _)
    rw [List.count_singleton]
    cases m.addr == n
    · simp
    · simp
      omega
  | recvSleep t block ht hb => exact carried_move ht.point (.refl _) rfl
  | recvEnded t block r ht =>
    refine carried_move ht.point (.refl _) ?_
    rw [released_ret]
    rfl
  | received t block m f hin hc hm hw =>
    have hs' : Sound L { s with core := s.core.dequeue m, threads := f } :=
      hs.update (t := t) (hs.core.dequeue hc hm) .idle hw
    refine carried_move hin.ready.point hw ?_
    rw [queued_eq hs' hfree, queued_eq hs hfree, hs.core.toList_dequeue hc hm, List.map_cons,
      List.count_cons]
    change 0 + (_ + released [_, _] n + _) = 0 + (_ + _)
    simp [released, List.count_cons]
  | spurious t p ht => exact carried_move (p := p) (by rw [ht]; rfl) (.refl _) rfl
  | closed t op alive f r ht hw =>
    rw [released_ret]
    change numAt (Point.carries n) f + _ = _
    rw [numAt_woken hw]
    rfl
  | share t h h' r ht hh hh' =>
    rw [released_ret]
    rfl
  | dropSender t h ht hh hu =>
    rw [released_append, released_ret, released_freeEvents, numAt_woken (woken_ite _ _),
      State.queued, State.queued, hfree, if_neg Bool.false_ne_true, Bool.false_or]
    by_cases hz : s.core.dropSender.refs = 0
    · simp only [hz, decide_true, if_true, Nat.zero_add, Nat.add_zero]
      rfl
    · simp only [hz, decide_false, if_false, Bool.false_eq_true, Nat.add_zero]
      rfl
  | dropReceiver t ht hr hu =>
    rw [released_append, released_ret, released_freeEvents, numAt_woken (woken_ite _ _),
      State.queued, State.queued, hfree, if_neg Bool.false_ne_true, Bool.false_or]
    by_cases hz : s.core.dropReceiver.refs = 0
    · simp only [hz, decide_true, if_true, Nat.zero_add, Nat.add_zero]
      rfl
    · simp only [hz, decide_false, if_false, Bool.false_eq_true, Nat.add_zero]
      rfl

end Balance

/-! ## The copies that a call makes -/

/-- The copies that the current call of each thread has made. -/
def Action.made [DecidableEq T] (made : T → ℕ) : Action T → T → ℕ
  | callSend t .. => Function.update made t 0
  | copy t => Function.update made t (made t + 1)
  | _ => made

/-- How many copies the call of a thread has made by the time it stands at a point. -/
def MadeOk : Point → ℕ → Prop
  | .submit _ _ _ (some _), k => k = 1
  | .submit _ _ _ none, k => k = 0
  | .copy .., k => k = 0
  | .idle, k => k ≤ 1
  | .receive _, k => k ≤ 1

theorem MadeOk.le_one {p : Point} {k : ℕ} (h : MadeOk p k) : k ≤ 1 := by
  cases p with
  | submit n kind bytes message =>
    cases message with
    | none => exact le_of_eq_of_le h (Nat.zero_le _)
    | some m => exact le_of_eq h
  | copy n kind bytes => exact le_of_eq_of_le h (Nat.zero_le _)
  | idle => exact h
  | receive block => exact h

section Made

variable [DecidableEq T] {s s' : State T} {e : List (Event T)} {a : Action T} {made : T → ℕ}

/-- A thread moves and others are notified. -/
theorem madeOk_move {t : T} {x : Pc Point} {f : T → Pc Point}
    (h : ∀ u, MadeOk (s.threads u).point (made u)) (hx : MadeOk x.point (made t))
    (hw : Woken (Function.update s.threads t x) f) (u : T) : MadeOk (f u).point (made u) := by
  rw [hw.point]
  exact forall_update (Q := fun u (y : Pc Point) => MadeOk y.point (made u)) hx (fun v _ => h v) u

/-- A step that neither calls nor copies makes no copy. -/
theorem Outcome.madeOk (ho : Outcome a s s' e) (h : ∀ u, MadeOk (s.threads u).point (made u))
    (hcall : ∀ t n kind bytes k, a ≠ .callSend t n kind bytes k) (hcopy : ∀ t, a ≠ .copy t)
    (u : T) : MadeOk (s'.threads u).point (made u) := by
  cases ho with
  | callSend t n kind bytes ht hh ha => exact absurd ha (hcall t n kind bytes 0)
  | copied t n kind bytes ht ha => exact absurd ha (hcopy t)
  | callRecv t block ht hr =>
    exact madeOk_move h (x := .run (.receive block)) (h t).le_one (.refl _) u
  | aside t op r ht => exact h u
  | sendEnded t n kind bytes message r ht =>
    exact madeOk_move h (x := .run .idle) (h t).le_one (.refl _) u
  | sendSleep t n kind bytes message ht hb hlen =>
    exact madeOk_move h (x := .wait .asleep (.submit n kind bytes message)) (ht.point ▸ h t)
      (.refl _) u
  | sendCopy t n kind bytes ht hlen =>
    have hm := h t
    rw [ht.point] at hm
    exact madeOk_move h (x := .run (.copy n kind bytes)) hm (.refl _) u
  | sent t n kind bytes m f hin hlen ho hf hw =>
    exact madeOk_move h (x := .run .idle) (h t).le_one hw u
  | recvSleep t block ht hb =>
    exact madeOk_move h (x := .wait .asleep (.receive block)) (h t).le_one (.refl _) u
  | recvEnded t block r ht => exact madeOk_move h (x := .run .idle) (h t).le_one (.refl _) u
  | received t block m f hin hc hm hw =>
    exact madeOk_move h (x := .run .idle) (h t).le_one hw u
  | spurious t p ht =>
    have hm := h t
    rw [ht] at hm
    exact madeOk_move h (x := .wait .spurious p) hm (.refl _) u
  | closed t op alive f r ht hw =>
    change MadeOk (f u).point _
    rw [hw.point]
    exact h u
  | share t n n' r ht hn hn' => exact h u
  | dropSender t n ht hn hu =>
    rw [(woken_ite _ _).point]
    exact h u
  | dropReceiver t ht hr hu =>
    rw [(woken_ite _ _).point]
    exact h u

/-- **A step keeps the count of the copies that each call has made.** -/
theorem madeOk_step [Fintype T] (hs : freeStep s a = some (s', e))
    (h : ∀ u, MadeOk (s.threads u).point (made u)) (u : T) :
    MadeOk (s'.threads u).point (a.made made u) := by
  cases a with
  | callSend t n kind bytes injected =>
    have hmade : ∀ p, MadeOk p 0 → MadeOk p (Function.update made t 0 t) := by
      intro p hp
      rwa [Function.update_self]
    have hothers : ∀ v, v ≠ t → MadeOk (s.threads v).point (Function.update made t 0 v) := by
      intro v hv
      rw [Function.update_of_ne hv]
      exact h v
    have hmany := (freeStep_eq_some.1 hs).2
    simp only [manyStep, step] at hmany
    split_ifs at hmany with h₁ h₂
    · cases hmany
      by_cases hu : u = t
      · subst hu
        refine hmade _ ?_
        rw [h₁.1]
        exact Nat.zero_le _
      · exact hothers u hu
    · cases hmany
      have hnew : MadeOk (.submit n kind bytes none) 0 := rfl
      exact forall_update
        (Q := fun v (y : Pc Point) => MadeOk y.point (Function.update made t 0 v))
        (x := .run (.submit n kind bytes none)) (hmade _ hnew) hothers u
  | copy t =>
    have hmany := (freeStep_eq_some.1 hs).2
    simp only [manyStep, step] at hmany
    split at hmany <;> cases hmany
    rename_i n kind bytes ht
    have h0 := h t
    rw [ht] at h0
    have h1 : Function.update made t (made t + 1) t = 1 := by
      rw [Function.update_self, show made t = 0 from h0]
    refine forall_update
      (Q := fun v (y : Pc Point) => MadeOk y.point (Function.update made t (made t + 1) v))
      (x := .run (.submit n kind bytes (some (messageCopy s.copies bytes bytes.length)))) h1
      (fun v hv => ?_) u
    rw [Function.update_of_ne hv]
    exact h v
  | _ => exact (freeStep_outcome hs).madeOk h (by intros; simp) (by intros; simp) u

end Made

end NativeSync.OwnedBytes
