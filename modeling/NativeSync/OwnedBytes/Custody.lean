import NativeSync.OwnedBytes.Copies
import Mathlib.Order.Lattice.Nat

/-!
# The OwnedBytes channel with the parts outside the mutex

`freeStep` takes a pass through the mutex and what its thread does after it as one step. `Custody`
splits off what runs outside the mutex (`Tail`), so that other threads run in between:

* a receive that has taken a copy out of the queue turns it into a MoonBit value and releases it;
* a finalizer gives up its reference after its section (`sync_owned_bytes_core_release`), and if it
  was the last one it releases the slots, one after the other, and destroys the core.

`Custody.Move` says what a step can do. As long as no finalizer takes its reference for the last one
while others are left (`Custody.EarlyFree`), at most one finalizer goes through the slots, and it
does when there is no reference (`Custody.Counts`).
-/

namespace NativeSync.OwnedBytes

open Foundations

variable {T : Type}

/-! ## The parts outside the mutex -/

/-- The thread that takes an action. -/
def Action.thread : Action T → T
  | callSend t .. => t
  | callRecv t _ => t
  | lock t .. => t
  | copy t => t
  | spurious t => t
  | resume t .. => t
  | senderClose t .. => t
  | receiverClose t _ => t
  | share t .. => t
  | length t _ => t
  | dropSender t .. => t
  | dropReceiver t _ => t

/-- What a thread has still to do outside the mutex. -/
inductive Tail (T : Type)
  | none
  /-- A receive holds a copy: it releases it and returns, with these events. -/
  | handOver (es : List (Event T))
  /-- A finalizer has left its section, and has its reference still. -/
  | release (role : Role)
  /-- A finalizer gave up the last reference; its loop over the slots has come to `index`. -/
  | sweep (role : Role) (index : ℕ)
  deriving DecidableEq

namespace Tail

/-- A receive that holds the copy `n`. -/
def holds (n : ℕ) [DecidableEq T] : Tail T → Bool
  | handOver es => decide (.released n ∈ es)
  | _ => false

/-- A receive that holds a copy. -/
def receiving : Tail T → Bool
  | handOver _ => true
  | _ => false

/-- A finalizer that has its reference still. -/
def releasing : Tail T → Bool
  | release _ => true
  | _ => false

/-- A finalizer that gave up the last reference. -/
def sweeping : Tail T → Bool
  | sweep .. => true
  | _ => false

/-- The number of slots that a finalizer has released. -/
def index : Tail T → ℕ
  | sweep _ index => index
  | _ => 0

end Tail

/-- What a receive that has taken a copy has still to do: hand it over and return. -/
def handsOver : List (Event T) → Bool
  | [.released _, .ret _ (.recv _) _] => true
  | _ => false

/-- The channel with what its threads have still to do outside the mutex; `made t` counts the copies
that the call of thread `t` has made. -/
structure Custody (T : Type) where
  state : State T
  tail : T → Tail T
  made : T → ℕ

variable [Fintype T] [DecidableEq T]

/-- The end of the section of a finalizer: it has notified and left the mutex. -/
def State.leaveFinalize (s : State T) (role : Role) (sec : Section Core Cond Unit) :
    Option (State T × Tail T × List (Event T)) :=
  (deliver Point.cond none sec.wakes s.threads).map fun f =>
    ({ s with core := sec.core, threads := f }, .release role, [])

/-- The part of an action inside the mutex, with what its thread has still to do after it. -/
def inside (s : State T) : Action T → Option (State T × Tail T × List (Event T))
  | .dropSender t h os =>
    if s.freed = false ∧ s.threads t = .run .idle ∧ h ∈ s.senders ∧
        ∀ u, (s.threads u).point.handle ≠ some h then
      (finalize s.core .sender os).bind
        (State.leaveFinalize { s with senders := s.senders.erase h } .sender)
    else none
  | .dropReceiver t os =>
    if s.freed = false ∧ s.threads t = .run .idle ∧ s.receiver = true ∧
        ∀ u, (s.threads u).point.receiving = false then
      (finalize s.core .receiver os).bind
        (State.leaveFinalize { s with receiver := false } .receiver)
    else none
  | a =>
    (freeStep s a).map fun r =>
      if handsOver r.2 = true then (r.1, .handOver r.2, []) else (r.1, .none, r.2)

namespace Custody

/-- The actions: one of the channel up to its unlock, or the next step of a thread outside the
mutex. -/
inductive Act (T : Type)
  | act (a : Action T)
  | goOn (t : T)
  deriving DecidableEq

/-- Thread `t` has this still to do. -/
def setTail (c : Custody T) (t : T) (x : Tail T) : Custody T :=
  { c with tail := Function.update c.tail t x }

omit [Fintype T] in
@[simp] theorem setTail_tail (c : Custody T) (t : T) (x : Tail T) : (c.setTail t x).tail t = x :=
  Function.update_self ..

/-- The next step of thread `t` outside the mutex. `sync_owned_bytes_core_release` does not take it:
it gives up the reference, goes through the slots, which it leaves as they are, and destroys the
core. A destruction that fails aborts; what is done to a core after it was destroyed has no step. -/
def goOn (c : Custody T) (t : T) : Option (Custody T × List (Event T)) :=
  match c.tail t with
  | .none => none
  | .handOver es => some (c.setTail t .none, es)
  | .release role =>
    if c.state.freed then none
    else
      let refs := arcDec c.state.core.refs
      let c := { c with state := { c.state with core := { c.state.core with refs } } }
      if refs ≠ 0 then some (c.setTail t .none, [.ret t (.drop role) (.unit (.ok ()))])
      else some (c.setTail t (.sweep role 0), [])
  | .sweep role index =>
    if c.state.freed then none
    else if index < c.state.core.ring.capacity then
      some (c.setTail t (.sweep role (index + 1)), releaseEvent (c.state.core.ring.slots index))
    else
      some ({ c with state := { c.state with freed := true } }.setTail t .none,
        [.freed, .ret t (.drop role) (.unit (.ok ()))])

/-- One step. A thread that has something left to do is busy, and a receive that holds a copy keeps
the receiver alive. -/
def step (c : Custody T) : Act T → Option (Custody T × List (Event T))
  | .act a =>
    if c.tail a.thread = .none ∧
        (a.kind = .drop .receiver → ∀ u, (c.tail u).receiving = false) then
      (inside c.state a).map fun r =>
        (⟨r.1, Function.update c.tail a.thread r.2.1, a.made c.made⟩, r.2.2)
    else none
  | .goOn t => c.goOn t

/-- A new channel. -/
def init (L : Limits) : Custody T := ⟨State.init L.core, fun _ => .none, fun _ => 0⟩

/-- The number of handles that have their reference still, with those whose finalizer has not come to
giving it up. -/
def references (c : Custody T) : ℕ := c.state.handles + num Tail.releasing c.tail

/-- A reference is given up that the counter takes for the last one although others are left: `2^32`
of them or a multiple. -/
def EarlyFree (c : Custody T) : Act T → Prop
  | .act _ => False
  | .goOn t =>
    (c.tail t).releasing = true ∧ 1 < c.references ∧ 4294967296 ∣ c.references - 1

instance (c : Custody T) : (a : Act T) → Decidable (c.EarlyFree a)
  | .act _ => .isFalse id
  | .goOn _ => inferInstanceAs (Decidable (_ ∧ _ ∧ _))

/-- The number of slots that a finalizer has released. -/
def swept (c : Custody T) : ℕ := Finset.univ.sup fun t => (c.tail t).index

/-- The number of submits in progress that carry the copy `n`. -/
def carried (c : Custody T) (n : ℕ) : ℕ := numAt (Point.carries n) c.state.threads

/-- The number of slots that hold the copy `n`, but for those that a finalizer has released; the
slots are gone when the core was destroyed. -/
def queued (c : Custody T) (n : ℕ) : ℕ :=
  if c.state.freed then 0 else ((c.state.core.ring.slotsFrom c.swept).map Message.addr).count n

/-- The number of receives in progress that hold the copy `n`. -/
def held (c : Custody T) (n : ℕ) : ℕ := num (Tail.holds n) c.tail

/-! ## What a step does -/

/-- A pass with the events `e` leaves `x` to do and shows `e'`. -/
def Leaves (e : List (Event T)) (x : Tail T) (e' : List (Event T)) : Prop :=
  handsOver e = true ∧ x = .handOver e ∧ e' = [] ∨ x = .none ∧ e' = e

/-- What a step does. -/
inductive Move (c : Custody T) : Act T → Custody T → List (Event T) → Prop
  | acted (a : Action T) (s' : State T) (x : Tail T) (e e' : List (Event T))
      (htail : c.tail a.thread = .none) (hk : ∀ role, a.kind ≠ .drop role)
      (hs : freeStep c.state a = some (s', e)) (hx : Leaves e x e') :
      Move c (.act a) ⟨s', Function.update c.tail a.thread x, a.made c.made⟩ e'
  | leftSender (t : T) (h : ℕ) (os : Os) (f : T → Pc Point) (htail : c.tail t = .none)
      (hh : h ∈ c.state.senders) (hu : ∀ u, (c.state.threads u).point.handle ≠ some h)
      (hw : Woken c.state.threads f) :
      Move c (.act (.dropSender t h os))
        ({ c with state := { c.state with
            core := c.state.core.setEndpoints c.state.core.toEndpoints.dropSender
            threads := f
            senders := c.state.senders.erase h } }.setTail t (.release .sender)) []
  | leftReceiver (t : T) (os : Os) (f : T → Pc Point) (htail : c.tail t = .none)
      (hr : c.state.receiver = true) (hu : ∀ u, (c.state.threads u).point.receiving = false)
      (hw : Woken c.state.threads f) :
      Move c (.act (.dropReceiver t os))
        ({ c with state := { c.state with
            core := c.state.core.setEndpoints c.state.core.toEndpoints.dropReceiver
            threads := f
            receiver := false } }.setTail t (.release .receiver)) []
  | handOver (t : T) (es : List (Event T)) (ht : c.tail t = .handOver es) :
      Move c (.goOn t) (c.setTail t .none) es
  | gaveUp (t : T) (role : Role) (x : Tail T) (e : List (Event T)) (ht : c.tail t = .release role)
      (hx : arcDec c.state.core.refs ≠ 0 ∧ x = .none ∧ e = [.ret t (.drop role) (.unit (.ok ()))] ∨
        arcDec c.state.core.refs = 0 ∧ x = .sweep role 0 ∧ e = []) :
      Move c (.goOn t)
        ({ c with state := { c.state with
            core := { c.state.core with refs := arcDec c.state.core.refs } } }.setTail t x) e
  | swept (t : T) (role : Role) (index : ℕ) (ht : c.tail t = .sweep role index)
      (hi : index < c.state.core.ring.capacity) :
      Move c (.goOn t) (c.setTail t (.sweep role (index + 1)))
        (releaseEvent (c.state.core.ring.slots index))
  | destroyed (t : T) (role : Role) (index : ℕ) (ht : c.tail t = .sweep role index)
      (hi : c.state.core.ring.capacity ≤ index) :
      Move c (.goOn t) ({ c with state := { c.state with freed := true } }.setTail t .none)
        [.freed, .ret t (.drop role) (.unit (.ok ()))]

variable {c c' : Custody T} {e es : List (Event T)}

/-- An action that is not a drop is a step of the channel. -/
theorem inside_of_kind {s : State T} {a : Action T} (hk : ∀ role, a.kind ≠ .drop role) :
    inside s a = (freeStep s a).map fun r =>
      if handsOver r.2 = true then (r.1, .handOver r.2, []) else (r.1, .none, r.2) := by
  cases a with
  | dropSender t h os => exact absurd rfl (hk .sender)
  | dropReceiver t os => exact absurd rfl (hk .receiver)
  | _ => rfl

/-- **Every step is a move.** -/
theorem step_move {a : Act T} (hs : c.step a = some (c', e)) : c.Move a c' e := by
  cases a with
  | act a =>
    simp only [step, Option.ite_none_right_eq_some, Option.map_eq_some_iff, Prod.mk.injEq] at hs
    obtain ⟨⟨htail, -⟩, ⟨s', x, e'⟩, hin, rfl, rfl⟩ := hs
    by_cases hk : ∀ role, a.kind ≠ .drop role
    · rw [inside_of_kind hk] at hin
      obtain ⟨⟨s₁, e₁⟩, hstep, hin⟩ := Option.map_eq_some_iff.1 hin
      dsimp only at hin
      split_ifs at hin with hover
      · cases hin
        exact .acted a s' _ e₁ [] htail hk hstep (.inl ⟨hover, rfl, rfl⟩)
      · cases hin
        exact .acted a s' _ e' e' htail hk hstep (.inr ⟨rfl, rfl⟩)
    · cases a with
      | dropSender t h os =>
        simp only [inside, Option.ite_none_right_eq_some] at hin
        obtain ⟨⟨-, -, hh, hu⟩, hin⟩ := hin
        obtain ⟨sec, hsec, -⟩ := Option.bind_eq_some_iff.1 hin
        obtain rfl := finalize_os hsec
        rw [finalize, Endpoints.finalize_sender_ok, Option.map_some, Option.bind_some] at hin
        obtain ⟨f, hf, hin⟩ := Option.map_eq_some_iff.1 hin
        cases hin
        exact .leftSender t h {} f htail hh hu (.of_deliver hf)
      | dropReceiver t os =>
        simp only [inside, Option.ite_none_right_eq_some] at hin
        obtain ⟨⟨-, -, hr, hu⟩, hin⟩ := hin
        obtain ⟨sec, hsec, -⟩ := Option.bind_eq_some_iff.1 hin
        obtain rfl := finalize_os hsec
        rw [finalize, Endpoints.finalize_receiver_ok, Option.map_some, Option.bind_some] at hin
        obtain ⟨f, hf, hin⟩ := Option.map_eq_some_iff.1 hin
        cases hin
        exact .leftReceiver t {} f htail hr hu (.of_deliver hf)
      | share t h h' os =>
        refine absurd (fun role => ?_) hk
        simp only [Action.kind]
        split_ifs <;> simp
      | _ => exact absurd (fun _ => by simp [Action.kind]) hk
  | goOn t =>
    simp only [step, goOn] at hs
    split at hs
    · cases hs
    · rename_i ht
      cases hs
      exact .handOver t _ ht
    · rename_i role ht
      split_ifs at hs with hf hr
      · cases hs
        exact .gaveUp t role _ _ ht (.inl ⟨hr, rfl, rfl⟩)
      · cases hs
        exact .gaveUp t role _ _ ht (.inr ⟨not_not.1 hr, rfl, rfl⟩)
    · rename_i role index ht
      split_ifs at hs with hf hi
      · cases hs
        exact .swept t role index ht hi
      · cases hs
        exact .destroyed t role index ht (not_lt.1 hi)

end Custody

/-! ## The references -/

section References

variable {c c' : Custody T} {a : Custody.Act T} {e : List (Event T)} {s : State T} {t : T}
  {x : Tail T} {made : T → ℕ}

/-- The counter of the references is right modulo `2^32`; and once there is none, a finalizer goes
through the slots or the core has been destroyed. -/
structure Custody.Counts (c : Custody T) : Prop where
  refs : c.state.core.refs = wrap32 c.references
  ended : num Tail.sweeping c.tail + c.state.freed.toNat = (decide (c.references = 0)).toNat

namespace Custody.Counts

omit [DecidableEq T] in
/-- As long as there are references, the slots are left alone. -/
theorem live (h : c.Counts) (hr : 0 < c.references) :
    c.state.freed = false ∧ num Tail.sweeping c.tail = 0 := by
  have hend := h.ended
  rw [decide_eq_false hr.ne', Bool.toNat_false] at hend
  refine ⟨?_, by omega⟩
  cases hf : c.state.freed with
  | false => rfl
  | true =>
    rw [hf, Bool.toNat_true] at hend
    omega

omit [DecidableEq T] in
/-- At most one finalizer goes through the slots, and then there are no references. -/
theorem sweeping (h : c.Counts) (ht : (c.tail t).sweeping = true) :
    c.state.freed = false ∧ num Tail.sweeping c.tail = 1 := by
  have hend := h.ended
  have hpos : 0 < num Tail.sweeping c.tail := num_pos.2 ⟨t, ht⟩
  have hle := Bool.toNat_le (decide (c.references = 0))
  refine ⟨?_, by omega⟩
  cases hf : c.state.freed with
  | false => rfl
  | true =>
    rw [hf, Bool.toNat_true] at hend
    omega

/-- A step at which no reference is made or given up. -/
theorem setTail (h : c.Counts) (hrefs : s.core.refs = c.state.core.refs)
    (hrel : s.handles + x.releasing.toNat = c.state.handles + (c.tail t).releasing.toNat)
    (hsw : x.sweeping.toNat + s.freed.toNat = (c.tail t).sweeping.toNat + c.state.freed.toNat) :
    Custody.Counts ⟨s, Function.update c.tail t x, made⟩ := by
  have h₁ := num_update Tail.releasing c.tail t x
  have h₂ := num_update Tail.sweeping c.tail t x
  have hsame : Custody.references ⟨s, Function.update c.tail t x, made⟩ = c.references := by
    change s.handles + num Tail.releasing (Function.update c.tail t x) =
      c.state.handles + num Tail.releasing c.tail
    omega
  have hend := h.ended
  refine ⟨?_, ?_⟩
  · rw [hsame, ← h.refs]
    exact hrefs
  · rw [hsame, ← hend]
    change num Tail.sweeping (Function.update c.tail t x) + s.freed.toNat = _
    omega

/-- A handle is made. -/
theorem share (h : c.Counts) (ht : c.tail t = .none) (hrefs : s.core.refs = arcInc c.state.core.refs)
    (hpos : 0 < c.state.handles) (hhandles : s.handles = c.state.handles + 1)
    (hf : s.freed = c.state.freed) (hx : x.releasing = false ∧ x.sweeping = false) :
    Custody.Counts ⟨s, Function.update c.tail t x, made⟩ := by
  have h₁ := num_update Tail.releasing c.tail t x
  have h₂ := num_update Tail.sweeping c.tail t x
  rw [ht, hx.1] at h₁
  rw [ht, hx.2] at h₂
  change _ + 0 = _ + 0 at h₁ h₂
  obtain ⟨hlive, hnone⟩ := h.live (Nat.add_pos_left hpos _)
  have hmore : Custody.references ⟨s, Function.update c.tail t x, made⟩ = c.references + 1 := by
    change s.handles + num Tail.releasing (Function.update c.tail t x) =
      c.state.handles + num Tail.releasing c.tail + 1
    omega
  refine ⟨?_, ?_⟩
  · rw [hmore, ← Ends.wrap32_succ h.refs]
    exact hrefs
  · rw [hmore, decide_eq_false (Nat.succ_ne_zero _)]
    change num Tail.sweeping (Function.update c.tail t x) + s.freed.toNat = 0
    rw [hf, hlive, Bool.toNat_false]
    omega

/-- A reference is given up: the finalizer goes through the slots exactly if it was the last one. -/
theorem release (h : c.Counts) (ht : (c.tail t).releasing = true)
    (hrefs : s.core.refs = arcDec c.state.core.refs) (hhandles : s.handles = c.state.handles)
    (hf : s.freed = c.state.freed) (hx : x.releasing = false)
    (hsw : x.sweeping = decide (arcDec c.state.core.refs = 0))
    (he : ¬(1 < c.references ∧ 4294967296 ∣ c.references - 1)) :
    Custody.Counts ⟨s, Function.update c.tail t x, made⟩ := by
  have h₁ := num_update Tail.releasing c.tail t x
  have h₂ := num_update Tail.sweeping c.tail t x
  have hpos : 0 < num Tail.releasing c.tail := num_pos.2 ⟨t, ht⟩
  have hc : c.references = c.state.handles + num Tail.releasing c.tail := rfl
  have ht' : (c.tail t).sweeping = false := by
    cases htail : c.tail t with
    | sweep role index =>
      rw [htail] at ht
      cases ht
    | _ => rfl
  obtain ⟨hlive, hnone⟩ := h.live (by omega)
  rw [ht, hx, Bool.toNat_true, Bool.toNat_false] at h₁
  rw [ht', hnone, Bool.toNat_false] at h₂
  have hless : Custody.references ⟨s, Function.update c.tail t x, made⟩ = c.references - 1 := by
    change s.handles + num Tail.releasing (Function.update c.tail t x) = _
    omega
  have hdec : arcDec c.state.core.refs = wrap32 (c.references - 1 : ℕ) :=
    Ends.wrap32_pred h.refs (by omega)
  -- the counter is zero only if no reference is left
  have hzero : arcDec c.state.core.refs = 0 ↔ c.references - 1 = 0 := by
    rw [hdec, wrap32_eq_zero_iff]
    constructor
    · intro hd
      by_contra h0
      exact he ⟨by omega, hd⟩
    · intro h0
      rw [h0]
      exact dvd_zero _
  refine ⟨?_, ?_⟩
  · rw [hless, ← hdec]
    exact hrefs
  · rw [hless, decide_eq_decide.2 hzero.symm, ← hsw]
    change num Tail.sweeping (Function.update c.tail t x) + s.freed.toNat = _
    rw [hf, hlive, Bool.toNat_false]
    omega

end Custody.Counts

/-- **A step keeps the counts** unless it is an early free. -/
theorem Custody.Move.counts (h : c.Move a c' e) (hc : c.Counts) (he : ¬c.EarlyFree a) :
    c'.Counts := by
  cases h with
  | acted a s' x e e' htail hk hs hx =>
    have hx' : x.releasing = false ∧ x.sweeping = false := by
      rcases hx with ⟨-, rfl, -⟩ | ⟨rfl, -⟩ <;> exact ⟨rfl, rfl⟩
    obtain ⟨hf, ⟨hrefs, hhandles⟩ | ⟨hrefs, hhandles, hpos⟩⟩ := (step_ends hs).refs_of_not_drop hk
    · refine hc.setTail hrefs ?_ ?_
      · rw [htail, hx'.1, show s'.handles = c.state.handles from hhandles]
        rfl
      · rw [htail, hx'.2, show s'.freed = c.state.freed from hf]
        rfl
    · exact hc.share htail hrefs hpos hhandles hf hx'
  | leftSender t k os f htail hh hu hw =>
    refine hc.setTail rfl ?_ ?_
    · rw [htail]
      change (c.state.senders.erase k).card + c.state.receiver.toNat + 1 =
        c.state.senders.card + c.state.receiver.toNat + 0
      rw [Nat.add_right_comm, Finset.card_erase_add_one hh]
      rfl
    · rw [htail]
      rfl
  | leftReceiver t os f htail hr hu hw =>
    refine hc.setTail rfl ?_ ?_
    · rw [htail]
      change c.state.senders.card + 0 + 1 = c.state.senders.card + c.state.receiver.toNat + 0
      rw [hr]
      rfl
    · rw [htail]
      rfl
  | handOver t es ht => exact hc.setTail rfl (by rw [ht]; rfl) (by rw [ht]; rfl)
  | gaveUp t role x e ht hx =>
    have ht' : (c.tail t).releasing = true := by
      rw [ht]
      rfl
    refine hc.release ht' rfl rfl rfl ?_ ?_ fun h => he ⟨ht', h⟩
    · rcases hx with ⟨-, rfl, -⟩ | ⟨-, rfl, -⟩ <;> rfl
    · rcases hx with ⟨hne, rfl, -⟩ | ⟨h0, rfl, -⟩
      · rw [decide_eq_false hne]
        rfl
      · rw [decide_eq_true h0]
        rfl
  | swept t role index ht hi => exact hc.setTail rfl (by rw [ht]; rfl) (by rw [ht]; rfl)
  | destroyed t role index ht hi =>
    have hlive := hc.sweeping (t := t) (by rw [ht]; rfl)
    refine hc.setTail rfl (by rw [ht]; rfl) ?_
    rw [ht, hlive.1]
    rfl

end References

/-! ## The slots that are left -/

section Swept

variable {c : Custody T} {s : State T} {t : T} {x : Tail T} {n : ℕ}

omit [DecidableEq T] in
/-- While nobody goes through the slots, all of them are left. -/
theorem swept_eq_zero (h : num Tail.sweeping c.tail = 0) : c.swept = 0 := by
  refine Nat.le_zero.1 (Finset.sup_le fun u _ => ?_)
  have hu := num_eq_zero.1 h u
  cases hx : c.tail u with
  | sweep role index =>
    rw [hx] at hu
    cases hu
  | _ => exact le_refl 0

omit [DecidableEq T] in
/-- A finalizer that goes through the slots alone. -/
theorem swept_eq_index (h : num Tail.sweeping c.tail = 1) (ht : (c.tail t).sweeping = true) :
    c.swept = (c.tail t).index := by
  refine le_antisymm (Finset.sup_le fun u _ => ?_)
    (Finset.le_sup (f := fun u => (c.tail u).index) (Finset.mem_univ t))
  cases hx : c.tail u with
  | sweep role index =>
    have hut : u = t := num_unique (p := Tail.sweeping) (f := c.tail) h.le (by rw [hx]; rfl) ht
    rw [← hut, hx]
  | _ => exact Nat.zero_le _

/-- Thread `t` has something else to do, with as many slots behind it. -/
theorem swept_setTail {made : T → ℕ} (hx : x.index = (c.tail t).index) :
    Custody.swept ⟨s, Function.update c.tail t x, made⟩ = c.swept := by
  refine Finset.sup_congr rfl fun u _ => ?_
  by_cases hu : u = t
  · subst hu
    change (Function.update c.tail u x u).index = _
    rw [Function.update_self, hx]
  · change (Function.update c.tail t x u).index = _
    rw [Function.update_of_ne hu]

/-- The slots that are left stay the same. -/
theorem queued_setTail {made : T → ℕ} (hx : x.index = (c.tail t).index)
    (hring : s.core.ring = c.state.core.ring) (hf : s.freed = c.state.freed) :
    Custody.queued ⟨s, Function.update c.tail t x, made⟩ n = c.queued n := by
  unfold Custody.queued
  rw [swept_setTail hx, hring, hf]

omit [DecidableEq T] in
theorem queued_of_live (hf : c.state.freed = false) (h : num Tail.sweeping c.tail = 0) :
    c.queued n = c.state.queued n := by
  rw [Custody.queued, State.queued, hf, if_neg Bool.false_ne_true, if_neg Bool.false_ne_true,
    swept_eq_zero h, RingBuffer.slotsFrom_zero]

end Swept

end NativeSync.OwnedBytes
