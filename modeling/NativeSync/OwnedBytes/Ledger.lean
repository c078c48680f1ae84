import NativeSync.OwnedBytes.Custody

/-!
# The ledger of the OwnedBytes channel

At every moment a token is carried by a submit in progress, sits in a slot, is held by a receive in
progress, or has been released. `Ledger` is the invariant, with this conservation law;
`Custody.Move.balanced` is the step and `ledger_of_exec` the run.

The law fails only behind a finalizer that finds the reference counter at zero while handles are
left (`Custody.EarlyFree`): while it goes through the slots, a receive on one of these handles can
still take the mutex, and then a copy that has been released.
-/

namespace NativeSync.OwnedBytes

open Foundations

variable {T : Type} [Fintype T] [DecidableEq T]

/-! ## The ledger -/

section Ledger

variable {L : Limits} {c c' : Custody T} {a : Custody.Act T} {es e : List (Event T)}
  {s s' : State T} {t : T} {n : ℕ}

/-- The invariant of the channel with its tokens. `law` is the conservation law. -/
structure Ledger (L : Limits) (es : List (Event T)) (c : Custody T) : Prop where
  sound : Sound L c.state
  counts : c.Counts
  tails : ∀ t r, c.tail t = .handOver r → handsOver r = true
  made : ∀ t, MadeOk (c.state.threads t).point (c.made t)
  law : ∀ n, c.carried n + (c.queued n + c.held n + released es n) =
    (decide (n < c.state.copies)).toNat

namespace Custody.Move

theorem sound (h : c.Move a c' e) (hs : Sound L c.state) : Sound L c'.state := by
  cases h with
  | acted a s' x e e' htail hk hstep hx => exact (freeStep_outcome hstep).sound hs
  | leftSender t k os f htail hh hu hw =>
    refine hs.setHandles (hs.core.congr rfl rfl rfl rfl fun ha => ?_) hw
      (fun u m hm hm' => Finset.mem_erase.2 ⟨fun e => hu u (e ▸ hm), hm'⟩) fun _ _ hr => hr
    change (c.state.core.closed || decide _) = true
    rw [hs.core.alive ha, Bool.true_or]
  | leftReceiver t os f htail hr hu hw =>
    refine hs.setHandles (hs.core.congr rfl rfl rfl rfl fun _ => ?_) hw
      (fun _ _ _ hm => hm) fun u hu' _ => by rw [hu u] at hu'; cases hu'
    change (c.state.core.closed || c.state.core.receiverAlive) = true
    cases ha : c.state.core.receiverAlive
    · rw [hs.core.alive ha, Bool.true_or]
    · rw [Bool.or_true]
  | gaveUp t role x e ht hx =>
    exact ⟨hs.core.congr rfl rfl rfl rfl hs.core.alive, hs.threads⟩
  | _ => exact ⟨hs.core, hs.threads⟩

theorem made (h : c.Move a c' e) (hm : ∀ u, MadeOk (c.state.threads u).point (c.made u)) (u : T) :
    MadeOk (c'.state.threads u).point (c'.made u) := by
  cases h with
  | acted a s' x e e' htail hk hs hx => exact madeOk_step hs hm u
  | leftSender t k os f htail hh hu hw =>
    change MadeOk (f u).point _
    rw [hw.point]
    exact hm u
  | leftReceiver t os f htail hr hu hw =>
    change MadeOk (f u).point _
    rw [hw.point]
    exact hm u
  | _ => exact hm u

omit [Fintype T] in
/-- Thread `t` has something else to do. -/
theorem tails_setTail {x : Tail T} (h : ∀ u r, c.tail u = .handOver r → handsOver r = true)
    (hx : ∀ r, x = .handOver r → handsOver r = true) (u : T) (r : List (Event T))
    (hr : Function.update c.tail t x u = .handOver r) : handsOver r = true :=
  forall_update (Q := fun _ (y : Tail T) => ∀ r, y = .handOver r → handsOver r = true) hx
    (fun v _ => h v) u r hr

theorem tails (h : c.Move a c' e) (hc : ∀ u r, c.tail u = .handOver r → handsOver r = true)
    (u : T) (r : List (Event T)) (hr : c'.tail u = .handOver r) : handsOver r = true := by
  cases h with
  | acted a s' x e e' htail hk hs hx =>
    refine tails_setTail hc (fun r' hr' => ?_) u r hr
    rcases hx with ⟨hover, rfl, -⟩ | ⟨rfl, -⟩
    · cases hr'
      exact hover
    · cases hr'
  | gaveUp t role x e ht hx =>
    refine tails_setTail hc (fun r' hr' => ?_) u r hr
    rcases hx with ⟨-, rfl, -⟩ | ⟨-, rfl, -⟩ <;> cases hr'
  | _ => exact tails_setTail hc (fun r' hr' => by cases hr') u r hr

end Custody.Move

omit [Fintype T] in
/-- What a receive holds is what it will release. -/
theorem toNat_mem_of_handsOver (h : handsOver e = true) (n : ℕ) :
    (decide (Event.released n ∈ e)).toNat = released e n := by
  unfold handsOver at h
  split at h
  · rename_i k t block r
    by_cases hk : n = k
    · subst hk
      simp [released]
    · simp [released, hk, Ne.symm hk]
  · cases h

omit [Fintype T] in
/-- What a pass releases, it shows or leaves to be released. -/
theorem Custody.Leaves.balance {x : Tail T} {e' : List (Event T)} (h : Leaves e x e') (n : ℕ) :
    released e' n + (x.holds n).toNat = released e n := by
  rcases h with ⟨hover, rfl, rfl⟩ | ⟨rfl, rfl⟩
  · change 0 + (decide (Event.released n ∈ e)).toNat = _
    rw [toNat_mem_of_handsOver hover, Nat.zero_add]
  · rfl

omit [Fintype T] in
/-- A pass that touches the slots has a handle. -/
theorem Outcome.ring_eq {a : Action T} (ho : Outcome a s s' e) (hs : Sound L s) :
    s'.core.ring = s.core.ring ∨ 0 < s.handles := by
  cases ho with
  | sent t k kind bytes m f hin hlen ho hf hw =>
    have hk := (hs.ready hin.ready).1
    exact .inr (Nat.add_pos_left (Finset.card_pos.2 ⟨k, hk⟩) _)
  | received t block m f hin hc hm hw =>
    have hr : s.receiver = true := hs.ready hin.ready
    refine .inr (Nat.add_pos_right _ ?_)
    rw [hr]
    exact Nat.one_pos
  | _ => exact .inl rfl

/-- The slots that are left, when a thread takes a pass of the channel. -/
theorem queued_acted {a : Action T} {x : Tail T} (made : T → ℕ) (hsound : Sound L c.state)
    (hc : c.Counts) (hs : freeStep c.state a = some (s', e)) (hk : ∀ role, a.kind ≠ .drop role)
    (hx : x.index = (c.tail t).index) (hx' : x.sweeping = (c.tail t).sweeping) (n : ℕ) :
    Custody.queued ⟨s', Function.update c.tail t x, made⟩ n + c.state.queued n =
      c.queued n + s'.queued n := by
  have hfreed : s'.freed = c.state.freed := ((step_ends hs).refs_of_not_drop hk).1
  rcases (freeStep_outcome hs).ring_eq hsound with hring | hpos
  · rw [queued_setTail hx hring hfreed, State.queued, State.queued, hring, hfreed]
  · obtain ⟨hlive, hnone⟩ := hc.live (Nat.add_pos_left hpos _)
    have hnone' : num Tail.sweeping (Function.update c.tail t x) = 0 :=
      (num_update_same hx').trans hnone
    rw [queued_of_live hlive hnone, queued_of_live (hfreed.trans hlive) hnone']
    exact Nat.add_comm _ _

/-- The tokens of `c'` are those of `c`, but for copies that were made and those that `e` releases. -/
def Custody.Balanced (c c' : Custody T) (e : List (Event T)) : Prop :=
  ∀ n, c'.carried n + (c'.queued n + c'.held n + released e n) +
      (decide (n < c.state.copies)).toNat =
    c.carried n + (c.queued n + c.held n) + (decide (n < c'.state.copies)).toNat

/-- A step of thread `t` outside the mutex. -/
theorem balanced_setTail {x : Tail T} {made : T → ℕ} (hcopies : s.copies = c.state.copies)
    (hw : Woken c.state.threads s.threads)
    (h : ∀ n, Custody.queued ⟨s, Function.update c.tail t x, made⟩ n + (x.holds n).toNat +
      released e n = c.queued n + ((c.tail t).holds n).toNat) :
    c.Balanced ⟨s, Function.update c.tail t x, made⟩ e := by
  intro n
  have hheld := num_update (Tail.holds n) c.tail t x
  have hn := h n
  change numAt _ s.threads + (_ + num _ (Function.update c.tail t x) + _) + _ =
    numAt _ c.state.threads + (_ + num _ c.tail) + (decide (n < s.copies)).toNat
  rw [numAt_woken hw, hcopies]
  omega

/-- The loop over the slots: with each slot it releases the copy that the slot holds. -/
theorem queued_sweep {role : Role} {index : ℕ} (hc : c.Counts) (ht : c.tail t = .sweep role index)
    (hi : index < c.state.core.ring.capacity) (n : ℕ) :
    (c.setTail t (.sweep role (index + 1))).queued n +
      released (releaseEvent (c.state.core.ring.slots index) : List (Event T)) n = c.queued n := by
  obtain ⟨hlive, hone⟩ := hc.sweeping (t := t) (by rw [ht]; rfl)
  have hone' : num Tail.sweeping (c.setTail t (.sweep role (index + 1))).tail = 1 :=
    (num_update_same (by rw [ht]; rfl)).trans hone
  have hmine := c.setTail_tail t (.sweep role (index + 1))
  rw [Custody.queued, Custody.queued, swept_eq_index hone' (t := t) (by rw [hmine]; rfl),
    swept_eq_index hone (t := t) (by rw [ht]; rfl), hmine, ht]
  change (if c.state.freed = true then 0 else _) + _ = _
  rw [hlive, if_neg Bool.false_ne_true, if_neg Bool.false_ne_true]
  change ((c.state.core.ring.slotsFrom (index + 1)).map _).count n + _ =
    ((c.state.core.ring.slotsFrom index).map _).count n
  rw [RingBuffer.slotsFrom_of_lt hi, List.map_append, List.count_append, Nat.add_comm]
  congr 1
  cases c.state.core.ring.slots index with
  | none => rfl
  | some m => exact released_map [m] n

omit [DecidableEq T] in
/-- The end of the loop: all copies have been released. -/
theorem queued_destroy {role : Role} {index : ℕ} (hc : c.Counts) (ht : c.tail t = .sweep role index)
    (hi : c.state.core.ring.capacity ≤ index) (n : ℕ) : c.queued n = 0 := by
  obtain ⟨-, hone⟩ := hc.sweeping (t := t) (by rw [ht]; rfl)
  rw [Custody.queued, swept_eq_index hone (t := t) (by rw [ht]; rfl), ht,
    show (Tail.sweep role index : Tail T).index = index from rfl, RingBuffer.slotsFrom_of_le hi]
  split_ifs <;> rfl

/-- **The balance of a step**: a copy that it makes is new, and every other token that leaves one
place comes to another. -/
theorem Custody.Move.balanced (h : c.Move a c' e) (hI : Ledger L es c) : c.Balanced c' e := by
  cases h with
  | acted a s' x e₀ e htail hk hs hx =>
    intro n
    have hpass := (freeStep_outcome hs).balance hI.sound (freeStep_eq_some.1 hs).1 n
    have hheld := num_update (Tail.holds n) c.tail a.thread x
    have hsplit := hx.balance n
    have hx' : x.index = (c.tail a.thread).index ∧ x.sweeping = (c.tail a.thread).sweeping := by
      rw [htail]
      rcases hx with ⟨-, rfl, -⟩ | ⟨rfl, -⟩ <;> exact ⟨rfl, rfl⟩
    have hqueued := queued_acted (a.made c.made) hI.sound hI.counts hs hk hx'.1 hx'.2 n
    rw [htail] at hheld
    change num _ _ + 0 = _ at hheld
    change numAt _ s'.threads + (_ + num _ (Function.update c.tail a.thread x) + _) + _ =
      numAt _ c.state.threads + (_ + num _ c.tail) + (decide (n < s'.copies)).toNat
    omega
  | leftSender t k os f htail hh hu hw =>
    refine balanced_setTail rfl hw fun n => ?_
    rw [queued_setTail (by rw [htail]; rfl) rfl rfl, htail]
    rfl
  | leftReceiver t os f htail hr hu hw =>
    refine balanced_setTail rfl hw fun n => ?_
    rw [queued_setTail (by rw [htail]; rfl) rfl rfl, htail]
    rfl
  | handOver t r ht =>
    refine balanced_setTail rfl (.refl _) fun n => ?_
    rw [queued_setTail (by rw [ht]; rfl) rfl rfl, ht,
      ← toNat_mem_of_handsOver (hI.tails t _ ht)]
    rfl
  | gaveUp t role x e ht hx =>
    refine balanced_setTail rfl (.refl _) fun n => ?_
    have hx' : x.index = (c.tail t).index ∧ (x.holds n).toNat = 0 ∧ released e n = 0 := by
      rw [ht]
      rcases hx with ⟨-, rfl, rfl⟩ | ⟨-, rfl, rfl⟩
      · exact ⟨rfl, rfl, released_ret ..⟩
      · exact ⟨rfl, rfl, rfl⟩
    rw [queued_setTail (by rw [hx'.1]) rfl rfl, hx'.2.1, hx'.2.2, ht]
    rfl
  | swept t role index ht hi =>
    refine balanced_setTail rfl (.refl _) fun n => ?_
    rw [← queued_sweep hI.counts ht hi n, ht]
    rfl
  | destroyed t role index ht hi =>
    refine balanced_setTail rfl (.refl _) fun n => ?_
    have he : released [.freed, .ret t (.drop role) (.unit (.ok ()))] n = 0 :=
      List.count_eq_zero.2 (by simp)
    rw [queued_destroy hI.counts ht hi, he, ht]
    rfl

omit [DecidableEq T] in
theorem references_init (L : Limits) : (Custody.init L : Custody T).references = 2 := by
  rw [Custody.references, num_eq_zero.2 fun _ => rfl]
  rfl

theorem Ledger.init (L : Limits) : Ledger L [] (Custody.init L : Custody T) where
  sound := Sound.init L
  counts :=
    { refs := by
        rw [references_init]
        change wrap32 (1 + 1) = wrap32 ((2 : ℕ) : ℤ)
        rfl
      ended := by
        rw [references_init, num_eq_zero.2 fun _ => rfl]
        rfl }
  tails := fun _ _ h => by cases h
  made := fun _ => Nat.zero_le _
  law := by
    intro n
    have hslots : (RingBuffer.empty L.capacity : RingBuffer Message).slotList = [] :=
      ((RingBuffer.perm_slotList (RingBuffer.wf_empty L.capacity_pos)).trans
        (.of_eq (RingBuffer.toList_empty _))).eq_nil
    have hcarried : (Custody.init L : Custody T).carried n = 0 := numAt_eq_zero.2 fun _ => rfl
    have hheld : (Custody.init L : Custody T).held n = 0 := num_eq_zero.2 fun _ => rfl
    have hqueued : (Custody.init L : Custody T).queued n = 0 := by
      rw [queued_of_live rfl (num_eq_zero.2 fun _ => rfl)]
      change (List.map Message.addr (RingBuffer.empty L.capacity).slotList).count n = 0
      rw [hslots]
      rfl
    rw [hcarried, hheld, hqueued]
    rfl

/-- **A step keeps the ledger** unless it is an early free. -/
theorem Ledger.step (h : Ledger L es c) (hs : c.step a = some (c', e)) (he : ¬c.EarlyFree a) :
    Ledger L (es ++ e) c' := by
  have hm := Custody.step_move hs
  refine ⟨hm.sound h.sound, hm.counts h.counts he, hm.tails h.tails, hm.made h.made, fun n => ?_⟩
  have hbalance := hm.balanced h n
  have hlaw := h.law n
  rw [released_append]
  omega

omit [DecidableEq T] in
/-- Once all handles are gone and their finalizers are over, the core has been destroyed. -/
theorem Custody.Counts.freed_of_idle (hc : c.Counts) (h0 : c.state.handles = 0)
    (hidle : ∀ t, c.tail t = .none) : c.state.freed = true := by
  have hrel : num Tail.releasing c.tail = 0 := num_eq_zero.2 fun t => by
    rw [hidle t]
    rfl
  have hsw : num Tail.sweeping c.tail = 0 := num_eq_zero.2 fun t => by
    rw [hidle t]
    rfl
  have hend := hc.ended
  rw [Custody.references, h0, hrel, hsw, Nat.zero_add, decide_eq_true rfl] at hend
  cases hf : c.state.freed with
  | true => rfl
  | false =>
    rw [hf] at hend
    cases hend

/-- **The ledger holds along every run** without an early free, whatever the primitives return. -/
theorem ledger_of_exec
    (h : Exec Custody.step (fun c a _ => ¬c.EarlyFree a) (Custody.init L : Custody T) es c) :
    Ledger L es c :=
  h.invariant (Ledger.init L) fun hI hs hG => hI.step hs hG

omit [Fintype T] in
/-- A step leaves an occupied slot alone or empties it. -/
theorem Outcome.slots {a : Action T} (ho : Outcome a s s' e) (h : Sound L s) {i : ℕ}
    (hi : s.core.ring.slots i ≠ none) :
    s'.core.ring.slots i = s.core.ring.slots i ∨ s'.core.ring.slots i = none := by
  cases ho with
  | sent t n kind bytes m f hin hlen ho hf hw =>
    refine .inl (Function.update_of_ne ?_ _ _)
    rintro rfl
    exact hi (h.core.tail_free hf.1)
  | received t block m f hin hc hm hw =>
    by_cases hh : i = s.core.ring.head
    · subst hh
      exact .inr (Function.update_self ..)
    · exact .inl (Function.update_of_ne hh ..)
  | _ => exact .inl rfl

/-- **Every native copy is released exactly once.** In every run without an early free, and whatever
the primitives return:

* every copy made so far is carried by one submit in progress, sits in one slot, is held by one
  receive in progress, or has been released, once;
* no step writes over an occupied slot;
* the call of a thread has made at most one copy, and it makes one of a message that is not too
  large;
* once no handle is left and no operation in progress, every copy has been released exactly once. -/
theorem owned_bytes_copies
    (h : Exec Custody.step (fun c a _ => ¬c.EarlyFree a) (Custody.init L : Custody T) es c) :
    (∀ n, c.carried n + c.queued n + c.held n + released es n =
      if n < c.state.copies then 1 else 0) ∧
    (∀ a c' e, c.step a = some (c', e) → ∀ i, c.state.core.ring.slots i ≠ none →
      c'.state.core.ring.slots i = c.state.core.ring.slots i ∨
        c'.state.core.ring.slots i = none) ∧
    ((∀ t, c.made t ≤ 1) ∧ ∀ t c' e, c.step (.act (.copy t)) = some (c', e) →
      ∃ n kind bytes, c.state.threads t = .run (.copy n kind bytes) ∧
        bytes.length ≤ L.maxMessageBytes) ∧
    (c.state.handles = 0 → (∀ t, c.state.threads t = .run .idle ∧ c.tail t = .none) →
      ∀ n < c.state.copies, released es n = 1) := by
  have hI := ledger_of_exec h
  refine ⟨fun n => ?_, fun a c' e hs i hi => ?_, ⟨fun t => (hI.made t).le_one, fun t c' e hs => ?_⟩,
    fun h0 hidle n hn => ?_⟩
  · have hlaw := hI.law n
    rw [Bool.toNat, Bool.cond_decide] at hlaw
    rw [← hlaw]
    omega
  · cases Custody.step_move hs with
    | acted a s' x e e' htail hk hstep hx => exact (freeStep_outcome hstep).slots hI.sound hi
    | _ => exact .inl rfl
  · cases Custody.step_move hs with
    | acted a s' x e e' htail hk hstep hx =>
      have hmany := (freeStep_eq_some.1 hstep).2
      simp only [manyStep, OwnedBytes.step] at hmany
      split at hmany <;> cases hmany
      rename_i n kind bytes ht
      have hok := (hI.sound.ready (.inl ht)).2
      exact ⟨n, kind, bytes, ht, hok⟩
  · have hlaw := hI.law n
    have hcarried : c.carried n = 0 := numAt_eq_zero.2 fun t => by
      rw [(hidle t).1]
      rfl
    have hheld : c.held n = 0 := num_eq_zero.2 fun t => by
      rw [(hidle t).2]
      rfl
    have hqueued : c.queued n = 0 := by
      rw [Custody.queued, hI.counts.freed_of_idle h0 fun t => (hidle t).2, if_pos rfl]
    rw [hcarried, hheld, hqueued, decide_eq_true hn] at hlaw
    simpa using hlaw

end Ledger

/-- Of two copies one is received, and the other one is released with the core. -/
theorem owned_bytes_copies_two :
    ∃ (es : List (Event (Fin 1))) (c : Custody (Fin 1)),
      Exec Custody.step (fun c a _ => ¬c.EarlyFree a) (Custody.init fourBytes) es c ∧
      c.state.handles = 0 ∧ c.state.copies = 2 ∧ released es 0 = 1 ∧ released es 1 = 1 := by
  obtain ⟨es, c, h, ht⟩ := Exec.exists_of_run Custody.step (fun c a _ => ¬c.EarlyFree a)
    (Custody.init fourBytes : Custody (Fin 1))
    [.act (.callSend 0 0 .trySend twoBytes 0), .act (.lock 0 {} none), .act (.copy 0),
      .act (.lock 0 {} none), .act (.callSend 0 0 .send twoBytes 0), .act (.lock 0 {} none),
      .act (.copy 0), .act (.lock 0 { unlock := 4 } none), .act (.callRecv 0 false),
      .act (.lock 0 {} none), .goOn 0, .act (.dropReceiver 0 {}), .goOn 0,
      .act (.dropSender 0 0 {}), .goOn 0, .goOn 0, .goOn 0, .goOn 0, .goOn 0]
    (fun c _ => decide (c.state.handles = 0 ∧ c.state.copies = 2 ∧
      ∀ t, c.state.threads t = .run .idle ∧ c.tail t = .none))
    (by decide +kernel)
  obtain ⟨h0, h2, hidle⟩ := of_decide_eq_true ht
  obtain ⟨-, -, -, hall⟩ := owned_bytes_copies h
  exact ⟨es, c, h, h0, h2, hall h0 hidle 0 (by rw [h2]; decide),
    hall h0 hidle 1 (by rw [h2]; decide)⟩

/-! ## An early free -/

section EarlyFree

variable {c : Custody T} {a : Action T} {s' : State T} {e : List (Event T)} {t : T}

/-- A pass of a thread that has nothing else to do, at which no receive takes a copy. -/
theorem Custody.step_act (htail : c.tail a.thread = .none) (hk : ∀ role, a.kind ≠ .drop role)
    (hs : freeStep c.state a = some (s', e)) (he : handsOver e = false) :
    c.step (.act a) = some (⟨s', c.tail, a.made c.made⟩, e) := by
  have hsame : Function.update c.tail a.thread .none = c.tail := by
    rw [← htail, Function.update_eq_self]
  simp [Custody.step, inside_of_kind hk, htail, hk, hs, he, hsame]

/-- A pass of a thread that has nothing else to do, at which a receive takes a copy. -/
theorem Custody.step_take (htail : c.tail a.thread = .none) (hk : ∀ role, a.kind ≠ .drop role)
    (hs : freeStep c.state a = some (s', e)) (he : handsOver e = true) :
    c.step (.act a) =
      some (⟨s', Function.update c.tail a.thread (.handOver e), a.made c.made⟩, []) := by
  simp [Custody.step, inside_of_kind hk, htail, hk, hs, he]

/-- A thread shares its sender any number of times. -/
theorem Custody.exec_shares (htail : c.tail t = .none) (ht : c.state.threads t = .run .idle)
    (hf : c.state.freed = false) {k : ℕ} (hk : c.state.senders = Finset.range (k + 1))
    (hr : wrap32 c.state.core.refs = c.state.core.refs) (n : ℕ) :
    ∃ es senders, Exec Custody.step AnyStatus c es
      { c with state := { c.state with
          core := { c.state.core with senders, refs := wrap32 (c.state.core.refs + n) }
          senders := Finset.range (k + n + 1) } } := by
  induction n with
  | zero =>
    refine ⟨[], c.state.core.senders, ?_⟩
    rw [Nat.add_zero, ← hk, Nat.cast_zero, Int.add_zero, hr]
    exact .start
  | succ n ih =>
    obtain ⟨es, senders, h⟩ := ih
    have hshare := freeStep_share (k + n) senders (wrap32 (c.state.core.refs + n)) ht hf
    rw [arcInc, wrap32_add, Int.add_assoc, ← Nat.cast_succ] at hshare
    have hstep := Custody.step_act (c := { c with state := { c.state with
        core := { c.state.core with senders, refs := wrap32 (c.state.core.refs + n) }
        senders := Finset.range (k + n + 1) } })
      (a := .share t 0 (k + n + 1) {}) htail (fun _ => by simp [Action.kind]) hshare rfl
    exact ⟨_, _, h.step hstep trivial⟩

/-- The section of the finalizer of a sender. -/
theorem Custody.step_dropSender {h : ℕ} (htail : c.tail t = .none)
    (ht : c.state.threads t = .run .idle) (hf : c.state.freed = false) (hh : h ∈ c.state.senders)
    (hu : ∀ u, (c.state.threads u).point.handle ≠ some h) :
    ∃ f, Woken c.state.threads f ∧ c.step (.act (.dropSender t h {})) = some
      ({ c with state := { c.state with
          core := c.state.core.setEndpoints c.state.core.toEndpoints.dropSender
          threads := f
          senders := c.state.senders.erase h } }.setTail t (.release .sender), []) := by
  let f := if c.state.core.toEndpoints.dropSender.senders = 0 then wakeAll Point.cond c.state.threads
    else c.state.threads
  refine ⟨f, woken_ite _ _, ?_⟩
  have hkind : (Action.dropSender t h {} : Action T).kind ≠ .drop .receiver := by simp [Action.kind]
  simp only [Custody.step, Action.thread, htail, hkind, false_implies, and_self, if_true, inside, hf,
    ht, hh, hu, ne_eq, not_false_eq_true, implies_true, finalize, Endpoints.finalize_sender_ok,
    Option.map_some, Option.bind_some, Section.map, State.leaveFinalize, deliver_wakeAll]
  rfl

/-- The finalizer takes its reference for the last one. -/
theorem Custody.step_release {role : Role} (ht : c.tail t = .release role)
    (hf : c.state.freed = false) (h0 : arcDec c.state.core.refs = 0) :
    c.step (.goOn t) = some ({ c with state := { c.state with
      core := { c.state.core with refs := arcDec c.state.core.refs } } }.setTail t (.sweep role 0),
      []) := by
  simp [Custody.step, Custody.goOn, ht, hf, h0]

/-- The finalizer releases what the next slot holds. -/
theorem Custody.step_sweep {role : Role} {index : ℕ} (ht : c.tail t = .sweep role index)
    (hf : c.state.freed = false) (hi : index < c.state.core.ring.capacity) :
    c.step (.goOn t) = some (c.setTail t (.sweep role (index + 1)),
      releaseEvent (c.state.core.ring.slots index)) := by
  simp [Custody.step, Custody.goOn, ht, hf, hi]

/-- A receive hands over the copy that it holds. -/
theorem Custody.step_handOver {es : List (Event T)} (ht : c.tail t = .handOver es) :
    c.step (.goOn t) = some (c.setTail t .none, es) := by
  simp [Custody.step, Custody.goOn, ht]

/-- A receive that does not fail takes the copy at the head, when nobody sleeps. -/
theorem freeStep_received {s : State T} {m : Message} (ht : s.threads t = .run (.receive false))
    (hf : s.freed = false) (hc : s.core.ring.count ≠ 0)
    (hm : s.core.ring.slots s.core.ring.head = some m)
    (hno : ∀ u, u ≠ t → s.threads u = .run .idle) :
    freeStep s (.lock t {} none) = some
      ({ s with
          core := s.core.dequeue m
          threads := Function.update s.threads t (.run .idle) },
        [.released m.addr, .ret t (.recv false) (recvOpResult false (some m) 0 0)]) := by
  have hidle : ∀ u, (Function.update s.threads t (.run .idle) u).asleepOn Point.cond .writable =
      false :=
    forall_update (Q := fun _ (x : Pc Point) => x.asleepOn Point.cond .writable = false) rfl
      fun u hu => by rw [hno u hu]; rfl
  refine freeStep_eq_some.2 ⟨hf, ?_⟩
  simp only [manyStep, step, ht, receive, ne_eq, not_true_eq_false, if_false,
    receiveLoop_of_count hc hm, if_true, Option.bind_some, State.endReceive, deliver_signal, signal,
    hidle, implies_true, Option.map_some]
  rfl

/-- A run goes on: a thread receives the copy at the head and hands it over. -/
theorem Custody.exec_receive {c₀ : Custody T} {es : List (Event T)} {m : Message}
    (h : Exec Custody.step AnyStatus c₀ es c) (htail : c.tail t = .none)
    (hidle : ∀ u, c.state.threads u = .run .idle) (hr : c.state.receiver = true)
    (hf : c.state.freed = false) (hc : c.state.core.ring.count ≠ 0)
    (hm : c.state.core.ring.slots c.state.core.ring.head = some m) :
    ∃ es' c', Exec Custody.step AnyStatus c₀ es' c' ∧
      released es' m.addr = released es m.addr + 1 := by
  have hcall : freeStep c.state (.callRecv t false) =
      some (c.state.move t (.run (.receive false)), []) :=
    freeStep_eq_some.2 ⟨hf, by simp [manyStep, hidle t, hr]⟩
  have htake := freeStep_received (s := c.state.move t (.run (.receive false))) (t := t) (m := m)
    (Function.update_self ..) hf hc hm fun u hu => by
      change Function.update c.state.threads t _ u = _
      rw [Function.update_of_ne hu, hidle u]
  have h₁ := h.step (Custody.step_act (a := .callRecv t false) htail
    (fun _ => by simp [Action.kind]) hcall rfl) trivial
  have h₂ := h₁.step (Custody.step_take
    (c := ⟨c.state.move t (.run (.receive false)), c.tail, c.made⟩) (a := .lock t {} none) htail
    (fun _ => by simp [Action.kind]) htake rfl) trivial
  have h₃ := h₂.step (Custody.step_handOver (t := t) (Function.update_self ..)) trivial
  refine ⟨_, _, h₃, ?_⟩
  rw [List.append_nil, List.append_nil, released_append]
  simp [released]

end EarlyFree

/-- A message is queued, and the sender is shared until `2^32 + 1` handles are live. The finalizer of
one of them then takes its reference for the last one, and releases the copy in the first slot. It
does so without the mutex: before it comes to destroy it, another thread receives, takes the copy out
of the slot and releases it again. -/
theorem owned_bytes_copies_twice :
    ∃ (es : List (Event (Fin 2))) (c : Custody (Fin 2)),
      Exec Custody.step AnyStatus (Custody.init fourBytes) es c ∧
      1 < released es 0 := by
  obtain ⟨es₁, ⟨s, tail, made⟩, h₁, ht⟩ := Exec.exists_of_run Custody.step AnyStatus
    (Custody.init fourBytes : Custody (Fin 2))
    [.act (.callSend 0 0 .trySend twoBytes 0), .act (.lock 0 {} none), .act (.copy 0),
      .act (.lock 0 {} none)]
    (fun c _ => decide ((∀ t, c.state.threads t = .run .idle) ∧ (∀ t, c.tail t = .none) ∧
      c.state.senders = Finset.range (0 + 1) ∧ c.state.receiver = true ∧ c.state.freed = false ∧
      c.state.core.refs = 2 ∧ c.state.core.ring.count ≠ 0 ∧ c.state.core.ring.head = 0 ∧
      0 < c.state.core.ring.capacity ∧
      c.state.core.ring.slots 0 = some (messageCopy 0 twoBytes 2)))
    (by decide +kernel)
  obtain ⟨hidle, htail, hsenders, hrecv, hfree, hrefs, hcount, hhead, hcap, hslot⟩ :=
    of_decide_eq_true ht
  -- `2^32` senders and the receiver make the references one
  obtain ⟨es₂, senders, h₂⟩ := Custody.exec_shares (c := ⟨s, tail, made⟩) (htail 0) (hidle 0) hfree
    hsenders (by rw [hrefs]; rfl) 4294967295
  have hone : wrap32 (s.core.refs + (4294967295 : ℕ)) = 1 := by
    rw [show s.core.refs = 2 from hrefs]
    rfl
  rw [show wrap32 ((⟨s, tail, made⟩ : Custody (Fin 2)).state.core.refs + (4294967295 : ℕ)) = 1 from
    hone] at h₂
  obtain ⟨f, hw, h₃⟩ := Custody.step_dropSender (t := 0) (h := 0)
    (c := ⟨{ s with
      core := { s.core with senders, refs := 1 }
      senders := Finset.range (0 + 4294967295 + 1) }, tail, made⟩)
    (htail 0) (hidle 0) hfree (Finset.mem_range.2 (Nat.succ_pos _)) fun u => by
      change (s.threads u).point.handle ≠ _
      rw [show s.threads u = .run .idle from hidle u]
      simp [Point.handle]
  have hf : ∀ u, f u = .run .idle := by
    intro u
    rcases hw u with h | ⟨p, h, -⟩
    · exact h.trans (hidle u)
    · rw [show s.threads u = .run .idle from hidle u] at h
      cases h
  -- the finalizer has left the mutex, finds no reference and releases the first slot
  have h₄ := (h₁.trans h₂).step h₃ trivial
  have h₅ := h₄.step (Custody.step_release (t := 0) (Custody.setTail_tail ..) hfree rfl) trivial
  have h₆ := h₅.step (Custody.step_sweep (t := 0) (Custody.setTail_tail ..) hfree hcap) trivial
  have hslot' : s.core.ring.slots s.core.ring.head = some (messageCopy 0 twoBytes 2) := by
    rw [show s.core.ring.head = 0 from hhead]
    exact hslot
  obtain ⟨es, c, h₇, hrel⟩ := Custody.exec_receive (t := 1) h₆ (htail 1) hf hrecv hfree hcount hslot'
  refine ⟨es, c, h₇, ?_⟩
  rw [show released es 0 = _ from hrel, released_append]
  change 1 < _ + released (releaseEvent (s.core.ring.slots 0)) 0 + 1
  rw [show s.core.ring.slots 0 = _ from hslot]
  change 1 < _ + 1 + 1
  omega

end NativeSync.OwnedBytes
