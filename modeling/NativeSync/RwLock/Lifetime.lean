import NativeSync.Foundations.Refcount
import NativeSync.RwLock.Exclusion

/-!
# Reader-writer locks: the life of a lock

A lock lives from `RwLock::new` to the drop of its last handle. The counter of its handles is 32 bits
wide, so a drop that leaves a multiple of `2^32` handles frees the core too early; as long as no drop
is one (`Careful`), the counter is right and the core is there exactly when a handle is.

* No call uses a core that has been freed.
* Every lock of the operating system that was initialized, also one whose `RwLock::new` fails
  afterwards, is destroyed once.
* A lock is destroyed when nobody holds it, which POSIX asks for and `sync_rwlock_finalize` does not
  check: a callback uses a handle, so at the last drop no call is left that has the lock.
-/

namespace NativeSync.RwLock

open Foundations

variable {L T ε V : Type}

/-- The references of a lock; a lock that has not been made is like one that has been freed. -/
def State.counter (s : State L T ε V) (l : L) : Counter :=
  { refs := (s.cores l).elim 0 Core.refs, live := s.handles l, freed := (s.cores l).isNone }

/-- The action drops a handle and leaves a positive multiple of `2^32` of them. -/
def Action.Early (s : State L T ε V) : Action L T ε V → Prop
  | drop h _ => 1 < (s.handles h.lock).card ∧ 4294967296 ∣ (s.handles h.lock).card - 1
  | _ => False

instance (s : State L T ε V) : (a : Action L T ε V) → Decidable (a.Early s)
  | .arm .. => inferInstanceAs (Decidable False)
  | .new .. => inferInstanceAs (Decidable False)
  | .share .. => inferInstanceAs (Decidable False)
  | .drop .. => inferInstanceAs (Decidable (_ ∧ _))
  | .call .. => inferInstanceAs (Decidable False)
  | .takeLock .. => inferInstanceAs (Decidable False)
  | .osLock .. => inferInstanceAs (Decidable False)
  | .finish .. => inferInstanceAs (Decidable False)
  | .osUnlock .. => inferInstanceAs (Decidable False)
  | .takeUnlock .. => inferInstanceAs (Decidable False)

/-- A step that is not an unlock that fails and does not free too early. -/
def Careful (s : State L T ε V) (a : Action L T ε V) (_ : State L T ε V) : Prop :=
  a.Unlocks ∧ ¬a.Early s

instance (s : State L T ε V) (a : Action L T ε V) (s' : State L T ε V) :
    Decidable (Careful s a s') :=
  inferInstanceAs (Decidable (_ ∧ _))

variable {s s' : State L T ε V} {e es : List (Event L T ε V)} {a : Action L T ε V} {ok : Bool}
  {l : L}

variable [DecidableEq L]

/-! ## One lock -/

/-- What holds of a lock: its references are sound, and a core that has handles is initialized. -/
structure Alive (s : State L T ε V) (l : L) : Prop where
  sound : (s.counter l).Sound 4294967296
  initialized : ∀ core, s.cores l = some core → core.initialized = true

namespace Alive

omit [DecidableEq L] in
theorem cores_eq_none (h : Alive s l) : s.cores l = none ↔ s.handles l = ∅ := by
  have hf := h.sound.freed
  rwa [show (s.counter l).freed = (s.cores l).isNone from rfl, Option.isNone_iff_eq_none] at hf

/-- A step that does not touch the references of the lock. -/
theorem setRefs_of_ne {l' : L} {core : Option Core} {handles : Finset ℕ} (h : Alive s l)
    (hne : l ≠ l') : Alive (s.setRefs l' core handles) l := by
  have hc : (s.setRefs l' core handles).cores l = s.cores l := Function.update_of_ne hne ..
  have hh : (s.setRefs l' core handles).handles l = s.handles l := Function.update_of_ne hne ..
  refine ⟨?_, ?_⟩
  · unfold State.counter
    rw [hc, hh]
    exact h.sound
  · rw [hc]
    exact h.initialized

end Alive

/-- The references of a lock that a step touches. -/
theorem counter_setRefs (s : State L T ε V) (l : L) (core : Option Core) (handles : Finset ℕ) :
    (s.setRefs l core handles).counter l =
      { refs := core.elim 0 Core.refs, live := handles, freed := core.isNone } := by
  unfold State.counter State.setRefs
  simp only [Function.update_self]

omit [DecidableEq L] in
theorem counter_of_some {core : Core} (hc : s.cores l = some core) :
    s.counter l = { refs := core.refs, live := s.handles l, freed := false } := by
  unfold State.counter
  rw [hc]
  rfl

theorem setRefs_initialized {core : Core} {handles : Finset ℕ} (hi : core.initialized = true) :
    ∀ core', (s.setRefs l (some core) handles).cores l = some core' →
      core'.initialized = true := by
  intro core' hc
  rw [show (s.setRefs l (some core) handles).cores l = some core from Function.update_self ..] at hc
  rwa [← Option.some.inj hc]

/-- A share counts one handle more. -/
theorem shared_step {h : Handle L} {name : ℕ} {core : Core} (hc : s.cores h.lock = some core)
    (hh : h.name ∈ s.handles h.lock) (hn : name ∉ s.handles h.lock) :
    Counter.Step 4294967296 (s.counter h.lock)
      ((s.setRefs h.lock (some { core with refs := arcInc core.refs })
        (insert name (s.handles h.lock))).counter h.lock) := by
  rw [counter_setRefs, counter_of_some hc]
  exact .copy (x := ⟨core.refs, s.handles h.lock, false⟩) h.name name hh hn

/-- A drop counts one handle less, and frees at zero. -/
theorem dropped_step {h : Handle L} {core : Core} (core' : Option Core)
    (hc : s.cores h.lock = some core) (hh : h.name ∈ s.handles h.lock)
    (hc' : core'.elim 0 Core.refs = arcDec core.refs)
    (hf : core'.isNone = decide (arcDec core.refs = 0)) :
    Counter.Step 4294967296 (s.counter h.lock)
      ((s.setRefs h.lock core' ((s.handles h.lock).erase h.name)).counter h.lock) := by
  rw [counter_setRefs, counter_of_some hc, hc', hf]
  exact .drop (x := ⟨core.refs, s.handles h.lock, false⟩) h.name hh

/-- A drop of a handle that does not free too early. -/
theorem not_early_of_drop {h : Handle L} (destroy : ℤ) {core' : Option Core}
    (hh : h.name ∈ s.handles h.lock)
    (ha : ¬Action.Early s (.drop h destroy : Action L T ε V)) :
    ¬Counter.Early 4294967296 (s.counter h.lock)
      ((s.setRefs h.lock core' ((s.handles h.lock).erase h.name)).counter h.lock) := by
  rw [counter_setRefs]
  rintro ⟨-, hne, hd⟩
  have hcard : ((s.handles h.lock).erase h.name).card + 1 = (s.handles h.lock).card :=
    Finset.card_erase_add_one hh
  have hpos : 0 < ((s.handles h.lock).erase h.name).card :=
    Finset.card_pos.2 (Finset.nonempty_iff_ne_empty.2 hne)
  refine ha ⟨by omega, ?_⟩
  rw [← hcard, Nat.add_sub_cancel]
  exact hd

variable [DecidableEq T]

/-- **A move keeps the references sound**, those of every lock. -/
theorem Move.alive (hm : Move a s s' e) (ha : ¬a.Early s) (h : ∀ l, Alive s l) (l : L) :
    Alive s' l := by
  cases hm with
  | made l' hl hn =>
    by_cases hne : l = l'
    · subst hne
      refine ⟨?_, setRefs_initialized rfl⟩
      rw [counter_setRefs]
      exact ⟨rfl, by decide⟩
    · exact Alive.setRefs_of_ne ⟨(h l).sound, (h l).initialized⟩ hne
  | shared k name core hc hh hn =>
    by_cases hne : l = k.lock
    · subst hne
      refine ⟨(shared_step hc hh hn).sound (h _).sound ?_,
        setRefs_initialized ((h _).initialized core hc)⟩
      rw [counter_setRefs]
      rintro ⟨hlt, -⟩
      have hle : (s.handles k.lock).card ≤ (insert name (s.handles k.lock)).card :=
        Finset.card_le_card (Finset.subset_insert _ _)
      exact absurd hlt (not_lt.2 hle)
    · exact (h l).setRefs_of_ne hne
  | dropped k core hc hh hu hr =>
    by_cases hne : l = k.lock
    · subst hne
      have hstep := dropped_step (some { core with refs := arcDec core.refs }) hc hh rfl
        (decide_eq_false hr).symm
      refine ⟨hstep.sound (h _).sound ?_, setRefs_initialized ((h _).initialized core hc)⟩
      -- the counter is not zero, so the handles left are no multiple of `2^32`
      rintro ⟨-, -, hd⟩
      have htally := hstep.tally (h _).sound.tally
      rw [counter_setRefs] at hd htally
      exact hr (htally.trans (Counter.bmod_eq_zero_iff.2 hd))
    · exact (h l).setRefs_of_ne hne
  | freed k destroy core hc hh hu hr ha' =>
    by_cases hne : l = k.lock
    · subst hne
      refine ⟨?_, fun core' hc' => ?_⟩
      · exact (dropped_step none hc hh hr.symm (decide_eq_true hr).symm).sound
          (h _).sound (not_early_of_drop destroy hh (ha' ▸ ha))
      · rw [show (s.setRefs k.lock none _).cores k.lock = none from Function.update_self ..] at hc'
        cases hc'
    · exact (h l).setRefs_of_ne hne
  | _ => exact ⟨(h l).sound, (h l).initialized⟩

/-! ## Initialized once, destroyed once, and free by then -/

/-- The event is that lock `l` of the operating system is initialized. -/
def Event.initializes (l : L) : Event L T ε V → Bool
  | initialized l' => l' = l
  | _ => false

/-- The event is that lock `l` of the operating system is destroyed. -/
def Event.destroys (l : L) : Event L T ε V → Bool
  | destroyed l' _ => l' = l
  | _ => false

/-- **A move keeps the books on the locks of the operating system.** -/
theorem Move.initialized (hm : Move a s s' e) (h : ∀ l, Alive s l) (l : L) :
    e.countP (Event.initializes l) + (s.cores l).isSome.toNat =
      e.countP (Event.destroys l) + (s'.cores l).isSome.toNat := by
  have hset : ∀ {l' : L} {core : Option Core} {handles : Finset ℕ},
      ((s.setRefs l' core handles).cores l).isSome.toNat =
        if l' = l then core.isSome.toNat else (s.cores l).isSome.toNat := by
    intro l' core handles
    change (Function.update s.cores l' core l).isSome.toNat = _
    split_ifs with hl
    · rw [hl, Function.update_self]
    · rw [Function.update_of_ne (Ne.symm hl)]
  cases hm with
  | quiet t p q e ht hq => cases hq <;> rfl
  | unmade l' hn =>
    by_cases hl : l' = l <;> simp [Event.initializes, Event.destroys, hl] <;> rfl
  | made l' hl hn =>
    have hcore : s.cores l' = none := hl.1
    change _ = _ + ((s.setRefs l' _ ∅).cores l).isSome.toNat
    rw [hset]
    by_cases hl' : l' = l
    · rw [← hl', hcore]
      simp [Event.initializes, Event.destroys]
    · simp [Event.initializes, Event.destroys, hl']
  | shared k name core hc hh hn =>
    rw [hset]
    split_ifs with hl
    · rw [← hl, hc]
      rfl
    · rfl
  | dropped k core hc hh hu hr =>
    rw [hset]
    split_ifs with hl
    · rw [← hl, hc]
      rfl
    · rfl
  | freed k destroy core hc hh hu hr ha =>
    rw [hset, if_pos ((h k.lock).initialized core hc)]
    by_cases hl : k.lock = l
    · rw [if_pos hl, ← hl, hc]
      simp [Event.initializes, Event.destroys]
    · rw [if_neg hl]
      simp [Event.initializes, Event.destroys, hl]
  | _ => rfl

/-- **A lock is destroyed when nobody holds it.** -/
theorem Move.destroyed_free (hm : Move a s s' e) (ha : ¬a.Early s) (hI : Inv s) (hb : Balanced s)
    (h : ∀ l, Alive s l) {held : List (T × Mode)} (hx : .destroyed l held ∈ e) : held = [] := by
  have hused := hm.used hI
  have halive := hm.alive ha h
  cases hm with
  | quiet t p q e ht hq => cases hq <;> simp at hx
  | unmade l' hn =>
    simp only [List.mem_cons, Event.destroyed.injEq, reduceCtorEq, List.not_mem_nil, or_false,
      false_or] at hx
    exact hx.2
  | freed k destroy core hc hh hu hr ha' =>
    rw [if_pos ((h k.lock).initialized core hc), List.mem_singleton, Event.destroyed.injEq] at hx
    obtain ⟨-, rfl⟩ := hx
    refine List.eq_nil_iff_forall_not_mem.2 fun x hx => ?_
    -- whoever holds the lock has a call that uses a handle, and no handle is left
    obtain ⟨d, hd, hl, -⟩ := hb.mem_holders.1 (show (x.1, x.2) ∈ _ from hx)
    have hmem := hused x.1 d (.inl (Point.mem_of_inside hd))
    have hempty := (halive k.lock).cores_eq_none.1 (Function.update_self ..)
    rw [hl, hempty] at hmem
    exact absurd hmem (Finset.notMem_empty _)
  | _ => simp at hx

/-! ## The main result -/

/-- What holds along a run. -/
structure Life (es : List (Event L T ε V)) (s : State L T ε V) : Prop where
  inv : Inv s
  balanced : Balanced s
  alive : ∀ l, Alive s l
  initialized : ∀ l, es.countP (Event.initializes l) =
    es.countP (Event.destroys l) + (s.cores l).isSome.toNat
  free : ∀ l held, .destroyed l held ∈ es → held = []

theorem life_init : Life [] (State.init : State L T ε V) where
  inv := inv_init
  balanced := fun _ _ _ => rfl
  alive := by
    refine fun l => ⟨⟨?_, ?_⟩, nofun⟩
    · simp [Counter.Tally, State.counter, State.init]
    · simp [State.counter, State.init]
  initialized := fun _ => rfl
  free := fun _ _ h => absurd h List.not_mem_nil

theorem Life.step (hl : Life es s) (hm : Move a s s' e) (hu : a.Unlocks) (ha : ¬a.Early s) :
    Life (es ++ e) s' where
  inv := hm.inv hl.inv
  balanced := hm.balanced hu hl.inv hl.balanced
  alive := hm.alive ha hl.alive
  initialized := by
    intro l
    have hold := hl.initialized l
    have hnew := hm.initialized hl.alive l
    rw [List.countP_append, List.countP_append]
    omega
  free := by
    intro l held hx
    rcases List.mem_append.1 hx with hx | hx
    · exact hl.free l held hx
    · exact hm.destroyed_free ha hl.inv hl.balanced hl.alive hx

variable [Fintype T]

/-- **The life of a lock.** As long as no unlock of the operating system fails and no drop leaves a
positive multiple of `2^32` handles: a core is there exactly while a handle is, and its counter is
right; no call uses a core that was freed; every lock of the operating system is destroyed once, and
nobody holds it then. -/
theorem rwlock_lifetime (h : Exec RwLock.step Careful State.init es s) :
    (∀ l, s.cores l = none ↔ s.handles l = ∅) ∧
    (∀ l core, s.cores l = some core → core.refs = wrap32 (s.handles l).card) ∧
    (∀ t c, c ∈ s.frames t ∨ (s.threads t).call = some c → s.cores c.lock ≠ none) ∧
    (∀ l, es.countP (Event.initializes l) =
      es.countP (Event.destroys l) + (s.cores l).isSome.toNat) ∧
    ∀ l held, .destroyed l held ∈ es → held = [] := by
  have hl : Life es s := h.invariant life_init fun hI hs hG => hI.step (step_move hs) hG.1 hG.2
  refine ⟨fun l => (hl.alive l).cores_eq_none, fun l core hc => ?_, fun t c hc hn => ?_,
    hl.initialized, hl.free⟩
  · have htally := (hl.alive l).sound.tally
    rw [counter_of_some hc] at htally
    exact htally
  · have hmem := hl.inv.used t c hc
    rw [(hl.alive c.lock).cores_eq_none.1 hn] at hmem
    exact absurd hmem (Finset.notMem_empty _)

/-- A lock whose `RwLock::new` fails after the initialization, and one that is shared, used and
dropped twice. -/
theorem rwlock_lifetime_shared :
    ∃ (es : List (Event Bool (Fin 1) Unit ℕ)) (s : State Bool (Fin 1) Unit ℕ),
      Exec RwLock.step Careful State.init es s ∧
      s.handles true = ∅ ∧ s.cores true = none ∧
      es.countP (Event.initializes true) = 2 ∧ es.countP (Event.destroys true) = 2 := by
  obtain ⟨es, s, h, ht⟩ := Exec.exists_of_run RwLock.step Careful
    (State.init : State Bool (Fin 1) Unit ℕ)
    [.arm .init 678, .new true 0 0, .new true 0 0, .share ⟨true, 0⟩ 1,
      .call 0 ⟨true, 1⟩ .write, .takeLock 0, .osLock 0 0, .drop ⟨true, 0⟩ 0,
      .finish 0 (.error (.other ())), .osUnlock 0 0, .takeUnlock 0, .drop ⟨true, 1⟩ 0]
    (fun s es => decide (s.handles true = ∅) && decide (es.countP (Event.initializes true) = 2))
    (by decide +kernel)
  rw [Bool.and_eq_true, decide_eq_true_eq, decide_eq_true_eq] at ht
  obtain ⟨hcores, -, -, hbooks, -⟩ := rwlock_lifetime h
  have hnone := (hcores true).2 ht.1
  have htwo := hbooks true
  rw [hnone, ht.2] at htwo
  exact ⟨es, s, h, ht.1, hnone, ht.2, htwo.symm⟩

end NativeSync.RwLock
