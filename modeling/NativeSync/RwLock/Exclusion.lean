import NativeSync.RwLock.Moves
import Mathlib.Data.List.Basic
import Mathlib.Tactic.FinCases

/-!
# Reader-writer locks: who is inside

A call has its lock from the moment it is granted to the moment it is given back, so whether it has
it can be read off from where the thread stands (`State.inside`). The operating system keeps its own
books, the holders of a lock. Between the two there is a ledger: a thread holds a lock at least as
often as its calls have it (`Inv.counted`), and exactly as often as long as no unlock fails
(`Balanced`); `Move.balance` is the step lemma for both.

With the books exclusive, so are the calls (`Inv.alone`). They also say that
`pthread_rwlock_unlock`, which is not told what to give back, gives back what the call was granted
(`Inv.givenBack_eq`).
-/

namespace NativeSync.RwLock

open Foundations

variable {L T ε V : Type}

/-! ## The books of the operating system -/

section Os

variable {held : List (T × Mode)} {t : T} {mode : Mode}

/-- A lock is held by readers, or by one writer. -/
def Exclusive (held : List (T × Mode)) : Prop :=
  (∀ x ∈ held, x.2 = Mode.read) ∨ ∃ t, held = [(t, Mode.write)]

theorem Exclusive.write (h : Exclusive held) (ht : (t, Mode.write) ∈ held) :
    held = [(t, Mode.write)] := by
  rcases h with h | ⟨u, rfl⟩
  · cases h _ ht
  · rw [List.mem_singleton.1 ht]

theorem Grants.exclusive (hg : Grants held mode) : Exclusive ((t, mode) :: held) := by
  cases mode with
  | read => exact .inl (List.forall_mem_cons.2 ⟨rfl, hg⟩)
  | write => exact .inr ⟨t, congrArg _ hg⟩

variable [DecidableEq T]

theorem Exclusive.erase (h : Exclusive held) (x : T × Mode) : Exclusive (held.erase x) := by
  rcases h with h | ⟨u, rfl⟩
  · exact .inl fun y hy => h y (List.mem_of_mem_erase hy)
  · by_cases hx : (u, Mode.write) = x
    · rw [← hx, List.erase_cons_head]
      exact .inl (List.forall_mem_nil _)
    · rw [List.erase_cons_tail (by simpa using hx), List.erase_nil]
      exact .inr ⟨u, rfl⟩

/-- **An unlock gives back what the thread holds**, whichever it is. -/
theorem Exclusive.givenBack (h : Exclusive held) (ht : (t, mode) ∈ held) :
    givenBack held t = mode := by
  unfold RwLock.givenBack
  cases mode with
  | read =>
    refine if_neg fun hw => ?_
    rw [h.write hw, List.mem_singleton] at ht
    cases ht
  | write => exact if_pos ht

end Os

/-! ## The calls that have a lock -/

/-- Of the calls `fs` of a thread, those that have their lock. -/
def Point.inside : Point L ε V → List (Call L) → List (Call L)
  | takeUnlock .., fs => fs.tail
  | _, fs => fs

/-- The calls of thread `t` that have their lock. -/
def State.inside (s : State L T ε V) (t : T) : List (Call L) := (s.threads t).inside (s.frames t)

/-- What the point says about the calls of the thread. -/
def Point.Placed (fs : List (Call L)) : Point L ε V → Prop
  | unlock c _ => fs.head? = some c
  | takeUnlock c _ => fs.head? = some c
  | _ => True

theorem Point.mem_of_inside {p : Point L ε V} {fs : List (Call L)} {c : Call L}
    (h : c ∈ p.inside fs) : c ∈ fs := by
  cases p with
  | takeUnlock => exact List.mem_of_mem_tail h
  | _ => exact h

theorem State.inside_of_update [DecidableEq T] {s s' : State L T ε V} {t : T} {x : Point L ε V}
    {fs : List (Call L)} (ht : s'.threads = Function.update s.threads t x)
    (hf : s'.frames = Function.update s.frames t fs) (u : T) :
    s'.inside u = if u = t then x.inside fs else s.inside u := by
  unfold State.inside
  rw [ht, hf]
  split_ifs with hu
  · rw [hu, Function.update_self, Function.update_self]
  · rw [Function.update_of_ne hu, Function.update_of_ne hu]

variable [DecidableEq L]

/-- The calls of a list that have lock `l` in a mode. -/
def uses (l : L) (mode : Mode) (cs : List (Call L)) : ℕ :=
  cs.countP fun c => c.lock = l ∧ c.mode = mode

theorem uses_cons (l : L) (mode : Mode) (c : Call L) (cs : List (Call L)) :
    uses l mode (c :: cs) = uses l mode cs + if c.lock = l ∧ c.mode = mode then 1 else 0 := by
  simp [uses, List.countP_cons]

theorem uses_pos {l : L} {mode : Mode} {cs : List (Call L)} :
    0 < uses l mode cs ↔ ∃ c ∈ cs, c.lock = l ∧ c.mode = mode := by
  simp [uses, List.countP_pos_iff]

theorem uses_eq_zero {l : L} {mode : Mode} {cs : List (Call L)} :
    uses l mode cs = 0 ↔ ∀ c ∈ cs, c.lock = l → c.mode ≠ mode := by
  simp [uses, List.countP_eq_zero]

variable [DecidableEq T]

/-! ## The invariant -/

/-- The books and the calls agree. -/
structure Inv (s : State L T ε V) : Prop where
  placed : ∀ t, (s.threads t).Placed (s.frames t)
  exclusive : ∀ l, Exclusive (s.holders l)
  counted : ∀ l t mode, uses l mode (s.inside t) ≤ (s.holders l).count (t, mode)
  used : ∀ t c, c ∈ s.frames t ∨ (s.threads t).call = some c →
    c.handle.name ∈ s.handles c.lock

/-- A thread holds a lock exactly as often as its calls have it. -/
def Balanced (s : State L T ε V) : Prop :=
  ∀ l t mode, uses l mode (s.inside t) = (s.holders l).count (t, mode)

variable {s s' : State L T ε V} {e : List (Event L T ε V)} {a : Action L T ε V} {t : T} {c : Call L}
  {out : Except (Error ε) V} {l : L} {mode : Mode}

namespace Inv

/-- A call that has its lock holds it. -/
theorem mem_holders (h : Inv s) (hc : c ∈ s.inside t) : (t, c.mode) ∈ s.holders c.lock := by
  have hpos : 0 < uses c.lock c.mode (s.inside t) := uses_pos.2 ⟨c, hc, rfl, rfl⟩
  exact List.count_pos_iff.1 (hpos.trans_le (h.counted c.lock t c.mode))

/-- A thread that unlocks has the lock. -/
theorem unlock_inside (h : Inv s) (ht : s.threads t = .unlock c out) :
    s.frames t = c :: (s.frames t).tail ∧ s.inside t = s.frames t := by
  have hp := h.placed t
  rw [ht] at hp
  obtain ⟨fs, hfs⟩ := List.head?_eq_some_iff.1 hp
  refine ⟨?_, ?_⟩
  · rw [hfs]
    rfl
  · rw [State.inside, ht]
    rfl

theorem mem_of_unlock (h : Inv s) (ht : s.threads t = .unlock c out) :
    (t, c.mode) ∈ s.holders c.lock := by
  obtain ⟨hf, hi⟩ := h.unlock_inside ht
  refine h.mem_holders ?_
  rw [hi, hf]
  exact List.mem_cons_self

/-- **What the operating system gives back is what the call was granted.** -/
theorem givenBack_eq (h : Inv s) (ht : s.threads t = .unlock c out) :
    givenBack (s.holders c.lock) t = c.mode :=
  (h.exclusive c.lock).givenBack (h.mem_of_unlock ht)

/-- **A writer is alone**: no other call has its lock, of its own thread or of another one. -/
theorem alone (h : Inv s) (hc : c ∈ s.inside t) (hw : c.mode = .write) :
    (s.inside t).filter (fun d => d.lock = c.lock) = [c] ∧
      ∀ u, u ≠ t → ∀ d ∈ s.inside u, d.lock ≠ c.lock := by
  have hheld : s.holders c.lock = [(t, Mode.write)] :=
    (h.exclusive c.lock).write (hw ▸ h.mem_holders hc)
  have hmode : ∀ u d, d ∈ s.inside u → d.lock = c.lock → u = t ∧ d.mode = .write := by
    intro u d hd hl
    have hmem := h.mem_holders hd
    rw [hl, hheld, List.mem_singleton, Prod.mk.injEq] at hmem
    exact hmem
  have hone : uses c.lock .write (s.inside t) ≤ 1 := by
    have hle := h.counted c.lock t .write
    rwa [hheld, List.count_singleton_self] at hle
  refine ⟨?_, fun u hu d hd hl => hu (hmode u d hd hl).1⟩
  have hlen : ((s.inside t).filter fun d => d.lock = c.lock).length ≤ 1 := by
    rw [← List.countP_eq_length_filter]
    refine le_trans (List.countP_mono_left fun d hd hl => ?_) hone
    have hl' : d.lock = c.lock := by simpa using hl
    simp [hl', (hmode t d hd hl').2]
  have hin : c ∈ (s.inside t).filter fun d => d.lock = c.lock := by simp [hc]
  obtain ⟨d, hd⟩ := List.length_eq_one_iff.1 (le_antisymm hlen (List.length_pos_of_mem hin))
  rw [hd] at hin ⊢
  rw [List.mem_singleton.1 hin]

/-- Nobody has a lock without handles. -/
theorem uses_of_unborn (h : Inv s) (hl : s.Unborn l) (t : T) (mode : Mode) :
    uses l mode (s.inside t) = 0 := by
  refine uses_eq_zero.2 fun c hc hcl => ?_
  have hmem := h.used t c (.inl (Point.mem_of_inside hc))
  rw [hcl, hl.2] at hmem
  exact absurd hmem (Finset.notMem_empty _)

end Inv

/-! ## What a step does to the ledger -/

/-- The calls of the thread that have their lock, after a step that moves the thread. -/
theorem uses_of_update (t : T) (x : Point L ε V) (fs : List (Call L))
    (ht : s'.threads = Function.update s.threads t x)
    (hf : s'.frames = Function.update s.frames t fs) (l : L) (u : T) (mode : Mode) :
    uses l mode (s'.inside u) =
      if u = t then uses l mode (x.inside fs) else uses l mode (s.inside u) := by
  rw [State.inside_of_update ht hf u]
  split_ifs <;> rfl

/-- A step that moves a thread without changing what its calls have. -/
theorem uses_same (t : T) (x : Point L ε V) (fs : List (Call L))
    (hx : x.inside fs = s.inside t) (ht : s'.threads = Function.update s.threads t x)
    (hf : s'.frames = Function.update s.frames t fs) (l : L) (u : T) (mode : Mode) :
    uses l mode (s'.inside u) = uses l mode (s.inside u) := by
  rw [uses_of_update t x fs ht hf]
  split_ifs with hu
  · rw [hx, hu]
  · rfl

theorem count_grant (f : L → List (T × Mode)) (l l' : L) (x y : T × Mode) :
    (Function.update f l' (x :: f l') l).count y =
      (f l).count y + if l' = l ∧ x = y then 1 else 0 := by
  by_cases hl : l' = l
  · subst hl
    rw [Function.update_self, List.count_cons]
    simp
  · rw [Function.update_of_ne (Ne.symm hl), if_neg fun h => hl h.1, Nat.add_zero]

theorem count_giveBack (f : L → List (T × Mode)) (l l' : L) (x y : T × Mode) (hx : x ∈ f l') :
    (Function.update f l' ((f l').erase x) l).count y + (if l' = l ∧ x = y then 1 else 0) =
      (f l).count y := by
  by_cases hl : l' = l
  · subst hl
    rw [Function.update_self, List.count_erase]
    have hpos : 0 < (f l').count x := List.count_pos_iff.2 hx
    by_cases hxy : x = y
    · subst hxy
      simp
      omega
    · simp [hxy]
  · rw [Function.update_of_ne (Ne.symm hl), if_neg fun h => hl h.1, Nat.add_zero]

/-- **What a step does to the ledger**: it makes a lock, or keeps the difference between the books
and the calls, or, when an unlock fails, lets it grow. -/
theorem Move.balance (hm : Move a s s' e) (h : Inv s) (l : L) (u : T) (mode : Mode) :
    (uses l mode (s'.inside u) = 0 ∧ (s'.holders l).count (u, mode) = 0) ∨
      uses l mode (s.inside u) + (s'.holders l).count (u, mode) =
        uses l mode (s'.inside u) + (s.holders l).count (u, mode) ∨
      ¬a.Unlocks ∧ uses l mode (s'.inside u) + (s.holders l).count (u, mode) ≤
        uses l mode (s.inside u) + (s'.holders l).count (u, mode) := by
  have hkeep : s'.holders = s.holders → uses l mode (s'.inside u) = uses l mode (s.inside u) →
      uses l mode (s.inside u) + (s'.holders l).count (u, mode) =
        uses l mode (s'.inside u) + (s.holders l).count (u, mode) := fun hh hu => by rw [hh, hu]
  cases hm with
  | quiet t p q e ht hq =>
    have hin : q.inside (s.frames t) = s.inside t := by
      rw [State.inside, ht]
      cases hq <;> rfl
    exact .inr (.inl (hkeep rfl (uses_same t q _ hin rfl
      (by exact (Function.update_eq_self t s.frames).symm) l u mode)))
  | armed | notMade | unmade | shared | dropped | freed => exact .inr (.inl rfl)
  | made l' hl hn =>
    by_cases hne : l = l'
    · subst hne
      refine .inl ⟨h.uses_of_unborn hl u mode, ?_⟩
      change (Function.update s.holders l [] l).count _ = 0
      rw [Function.update_self, List.count_nil]
    · refine .inr (.inl ?_)
      change _ + (Function.update s.holders l' [] l).count _ = _
      rw [Function.update_of_ne hne]
      rfl
  | fired t c ht hn =>
    have hin : (Point.user : Point L ε V).inside (s.frames t) = s.inside t := by
      rw [State.inside, ht]
      rfl
    exact .inr (.inl (hkeep rfl (uses_same t .user _ hin rfl
      (by exact (Function.update_eq_self t s.frames).symm) l u mode)))
  | began t c ht hc hg =>
    have hin : s.inside t = s.frames t := by
      rw [State.inside, ht]
      rfl
    have huses : uses l mode (((s.setHolders c.lock ((t, c.mode) :: s.holders c.lock)).setFrames t
        (c :: s.frames t)).move t .user |>.inside u) =
        if u = t then uses l mode (c :: s.frames t) else uses l mode (s.inside u) :=
      uses_of_update t .user _ rfl rfl l u mode
    refine .inr (.inl ?_)
    change _ + (Function.update s.holders c.lock _ l).count _ = _
    rw [count_grant, huses]
    by_cases hu : u = t
    · subst hu
      rw [if_pos rfl, uses_cons, hin]
      simp only [Prod.mk.injEq, true_and]
      omega
    · rw [if_neg hu, if_neg fun hx => hu (congrArg Prod.fst hx.2).symm]
      omega
  | stuck t c out status ht hst ha =>
    obtain ⟨hf, hin⟩ := h.unlock_inside ht
    have huses : uses l mode (((s.setFrames t (s.frames t).tail).move t .user).inside u) =
        if u = t then uses l mode (s.frames t).tail else uses l mode (s.inside u) :=
      uses_of_update t .user _ rfl rfl l u mode
    refine .inr (.inr ⟨by rw [ha]; exact hst, ?_⟩)
    change _ ≤ _ + (s.holders l).count (u, mode)
    rw [huses]
    split_ifs with hu
    · rw [hu, hin]
      nth_rewrite 2 [hf]
      rw [uses_cons]
      omega
    · exact le_rfl
  | released t c out mode' ht hm hh =>
    obtain ⟨hf, hin⟩ := h.unlock_inside ht
    obtain rfl : c.mode = mode' := (h.givenBack_eq ht).symm.trans hm
    have huses : uses l mode (((s.setHolders c.lock ((s.holders c.lock).erase (t, c.mode))).move t
        (.takeUnlock c out)).inside u) =
        if u = t then uses l mode (s.frames t).tail else uses l mode (s.inside u) :=
      uses_of_update t (.takeUnlock c out) _ rfl
        (by exact (Function.update_eq_self t s.frames).symm) l u mode
    have hcount := count_giveBack s.holders l c.lock (t, c.mode) (u, mode) hh
    refine .inr (.inl ?_)
    change _ + (Function.update s.holders c.lock _ l).count _ = _
    rw [huses, ← hcount]
    by_cases hu : u = t
    · subst hu
      rw [if_pos rfl, hin]
      nth_rewrite 1 [hf]
      rw [uses_cons]
      simp only [Prod.mk.injEq, true_and]
      omega
    · rw [if_neg hu, if_neg fun hx => hu (congrArg Prod.fst hx.2).symm]
      omega
  | overruled t c out ht hn =>
    have hin : (Point.user : Point L ε V).inside (s.frames t).tail = s.inside t := by
      rw [State.inside, ht]
      rfl
    exact .inr (.inl (hkeep rfl (uses_same t .user _ hin rfl rfl l u mode)))
  | ended t c out ht hn =>
    have hin : (Point.user : Point L ε V).inside (s.frames t).tail = s.inside t := by
      rw [State.inside, ht]
      rfl
    exact .inr (.inl (hkeep rfl (uses_same t .user _ hin rfl rfl l u mode)))

/-! ## What a step keeps -/

/-- What the point of a thread and its calls say stays true of the others. -/
theorem placed_of_update {x : Point L ε V} {fs : List (Call L)} (h : Inv s) (hx : x.Placed fs)
    (ht : s'.threads = Function.update s.threads t x)
    (hf : s'.frames = Function.update s.frames t fs) (u : T) :
    (s'.threads u).Placed (s'.frames u) := by
  rw [ht, hf]
  by_cases hu : u = t
  · rw [hu, Function.update_self, Function.update_self]
    exact hx
  · rw [Function.update_of_ne hu, Function.update_of_ne hu]
    exact h.placed u

theorem Inv.used_frames {fs : List (Call L)} {u : T} (h : Inv s)
    (hfs : ∀ d ∈ fs, d.handle.name ∈ s.handles d.lock)
    (hc : c ∈ Function.update s.frames t fs u) : c.handle.name ∈ s.handles c.lock := by
  by_cases hu : u = t
  · rw [hu, Function.update_self] at hc
    exact hfs c hc
  · rw [Function.update_of_ne hu] at hc
    exact h.used u c (.inl hc)

theorem Inv.used_call {x : Point L ε V} {u : T} (h : Inv s)
    (hx : ∀ d, x.call = some d → d.handle.name ∈ s.handles d.lock)
    (hc : (Function.update s.threads t x u).call = some c) :
    c.handle.name ∈ s.handles c.lock := by
  by_cases hu : u = t
  · rw [hu, Function.update_self] at hc
    exact hx c hc
  · rw [Function.update_of_ne hu] at hc
    exact h.used u c (.inr hc)

theorem Move.placed (hm : Move a s s' e) (h : Inv s) (u : T) :
    (s'.threads u).Placed (s'.frames u) := by
  have hself : ∀ t : T, s.frames = Function.update s.frames t (s.frames t) := fun t =>
    (Function.update_eq_self t s.frames).symm
  cases hm with
  | quiet t p q e ht hq =>
    refine placed_of_update h ?_ rfl (by exact hself t) u
    cases hq with
    | finish c fs out hf => exact congrArg List.head? hf
    | _ => trivial
  | armed | notMade | unmade | made | shared | dropped | freed => exact h.placed u
  | fired t c ht hn => exact placed_of_update h (x := .user) trivial rfl (by exact hself t) u
  | began t c ht hc hg => exact placed_of_update h (x := .user) trivial rfl rfl u
  | stuck t c out status ht hst ha => exact placed_of_update h (x := .user) trivial rfl rfl u
  | released t c out mode ht hm hh =>
    have hp := h.placed t
    rw [ht] at hp
    exact placed_of_update h (x := .takeUnlock c out) hp rfl (by exact hself t) u
  | overruled t c out ht hn => exact placed_of_update h (x := .user) trivial rfl rfl u
  | ended t c out ht hn => exact placed_of_update h (x := .user) trivial rfl rfl u

theorem Move.exclusive (hm : Move a s s' e) (h : Inv s) (l : L) : Exclusive (s'.holders l) := by
  have hset : ∀ {l' : L} {held : List (T × Mode)}, Exclusive held →
      Exclusive (Function.update s.holders l' held l) := by
    intro l' held hx
    by_cases hl : l = l'
    · rwa [hl, Function.update_self]
    · rw [Function.update_of_ne hl]
      exact h.exclusive l
  cases hm with
  | made l' hl hn => exact hset (.inl (List.forall_mem_nil _))
  | began t c ht hc hg => exact hset hg.exclusive
  | released t c out mode ht hm hh => exact hset ((h.exclusive c.lock).erase _)
  | _ => exact h.exclusive l

/-- The handles that the calls use are live. -/
theorem Move.used (hm : Move a s s' e) (h : Inv s) (u : T) (c : Call L)
    (hc : c ∈ s'.frames u ∨ (s'.threads u).call = some c) :
    c.handle.name ∈ s'.handles c.lock := by
  have hframes : ∀ {t}, ∀ d ∈ s.frames t, d.handle.name ∈ s.handles d.lock := fun d hd =>
    h.used _ d (.inl hd)
  have hcall : ∀ {t d}, (s.threads t).call = some d → d.handle.name ∈ s.handles d.lock := fun hd =>
    h.used _ _ (.inr hd)
  have htail : ∀ {t}, ∀ d ∈ (s.frames t).tail, d.handle.name ∈ s.handles d.lock := fun d hd =>
    hframes d (List.mem_of_mem_tail hd)
  have hdrop : ∀ {k : Handle L}, s.Unused k → (c ∈ s.frames u ∨ (s.threads u).call = some c) →
      c.handle.name ∈ Function.update s.handles k.lock ((s.handles k.lock).erase k.name) c.lock := by
    intro k hk hin
    have hmem := h.used u c hin
    by_cases hl : c.lock = k.lock
    · have hne : c.handle ≠ k := hin.elim ((hk u).1 c) ((hk u).2 c)
      rw [hl, Function.update_self]
      refine Finset.mem_erase.2 ⟨fun hname => hne ?_, hl ▸ hmem⟩
      exact congrArg₂ Handle.mk hl hname
    · rwa [Function.update_of_ne hl]
  cases hm with
  | quiet t p q e ht hq =>
    refine hc.elim (hframes c) fun hc => h.used_call (fun d hd => ?_) hc
    cases hq with
    | call c' hh =>
      cases hd
      exact hh
    | take c' hn =>
      cases hd
      exact hcall (by rw [ht]; rfl)
    | failed => cases hd
    | finish c' fs out hf =>
      cases hd
      exact hframes (t := t) _ (by rw [hf]; exact List.mem_cons_self)
  | armed | notMade | unmade => exact h.used u c hc
  | made l hl hn =>
    have hmem := h.used u c hc
    have hne : c.lock ≠ l := by
      rintro rfl
      rw [hl.2] at hmem
      exact absurd hmem (Finset.notMem_empty _)
    change _ ∈ Function.update s.handles l {0} c.lock
    rwa [Function.update_of_ne hne]
  | shared k name core hk hh hn =>
    have hmem := h.used u c hc
    change _ ∈ Function.update s.handles k.lock _ c.lock
    by_cases hl : c.lock = k.lock
    · rw [hl, Function.update_self]
      exact Finset.mem_insert_of_mem (hl ▸ hmem)
    · rwa [Function.update_of_ne hl]
  | dropped k core hk hh hu hr => exact hdrop hu hc
  | freed k destroy core hk hh hu hr ha => exact hdrop hu hc
  | fired t c' ht hn => exact hc.elim (hframes c) (h.used_call nofun)
  | began t c' ht hcore hg =>
    refine hc.elim (h.used_frames (List.forall_mem_cons.2 ⟨?_, hframes⟩)) (h.used_call nofun)
    exact hcall (by rw [ht]; rfl)
  | stuck t c' out status ht hst ha => exact hc.elim (h.used_frames htail) (h.used_call nofun)
  | released t c' out mode ht hm hh =>
    refine hc.elim (hframes c) (h.used_call fun d hd => ?_)
    cases hd
    exact hcall (by rw [ht]; rfl)
  | overruled t c' out ht hn => exact hc.elim (h.used_frames htail) (h.used_call nofun)
  | ended t c' out ht hn => exact hc.elim (h.used_frames htail) (h.used_call nofun)

/-- **A move keeps the invariant.** -/
theorem Move.inv (hm : Move a s s' e) (h : Inv s) : Inv s' where
  placed := hm.placed h
  exclusive := hm.exclusive h
  counted := by
    intro l t mode
    have hle := h.counted l t mode
    rcases hm.balance h l t mode with ⟨h₁, h₂⟩ | hb | ⟨-, hb⟩
    · rw [h₁]
      exact Nat.zero_le _
    · omega
    · omega
  used := hm.used h

/-- **As long as no unlock fails, the books and the calls agree exactly.** -/
theorem Move.balanced (hm : Move a s s' e) (ha : a.Unlocks) (h : Inv s) (hb : Balanced s) :
    Balanced s' := by
  intro l t mode
  have heq := hb l t mode
  rcases hm.balance h l t mode with ⟨h₁, h₂⟩ | hb | ⟨hn, -⟩
  · rw [h₁, h₂]
  · omega
  · exact absurd ha hn

theorem Balanced.mem_holders (h : Balanced s) :
    (t, mode) ∈ s.holders l ↔ ∃ d ∈ s.inside t, d.lock = l ∧ d.mode = mode := by
  rw [← List.count_pos_iff, ← h l t mode, uses_pos]

theorem inv_init : Inv (State.init : State L T ε V) where
  placed := fun _ => trivial
  exclusive := fun _ => .inl (List.forall_mem_nil _)
  counted := fun _ _ _ => Nat.zero_le _
  used := fun _ _ hc => hc.elim (fun h => absurd h List.not_mem_nil) nofun

variable [Fintype T] {es : List (Event L T ε V)}

theorem inv_of_exec (h : Exec step AnyStatus State.init es s) : Inv s :=
  h.stateInvariant inv_init fun hI hs _ => (step_move hs).inv hI

theorem balanced_of_exec (h : Exec step Unlocking State.init es s) : Inv s ∧ Balanced s := by
  refine h.stateInvariant (I := fun s => Inv s ∧ Balanced s) ⟨inv_init, fun _ _ _ => rfl⟩ ?_
  intro s a s' e hI hs hG
  exact ⟨(step_move hs).inv hI.1, (step_move hs).balanced hG hI.1 hI.2⟩

/-! ## The main results -/

/-- **A writer excludes everybody, and every unlock is one of a holder.** Whatever the operating
system answers and however callbacks end, a call of `with_write` that has its lock is the only call
that has it; and a call that is about to unlock has its lock, so that the operating system, which is
not told, gives back what the call was granted. -/
theorem rwlock_exclusion (h : Exec step AnyStatus State.init es s) :
    (∀ t c, c ∈ s.inside t → c.mode = .write →
      (s.inside t).filter (fun d => d.lock = c.lock) = [c] ∧
        ∀ u, u ≠ t → ∀ d ∈ s.inside u, d.lock ≠ c.lock) ∧
    ∀ t c out, s.threads t = .unlock c out →
      c ∈ s.inside t ∧ (t, c.mode) ∈ s.holders c.lock ∧
        givenBack (s.holders c.lock) t = c.mode := by
  have hI := inv_of_exec h
  refine ⟨fun t c hc hw => hI.alone hc hw, fun t c out ht => ?_⟩
  obtain ⟨hf, hin⟩ := hI.unlock_inside ht
  refine ⟨?_, hI.mem_of_unlock ht, hI.givenBack_eq ht⟩
  rw [hin, hf]
  exact List.mem_cons_self

/-- Thread `0` reads twice, one call inside the other, beside thread `1`; then thread `1` writes and
its callback raises. -/
theorem rwlock_exclusion_raising_writer :
    ∃ (es : List (Event Unit (Fin 2) Unit ℕ)) (s : State Unit (Fin 2) Unit ℕ),
      Exec step AnyStatus State.init es s ∧
      s.threads 1 = .unlock ⟨⟨(), 0⟩, .write⟩ (.error (.other ())) ∧
      s.threads 0 = .lock ⟨⟨(), 0⟩, .read⟩ ∧
      givenBack (s.holders ()) 1 = .write := by
  obtain ⟨es, s, h, ht⟩ := Exec.exists_of_run step AnyStatus
    (State.init : State Unit (Fin 2) Unit ℕ)
    [.new () 0 0, .call 0 ⟨(), 0⟩ .read, .takeLock 0, .osLock 0 0, .call 0 ⟨(), 0⟩ .read,
      .takeLock 0, .osLock 0 0, .call 1 ⟨(), 0⟩ .read, .takeLock 1, .osLock 1 0,
      .finish 1 (.ok 7), .osUnlock 1 0, .takeUnlock 1, .finish 0 (.ok 1), .osUnlock 0 0,
      .takeUnlock 0, .finish 0 (.ok 1), .osUnlock 0 0, .takeUnlock 0,
      .call 1 ⟨(), 0⟩ .write, .takeLock 1, .osLock 1 0, .call 0 ⟨(), 0⟩ .read, .takeLock 0,
      .finish 1 (.error (.other ()))]
    (fun s _ => decide (s.threads 1 = .unlock ⟨⟨(), 0⟩, .write⟩ (.error (.other ()))) &&
      decide (s.threads 0 = .lock ⟨⟨(), 0⟩, .read⟩))
    (by decide +kernel)
  rw [Bool.and_eq_true, decide_eq_true_eq, decide_eq_true_eq] at ht
  exact ⟨es, s, h, ht.1, ht.2, ((rwlock_exclusion h).2 1 _ _ ht.1).2.2⟩

/-- **A lock is granted exactly when the calls that have it allow it**: to a writer when no call has
the lock, to a reader when no writer has it. So no callback, whether it returns or raises, and no
error of a test hook leaves a lock held; the unlocks of the operating system succeed here. -/
theorem rwlock_grants_iff (h : Exec step Unlocking State.init es s)
    (ht : s.threads t = .lock c) (hc : s.cores c.lock ≠ none) :
    (step s (.osLock t 0)).isSome = true ↔
      ∀ u, ∀ d ∈ s.inside u, d.lock = c.lock → c.mode = .read ∧ d.mode = .read := by
  have hb := (balanced_of_exec h).2
  have hstep : (step s (.osLock t 0)).isSome = true ↔ Grants (s.holders c.lock) c.mode := by
    simp only [step, ht, if_neg hc]
    by_cases hg : Grants (s.holders c.lock) c.mode
    · simp [hg]
    · simp [hg]
  rw [hstep]
  cases hmode : c.mode with
  | read =>
    constructor
    · intro hg u d hd hl
      exact ⟨rfl, hg _ (hb.mem_holders.2 ⟨d, hd, hl, rfl⟩)⟩
    · intro hall x hx
      obtain ⟨d, hd, hl, hm⟩ := hb.mem_holders.1 hx
      rw [← hm]
      exact (hall x.1 d hd hl).2
  | write =>
    constructor
    · intro hg u d hd hl
      have hmem := hb.mem_holders.2 ⟨d, hd, hl, rfl⟩
      rw [show s.holders c.lock = [] from hg] at hmem
      exact absurd hmem List.not_mem_nil
    · intro hall
      refine List.eq_nil_iff_forall_not_mem.2 fun x hx => ?_
      obtain ⟨d, hd, hl, -⟩ := hb.mem_holders.1 hx
      cases (hall x.1 d hd hl).1

/-- After a callback that raised and an error of the hook of the unlock the lock is granted. -/
theorem rwlock_grants_iff_overruled :
    ∃ (es : List (Event Unit (Fin 2) Unit ℕ)) (s : State Unit (Fin 2) Unit ℕ),
      Exec step Unlocking State.init es s ∧
      .ended 1 ⟨⟨(), 0⟩, .write⟩ (.error (.other ())) (failure 890) ∈ es ∧
      (step s (.osLock 0 0)).isSome = true := by
  obtain ⟨es, s, h, ht⟩ := Exec.exists_of_run step Unlocking
    (State.init : State Unit (Fin 2) Unit ℕ)
    [.new () 0 0, .call 1 ⟨(), 0⟩ .write, .takeLock 1, .osLock 1 0, .call 0 ⟨(), 0⟩ .write,
      .takeLock 0, .arm .unlock 890, .finish 1 (.error (.other ())), .osUnlock 1 0, .takeUnlock 1]
    (fun s es => decide (s.threads 0 = .lock ⟨⟨(), 0⟩, .write⟩) && decide (s.cores () ≠ none) &&
      decide (.ended 1 ⟨⟨(), 0⟩, .write⟩ (.error (.other ())) (failure 890) ∈ es) &&
      decide (s.inside 0 = [] ∧ s.inside 1 = []))
    (by decide +kernel)
  simp only [Bool.and_eq_true, decide_eq_true_eq] at ht
  obtain ⟨⟨⟨h₀, hc⟩, he⟩, hin₀, hin₁⟩ := ht
  refine ⟨es, s, h, he, (rwlock_grants_iff h h₀ hc).2 fun u d hd => ?_⟩
  have hnil : s.inside u = [] := by
    fin_cases u
    · exact hin₀
    · exact hin₁
  rw [hnil] at hd
  exact absurd hd List.not_mem_nil

end NativeSync.RwLock
