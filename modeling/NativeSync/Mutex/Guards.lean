import NativeSync.Mutex.Exclusion

/-!
# Mutexes and condition variables: every lock is released once

A guard is made when a callback begins and is named by the order in which the guards are made, so it
stands for its call of `with_lock`. The callbacks in progress and the unlocks of a run add up: every
guard ever made belongs to one callback in progress or its mutex was unlocked once (`Ledger`). A
guard is active from the beginning of its callback to its end, whether that is a return or an error.
-/

namespace NativeSync.Mutex

open Foundations

variable {M C T : Type}

/-- The guard whose mutex an event unlocks. -/
@[simp] def Event.unlocks : Event M C T → Option ℕ
  | unlocked _ g => some g.active
  | _ => none

/-- The guard whose `with_lock` an event ends. -/
@[simp] def Event.ends : Event M C T → Option ℕ
  | ended _ g _ => some g.active
  | _ => none

/-- The callback of guard `g` has ended, and the thread is about to give up its mutex. -/
@[simp] def Point.Closes (g : Guard M) : Point M C → Prop
  | unlockLocked g' _ => g' = g
  | unlockOwner g' _ => g' = g
  | unlock g' _ => g' = g
  | _ => False

/-- The callbacks of a thread include the one of guard `k`. -/
def hasGuard (k : ℕ) (fs : List (Guard M)) : Bool := decide (k ∈ fs.map Guard.active)

theorem hasGuard_iff {k : ℕ} {fs : List (Guard M)} :
    hasGuard k fs = true ↔ ∃ g ∈ fs, g.active = k := by
  simp [hasGuard]

variable [Fintype T]

/-- What the events of a run, the callbacks in progress and the guards say about each other. -/
structure Ledger (es : List (Event M C T)) (s : State M C T) : Prop where
  made : ∀ t, ∀ g ∈ s.frames t, s.made[g.active]? = some g.mutex
  released : ∀ k, (es.filterMap Event.unlocks).count k + num (hasGuard k) s.frames =
    if k < s.made.length then 1 else 0
  ended : es.filterMap Event.ends = es.filterMap Event.unlocks
  active : ∀ t, ∀ g ∈ s.frames t, s.active g.active = true ↔ ¬(s.threads t).point.Closes g
  inactive : ∀ k, s.active k = true → ∃ t, ∃ g ∈ s.frames t, g.active = k

variable {ids : Ids T} {s s' : State M C T} {es e : List (Event M C T)} {t u : T} {m : M}
  {g g' : Guard M} {k : ℕ}

namespace Ledger

/-- A guard belongs to one callback. -/
theorem unique (h : Ledger es s) (hg : g ∈ s.frames t) (hg' : g' ∈ s.frames u)
    (hk : g.active = g'.active) : t = u ∧ g = g' := by
  have hle : num (hasGuard g.active) s.frames ≤ 1 := by
    have hr := h.released g.active
    split_ifs at hr <;> omega
  refine ⟨num_unique hle (hasGuard_iff.2 ⟨g, hg, rfl⟩) (hasGuard_iff.2 ⟨g', hg', hk.symm⟩), ?_⟩
  have hm := h.made t g hg
  rw [hk, h.made u g' hg'] at hm
  cases g
  cases g'
  cases hk
  cases hm
  rfl

theorem lt_made (h : Ledger es s) (hg : g ∈ s.frames t) : g.active < s.made.length :=
  (List.getElem?_eq_some_iff.1 (h.made t g hg)).1

/-- A guard of a callback in progress was not released. -/
theorem unlocks_eq_zero (h : Ledger es s) (hg : g ∈ s.frames t) :
    (es.filterMap Event.unlocks).count g.active = 0 := by
  have hr := h.released g.active
  have hpos : 0 < num (hasGuard g.active) s.frames := num_pos.2 ⟨t, hasGuard_iff.2 ⟨g, hg, rfl⟩⟩
  rw [if_pos (h.lt_made hg)] at hr
  omega

/-- A step that touches no guard. -/
theorem same (h : Ledger es s) (hframes : s'.frames = s.frames) (hmade : s'.made = s.made)
    (hactive : s'.active = s.active)
    (hcloses : ∀ u g, (s'.threads u).point.Closes g ↔ (s.threads u).point.Closes g)
    (he : ∀ x ∈ e, x.unlocks = none ∧ x.ends = none) : Ledger (es ++ e) s' := by
  have hu : e.filterMap Event.unlocks = [] := List.filterMap_eq_nil_iff.2 fun x hx => (he x hx).1
  have hn : e.filterMap Event.ends = [] := List.filterMap_eq_nil_iff.2 fun x hx => (he x hx).2
  refine ⟨fun t g hg => ?_, fun k => ?_, ?_, fun t g hg => ?_, fun k hk => ?_⟩
  · rw [hframes] at hg
    rw [hmade]
    exact h.made t g hg
  · rw [List.filterMap_append, hu, List.append_nil, hframes, hmade]
    exact h.released k
  · rw [List.filterMap_append, List.filterMap_append, hu, hn, h.ended]
  · rw [hframes] at hg
    rw [hactive, hcloses]
    exact h.active t g hg
  · rw [hactive] at hk
    rw [hframes]
    exact h.inactive k hk

end Ledger

variable [DecidableEq T]

/-- A step by which thread `t` moves from `x` to `y` and that touches no guard. -/
theorem Ledger.move {x y : Pc (Point M C)} (h : Ledger es s) (ht : s.threads t = x)
    (hthreads : s'.threads = Function.update s.threads t y) (hframes : s'.frames = s.frames)
    (hmade : s'.made = s.made) (hactive : s'.active = s.active)
    (hcloses : ∀ g, y.point.Closes g ↔ x.point.Closes g)
    (he : ∀ x ∈ e, x.unlocks = none ∧ x.ends = none) : Ledger (es ++ e) s' := by
  refine h.same hframes hmade hactive (fun u g => ?_) he
  rw [hthreads]
  by_cases hu : u = t
  · subst hu
    rw [Function.update_self, ht]
    exact hcloses g
  · rw [Function.update_of_ne hu]

omit [DecidableEq T] in
/-- Whether another guard belongs to the callbacks does not depend on guard `g`. -/
theorem hasGuard_cons {fs : List (Guard M)} (hk : k ≠ g.active) :
    hasGuard k (g :: fs) = hasGuard k fs := by
  simp [hasGuard, hk]

variable [DecidableEq M]

/-- A callback begins. -/
theorem Ledger.began (h : Ledger es s) (ht : s.threads t = .run (.lockLocked m)) :
    Ledger (es ++ [.began t ⟨m, s.made.length⟩])
      (((s.setLocked m true).begin t m).move t (.run .user)) := by
  have hnew : ∀ {u g}, g ∈ s.frames u → g.active ≠ s.made.length := fun hg =>
    (h.lt_made hg).ne
  have hold : ∀ {u g}, g ∈ Function.update s.frames t (⟨m, s.made.length⟩ :: s.frames t) u →
      g ∈ s.frames u ∨ u = t ∧ g = ⟨m, s.made.length⟩ := by
    intro u g hg
    by_cases hu : u = t
    · subst hu
      rw [Function.update_self] at hg
      exact (List.mem_cons.1 hg).symm.imp_right fun he => ⟨rfl, he⟩
    · rw [Function.update_of_ne hu] at hg
      exact .inl hg
  refine ⟨fun u g hg => ?_, fun k => ?_, ?_, fun u g hg => ?_, fun k hk => ?_⟩
  · change (s.made ++ [m])[g.active]? = _
    rcases hold hg with hg | ⟨rfl, rfl⟩
    · rw [List.getElem?_append_left (h.lt_made hg)]
      exact h.made u g hg
    · simp
  · have hr := h.released k
    have hn := num_update (hasGuard k) s.frames t (⟨m, s.made.length⟩ :: s.frames t)
    rw [List.filterMap_append]
    change (_ ++ []).count k +
      num (hasGuard k) (Function.update s.frames t (⟨m, s.made.length⟩ :: s.frames t)) =
        if k < (s.made ++ [m]).length then 1 else 0
    rw [List.append_nil, List.length_append, List.length_singleton]
    by_cases hk : k = s.made.length
    · subst hk
      have hfree : hasGuard s.made.length (s.frames t) = false := by
        refine Bool.eq_false_iff.2 fun he => ?_
        obtain ⟨g, hg, hk⟩ := hasGuard_iff.1 he
        exact hnew hg hk
      have hin : hasGuard s.made.length ((⟨m, s.made.length⟩ : Guard M) :: s.frames t) = true :=
        hasGuard_iff.2 ⟨_, .head _, rfl⟩
      rw [hfree, hin] at hn
      rw [if_neg (lt_irrefl _)] at hr
      rw [if_pos (Nat.lt_succ_self _)]
      simp only [Bool.toNat_false, Bool.toNat_true] at hn
      omega
    · rw [hasGuard_cons hk] at hn
      have hlt : k < s.made.length + 1 ↔ k < s.made.length := by omega
      simp only [hlt]
      omega
  · rw [List.filterMap_append, List.filterMap_append, h.ended]
    rfl
  · change Function.update s.active s.made.length true g.active = true ↔
      ¬(Function.update s.threads t _ u).point.Closes g
    rcases hold hg with hg | ⟨rfl, rfl⟩
    · rw [Function.update_of_ne (hnew hg), h.active u g hg]
      by_cases hu : u = t
      · subst hu
        rw [Function.update_self, ht]
        exact Iff.rfl
      · rw [Function.update_of_ne hu]
    · rw [Function.update_self, Function.update_self]
      exact iff_of_true rfl id
  · change Function.update s.active s.made.length true k = true at hk
    change ∃ u, ∃ g ∈ Function.update s.frames t (⟨m, s.made.length⟩ :: s.frames t) u, _
    by_cases hk' : k = s.made.length
    · subst hk'
      exact ⟨t, ⟨m, s.made.length⟩, by simp, rfl⟩
    · rw [Function.update_of_ne hk'] at hk
      obtain ⟨u, g, hg, hgk⟩ := h.inactive k hk
      refine ⟨u, g, ?_, hgk⟩
      by_cases hu : u = t
      · subst hu
        rw [Function.update_self]
        exact .tail _ hg
      · rwa [Function.update_of_ne hu]

omit [DecidableEq M] in
/-- A callback ends, by returning or by raising. -/
theorem Ledger.finish {fs : List (Guard M)} {raised : Bool} (h : Ledger es s)
    (ht : s.threads t = .run .user) (hf : s.frames t = g :: fs) :
    Ledger es { s.move t (.run (.unlockLocked g raised)) with
      active := Function.update s.active g.active false } := by
  have hg : g ∈ s.frames t := by
    rw [hf]
    exact .head _
  refine ⟨h.made, h.released, h.ended, fun u g' hg' => ?_, fun k hk => ?_⟩
  · change Function.update s.active g.active false g'.active = true ↔
      ¬(Function.update s.threads t _ u).point.Closes g'
    by_cases hk : g'.active = g.active
    · obtain ⟨rfl, rfl⟩ := h.unique hg' hg hk
      rw [Function.update_self, Function.update_self]
      exact iff_of_false Bool.false_ne_true fun hn => hn rfl
    · rw [Function.update_of_ne hk, h.active u g' hg']
      by_cases hu : u = t
      · subst hu
        rw [Function.update_self, ht]
        refine iff_of_true id fun he => hk ?_
        rw [show g = g' from he]
      · rw [Function.update_of_ne hu]
  · change Function.update s.active g.active false k = true at hk
    by_cases hk' : k = g.active
    · subst hk'
      rw [Function.update_self] at hk
      cases hk
    · rw [Function.update_of_ne hk'] at hk
      exact h.inactive k hk

/-- The mutex is unlocked and `with_lock` ends. -/
theorem Ledger.unlock {raised : Bool} (h : Ledger es s) (hI : Inv ids s)
    (ht : s.threads t = .run (.unlock g raised)) :
    Ledger (es ++ [.unlocked t g, .ended t g raised])
      { (s.setHolder g.mutex none).move t (.run .user) with
        frames := Function.update s.frames t (s.frames t).tail } := by
  have hok := hI t
  rw [ht] at hok
  obtain ⟨fs, hfs⟩ := List.head?_eq_some_iff.1 hok.placed
  have hg : g ∈ s.frames t := by
    rw [hfs]
    exact .head _
  -- the thread has no other callback with this mutex, so none with this guard
  have hnot : g.active ∉ fs.map Guard.active := by
    intro hin
    obtain ⟨g', hg', hk⟩ := List.mem_map.1 hin
    obtain ⟨-, rfl⟩ := h.unique (u := t) (g := g') (by rw [hfs]; exact .tail _ hg') hg hk
    have hnodup := hok.nodup
    rw [hfs, List.map_cons, List.nodup_cons] at hnodup
    exact hnodup.1 (List.mem_map_of_mem hg')
  have hold : ∀ {u g'}, g' ∈ Function.update s.frames t fs u → g' ∈ s.frames u := by
    intro u g' hg'
    by_cases hu : u = t
    · subst hu
      rw [Function.update_self] at hg'
      rw [hfs]
      exact .tail _ hg'
    · rwa [Function.update_of_ne hu] at hg'
  rw [hfs, List.tail_cons]
  refine ⟨fun u g' hg' => h.made u g' (hold hg'), fun k => ?_, ?_, fun u g' hg' => ?_,
    fun k hk => ?_⟩
  · have hr := h.released k
    have hn := num_update (hasGuard k) s.frames t fs
    rw [hfs] at hn
    rw [List.filterMap_append, List.count_append]
    change _ + [g.active].count k + num (hasGuard k) (Function.update s.frames t fs) = _
    by_cases hk : k = g.active
    · subst hk
      have hin : hasGuard g.active (g :: fs) = true := hasGuard_iff.2 ⟨g, .head _, rfl⟩
      have hout : hasGuard g.active fs = false := decide_eq_false hnot
      rw [hin, hout] at hn
      simp only [Bool.toNat_false, Bool.toNat_true] at hn
      rw [List.count_singleton_self]
      change _ = if g.active < s.made.length then 1 else 0
      omega
    · rw [hasGuard_cons hk] at hn
      rw [List.count_singleton, if_neg (by simpa using Ne.symm hk)]
      change _ = if k < s.made.length then 1 else 0
      omega
  · rw [List.filterMap_append, List.filterMap_append, h.ended]
    rfl
  · change s.active g'.active = true ↔ ¬(Function.update s.threads t _ u).point.Closes g'
    rw [h.active u g' (hold hg')]
    by_cases hu : u = t
    · subst hu
      change g' ∈ Function.update s.frames u fs u at hg'
      rw [Function.update_self] at hg'
      rw [Function.update_self, ht]
      refine iff_of_true (fun he => hnot ?_) id
      rw [show g = g' from he]
      exact List.mem_map_of_mem hg'
    · rw [Function.update_of_ne hu]
  · obtain ⟨u, g', hg', hgk⟩ := h.inactive k hk
    refine ⟨u, g', ?_, hgk⟩
    change g' ∈ Function.update s.frames t fs u
    by_cases hu : u = t
    · subst hu
      rw [Function.update_self]
      rw [hfs] at hg'
      rcases List.mem_cons.1 hg' with rfl | hg'
      · have hact := (h.active u g' hg).1 (by rw [hgk]; exact hk)
        rw [ht] at hact
        exact absurd rfl hact
      · exact hg'
    · rwa [Function.update_of_ne hu]

/-- **A move keeps the ledger.** -/
theorem Move.ledger (hm : Move ids s t s' e) (hI : Inv ids s) (h : Ledger es s) :
    Ledger (es ++ e) s' := by
  have hnil : ∀ x ∈ ([] : List (Event M C T)), x.unlocks = none ∧ x.ends = none := nofun
  cases hm with
  | quiet p q e ht hq =>
    refine h.move ht rfl rfl rfl rfl (fun g => ?_) ?_
    · cases hq <;> exact Iff.rfl
    · cases hq <;> simp
  | began m ht => exact h.began ht
  | finish g fs raised ht hf =>
    rw [List.append_nil]
    exact h.finish ht hf
  | unlock g raised ht => exact h.unlock hI ht
  | waited m c ht => exact h.move ht rfl rfl rfl rfl (fun _ => Iff.rfl) (by simp)
  | notified c f r ht hw =>
    exact h.same rfl rfl rfl (fun u g => by rw [show (f u).point = _ from hw.point u]) (by simp)
  | granted m ht hm => exact h.move ht rfl rfl rfl rfl (fun _ => Iff.rfl) hnil
  | wake w m c ht hm => exact h.move ht rfl rfl rfl rfl (fun _ => Iff.rfl) hnil
  | lockOwner m ht => exact h.move ht rfl rfl rfl rfl (fun _ => Iff.rfl) hnil
  | unlockLocked g raised ht => exact h.move ht rfl rfl rfl rfl (fun _ => Iff.rfl) hnil
  | unlockOwner g raised ht => exact h.move ht rfl rfl rfl rfl (fun _ => Iff.rfl) hnil
  | sleep m c ht => exact h.move ht rfl rfl rfl rfl (fun _ => Iff.rfl) hnil
  | spurious p ht => exact h.move ht rfl rfl rfl rfl (fun _ => Iff.rfl) hnil
  | wakeOwner m c ht => exact h.move ht rfl rfl rfl rfl (fun _ => Iff.rfl) hnil

/-! ## What the events show -/

namespace Move

omit [Fintype T]

/-- A wait passes its check only in the thread that holds the mutex. -/
theorem holds_of_passed (hm : Move ids s t s' e) (hI : Inv ids s) (he : .passed u m ∈ e) :
    s.holder m = some u := by
  cases hm with
  | quiet p q e ht hq =>
    cases hq with
    | passed m' c ho =>
      simp only [List.mem_singleton, Event.passed.injEq] at he
      obtain ⟨rfl, rfl⟩ := he
      have hok := hI u
      rw [ht] at hok
      exact hok.holds_of_owner ho
    | _ => simp at he
  | _ => simp at he

/-- A wait is rejected by its check only in a thread that does not hold the mutex. -/
theorem not_holds_of_rejected (hm : Move ids s t s' e) (hI : Inv ids s)
    {r : Except SyncError Unit} (he : .rejected u m r ∈ e) : s.holder m ≠ some u := by
  cases hm with
  | quiet p q e ht hq =>
    have hok := hI t
    rw [ht] at hok
    cases hq with
    | notLocked m' c hl =>
      simp only [List.mem_singleton, Event.rejected.injEq] at he
      obtain ⟨rfl, rfl, -⟩ := he
      intro hm
      rw [((hok.check_iff trivial).2 hm).1] at hl
      cases hl
    | notOwner m' c ho =>
      simp only [List.mem_singleton, Event.rejected.injEq] at he
      obtain ⟨rfl, rfl, -⟩ := he
      exact fun hm => ho ((hok.check_iff trivial).2 hm).2
    | _ => simp at he
  | _ => simp at he

/-- A wait that passed its check returns in the thread that holds the mutex, and the fields say
so. -/
theorem holds_of_waited (hm : Move ids s t s' e) (hI : Inv ids s) {r : Except SyncError Unit}
    (he : .waited u m r ∈ e) : s'.holder m = some u ∧ (s'.core m).locked = true ∧
      (s'.core m).owner = ids.id u := by
  have hI' := hm.inv hI
  have hsettled : ∀ {m}, s'.threads t = .run .user → s'.holder m = some t →
      s'.holder m = some t ∧ (s'.core m).locked = true ∧ (s'.core m).owner = ids.id t := by
    intro m hx hm
    have hok := hI' t
    rw [hx] at hok
    exact ⟨hm, (hok.check_iff trivial).2 hm⟩
  have hok := hI t
  cases hm with
  | quiet p q e ht hq =>
    cases hq with
    | waitFailed m' c status hst =>
      simp only [List.mem_singleton, Event.waited.injEq] at he
      obtain ⟨rfl, rfl, -⟩ := he
      rw [ht] at hok
      exact hsettled (Function.update_self ..) ((hok.held m).2 (.inr hok.placed))
    | _ => simp at he
  | waited m' c ht =>
    simp only [List.mem_singleton, Event.waited.injEq] at he
    obtain ⟨rfl, rfl, -⟩ := he
    rw [ht] at hok
    exact hsettled (Function.update_self ..) ((hok.held m).2 (.inr hok.placed))
  | _ => simp at he

/-- A call of `with_lock` ends by unlocking its mutex, with `owner` cleared. -/
theorem unlocks_of_ended (hm : Move ids s t s' e) (hI : Inv ids s) {raised : Bool}
    (he : .ended u g raised ∈ e) : e = [.unlocked u g, .ended u g raised] ∧
      s.threads u = .run (.unlock g raised) ∧ s.holder g.mutex = some u ∧
      s'.holder g.mutex = none ∧ (s'.core g.mutex).owner = 0 ∧ s'.active = s.active := by
  cases hm with
  | quiet p q e ht hq => cases hq <;> simp at he
  | unlock g' raised' ht =>
    simp only [List.mem_cons, reduceCtorEq, Event.ended.injEq, List.not_mem_nil, or_false,
      false_or] at he
    obtain ⟨rfl, rfl, rfl⟩ := he
    have hok := hI u
    rw [ht] at hok
    have hheld := hok.holds_of_head hok.placed
    exact ⟨rfl, ht, hheld, Function.update_self .., hok.cleared g.mutex hheld rfl, rfl⟩
  | _ => simp at he

end Move

/-! ## Exclusion -/

/-- Thread `t` is in a callback of mutex `m`, or about to leave it, and not suspended in a wait on
`m`. -/
def Executing (s : State M C T) (m : M) (t : T) : Prop :=
  m ∈ (s.frames t).map Guard.mutex ∧ ¬Suspended m (s.threads t)

omit [Fintype T] [DecidableEq M] [DecidableEq T] in
theorem Executing.holds (hx : Executing s m t) (hI : Inv ids s) : s.holder m = some t := by
  refine ((hI t).held m).2 ?_
  obtain ⟨hmem, hnot⟩ := hx
  cases ht : s.threads t with
  | run p => exact .inr hmem
  | wait w p =>
    rw [ht] at hnot
    exact ⟨hnot, hmem⟩

variable [DecidableEq C] {a : Action M C T}

/-- What a step does with the mutexes. -/
structure Exact (ids : Ids T) (es : List (Event M C T)) (s : State M C T) (a : Action M C T)
    (s' : State M C T) (e : List (Event M C T)) : Prop where
  others : ∀ m u, u ≠ a.thread → (s'.holder m = some u ↔ s.holder m = some u)
  passed : ∀ t m, .passed t m ∈ e → s.holder m = some t
  rejected : ∀ t m r, .rejected t m r ∈ e → s.holder m ≠ some t
  waited : ∀ t m r, .waited t m r ∈ e → s'.holder m = some t ∧ (s'.core m).locked = true ∧
    (s'.core m).owner = ids.id t
  ended : ∀ t g raised, .ended t g raised ∈ e →
    s.holder g.mutex = some t ∧ s'.holder g.mutex = none ∧ (s'.core g.mutex).owner = 0 ∧
      s'.active g.active = false ∧ ((es ++ e).filterMap Event.unlocks).count g.active = 1

omit [DecidableEq M] [DecidableEq T] [DecidableEq C] in
theorem ledger_init : Ledger [] (State.init : State M C T) := by
  refine ⟨nofun, fun k => ?_, rfl, nofun, nofun⟩
  have hzero : num (hasGuard k) (State.init : State M C T).frames = 0 := num_eq_zero.2 fun _ => rfl
  rw [hzero]
  rfl

theorem ledger_of_exec (h : Exec (step ids) Any State.init es s) : Ledger es s :=
  (h.invariant (I := fun es s => Inv ids s ∧ Ledger es s) ⟨inv_init ids, ledger_init⟩
    fun ⟨hI, hl⟩ hs _ => ⟨(step_move hs).inv hI, (step_move hs).ledger hI hl⟩).2

/-- **Exclusion, and the exactness of the check.** In every run of any number of threads with any
number of mutexes and condition variables: two threads in callbacks of one mutex that are not
suspended in a wait on it are the same; a thread between two writes finds its identifier in `owner`
and `locked` set exactly when it holds the mutex, so that the check of a wait is passed by the
holder and rejected in any other thread; a wait that passed it returns with the mutex held and the
fields written; and every call of `with_lock` that ends, by returning or by raising, has released
its mutex once, with `owner` zero and its guard inactive. -/
theorem mutex_exclusion (h : Exec (step ids) Any State.init es s) :
    (∀ m t u, Executing s m t → Executing s m u → t = u) ∧
    (∀ m t p, s.threads t = .run p → p.Settled →
      ((s.core m).locked = true ∧ (s.core m).owner = ids.id t ↔ s.holder m = some t)) ∧
    es.filterMap Event.ends = es.filterMap Event.unlocks ∧
    (∀ t, ∀ g ∈ s.frames t, (es.filterMap Event.unlocks).count g.active = 0) ∧
    ∀ a s' e, step ids s a = some (s', e) → Exact ids es s a s' e := by
  have hI := inv_of_exec h
  have hl := ledger_of_exec h
  refine ⟨fun m t u ht hu => ?_, fun m t p ht hp => ?_, hl.ended, fun t g hg =>
    hl.unlocks_eq_zero hg, fun a s' e hs => ?_⟩
  · exact Option.some.inj ((ht.holds hI).symm.trans (hu.holds hI))
  · have hok := hI t
    rw [ht] at hok
    exact hok.check_iff hp
  · have hm := step_move hs
    refine ⟨(hm.apart (hI _)).holder, fun t m he => hm.holds_of_passed hI he,
      fun t m r he => hm.not_holds_of_rejected hI he, fun t m r he => hm.holds_of_waited hI he,
      fun t g raised he => ?_⟩
    obtain ⟨rfl, ht, hheld, hfree, howner, hactive⟩ := hm.unlocks_of_ended hI he
    have hok := hI t
    rw [ht] at hok
    have hg : g ∈ s.frames t := List.mem_of_mem_head? hok.placed
    refine ⟨hheld, hfree, howner, ?_, ?_⟩
    · rw [hactive, ← Bool.not_eq_true, hl.active t g hg, ht]
      exact fun hn => hn rfl
    · rw [List.filterMap_append, List.count_append, hl.unlocks_eq_zero hg]
      change 0 + [g.active].count g.active = 1
      rw [List.count_singleton_self]

/-- The identifiers of two threads. -/
def twoIds : Ids (Fin 2) where
  id := fun t => if t = 0 then 7 else 9
  injective := by
    unfold Function.Injective
    decide
  ne_zero := by decide

/-- While thread 0 sleeps, `owner` and `locked` still name it, and the check rejects thread 1, which
then locks the mutex itself, notifies and returns. Thread 0 wakes up, raises, and gives the mutex
back. -/
theorem mutex_exclusion_two_threads :
    ∃ (es : List (Event Unit Unit (Fin 2))) (s s' : State Unit Unit (Fin 2))
        (e : List (Event Unit Unit (Fin 2))),
      Exec (step twoIds) Any State.init es s ∧ step twoIds s (.advance 0) = some (s', e) ∧
      es = [.began 0 ⟨(), 0⟩, .passed 0 (), .rejected 1 () (.error (.condvarOperationFailed (-1))),
        .began 1 ⟨(), 1⟩, .notified 1 () (.ok ()), .unlocked 1 ⟨(), 1⟩, .ended 1 ⟨(), 1⟩ false,
        .waited 0 () (.ok ())] ∧
      e = [.unlocked 0 ⟨(), 0⟩, .ended 0 ⟨(), 0⟩ true] ∧
      s'.holder () = none ∧ (s'.core ()).owner = 0 ∧ s'.active 0 = false := by
  obtain ⟨es, s, h, ht⟩ := Exec.exists_of_run (step twoIds) Any
    (State.init : State Unit Unit (Fin 2))
    [.withLock 0 (), .osLock 0 0, .advance 0, .advance 0, .wait 0 () (.guard 0), .advance 0,
      .advance 0, .osWait 0 0, .wait 1 () (.unchecked ()), .advance 1, .advance 1, .withLock 1 (),
      .osLock 1 0, .advance 1, .advance 1, .notify 1 () false 0 0 (some 0), .finish 1 false,
      .advance 1, .advance 1, .advance 1, .osWake 0, .advance 0, .advance 0, .finish 0 true,
      .advance 0, .advance 0]
    (fun s es => decide (es = [.began 0 ⟨(), 0⟩, .passed 0 (),
        .rejected 1 () (.error (.condvarOperationFailed (-1))), .began 1 ⟨(), 1⟩,
        .notified 1 () (.ok ()), .unlocked 1 ⟨(), 1⟩, .ended 1 ⟨(), 1⟩ false,
        .waited 0 () (.ok ())]) &&
      (step twoIds s (.advance 0)).any
        fun (r : State Unit Unit (Fin 2) × List (Event Unit Unit (Fin 2))) =>
          decide (r.2 = [.unlocked 0 ⟨(), 0⟩, .ended 0 ⟨(), 0⟩ true]))
    (by decide +kernel)
  obtain ⟨hes, hlast⟩ := Bool.and_eq_true_iff.1 ht
  obtain ⟨⟨s', e⟩, hs, he⟩ := Option.any_eq_true _ _ |>.1 hlast
  have he : e = _ := of_decide_eq_true he
  obtain ⟨-, -, -, -, hstep⟩ := mutex_exclusion h
  obtain ⟨-, hfree, howner, hactive, -⟩ := (hstep _ s' e hs).ended 0 ⟨(), 0⟩ true (by simp [he])
  exact ⟨es, s, s', e, h, hs, of_decide_eq_true hes, he, hfree, howner, hactive⟩

end NativeSync.Mutex
