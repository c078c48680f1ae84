import NativeSync.RwLock.Exclusion

/-!
# Reader-writer locks: calls are scopes

What a thread shows is a history of scopes (`Scope`): a scope opens when a callback begins, gives its
lock back at most once, after the callback has ended, and closes innermost first. It ends with what
its callback returned or raised, unless an error of the operating system or of the test hook takes
its place; a call whose lock fails opens no scope. `rwlock_scopes` is the refinement.

The test hooks are cells that an atomic exchange empties. `rwlock_hooks` says that a status that was
put into a hook is delivered to at most one call, in the order in which they were put there, and
that no other status is delivered.
-/

namespace NativeSync.RwLock

open Foundations

variable {L T ε V : Type}

/-! ## Scopes -/

section Scopes

/-- The moves of a thread between scopes. A scope is a call and whether it has given its lock back;
the innermost one comes first. -/
inductive Scope : List (Call L × Bool) → Event L T ε V → List (Call L × Bool) → Prop
  | began (st : List (Call L × Bool)) (t : T) (c : Call L) :
      Scope st (.began t c) ((c, false) :: st)
  | refused (st : List (Call L × Bool)) (t : T) (c : Call L) (status : ℤ) (hst : status ≠ 0) :
      Scope st (.refused t c (failure status)) st
  | released (st : List (Call L × Bool)) (t : T) (c : Call L) :
      Scope ((c, false) :: st) (.released t c c.mode) ((c, true) :: st)
  | ended (st : List (Call L × Bool)) (t : T) (c : Call L) (out : Except (Error ε) V) :
      Scope ((c, true) :: st) (.ended t c out out) st
  | overruled (st : List (Call L × Bool)) (t : T) (c : Call L) (b : Bool)
      (out : Except (Error ε) V) (status : ℤ) (hst : status ≠ 0) :
      Scope ((c, b) :: st) (.ended t c out (failure status)) st

/-- The scopes of a thread with the calls `fs`. -/
def Point.scopes : Point L ε V → List (Call L) → List (Call L × Bool)
  | takeUnlock c _, fs => (c, true) :: fs.tail.map (·, false)
  | _, fs => fs.map (·, false)

/-- The scopes of a thread. -/
def State.scopes (s : State L T ε V) (t : T) : List (Call L × Bool) :=
  (s.threads t).scopes (s.frames t)

/-- The thread that shows an event of a call. -/
def Event.thread : Event L T ε V → Option T
  | began t _ => some t
  | refused t .. => some t
  | released t .. => some t
  | ended t .. => some t
  | _ => none

theorem deferred_zero (out : Except (Error ε) V) : deferred out 0 = out := if_neg (not_not.2 rfl)

theorem deferred_of_ne {status : ℤ} (out : Except (Error ε) V) (h : status ≠ 0) :
    deferred out status = failure status := if_pos h

variable [DecidableEq T]

/-- What thread `t` shows. -/
def Event.of (t : T) (e : Event L T ε V) : Option (Event L T ε V) :=
  if e.thread = some t then some e else none

variable {s s' : State L T ε V} {t u : T} {c : Call L}

theorem State.scopes_of_update {x : Point L ε V} {fs : List (Call L)}
    (ht : s'.threads = Function.update s.threads t x)
    (hf : s'.frames = Function.update s.frames t fs) (u : T) :
    s'.scopes u = if u = t then x.scopes fs else s.scopes u := by
  unfold State.scopes
  rw [ht, hf]
  split_ifs with hu
  · rw [hu, Function.update_self, Function.update_self]
  · rw [Function.update_of_ne hu, Function.update_of_ne hu]

/-- **The step rule**: a thread moves from its scopes to others by an event of its own, and the
other threads stay where they are. -/
theorem history_of_update {x : Point L ε V} {fs : List (Call L)} {e : List (Event L T ε V)}
    (u : T) (ht : s'.threads = Function.update s.threads t x)
    (hf : s'.frames = Function.update s.frames t fs)
    (hself : History Scope (s.scopes t) (e.filterMap (Event.of t)) (x.scopes fs))
    (hother : ∀ u, u ≠ t → e.filterMap (Event.of u) = []) :
    History Scope (s.scopes u) (e.filterMap (Event.of u)) (s'.scopes u) := by
  rw [State.scopes_of_update ht hf]
  split_ifs with hu
  · rwa [hu]
  · rw [hother u hu]
    exact .nil

theorem Event.of_eq_none {e : Event L T ε V} (he : e.thread ≠ some u) : e.of u = none := if_neg he

theorem Event.of_eq_some {e : Event L T ε V} (he : e.thread = some u) : e.of u = some e := if_pos he

/-- A step that shows one event of a thread. -/
theorem history_of_event {x : Point L ε V} {fs : List (Call L)} {e : Event L T ε V} (u : T)
    (he : e.thread = some t) (ht : s'.threads = Function.update s.threads t x)
    (hf : s'.frames = Function.update s.frames t fs) (hself : Scope (s.scopes t) e (x.scopes fs)) :
    History Scope (s.scopes u) ([e].filterMap (Event.of u)) (s'.scopes u) := by
  refine history_of_update u ht hf ?_ fun u hu => ?_
  · rw [List.filterMap_cons_some (Event.of_eq_some he)]
    exact .single hself
  · have hne : e.thread ≠ some u := by
      rw [he]
      exact fun h => hu (Option.some.inj h).symm
    rw [List.filterMap_cons_none (Event.of_eq_none hne)]
    rfl

variable [DecidableEq L] {e : List (Event L T ε V)} {a : Action L T ε V}

/-- The scopes of a thread that stands before its unlock. -/
theorem Inv.scopes_unlock {out : Except (Error ε) V} (h : Inv s)
    (ht : s.threads t = .unlock c out) :
    s.scopes t = (c, false) :: (s.frames t).tail.map (·, false) := by
  obtain ⟨hf, -⟩ := h.unlock_inside ht
  rw [State.scopes, ht]
  change (s.frames t).map _ = _
  nth_rewrite 1 [hf]
  rfl

/-- **A move is a move between scopes**, for every thread. -/
theorem Move.scopes (hm : Move a s s' e) (h : Inv s) (u : T) :
    History Scope (s.scopes u) (e.filterMap (Event.of u)) (s'.scopes u) := by
  have hself : ∀ t : T, s.frames = Function.update s.frames t (s.frames t) := fun t =>
    (Function.update_eq_self t s.frames).symm
  have hat : ∀ {t p}, s.threads t = p → s.scopes t = p.scopes (s.frames t) := fun ht => by
    rw [State.scopes, ht]
  cases hm with
  | quiet t p q e ht hq =>
    have hold := hat ht
    cases hq with
    | failed c status hst =>
      refine history_of_event (x := .user) u rfl rfl (by exact hself t) ?_
      rw [hold]
      exact .refused _ t c status hst
    | _ =>
      refine history_of_update u rfl (by exact hself t) ?_ fun _ _ => rfl
      rw [hold]
      exact .nil
  | armed | notMade | unmade | made | shared | dropped => exact .nil
  | freed k destroy core hc hh hu hr ha => split_ifs <;> exact .nil
  | fired t c ht hn =>
    rw [List.filterMap_cons_none (Event.of_eq_none (by exact nofun))]
    refine history_of_event (x := .user) u rfl rfl (by exact hself t) ?_
    rw [hat ht]
    exact .refused _ t c _ hn
  | began t c ht hc hg =>
    refine history_of_event (x := .user) u rfl rfl rfl ?_
    rw [hat ht]
    exact .began _ t c
  | stuck t c out status ht hst ha =>
    refine history_of_event (x := .user) u rfl rfl rfl ?_
    rw [h.scopes_unlock ht, deferred_of_ne out hst]
    exact .overruled _ t c false out status hst
  | released t c out mode ht hm hh =>
    obtain rfl : c.mode = mode := (h.givenBack_eq ht).symm.trans hm
    refine history_of_event (x := .takeUnlock c out) u rfl rfl (by exact hself t) ?_
    rw [h.scopes_unlock ht]
    exact .released _ t c
  | overruled t c out ht hn =>
    rw [List.filterMap_cons_none (Event.of_eq_none (by exact nofun))]
    refine history_of_event (x := .user) u rfl rfl rfl ?_
    rw [hat ht, deferred_of_ne out hn]
    exact .overruled _ t c true out _ hn
  | ended t c out ht hn =>
    refine history_of_event (x := .user) u rfl rfl rfl ?_
    rw [hat ht, deferred_zero]
    exact .ended _ t c out

variable [Fintype T] {es : List (Event L T ε V)}

end Scopes

/-! ## Hooks -/

/-- The statuses that are put into a hook. -/
def Event.armedAt (hook : Hook) : Event L T ε V → Option ℤ
  | armed hook' status => if hook' = hook then some status else none
  | _ => none

/-- The statuses that a hook delivers. -/
def Event.firedAt (hook : Hook) : Event L T ε V → Option ℤ
  | fired hook' status => if hook' = hook then some status else none
  | _ => none

/-- The status that waits in a hook. -/
def State.pending (s : State L T ε V) (hook : Hook) : List ℤ :=
  if s.next hook = 0 then [] else [s.next hook]

variable {s s' : State L T ε V} {e es : List (Event L T ε V)} {a : Action L T ε V} {k : Hook}

theorem pending_setNext (s : State L T ε V) (k k' : Hook) (status : ℤ) :
    (s.setNext k status).pending k' =
      if k' = k then (if status = 0 then [] else [status]) else s.pending k' := by
  unfold State.pending State.setNext
  split_ifs with hk <;> simp_all [Function.update_of_ne]

/-- A step that takes the status of a hook delivers it. -/
theorem pending_take (hn : s.next k ≠ 0) (k' : Hook) :
    (if k = k' then [s.next k] else []) ++ (s.setNext k 0).pending k' = s.pending k' := by
  rw [pending_setNext]
  by_cases hk : k' = k
  · subst hk
    simp [State.pending, hn]
  · rw [if_neg hk, if_neg (Ne.symm hk), List.nil_append]

theorem filterMap_firedAt (k k' : Hook) (status : ℤ) :
    [(Event.fired k status : Event L T ε V)].filterMap (Event.firedAt k') =
      if k = k' then [status] else [] := by
  by_cases hk : k = k' <;> simp [Event.firedAt, hk]

variable [DecidableEq L] [DecidableEq T]

/-- **What a step delivers was waiting**, and what waits after it was waiting or has just been put
there. -/
theorem Move.hooks (hm : Move a s s' e) (k : Hook) :
    (e.filterMap (Event.firedAt k) ++ s'.pending k).Sublist
      (s.pending k ++ e.filterMap (Event.armedAt k)) := by
  have hquiet : (s.pending k).Sublist (s.pending k ++ []) := by rw [List.append_nil]
  have htake : ∀ {k'}, s.next k' ≠ 0 →
      ([(.fired k' (s.next k') : Event L T ε V)].filterMap (Event.firedAt k) ++
        (s.setNext k' 0).pending k).Sublist (s.pending k ++ []) := by
    intro k' hn
    rw [filterMap_firedAt, pending_take hn, List.append_nil]
  cases hm with
  | quiet t p q e ht hq => cases hq <;> exact hquiet
  | armed k' status =>
    change ((s.setNext k' status).pending k).Sublist _
    rw [pending_setNext]
    by_cases hk : k = k'
    · subst hk
      rw [if_pos rfl]
      refine List.Sublist.trans ?_ (List.sublist_append_right _ _)
      simp only [List.filterMap_cons, Event.armedAt, if_pos, List.filterMap_nil]
      split_ifs
      · exact List.nil_sublist _
      · exact List.Sublist.refl _
    · rw [if_neg hk]
      exact List.sublist_append_left _ _
  | freed h destroy core hc hh hu hr ha => split_ifs <;> exact hquiet
  | unmade l hn => exact htake hn
  | fired t c ht hn => exact htake hn
  | overruled t c out ht hn => exact htake hn
  | _ => exact hquiet

variable [Fintype T]

/-- **A hook delivers what was put into it**: in every run the statuses that it delivers, followed by
the one that waits in it, are some of those that were put into it, in the same order. So none is
delivered twice and none is made up. -/
theorem rwlock_hooks (h : Exec step AnyStatus State.init es s) (k : Hook) :
    (es.filterMap (Event.firedAt k) ++ s.pending k).Sublist (es.filterMap (Event.armedAt k)) := by
  refine h.invariant (I := fun es s => (es.filterMap (Event.firedAt k) ++ s.pending k).Sublist
    (es.filterMap (Event.armedAt k))) (List.Sublist.refl _) ?_
  intro es s a s' e hI hs _
  rw [List.filterMap_append, List.filterMap_append, List.append_assoc]
  calc (es.filterMap (Event.firedAt k) ++ (e.filterMap (Event.firedAt k) ++ s'.pending k)).Sublist
        (es.filterMap (Event.firedAt k) ++ (s.pending k ++ e.filterMap (Event.armedAt k))) :=
      ((step_move hs).hooks k).append_left _
    _ = (es.filterMap (Event.firedAt k) ++ s.pending k) ++ e.filterMap (Event.armedAt k) :=
      (List.append_assoc ..).symm
    List.Sublist _ _ := hI.append_right _

end NativeSync.RwLock
