import NativeSync.RwLock.System

/-!
# Reader-writer locks: what a step can do

`step_move` says once what every step of the system does. The steps that change nothing but where
the thread stands make up one move (`Quiet`).
-/

namespace NativeSync.RwLock

open Foundations

variable {L T ε V : Type}

/-- The steps that change nothing but where the thread stands. -/
inductive Quiet (s : State L T ε V) (t : T) :
    Point L ε V → Point L ε V → List (Event L T ε V) → Prop
  | call (c : Call L) (hh : c.handle.name ∈ s.handles c.lock) : Quiet s t .user (.takeLock c) []
  | take (c : Call L) (hn : s.next .lock = 0) : Quiet s t (.takeLock c) (.lock c) []
  | failed (c : Call L) (status : ℤ) (hst : status ≠ 0) :
      Quiet s t (.lock c) .user [.refused t c (failure status)]
  | finish (c : Call L) (fs : List (Call L)) (out : Except (Error ε) V)
      (hf : s.frames t = c :: fs) : Quiet s t .user (.unlock c out) []

variable [DecidableEq L] [DecidableEq T]

/-- The moves of the system by the action `a`. -/
inductive Move (a : Action L T ε V) (s : State L T ε V) : State L T ε V → List (Event L T ε V) → Prop
  | quiet (t : T) (p q : Point L ε V) (e : List (Event L T ε V)) (ht : s.threads t = p)
      (hq : Quiet s t p q e) : Move a s (s.move t q) e
  | armed (hook : Hook) (status : ℤ) : Move a s (s.setNext hook status) [.armed hook status]
  | notMade (l : L) (status : ℤ) (hst : status ≠ 0) :
      Move a s s [.created l (newResult status)]
  | unmade (l : L) (hn : s.next .init ≠ 0) :
      Move a s (s.setNext .init 0) [.initialized l, .fired .init (s.next .init), .destroyed l [],
        .created l (newResult (s.next .init))]
  | made (l : L) (hl : s.Unborn l) (hn : s.next .init = 0) :
      Move a s ((s.setHolders l []).setRefs l (some { refs := 1, initialized := true }) {0})
        [.initialized l, .created l (newResult 0)]
  | shared (h : Handle L) (name : ℕ) (core : Core) (hc : s.cores h.lock = some core)
      (hh : h.name ∈ s.handles h.lock) (hn : name ∉ s.handles h.lock) :
      Move a s (s.setRefs h.lock (some { core with refs := arcInc core.refs })
        (insert name (s.handles h.lock))) []
  | dropped (h : Handle L) (core : Core) (hc : s.cores h.lock = some core)
      (hh : h.name ∈ s.handles h.lock) (hu : s.Unused h) (hr : arcDec core.refs ≠ 0) :
      Move a s (s.setRefs h.lock (some { core with refs := arcDec core.refs })
        ((s.handles h.lock).erase h.name)) []
  | freed (h : Handle L) (destroy : ℤ) (core : Core) (hc : s.cores h.lock = some core)
      (hh : h.name ∈ s.handles h.lock) (hu : s.Unused h) (hr : arcDec core.refs = 0)
      (ha : a = .drop h destroy) :
      Move a s (s.setRefs h.lock none ((s.handles h.lock).erase h.name))
        (if core.initialized then [.destroyed h.lock (s.holders h.lock)] else [])
  | fired (t : T) (c : Call L) (ht : s.threads t = .takeLock c) (hn : s.next .lock ≠ 0) :
      Move a s ((s.setNext .lock 0).move t .user)
        [.fired .lock (s.next .lock), .refused t c (failure (s.next .lock))]
  | began (t : T) (c : Call L) (ht : s.threads t = .lock c) (hc : s.cores c.lock ≠ none)
      (hg : Grants (s.holders c.lock) c.mode) :
      Move a s (((s.setHolders c.lock ((t, c.mode) :: s.holders c.lock)).setFrames t
        (c :: s.frames t)).move t .user) [.began t c]
  | stuck (t : T) (c : Call L) (out : Except (Error ε) V) (status : ℤ)
      (ht : s.threads t = .unlock c out) (hst : status ≠ 0) (ha : a = .osUnlock t status) :
      Move a s ((s.setFrames t (s.frames t).tail).move t .user)
        [.ended t c out (deferred out status)]
  | released (t : T) (c : Call L) (out : Except (Error ε) V) (mode : Mode)
      (ht : s.threads t = .unlock c out) (hm : givenBack (s.holders c.lock) t = mode)
      (hh : (t, mode) ∈ s.holders c.lock) :
      Move a s ((s.setHolders c.lock ((s.holders c.lock).erase (t, mode))).move t
        (.takeUnlock c out)) [.released t c mode]
  | overruled (t : T) (c : Call L) (out : Except (Error ε) V) (ht : s.threads t = .takeUnlock c out)
      (hn : s.next .unlock ≠ 0) :
      Move a s (((s.setNext .unlock 0).setFrames t (s.frames t).tail).move t .user)
        [.fired .unlock (s.next .unlock), .ended t c out (deferred out (s.next .unlock))]
  | ended (t : T) (c : Call L) (out : Except (Error ε) V) (ht : s.threads t = .takeUnlock c out)
      (hn : s.next .unlock = 0) :
      Move a s ((s.setFrames t (s.frames t).tail).move t .user)
        [.ended t c out (deferred out 0)]

variable [Fintype T] {s s' : State L T ε V} {e : List (Event L T ε V)} {a : Action L T ε V}

/-- **Every step is a move.** -/
theorem step_move (hs : step s a = some (s', e)) : Move a s s' e := by
  cases a with
  | arm hook status =>
    cases hs
    exact .armed hook status
  | new l status destroy =>
    simp only [step] at hs
    split_ifs at hs with hl hst hn hd
    · cases hs
      exact .notMade l status hst
    · cases hs
      exact .unmade l hn
    · cases hs
      exact .made l hl (not_not.1 hn)
  | share h name =>
    simp only [step] at hs
    split at hs
    · rename_i core hc
      split_ifs at hs with hh
      cases hs
      exact .shared h name core hc hh.1 hh.2
    · cases hs
  | drop h destroy =>
    simp only [step] at hs
    split at hs
    · rename_i core hc
      split_ifs at hs with hh hr hi hd
      · cases hs
        have hm := Move.freed h destroy core hc hh.1 hh.2 hr rfl
        rwa [if_pos hi] at hm
      · cases hs
        have hm := Move.freed h destroy core hc hh.1 hh.2 hr rfl
        rwa [if_neg hi] at hm
      · cases hs
        exact .dropped h core hc hh.1 hh.2 hr
    · cases hs
  | call t h mode =>
    simp only [step] at hs
    split at hs
    · rename_i ht
      split_ifs at hs with hh
      cases hs
      exact .quiet t _ _ _ ht (.call ⟨h, mode⟩ hh)
    · cases hs
  | takeLock t =>
    simp only [step] at hs
    split at hs
    · rename_i c ht
      split_ifs at hs with hn
      · cases hs
        exact .fired t c ht hn
      · cases hs
        exact .quiet t _ _ _ ht (.take c (not_not.1 hn))
    · cases hs
  | osLock t status =>
    simp only [step] at hs
    split at hs
    · rename_i c ht
      split_ifs at hs with hc hst hg
      · cases hs
        exact .quiet t _ _ _ ht (.failed c status hst)
      · cases hs
        exact .began t c ht hc hg
    · cases hs
  | finish t out =>
    simp only [step] at hs
    split at hs
    · rename_i c fs ht hf
      cases hs
      exact .quiet t _ _ _ ht (.finish c fs out hf)
    · cases hs
  | osUnlock t status =>
    simp only [step] at hs
    split at hs
    · rename_i c out ht
      split_ifs at hs with hc hst hh
      · cases hs
        exact .stuck t c out status ht hst rfl
      · cases hs
        exact .released t c out _ ht rfl hh
    · cases hs
  | takeUnlock t =>
    simp only [step] at hs
    split at hs
    · rename_i c out ht
      split_ifs at hs with hn
      · cases hs
        exact .overruled t c out ht hn
      · cases hs
        exact .ended t c out ht (not_not.1 hn)
    · cases hs

end NativeSync.RwLock
