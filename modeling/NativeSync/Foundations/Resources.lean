import Mathlib.Data.Finset.Basic

/-!
# Code that acquires resources

`Build` is a monad of code that acquires and releases resources and may abort the process; it keeps
a log of what was done. `replay` reads the log: it fails if a resource is acquired that is held, or
released that is not. `Build.Spec` is a triple on the resources held before and after, and it has a
rule for each construct.

`cascade` is the usual way to acquire several resources: one after the other, and if one cannot be
had, those that are held are given back, the last one first. `spec_cascade` says that it ends with
all or with nothing, and with the first failure.
-/

namespace NativeSync.Foundations

/-- What code does to a resource. -/
inductive Effect (R : Type)
  | acquire (r : R)
  | release (r : R)
  deriving DecidableEq

/-- The resources held after some effects, from `held` on. -/
def replay {R : Type} [DecidableEq R] (held : Finset R) : List (Effect R) → Option (Finset R)
  | [] => some held
  | .acquire r :: es => if r ∈ held then none else replay (insert r held) es
  | .release r :: es => if r ∈ held then replay (held.erase r) es else none

/-- Code on resources: it aborts the process, or returns a value and the log of what it did. -/
inductive Build (R α : Type)
  | aborts
  | returns (value : α) (log : List (Effect R))

namespace Build

variable {R α β γ : Type}

/-- The code after some effects. -/
def after (log : List (Effect R)) : Build R α → Build R α
  | aborts => aborts
  | returns a log' => returns a (log ++ log')

instance : Monad (Build R) where
  pure a := returns a []
  bind x f :=
    match x with
    | aborts => aborts
    | returns a log => (f a).after log

@[simp] theorem aborts_bind (f : α → Build R β) : (aborts >>= f : Build R β) = aborts := rfl

/-- Code aborts in its first part or in what comes after. -/
theorem bind_eq_aborts {x : Build R α} {f : α → Build R β} (h : x >>= f = aborts) :
    x = aborts ∨ ∃ a, f a = aborts := by
  cases x with
  | aborts => exact .inl rfl
  | returns a log =>
    change (f a).after log = aborts at h
    refine .inr ⟨a, ?_⟩
    cases hfa : f a with
    | aborts => rfl
    | returns b log' =>
      rw [hfa] at h
      cases h

theorem after_nil (x : Build R α) : x.after [] = x := by cases x <;> rfl

theorem after_bind (log : List (Effect R)) (x : Build R α) (f : α → Build R β) :
    x.after log >>= f = (x >>= f).after log := by
  cases x with
  | aborts => rfl
  | returns a log' =>
    change (f a).after (log ++ log') = ((f a).after log').after log
    cases f a with
    | aborts => rfl
    | returns b log'' => exact congrArg (returns b) (List.append_assoc ..)

theorem assoc (x : Build R α) (f : α → Build R β) (g : β → Build R γ) :
    x >>= f >>= g = x >>= fun a => f a >>= g := by
  cases x with
  | aborts => rfl
  | returns a log => exact after_bind log (f a) g

instance : LawfulMonad (Build R) :=
  LawfulMonad.mk' (Build R)
    (fun x => by
      cases x with
      | aborts => rfl
      | returns a log => exact congrArg (returns a) (List.append_nil log))
    (fun a f => after_nil (f a)) assoc

/-- Acquire a resource. -/
def acquire (r : R) : Build R Unit := returns () [.acquire r]

/-- Release a resource. -/
def release (r : R) : Build R Unit := returns () [.release r]

variable [DecidableEq R]

/-- If the code returns, it has done to the resources what it may do, and the result and the
resources that are held then meet `post`. -/
def Spec (held : Finset R) (x : Build R α) (post : α → Finset R → Prop) : Prop :=
  ∀ a log, x = returns a log → ∃ held', replay held log = some held' ∧ post a held'

variable {held : Finset R} {x y : Build R α} {f : α → Build R β} {mid post : α → Finset R → Prop}
  {post' : β → Finset R → Prop} {r : R} {a : α}

theorem replay_append (held : Finset R) (es es' : List (Effect R)) :
    replay held (es ++ es') = (replay held es).bind fun held' => replay held' es' := by
  induction es generalizing held with
  | nil => rfl
  | cons e es ih =>
    cases e with
    | acquire r =>
      simp only [List.cons_append, replay]
      split_ifs
      · rfl
      · exact ih _
    | release r =>
      simp only [List.cons_append, replay]
      split_ifs
      · exact ih _
      · rfl

namespace Spec

theorem pure (h : post a held) : Spec held (Pure.pure a) post := by
  rintro b es hb
  cases hb
  exact ⟨held, rfl, h⟩

theorem aborts : Spec held (Build.aborts : Build R α) post := nofun

theorem acquire (hr : r ∉ held) :
    Spec held (Build.acquire r) fun _ held' => held' = insert r held := by
  rintro b es hb
  cases hb
  exact ⟨_, if_neg hr, rfl⟩

theorem release (hr : r ∈ held) :
    Spec held (Build.release r) fun _ held' => held' = held.erase r := by
  rintro b es hb
  cases hb
  exact ⟨_, if_pos hr, rfl⟩

theorem bind (hx : Spec held x mid) (hf : ∀ a held', mid a held' → Spec held' (f a) post') :
    Spec held (x >>= f) post' := by
  intro b log hb
  cases x with
  | aborts => cases hb
  | returns a log₁ =>
    change (f a).after log₁ = _ at hb
    cases hfa : f a with
    | aborts =>
      rw [hfa] at hb
      cases hb
    | returns b' log₂ =>
      rw [hfa] at hb
      cases hb
      obtain ⟨held₁, hr₁, hm⟩ := hx a log₁ rfl
      obtain ⟨held₂, hr₂, hp⟩ := hf a held₁ hm b log₂ hfa
      refine ⟨held₂, ?_, hp⟩
      rw [replay_append, hr₁]
      exact hr₂

theorem ite {p : Prop} [Decidable p] (h₁ : p → Spec held x post) (h₂ : ¬p → Spec held y post) :
    Spec held (if p then x else y) post := by
  split_ifs with hp
  · exact h₁ hp
  · exact h₂ hp

end Spec

end Build

/-! ## Cascades -/

section Cascade

open Build

variable {R : Type}

/-- A stage of a constructor. -/
inductive Stage (R : Type)
  /-- Acquire `r`, or abort. -/
  | must (r : R) (ok : Bool)
  /-- Acquire `r`, or fail with `status`. -/
  | take (r : R) (status : ℤ)
  /-- Fail with `status`, unless it is zero. -/
  | check (status : ℤ)

namespace Stage

/-- The resource that a stage acquires. -/
def resource : Stage R → Option R
  | must r _ => some r
  | take r _ => some r
  | check _ => none

/-- The status with which a stage ends. -/
def status : Stage R → ℤ
  | must .. => 0
  | take _ status => status
  | check status => status

end Stage

/-- The first failure of some stages, or zero. -/
def firstFailure : List (Stage R) → ℤ
  | [] => 0
  | s :: stages => if s.status = 0 then firstFailure stages else s.status

/-- Give back resources. -/
def unwind (undo : R → Build R Unit) : List R → Build R Unit
  | [] => pure ()
  | r :: rs => do
    undo r
    unwind undo rs

/-- Acquire the resources of the stages, and give them all back if one cannot be had; `held` are
those that are held, the last one first. It returns whether it has all of them, and the status. -/
def cascade (undo : R → Build R Unit) : List (Stage R) → List R → Build R (Bool × ℤ)
  | [], _ => pure (true, 0)
  | .must r ok :: stages, held =>
    if ok = true then do
      acquire r
      cascade undo stages (r :: held)
    else aborts
  | .take r status :: stages, held =>
    if status = 0 then do
      acquire r
      cascade undo stages (r :: held)
    else do
      unwind undo held
      pure (false, status)
  | .check status :: stages, held =>
    if status = 0 then cascade undo stages held
    else do
      unwind undo held
      pure (false, status)

variable {undo : R → Build R Unit}

theorem unwind_aborts {held : List R} (h : unwind undo held = aborts) :
    ∃ r ∈ held, undo r = aborts := by
  induction held with
  | nil => cases h
  | cons r rs ih =>
    obtain hr | ⟨-, hrs⟩ := bind_eq_aborts h
    · exact ⟨r, List.mem_cons_self, hr⟩
    · obtain ⟨r', hr', hu⟩ := ih hrs
      exact ⟨r', List.mem_cons_of_mem r hr', hu⟩

/-- A cascade aborts only in a stage that has to succeed, or when a resource cannot be given
back. -/
theorem cascade_aborts {stages : List (Stage R)} {held : List R}
    (h : cascade undo stages held = aborts) : (∃ r, .must r false ∈ stages) ∨
      ∃ r ∈ held ++ stages.filterMap Stage.resource, undo r = aborts := by
  induction stages generalizing held with
  | nil => cases h
  | cons s stages ih =>
    have hfail : ∀ status : ℤ, (do unwind undo held; pure (false, status)) = aborts →
        ∃ r ∈ held ++ (s :: stages).filterMap Stage.resource, undo r = aborts := by
      intro status hu
      obtain hu | ⟨-, hu⟩ := bind_eq_aborts hu
      · obtain ⟨r, hr, hu⟩ := unwind_aborts hu
        exact ⟨r, List.mem_append_left _ hr, hu⟩
      · cases hu
    have hnext : ∀ r, s.resource = some r →
        (do acquire r; cascade undo stages (r :: held)) = aborts →
        (∃ r, .must r false ∈ s :: stages) ∨
          ∃ r ∈ held ++ (s :: stages).filterMap Stage.resource, undo r = aborts := by
      intro r hr hc
      obtain hc | ⟨-, hc⟩ := bind_eq_aborts hc
      · cases hc
      obtain ⟨r', hm⟩ | ⟨r', hr', hu⟩ := ih hc
      · exact .inl ⟨r', List.mem_cons_of_mem s hm⟩
      · refine .inr ⟨r', ?_, hu⟩
        rw [List.filterMap_cons, hr]
        exact List.perm_middle.mem_iff.2 hr'
    cases s with
    | must r ok =>
      cases ok with
      | false => exact .inl ⟨r, List.mem_cons_self⟩
      | true => exact hnext r rfl h
    | take r status =>
      by_cases hs : status = 0
      · exact hnext r rfl ((if_pos hs).symm.trans h)
      · exact .inr (hfail status ((if_neg hs).symm.trans h))
    | check status =>
      by_cases hs : status = 0
      · obtain ⟨r, hm⟩ | hu := ih ((if_pos hs).symm.trans h)
        · exact .inl ⟨r, List.mem_cons_of_mem _ hm⟩
        · exact .inr hu
      · exact .inr (hfail status ((if_neg hs).symm.trans h))

variable [DecidableEq R]

/-- The code gives back the resource that it is asked to. -/
def Undoes (undo : R → Build R Unit) : Prop :=
  ∀ r held, r ∈ held → Spec held (undo r) fun _ held' => held' = held.erase r

theorem spec_unwind (hundo : Undoes undo) (held : List R) (hn : held.Nodup) :
    Spec held.toFinset (unwind undo held) fun _ held' => held' = ∅ := by
  induction held with
  | nil => exact .pure rfl
  | cons r rs ih =>
    obtain ⟨hr, hrs⟩ := List.nodup_cons.1 hn
    refine .bind (hundo r _ (by simp)) ?_
    rintro - held' rfl
    rw [List.toFinset_cons, Finset.erase_insert (by simpa using hr)]
    exact ih hrs

/-- **A cascade ends with all or with nothing**: with the first failure, and if there is none with
the resources of all stages. -/
theorem spec_cascade (hundo : Undoes undo) (stages : List (Stage R)) (held : List R)
    (hn : (held ++ stages.filterMap Stage.resource).Nodup) :
    Spec held.toFinset (cascade undo stages held) fun result held' =>
      result = (decide (firstFailure stages = 0), firstFailure stages) ∧
        held' = if firstFailure stages = 0 then
          (held ++ stages.filterMap Stage.resource).toFinset else ∅ := by
  induction stages generalizing held with
  | nil => exact .pure ⟨rfl, by simp [firstFailure]⟩
  | cons s stages ih =>
    have hheld : held.Nodup := (List.nodup_append.1 hn).1
    have hfail : ∀ status : ℤ, status ≠ 0 → firstFailure (s :: stages) = status →
        Spec held.toFinset (do unwind undo held; pure (false, status)) fun result held' =>
          result = (decide (firstFailure (s :: stages) = 0), firstFailure (s :: stages)) ∧
            held' = if firstFailure (s :: stages) = 0 then
              (held ++ (s :: stages).filterMap Stage.resource).toFinset else ∅ := by
      intro status hs hfirst
      rw [hfirst, decide_eq_false hs, if_neg hs]
      refine .bind (spec_unwind hundo held hheld) ?_
      rintro - held' rfl
      exact .pure ⟨rfl, rfl⟩
    have hnext : ∀ r, s.resource = some r → s.status = 0 →
        Spec held.toFinset (do acquire r; cascade undo stages (r :: held)) fun result held' =>
          result = (decide (firstFailure (s :: stages) = 0), firstFailure (s :: stages)) ∧
            held' = if firstFailure (s :: stages) = 0 then
              (held ++ (s :: stages).filterMap Stage.resource).toFinset else ∅ := by
      intro r hr hs
      rw [List.filterMap_cons, hr] at hn ⊢
      have hperm : (held ++ r :: stages.filterMap Stage.resource).Perm
          (r :: held ++ stages.filterMap Stage.resource) := List.perm_middle
      have hn' := hperm.nodup_iff.1 hn
      have hfresh : r ∉ held := fun hm => (List.nodup_cons.1 hn').1 (List.mem_append_left _ hm)
      refine .bind (.acquire (by simpa using hfresh)) ?_
      rintro - held' rfl
      rw [← List.toFinset_cons, firstFailure, if_pos hs, List.toFinset_eq_of_perm _ _ hperm]
      exact ih (r :: held) hn'
    cases s with
    | must r ok => exact .ite (fun _ => hnext r rfl rfl) fun _ => .aborts
    | take r status =>
      exact .ite (fun hs => hnext r rfl hs) fun hs => hfail status hs (if_neg hs)
    | check status =>
      refine .ite (fun hs => ?_) fun hs => hfail status hs (if_neg hs)
      rw [firstFailure, if_pos (show (Stage.check status : Stage R).status = 0 from hs)]
      exact ih held hn

end Cascade

end NativeSync.Foundations
