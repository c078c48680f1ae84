import NativeSync.Thread.Moves

/-!
# Threads: the invariant

The invariant says what each part of the core stands for.

* The state of the handle says which operation has claimed it: as many callers are inside a join as
  the state is `joining`, that is one or none, and so for detach.
* The task is there from the start of the thread until the handle is joined, or until it is detached
  and the worker has finished, whichever comes last; the outcome is there from the moment it was
  stored until the handle is joined.
* The references are those of the handle and of the worker; the spawning thread holds the one of the
  worker as long as that does not exist.
-/

namespace NativeSync.Thread

open Foundations

variable {α T : Type}

/-! ## Kinds of program points -/

namespace SpawnPoint

/-- The worker was created. -/
def created : SpawnPoint → Bool
  | publish => true
  | done status => decide (status = 0)
  | _ => false

/-- The spawning thread holds the reference meant for the worker. -/
def holdsRef : SpawnPoint → Bool
  | create => true
  | fail _ => true
  | release _ => true
  | _ => false

/-- The status with which the creation of the worker failed. -/
def failure : SpawnPoint → Option ℤ
  | fail status => some status
  | release status => some status
  | _ => none

end SpawnPoint

namespace WorkerPoint

def isAbsent : WorkerPoint α → Bool
  | absent => true
  | _ => false

/-- The worker is in the call of its task. -/
def inCall : WorkerPoint α → Bool
  | running => true
  | completing _ => true
  | returning _ => true
  | _ => false

/-- The worker has been through its last section. -/
def hasFinished : WorkerPoint α → Bool
  | release .. => true
  | leave _ => true
  | exited _ => true
  | _ => false

def isExited : WorkerPoint α → Bool
  | exited _ => true
  | _ => false

/-- The outcome that the worker has stored. -/
def outcome : WorkerPoint α → Option (Outcome α)
  | returning o => some o
  | finish o => some o
  | release _ o => some o
  | leave o => some o
  | exited o => some o
  | _ => none

/-- The worker has taken the task and not yet given it up. -/
def holdsTask : WorkerPoint α → Bool
  | release task _ => task
  | _ => false

def holdsRef : WorkerPoint α → Bool
  | absent => false
  | exited _ => false
  | _ => true

/-- How many steps the worker has before it has exited. -/
def left : WorkerPoint α → ℕ
  | absent => 0
  | begin => 7
  | running => 6
  | completing _ => 5
  | returning _ => 4
  | finish _ => 3
  | release .. => 2
  | leave _ => 1
  | exited _ => 0

theorem eq_absent {w : WorkerPoint α} (h : w.isAbsent = true) : w = .absent := by
  cases w <;> first | rfl | cases h

theorem eq_exited {w : WorkerPoint α} (ha : w.isAbsent = false) (hr : w.holdsRef = false) :
    ∃ o, w = .exited o := by
  cases w with
  | absent => cases ha
  | exited o => exact ⟨o, rfl⟩
  | _ => cases hr

theorem isExited_iff {w : WorkerPoint α} : w.isExited = true ↔ ∃ o, w = .exited o := by
  cases w <;> simp [isExited]

end WorkerPoint

theorem Op.busy_inj {op op' : Op} : op.busy = op'.busy ↔ op = op' := by
  cases op <;> cases op' <;> decide

/-- The state of a handle after an operation has closed it. -/
def Op.closed : Op → ThreadState
  | join => .joined
  | detach => .detached

namespace Point

/-- The caller has claimed the handle for `op`. -/
def active (op : Op) : Point α → Bool
  | claimed op' => decide (op' = op)
  | success op' => decide (op' = op)
  | failure op' _ => decide (op' = op)
  | _ => false

/-- The caller has taken the task and not yet given it up. -/
def holdsTask : Point α → Bool
  | ending _ task _ => task
  | _ => false

end Point

/-- The task is there. -/
def taskThere (spawner : SpawnPoint) (state : ThreadState) (finished : Bool) : Bool :=
  (decide (spawner = .create) || spawner.created) &&
    !(decide (state = .joined) || decide (state = .detached) && finished)

/-- The states of a handle, by the progress of the spawning thread. -/
def StateOk : SpawnPoint → ThreadState → Bool → Prop
  | .release _, state, started => state = .failed ∧ started = false
  | .done status, state, started =>
    if status = 0 then started = true ∧ state ≠ .created ∧ state ≠ .failed
    else state = .failed ∧ started = false
  | _, state, started => state = .created ∧ started = false

/-- Somebody holds the reference of the worker. -/
def State.workerRef (s : State α T) : Bool := s.spawner.holdsRef || s.worker.holdsRef

variable [Fintype T]

/-- The invariant. -/
structure Inv (s : State α T) : Prop where
  state : StateOk s.spawner s.core.state s.core.started
  failing : ∀ status ∈ s.spawner.failure, status ≠ 0
  absent : s.worker.isAbsent = !s.spawner.created
  finished : s.core.finished = s.worker.hasFinished
  result : s.core.result = if s.core.state = .joined then none else s.worker.outcome
  task : s.core.task = taskThere s.spawner s.core.state s.core.finished
  joined : s.core.state = .joined → s.worker.isExited = true
  busy : ∀ c, s.callers c ≠ .idle → s.spawner = .done 0 ∧ s.handle = true
  own : s.callers none ≠ .idle → s.worker = .running
  active : ∀ op, num (Point.active op) s.callers = (decide (s.core.state = op.busy)).toNat
  success : ∀ c, s.callers c = .success .join → s.worker.isExited = true
  ending : ∀ c op task r, s.callers c = .ending op task r → s.core.state = op.closed ∧
    r = if op = .join then s.worker.outcome else none
  dropped : s.handle = false → s.core.state.terminal = true ∧ s.spawner.isDone = true
  refs : s.core.refs = (s.handle.toNat + s.workerRef.toNat : ℕ)
  freed : s.freed = true ↔ s.handle = false ∧ s.workerRef = false

variable {s s' : State α T} {e : List (Event α T)} {c : Option T} {p : Point α} {core : Core α}

namespace Inv

/-- A caller that has claimed the handle shows its state. -/
theorem state_of_active (h : Inv s) (op : Op) (hc : (s.callers c).active op = true) :
    s.core.state = op.busy := by
  have hpos := num_pos.2 ⟨c, hc⟩
  rw [h.active] at hpos
  by_contra hne
  rw [decide_eq_false hne] at hpos
  exact lt_irrefl _ hpos

theorem refs_eq_zero (h : Inv s) : s.core.refs = 0 ↔ s.handle = false ∧ s.workerRef = false := by
  rw [h.refs]
  cases s.handle <;> cases s.workerRef <;> simp

variable [DecidableEq T]

/-- **The step rule of the callers**: caller `c` moves to `p` and changes the core, but neither its
flags nor its references. -/
theorem caller (h : Inv s) (hs : s.spawner = .done 0) (hh : s.handle = true)
    (hrefs : core.refs = s.core.refs) (hstarted : core.started = s.core.started)
    (hfinished : core.finished = s.core.finished)
    (hstate : core.state ≠ .created ∧ core.state ≠ .failed)
    (hclosed : ∀ op : Op, s.core.state = op.closed → core.state = op.closed)
    (hresult : core.result = if core.state = .joined then none else s.worker.outcome)
    (htask : core.task = taskThere s.spawner core.state core.finished)
    (hjoined : core.state = .joined → s.worker.isExited = true)
    (hown : c = none → p ≠ .idle → s.worker = .running)
    (hactive : ∀ op, num (Point.active op) (Function.update s.callers c p) =
      (decide (core.state = op.busy)).toNat)
    (hsuccess : p = .success .join → s.worker.isExited = true)
    (hending : ∀ op task r, p = .ending op task r → core.state = op.closed ∧
      r = if op = .join then s.worker.outcome else none) :
    Inv { s with core, callers := Function.update s.callers c p } where
  state := by
    have hst := h.state
    rw [hs] at hst ⊢
    have hd : s.core.started = true := (by simpa [StateOk] using hst : _ ∧ _ ∧ _).1
    exact ⟨hstarted.trans hd, hstate⟩
  failing := h.failing
  absent := h.absent
  finished := hfinished.trans h.finished
  result := hresult
  task := htask
  joined := hjoined
  busy := fun _ _ => ⟨hs, hh⟩
  own := by
    intro hne
    by_cases hc : c = none
    · subst hc
      exact hown rfl (by simpa using hne)
    · have : Function.update s.callers c p none = s.callers none :=
        Function.update_of_ne (Ne.symm hc) _ _
      exact h.own (by simpa [this] using hne)
  active := hactive
  success := forall_update (Q := fun _ (x : Point α) => x = .success .join → _) hsuccess fun u _ =>
    h.success u
  ending := forall_update
    (Q := fun _ (x : Point α) => ∀ op task r, x = .ending op task r → core.state = op.closed ∧
      r = if op = .join then s.worker.outcome else none) hending fun u _ op task r hu =>
      ⟨hclosed op (h.ending u op task r hu).1, (h.ending u op task r hu).2⟩
  dropped := fun hd => absurd (hh.symm.trans hd) nofun
  refs := hrefs.trans h.refs
  freed := h.freed

/-- The step rule for a caller that leaves the core alone. -/
theorem caller_same (h : Inv s) (hs : s.spawner = .done 0) (hh : s.handle = true)
    (hown : c = none → p ≠ .idle → s.worker = .running)
    (hactive : ∀ op, p.active op = (s.callers c).active op)
    (hsuccess : p = .success .join → s.worker.isExited = true)
    (hending : ∀ op task r, p = .ending op task r → s.core.state = op.closed ∧
      r = if op = .join then s.worker.outcome else none) : Inv (s.move c p) := by
  have hst := h.state
  rw [hs] at hst
  exact h.caller hs hh rfl rfl rfl (by simpa [StateOk] using hst : _ ∧ _ ∧ _).2 (fun _ hc => hc)
    h.result h.task h.joined hown (fun op => (num_update_same (hactive op)).trans (h.active op))
    hsuccess hending

omit [DecidableEq T] in
theorem state_of_done (h : Inv s) (hs : s.spawner = .done 0) :
    s.core.started = true ∧ s.core.state ≠ .created ∧ s.core.state ≠ .failed := by
  have hst := h.state
  rw [hs] at hst
  simpa [StateOk] using hst

omit [DecidableEq T] in
theorem created_of_worker (h : Inv s) (hw : s.worker.isAbsent = false) :
    s.spawner.created = true := by
  have ha := h.absent
  rw [hw] at ha
  cases hc : s.spawner.created
  · rw [hc] at ha
    cases ha
  · rfl

/-- The counts of the callers after the end of a claim. -/
theorem active_end (h : Inv s) (op : Op) (hc : (s.callers c).active op = true)
    (hne : ∀ op', op' ≠ op → (s.callers c).active op' = false)
    (hp : ∀ op', p.active op' = false) (hstate : ∀ op' : Op, core.state ≠ op'.busy) (op' : Op) :
    num (Point.active op') (Function.update s.callers c p) =
      (decide (core.state = op'.busy)).toNat := by
  have hn := num_update (Point.active op') s.callers c p
  have ha := h.active op'
  have hbusy := h.state_of_active op hc
  rw [decide_eq_false (hstate op')]
  rw [hp op'] at hn
  by_cases ho : op' = op
  · subst ho
    rw [hc] at hn
    rw [hbusy, decide_eq_true rfl] at ha
    simp only [Bool.toNat_true, Bool.toNat_false] at hn ha ⊢
    omega
  · rw [hne op' ho] at hn
    rw [hbusy, decide_eq_false fun he => ho (Op.busy_inj.1 he).symm] at ha
    simp only [Bool.toNat_false] at hn ha ⊢
    omega

omit [DecidableEq T]

theorem handle_of_not_done (h : Inv s) (hs : s.spawner.isDone = false) : s.handle = true := by
  by_contra hh
  rw [(h.dropped (Bool.eq_false_of_not_eq_true hh)).2] at hs
  cases hs

theorem not_freed (h : Inv s) (hh : s.handle = true) : s.freed = false := by
  rw [← Bool.not_eq_true, h.freed, hh]
  exact fun hf => by cases hf.1

/-- Before the worker exists the spawner is alone with the core. -/
theorem unborn {sp : SpawnPoint} (h : Inv s) (hsp : s.spawner = sp) (hs : sp.isDone = false)
    (hc : sp.created = false) : StateOk sp s.core.state s.core.started ∧ s.worker = .absent ∧
      s.handle = true ∧ s.freed = false ∧ s.core.result = none ∧ s.core.finished = false ∧
      s.core.refs = (1 + sp.holdsRef.toNat : ℕ) := by
  have hst := h.state
  have ha := h.absent
  have hh := h.handle_of_not_done (by rw [hsp]; exact hs)
  rw [hsp] at hst ha
  rw [hc] at ha
  have hw := WorkerPoint.eq_absent ha
  have hj : s.core.state ≠ .joined := by
    cases sp with
    | done status => cases hs
    | _ => exact ne_of_eq_of_ne hst.1 nofun
  have hr := h.result
  have hf := h.finished
  have href := h.refs
  rw [if_neg hj, hw] at hr
  rw [hw] at hf
  rw [hh, State.workerRef, hsp, hw, WorkerPoint.holdsRef, Bool.or_false] at href
  exact ⟨hst, hw, hh, h.not_freed hh, hr, hf, href⟩

theorem holdsRef_of_created {sp : SpawnPoint} (hs : sp.created = true) : sp.holdsRef = false := by
  cases sp <;> first | rfl | cases hs

section Worker

variable {w : WorkerPoint α}

theorem not_joined (h : Inv s) (hx : s.worker.isExited = false) : s.core.state ≠ .joined :=
  fun hj => by
    rw [h.joined hj] at hx
    cases hx

/-- The outcome is still there when the worker moves from one point to another with it. -/
theorem result_of_worker (h : Inv s) (hx : s.worker.isExited = false)
    (hw : w.outcome = s.worker.outcome) : s.core.result = w.outcome := by
  rw [h.result, if_neg (h.not_joined hx), hw]

theorem workerRef_of_worker (h : Inv s) (ha : s.worker.isAbsent = false) :
    s.workerRef = s.worker.holdsRef := by
  rw [State.workerRef, holdsRef_of_created (h.created_of_worker ha), Bool.false_or]

theorem refs_of_worker (h : Inv s) (ha : s.worker.isAbsent = false)
    (hw : w.holdsRef = s.worker.holdsRef) :
    s.core.refs = (s.handle.toNat + w.holdsRef.toNat : ℕ) := by
  rw [h.refs, h.workerRef_of_worker ha, hw]

theorem freed_of_worker (h : Inv s) (ha : s.worker.isAbsent = false)
    (hw : w.holdsRef = s.worker.holdsRef) :
    s.freed = true ↔ s.handle = false ∧ w.holdsRef = false := by
  rw [h.freed, h.workerRef_of_worker ha, hw]

end Worker

/-- **The step rule of the worker**, which changes neither the state of the handle nor the
callers. -/
theorem work {w : WorkerPoint α} {freed : Bool} (h : Inv s) (hw : s.worker.isAbsent = false)
    (hx : s.worker.isExited = false) (hw' : w.isAbsent = false)
    (hstate : core.state = s.core.state) (hstarted : core.started = s.core.started)
    (hfinished : core.finished = w.hasFinished) (hresult : core.result = w.outcome)
    (htask : core.task = taskThere s.spawner core.state core.finished)
    (hown : s.callers none ≠ .idle → w = .running)
    (hrefs : core.refs = (s.handle.toNat + w.holdsRef.toNat : ℕ))
    (hfreed : freed = true ↔ s.handle = false ∧ w.holdsRef = false) :
    Inv { s with core, worker := w, freed } := by
  have hnj := h.not_joined hx
  have hcr := h.created_of_worker hw
  have href : State.workerRef { s with core, worker := w, freed } = w.holdsRef := by
    change (s.spawner.holdsRef || w.holdsRef) = _
    rw [holdsRef_of_created hcr, Bool.false_or]
  refine
    { state := by rw [hstate, hstarted]; exact h.state
      failing := h.failing
      absent := by rw [hcr]; exact hw'
      finished := hfinished
      result := by rw [if_neg (by rw [hstate]; exact hnj)]; exact hresult
      task := htask
      joined := fun hj => absurd (hstate.symm.trans hj) hnj
      busy := h.busy
      own := hown
      active := by rw [hstate]; exact h.active
      success := fun c hc => ?_
      ending := fun c op task r hc => ?_
      dropped := by rw [hstate]; exact h.dropped
      refs := by rw [href]; exact hrefs
      freed := by rw [href]; exact hfreed }
  · rw [h.success c hc] at hx
    cases hx
  · obtain ⟨hcl, hr⟩ := h.ending c op task r hc
    cases op with
    | join => exact absurd hcl hnj
    | detach => exact ⟨hstate.trans hcl, hr⟩

/-- The step rule of the worker for a step that leaves the core alone. -/
theorem work_same {w : WorkerPoint α} (h : Inv s) (hw : s.worker.isAbsent = false)
    (hx : s.worker.isExited = false) (hw' : w.isAbsent = false)
    (hfin : w.hasFinished = s.worker.hasFinished) (hout : w.outcome = s.worker.outcome)
    (href : w.holdsRef = s.worker.holdsRef)
    (hown : s.callers none ≠ .idle → w = .running) : Inv { s with worker := w } :=
  h.work hw hx hw' rfl rfl (h.finished.trans hfin.symm) (h.result_of_worker hx hout) h.task hown
    (h.refs_of_worker hw href) (h.freed_of_worker hw href)

/-- A reference is given up: the core is freed when it was the last one. -/
theorem refs_release (h : Inv s) {n : ℕ} (hn : n + 1 = s.handle.toNat + s.workerRef.toNat) :
    s.core.release.refs = n ∧
      ((s.freed || decide (s.core.release.refs = 0)) = true ↔ n = 0) := by
  have hle₁ := Bool.toNat_le s.handle
  have hle₂ := Bool.toNat_le s.workerRef
  have hrefs : s.core.release.refs = n := by
    change wrap32 (s.core.refs - 1) = n
    rw [h.refs, ← hn, wrap32_of_mem (by omega) (by omega)]
    omega
  have hnf : s.freed = false := by
    rw [← Bool.not_eq_true, h.freed]
    rintro ⟨h₁, h₂⟩
    rw [h₁, h₂] at hn
    exact absurd hn (Nat.succ_ne_zero n)
  refine ⟨hrefs, ?_⟩
  rw [hnf, Bool.false_or, decide_eq_true_eq, hrefs, Nat.cast_eq_zero]

/-- **The step rule of the spawning thread**, before anybody else can use the handle. -/
theorem spawn {sp : SpawnPoint} {w : WorkerPoint α} {freed : Bool} (h : Inv s)
    (hs : s.spawner.isDone = false) (hstate : StateOk sp core.state core.started)
    (hfailing : ∀ status ∈ sp.failure, status ≠ 0)
    (habsent : w.isAbsent = !sp.created) (hfinished : core.finished = w.hasFinished)
    (hresult : core.result = w.outcome) (hnj : core.state ≠ .joined)
    (hnb : ∀ op : Op, core.state ≠ op.busy)
    (htask : core.task = taskThere sp core.state core.finished)
    (hrefs : core.refs = (1 + (sp.holdsRef || w.holdsRef).toNat : ℕ)) (hfreed : freed = false) :
    Inv { s with core, spawner := sp, worker := w, freed } := by
  have hidle : ∀ c, s.callers c = .idle := by
    intro c
    by_contra hc
    rw [(h.busy c hc).1] at hs
    cases hs
  have hh := h.handle_of_not_done hs
  refine
    { state := hstate
      failing := hfailing
      absent := habsent
      finished := hfinished
      result := by rw [if_neg hnj]; exact hresult
      task := htask
      joined := fun hj => absurd hj hnj
      busy := fun c hc => absurd (hidle c) hc
      own := fun hc => absurd (hidle none) hc
      active := fun op => ?_
      success := fun c hc => by cases (hidle c).symm.trans hc
      ending := fun c op task r hc => by cases (hidle c).symm.trans hc
      dropped := fun hd => by cases hh.symm.trans hd
      refs := by rw [show State.handle _ = true from hh]; exact hrefs
      freed := by rw [hfreed, show State.handle _ = true from hh]; simp }
  rw [decide_eq_false (hnb op)]
  exact num_eq_zero.2 fun c => by rw [show State.callers _ c = _ from hidle c]; rfl

end Inv

variable [DecidableEq T]

/-- **A move keeps the invariant.** -/
theorem Move.inv (hm : Move s s' e) (h : Inv s) : Inv s' := by
  cases hm with
  | osFailed c op status hc hst =>
    have hb := h.busy c (by rw [hc]; exact nofun)
    refine h.caller_same hb.1 hb.2 (fun hn _ => ?_) (fun _ => by rw [hc]; rfl) nofun nofun
    subst hn
    exact h.own (by rw [hc]; exact nofun)
  | osDone c op hc hw =>
    have hb := h.busy c (by rw [hc]; exact nofun)
    refine h.caller_same hb.1 hb.2 (fun hn _ => ?_) (fun _ => by rw [hc]; rfl) ?_ nofun
    · subst hn
      exact h.own (by rw [hc]; exact nofun)
    · rintro ⟨⟩
      exact WorkerPoint.isExited_iff.2 (hw rfl)
  | closed c op task result hc =>
    have hb := h.busy c (by rw [hc]; exact nofun)
    exact h.caller_same hb.1 hb.2 (fun _ hne => absurd rfl hne) (fun _ => by rw [hc]; rfl)
      nofun nofun
  | refused c op status hc hst hpos => exact h
  | asked c result status => exact h
  | claimed c op p hc hop hstate hp =>
    obtain ⟨hs, hh, hi, hrun⟩ := hc
    have hst := h.state_of_done hs
    have hj : s.core.state = .joinable := hstate.resolve_left hst.2.1
    have hact : ∀ op', p.active op' = decide (op = op') := by
      rcases hp with rfl | ⟨status, -, rfl⟩ <;> exact fun _ => rfl
    refine h.caller hs hh rfl rfl rfl ?_ ?_ ?_ ?_ ?_ (fun hn _ => ?_) (fun op' => ?_) ?_ ?_
    · cases op <;> exact ⟨nofun, nofun⟩
    · intro op' hcl
      rw [hj] at hcl
      cases op' <;> cases hcl
    · rw [if_neg (by cases op <;> exact nofun)]
      have hr := h.result
      rwa [if_neg (by rw [hj]; exact nofun)] at hr
    · have ht := h.task
      rw [hj] at ht
      rw [ht]
      cases op <;> rfl
    · cases op <;> exact nofun
    · have hr := hrun hn
      cases hw : s.worker with
      | running => rfl
      | _ => rw [hw] at hr; cases hr
    · have hn := num_update (Point.active op') s.callers c p
      have ha := h.active op'
      rw [hj, decide_eq_false (by cases op' <;> exact nofun)] at ha
      rw [Point.isIdle_iff.1 hi, hact op', ha] at hn
      rw [show (Point.active op' (Point.idle : Point α)) = false from rfl] at hn
      simpa [Op.busy_inj] using hn
    · rcases hp with rfl | ⟨status, -, rfl⟩ <;> exact nofun
    · rcases hp with rfl | ⟨status, -, rfl⟩ <;> exact nofun
  | joined c hc =>
    have hb := h.busy c (by rw [hc]; exact nofun)
    have hst := h.state_of_active (c := c) .join (by rw [hc]; rfl)
    have hex := h.success c hc
    have hr := h.result
    rw [if_neg (by rw [hst]; exact nofun)] at hr
    refine h.caller hb.1 hb.2 rfl rfl rfl ⟨nofun, nofun⟩ ?_ rfl ?_ (fun _ => hex) ?_ ?_ nofun ?_
    · intro op' hcl
      rw [hst] at hcl
      cases op' <;> cases hcl
    · change false = (_ && !(true || _))
      rw [Bool.true_or, Bool.not_true, Bool.and_false]
    · rintro rfl -
      exact h.own (by rw [hc]; exact nofun)
    · refine h.active_end .join (by rw [hc]; rfl) (fun op' hne => ?_) (fun _ => rfl)
        (fun op' => by cases op' <;> exact nofun)
      rw [hc]
      exact decide_eq_false (Ne.symm hne)
    · rintro op task r ⟨⟩
      exact ⟨rfl, hr⟩
  | detached c hc =>
    have hb := h.busy c (by rw [hc]; exact nofun)
    have hst := h.state_of_active (c := c) .detach (by rw [hc]; rfl)
    have hr := h.result
    rw [if_neg (by rw [hst]; exact nofun)] at hr
    have hstate : (detachEnd s.core).1.state = .detached := by
      unfold detachEnd
      split_ifs <;> rfl
    refine h.caller hb.1 hb.2 ?_ ?_ ?_ ?_ ?_ ?_ ?_ ?_ ?_ ?_ nofun ?_
    · unfold detachEnd
      split_ifs <;> rfl
    · unfold detachEnd
      split_ifs <;> rfl
    · unfold detachEnd
      split_ifs <;> rfl
    · rw [hstate]
      exact ⟨nofun, nofun⟩
    · intro op' hcl
      rw [hst] at hcl
      cases op' <;> cases hcl
    · rw [hstate, if_neg nofun, ← hr]
      unfold detachEnd
      split_ifs <;> rfl
    · have ht := h.task
      rw [hst, hb.1] at ht
      rw [hstate, hb.1]
      unfold detachEnd
      split_ifs with hf
      · rw [show ({ s.core with state := .detached, task := false } : Core α).finished = true
          from hf]
        rfl
      · rw [show ({ s.core with state := .detached } : Core α).finished = false by simpa using hf]
        exact ht
    · rw [hstate]
      exact nofun
    · rintro rfl -
      exact h.own (by rw [hc]; exact nofun)
    · refine h.active_end .detach (by rw [hc]; rfl) (fun op' hne => ?_) (fun _ => rfl)
        (fun op' => by rw [hstate]; cases op' <;> exact nofun)
      rw [hc]
      exact decide_eq_false (Ne.symm hne)
    · rintro op task r ⟨⟩
      exact ⟨hstate, rfl⟩
  | rolledBack c op status hc =>
    have hb := h.busy c (by rw [hc]; exact nofun)
    have hst := h.state_of_active (c := c) op (by rw [hc]; exact decide_eq_true rfl)
    have hne : ∀ op' : Op, op.busy ≠ op'.closed := by
      intro op'
      cases op <;> cases op' <;> decide
    refine h.caller hb.1 hb.2 rfl rfl rfl ⟨nofun, nofun⟩ ?_ ?_ ?_ nofun
      (fun _ hne => absurd rfl hne) ?_ nofun nofun
    · intro op' hcl
      rw [hst] at hcl
      exact absurd hcl (hne op')
    · have hr := h.result
      rw [if_neg (by rw [hst]; exact hne .join)] at hr
      exact hr
    · have ht := h.task
      rw [hst] at ht
      rw [show (rollback s.core).task = _ from ht]
      cases op <;> rfl
    · refine h.active_end op (by rw [hc]; exact decide_eq_true rfl) (fun op' hne => ?_)
        (fun _ => rfl) (fun op' => by cases op' <;> exact nofun)
      rw [hc]
      exact decide_eq_false (Ne.symm hne)
  | start hsp =>
    obtain ⟨hst, hw, hh, hfreed, hres, hfin, hr⟩ := h.unborn hsp rfl rfl
    refine h.spawn (by rw [hsp]; rfl) hst nofun (by rw [hw]; rfl) h.finished
      (by rw [hw]; exact hres) (ne_of_eq_of_ne hst.1 nofun)
      (fun op => ne_of_eq_of_ne hst.1 (by cases op <;> exact nofun))
      ?_ ?_ hfreed
    · rw [show (startBegin s.core).state = _ from hst.1]
      rfl
    · have hone : s.core.refs = 1 := hr
      rw [hw]
      change wrap32 (s.core.refs + 1) = 2
      rw [hone]
      exact wrap32_of_mem (by decide) (by decide)
  | created hsp =>
    obtain ⟨hst, hw, hh, hfreed, hres, hfin, hr⟩ := h.unborn hsp rfl rfl
    have ht := h.task
    rw [hsp, hst.1] at ht
    refine h.spawn (by rw [hsp]; rfl) hst nofun rfl hfin hres (ne_of_eq_of_ne hst.1 nofun)
      (fun op => ne_of_eq_of_ne hst.1 (by cases op <;> exact nofun)) ?_ hr hfreed
    rw [hst.1]
    exact ht
  | createFailed status hsp hst₀ =>
    obtain ⟨hst, hw, hh, hfreed, hres, hfin, hr⟩ := h.unborn hsp rfl rfl
    refine h.spawn (by rw [hsp]; rfl) hst ?_ (by rw [hw]; rfl) h.finished (by rw [hw]; exact hres)
      (ne_of_eq_of_ne hst.1 nofun) (fun op => ne_of_eq_of_ne hst.1 (by cases op <;> exact nofun))
      rfl (by rw [hw]; exact hr) hfreed
    rintro _ ⟨⟩
    exact hst₀
  | published hsp =>
    have hst := h.state
    rw [hsp] at hst
    have hh := h.handle_of_not_done (by rw [hsp]; rfl)
    have hr := h.refs
    have ht := h.task
    have hres := h.result
    rw [hh, State.workerRef, hsp] at hr
    rw [hsp, hst.1] at ht
    rw [if_neg (by rw [hst.1]; exact nofun)] at hres
    refine h.spawn (by rw [hsp]; rfl) ⟨rfl, nofun, nofun⟩ nofun (by rw [h.absent, hsp]; rfl)
      h.finished hres nofun (fun op => by cases op <;> exact nofun) ?_ hr (h.not_freed hh)
    exact ht
  | failed status hsp =>
    have hne := h.failing
    rw [hsp] at hne
    obtain ⟨hst, hw, hh, hfreed, hres, hfin, hr⟩ := h.unborn hsp rfl rfl
    have ht := h.task
    rw [hsp, hst.1] at ht
    exact h.spawn (by rw [hsp]; rfl) ⟨rfl, hst.2⟩ hne (by rw [hw]; rfl) h.finished
      (by rw [hw]; exact hres) nofun (fun op => by cases op <;> exact nofun) ht
      (by rw [hw]; exact hr) hfreed
  | raised status hsp =>
    have hne := h.failing
    rw [hsp] at hne
    have hne' := hne status rfl
    obtain ⟨hst, hw, hh, hfreed, hres, hfin, hr⟩ := h.unborn hsp rfl rfl
    have ht := h.task
    rw [hsp, hst.1] at ht
    have hrefs : s.core.release.refs = 1 := by
      have htwo : s.core.refs = 2 := hr
      change wrap32 (s.core.refs - 1) = 1
      rw [htwo]
      exact wrap32_of_mem (by decide) (by decide)
    refine h.spawn (by rw [hsp]; rfl) ?_ nofun ?_ h.finished (by rw [hw]; exact hres)
      (ne_of_eq_of_ne hst.1 nofun) (fun op => ne_of_eq_of_ne hst.1 (by cases op <;> exact nofun))
      ?_ (by rw [hw]; exact hrefs) ?_
    · simp only [StateOk, if_neg hne']
      exact hst
    · rw [hw, SpawnPoint.created, decide_eq_false hne']
      rfl
    · rw [show s.core.release.state = _ from hst.1]
      refine ht.trans ?_
      simp [taskThere, SpawnPoint.created, hne']
    · rw [hfreed, hrefs]
      rfl
  | called hw =>
    exact h.work_same (by rw [hw]; rfl) (by rw [hw]; rfl) rfl (by rw [hw]; rfl) (by rw [hw]; rfl)
      (by rw [hw]; rfl) fun _ => rfl
  | ended o hw hc =>
    exact h.work_same (by rw [hw]; rfl) (by rw [hw]; rfl) rfl (by rw [hw]; rfl) (by rw [hw]; rfl)
      (by rw [hw]; rfl) fun hne => absurd hc hne
  | completed o hw =>
    have hres := h.result_of_worker (w := s.worker) (by rw [hw]; rfl) rfl
    have hnone : s.core.result = none := by
      rw [hres, hw]
      rfl
    have hcore : (complete s.core o).1 = { s.core with result := some o } := by
      rw [complete, hnone]
    have hfin := h.finished
    rw [hw] at hfin
    rw [hcore]
    exact h.work (by rw [hw]; rfl) (by rw [hw]; rfl) rfl rfl rfl hfin rfl h.task
      (fun hne => by cases hw.symm.trans (h.own hne))
      (h.refs_of_worker (by rw [hw]; rfl) (by rw [hw]; rfl))
      (h.freed_of_worker (by rw [hw]; rfl) (by rw [hw]; rfl))
  | returned o hw =>
    exact h.work_same (by rw [hw]; rfl) (by rw [hw]; rfl) rfl (by rw [hw]; rfl) (by rw [hw]; rfl)
      (by rw [hw]; rfl) fun hne => by cases hw.symm.trans (h.own hne)
  | finished o hw =>
    have hres := h.result_of_worker (w := s.worker) (by rw [hw]; rfl) rfl
    have hrefs := h.refs_of_worker (w := .release (mainEnd s.core).2 o) (by rw [hw]; rfl)
      (by rw [hw]; rfl)
    have hfreed := h.freed_of_worker (w := .release (mainEnd s.core).2 o) (by rw [hw]; rfl)
      (by rw [hw]; rfl)
    have hfin := h.finished
    have ht := h.task
    rw [hw] at hres
    rw [hfin, hw] at ht
    refine h.work (by rw [hw]; rfl) (by rw [hw]; rfl) rfl ?_ ?_ ?_ ?_ ?_
      (fun hne => by cases hw.symm.trans (h.own hne)) ?_ hfreed
    · unfold mainEnd
      split_ifs <;> rfl
    · unfold mainEnd
      split_ifs <;> rfl
    · unfold mainEnd
      split_ifs <;> rfl
    · refine Eq.trans ?_ hres
      unfold mainEnd
      split_ifs <;> rfl
    · unfold mainEnd
      split_ifs with hd
      · change false = taskThere s.spawner s.core.state true
        rw [hd]
        simp [taskThere]
      · change s.core.task = taskThere s.spawner s.core.state true
        rw [ht]
        simp [taskThere, hd]
    · refine Eq.trans ?_ hrefs
      unfold mainEnd
      split_ifs <;> rfl
  | left task o hw =>
    exact h.work_same (by rw [hw]; rfl) (by rw [hw]; rfl) rfl (by rw [hw]; rfl) (by rw [hw]; rfl)
      (by rw [hw]; rfl) fun hne => by cases hw.symm.trans (h.own hne)
  | exited o hw =>
    have hres := h.result_of_worker (w := s.worker) (by rw [hw]; rfl) rfl
    have href := h.workerRef_of_worker (by rw [hw]; rfl)
    have hfin := h.finished
    rw [hw] at hres hfin href
    obtain ⟨hr, hf⟩ := h.refs_release (n := s.handle.toNat + 0) (by rw [href]; rfl)
    refine h.work (by rw [hw]; rfl) (by rw [hw]; rfl) rfl rfl rfl hfin hres h.task
      (fun hne => by cases hw.symm.trans (h.own hne)) hr ?_
    rw [hf]
    cases s.handle <;> simp [WorkerPoint.holdsRef]
  | drop hsp hh hstate hc =>
    obtain ⟨hr, hf⟩ := h.refs_release (n := 0 + s.workerRef.toNat) (by rw [hh]; simp [Nat.add_comm])
    exact
      { state := h.state
        failing := h.failing
        absent := h.absent
        finished := h.finished
        result := h.result
        task := h.task
        joined := h.joined
        busy := fun c hne => absurd (hc c) hne
        own := h.own
        active := h.active
        success := h.success
        ending := h.ending
        dropped := fun _ => ⟨hstate, hsp⟩
        refs := hr
        freed := by
          rw [show State.freed _ = _ from rfl, hf]
          change _ ↔ false = false ∧ s.workerRef = false
          cases s.workerRef <;> simp }

omit [DecidableEq T] in
theorem inv_init : Inv (State.init : State α T) where
  state := ⟨rfl, rfl⟩
  failing := nofun
  absent := rfl
  finished := rfl
  result := rfl
  task := rfl
  joined := nofun
  busy := fun _ hc => absurd rfl hc
  own := fun hc => absurd rfl hc
  active := fun op => by
    cases op <;> exact num_eq_zero.2 fun _ => rfl
  success := nofun
  ending := nofun
  dropped := nofun
  refs := rfl
  freed := ⟨nofun, fun h => by cases h.1⟩

/-- **The invariant holds along every run.** -/
theorem inv_of_exec {es : List (Event α T)} (h : Exec step Assumed State.init es s) : Inv s :=
  h.stateInvariant inv_init fun hI hs hG => (step_move hs hG).inv hI

end NativeSync.Thread
