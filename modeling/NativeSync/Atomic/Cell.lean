import Mathlib.Data.Nat.Bitwise
import NativeSync.Atomic.Api

/-!
# Atomic variables are cells

Each atomic type stores its values in the one signed cell in a way of its own, and reads the 64-bit
result of a compare-exchange with an unpacker of its own.

* Every native function has the same effect in both of its branches, for the orderings that pass the
  check of the method that calls it (`run_loadValue` to `run_compareExchangeValue`).
* A `View` is a way to store and read values under which the operations on the signed cell are
  those on a cell with values in another type (`View.run_native`).
* The methods of the three types go through their views (`isViewOf`), so a sequence of calls returns
  what it returns on a cell (`View.IsViewOf.isCell`).
-/

namespace NativeSync.Atomic

open Foundations

/-! ## Packing -/

theorem packed_toNat (e : Bool) (o : Int32) :
    (packed e o).toNat = e.toNat * 2 ^ 32 + o.toUInt32.toNat := by
  have ho : o.toUInt32.toNat < 2 ^ 32 := o.toUInt32.toNat_lt
  have he : (e.toUInt64 <<< 32).toNat = e.toNat <<< 32 := by
    cases e <;> rfl
  rw [packed, UInt64.toNat_or, he, UInt32.toNat_toUInt64, ← Nat.shiftLeft_add_eq_or_of_lt ho,
    Nat.shiftLeft_eq]

theorem packedExchanged_packed (e : Bool) (o : Int32) : packedExchanged (packed e o) = e := by
  have ho : o.toUInt32.toNat < 2 ^ 32 := o.toUInt32.toNat_lt
  have hshift : packed e o >>> 32 = e.toUInt64 := by
    apply UInt64.toNat_inj.1
    rw [UInt64.toNat_shiftRight, packed_toNat, Nat.shiftRight_eq_div_pow]
    change (e.toNat * 2 ^ 32 + o.toUInt32.toNat) / 2 ^ 32 = _
    have he : e.toUInt64.toNat = e.toNat := by
      cases e <;> rfl
    omega
  rw [packedExchanged, hshift]
  cases e <;> rfl

theorem packedObservedUint_packed (e : Bool) (o : Int32) :
    packedObservedUint (packed e o) = o.toUInt32 := by
  have ho : o.toUInt32.toNat < 2 ^ 32 := o.toUInt32.toNat_lt
  have hmask : (packed e o &&& 0xFFFFFFFF).toNat = (packed e o).toNat % 2 ^ 32 :=
    Nat.and_two_pow_sub_one_eq_mod _ 32
  apply UInt32.toNat_inj.1
  rw [packedObservedUint, UInt64.toNat_toUInt32, hmask, packed_toNat]
  omega

/-- The low bit of a packed result is that of the observed value. -/
theorem packed_and_one (e : Bool) (o : Int32) :
    (packed e o &&& 1 = 0) ↔ o.toUInt32 &&& 1 = 0 := by
  have hp : (packed e o &&& 1).toNat = (packed e o).toNat % 2 ^ 1 :=
    Nat.and_two_pow_sub_one_eq_mod _ 1
  have ho : (o.toUInt32 &&& 1).toNat = o.toUInt32.toNat % 2 ^ 1 :=
    Nat.and_two_pow_sub_one_eq_mod _ 1
  rw [← UInt64.toNat_inj, ← UInt32.toNat_inj, hp, ho, packed_toNat]
  change (e.toNat * 2 ^ 32 + o.toUInt32.toNat) % 2 ^ 1 = 0 ↔ o.toUInt32.toNat % 2 ^ 1 = 0
  omega

theorem AtomicInt.unpack_packed (e : Bool) (o : Int32) :
    AtomicInt.unpack (packed e o) = { observed := o, exchanged := e } := by
  rw [AtomicInt.unpack, packedObservedUint_packed, packedExchanged_packed, Int32.toInt32_toUInt32]

theorem AtomicUInt.unpack_packed (e : Bool) (o : UInt32) :
    AtomicUInt.unpack (packed e o.toInt32) = { observed := o, exchanged := e } := by
  rw [AtomicUInt.unpack, packedObservedUint_packed, packedExchanged_packed,
    UInt32.toUInt32_toInt32]

/-- The unpacker of `AtomicBool` reads the low bit. -/
theorem AtomicBool.unpack_packed (e : Bool) (o : Int32) :
    AtomicBool.unpack (packed e o) =
      { observed := decide (o.toUInt32 &&& 1 ≠ 0), exchanged := e } := by
  simp only [AtomicBool.unpack, packedExchanged_packed, Ne, packed_and_one]

theorem AtomicBool.unpack_packed_ofBool (e o : Bool) :
    AtomicBool.unpack (packed e (ofBool o)) = { observed := o, exchanged := e } := by
  rw [AtomicBool.unpack_packed]
  cases o <;> rfl

/-! ## Orderings -/

theorem validateLoadOrder_eq_ok {order : MemoryOrdering} :
    validateLoadOrder order = .ok () ↔ (memoryOrder order.code).forLoad = true := by
  cases order <;> decide

theorem validateStoreOrder_eq_ok {order : MemoryOrdering} :
    validateStoreOrder order = .ok () ↔ (memoryOrder order.code).forStore = true := by
  cases order <;> decide

theorem validateCompareExchangeOrders_eq_ok {success failure : MemoryOrdering} :
    validateCompareExchangeOrders success failure = .ok () ↔
      (memoryOrder success.code).forCompareExchange (memoryOrder failure.code) = true := by
  cases success <;> cases failure <;> decide

/-! ## The native functions -/

section Native

variable (p : Platform) (core : Core) {order success failure : MemoryOrdering}

theorem run_interlockedCompareExchange (exchange comparand : Int32) :
    (interlockedCompareExchange exchange comparand).run core = some (core.value,
      { core with value := if core.value = comparand then exchange else core.value }) := by
  by_cases h : core.value = comparand <;> simp [interlockedCompareExchange, h]

theorem run_atomicCompareExchangeN (expected desired : Int32) {success failure : AtomicOrder}
    (h : success.forCompareExchange failure = true) :
    (atomicCompareExchangeN expected desired success failure).run core =
      some ((decide (core.value = expected), core.value),
        { core with value := if core.value = expected then desired else core.value }) := by
  by_cases hv : core.value = expected <;> simp [atomicCompareExchangeN, h, hv]

theorem run_loadValue (h : validateLoadOrder order = .ok ()) :
    (loadValue p order.code).run core = some (core.value, core) := by
  cases p with
  | windows =>
    rw [loadValue, run_interlockedCompareExchange]
    split_ifs with hv
    · rw [← hv]
    · rfl
  | posix => simp [loadValue, atomicLoadN, validateLoadOrder_eq_ok.1 h]

theorem run_storeValue (value : Int32) (h : validateStoreOrder order = .ok ()) :
    (storeValue p value order.code).run core = some ((), { core with value }) := by
  cases p with
  | windows => rfl
  | posix => simp [storeValue, atomicStoreN, validateStoreOrder_eq_ok.1 h]

theorem run_swapValue (value order : Int32) :
    (swapValue p value order).run core = some (core.value, { core with value }) := by
  cases p <;> rfl

theorem run_fetchAddValue (delta order : Int32) :
    (fetchAddValue p delta order).run core =
      some (core.value, { core with value := core.value + delta }) := by
  cases p <;> rfl

theorem run_compareExchangeValue (current next : Int32)
    (h : validateCompareExchangeOrders success failure = .ok ()) :
    (compareExchangeValue p current next success.code failure.code).run core =
      some (packed (decide (core.value = current)) core.value,
        { core with value := if core.value = current then next else core.value }) := by
  cases p with
  | windows =>
    rw [compareExchangeValue, StateT.run_bind, run_interlockedCompareExchange]
    rfl
  | posix =>
    rw [compareExchangeValue, StateT.run_bind,
      run_atomicCompareExchangeN core current next (validateCompareExchangeOrders_eq_ok.1 h)]
    rfl

end Native

/-! ## Calls on a cell -/

variable {α δ : Type}

/-- The operation of a call. -/
def Call.op : Call α δ → CellOp α δ
  | load _ => .load
  | store value _ => .store value
  | swap value _ => .swap value
  | fetchAdd delta _ => .fetchAdd delta
  | compareExchange current next _ _ => .compareExchange current next

/-- The check of the orderings of a call. -/
def Call.validate : Call α δ → Except SyncError Unit
  | load order => validateLoadOrder order
  | store _ order => validateStoreOrder order
  | swap _ _ => .ok ()
  | fetchAdd _ _ => .ok ()
  | compareExchange _ _ success failure => validateCompareExchangeOrders success failure

/-- A call on a cell that holds `x`: the value it leaves and its result. A call whose orderings are
not accepted raises and leaves the cell alone. -/
def Call.onCell [DecidableEq α] (add : α → δ → α) (x : α) (c : Call α δ) : α × Result α :=
  match c.validate with
  | .error e => (x, .error e)
  | .ok () => ((c.op.apply add x).1, .ok (c.op.apply add x).2)

/-- The type is a cell with values in `α` that stores `x` as `enc x`: whatever the sequence of calls
on a new variable, it returns what the calls on the cell return, and leaves the value that they
leave. -/
def Api.IsCell [DecidableEq α] (api : Api α δ) (add : α → δ → α) (enc : α → Int32) : Prop :=
  ∀ (value : α) (calls : List (Call α δ)),
    api.run value calls =
      some ({ refs := 1, value := enc (trace (Call.onCell add) value calls).1 },
        (trace (Call.onCell add) value calls).2)

/-- A native call after a check. -/
def checked {β : Type} (check : Except SyncError Unit) (native : Native β) : Wrapper β := do
  check
  native

theorem checked_ok {β : Type} (native : Native β) :
    checked (.ok ()) native = (liftM native : Wrapper β) := rfl

theorem run_checked_ok {β : Type} (native : Native β) (core : Core) :
    (checked (.ok ()) native).run.run core = (native.run core).map fun r => (.ok r.1, r.2) := by
  simp [checked_ok]

/-! ## Views -/

/-- A view of the signed cell as a cell with values in `α`: how values and what is added to them are
stored, and how values and the results of an exchange are read back. -/
structure View (α δ : Type) where
  enc : α → Int32
  dec : Int32 → α
  delta : δ → Int32
  add : α → δ → α
  unpack : UInt64 → CompareExchangeResult α
  dec_enc : ∀ x, dec (enc x) = x
  enc_add : ∀ x d, enc (add x d) = enc x + delta d
  unpack_packed : ∀ e x, unpack (packed e (enc x)) = { observed := x, exchanged := e }

namespace View

variable (V : View α δ)

theorem enc_inj {x y : α} : V.enc x = V.enc y ↔ x = y := by
  constructor
  · intro h
    rw [← V.dec_enc x, h, V.dec_enc]
  · rintro rfl
    rfl

/-- The native part of a call, through the view. -/
def native (p : Platform) : Call α δ → Native (CellAnswer α)
  | .load order => do return .value (V.dec (← loadValue p order.code))
  | .store value order => do
    storeValue p (V.enc value) order.code
    return .unit
  | .swap value order => do return .value (V.dec (← swapValue p (V.enc value) order.code))
  | .fetchAdd delta order => do
    return .value (V.dec (← fetchAddValue p (V.delta delta) order.code))
  | .compareExchange current next success failure => do
    let r := V.unpack
      (← compareExchangeValue p (V.enc current) (V.enc next) success.code failure.code)
    return .exchange r.observed r.exchanged

/-- **Through a view the native functions are the operations of a cell.** -/
theorem run_native [DecidableEq α] (p : Platform) {c : Call α δ} (h : c.validate = .ok ())
    (refs : ℤ) (x : α) :
    (V.native p c).run { refs, value := V.enc x } =
      some ((c.op.apply V.add x).2, { refs, value := V.enc (c.op.apply V.add x).1 }) := by
  cases c with
  | load order =>
    rw [native, StateT.run_bind, run_loadValue p _ h]
    simp [Call.op, CellOp.apply, V.dec_enc]
  | store value order =>
    rw [native, StateT.run_bind, run_storeValue p _ _ h]
    rfl
  | swap value order =>
    rw [native, StateT.run_bind, run_swapValue]
    simp [Call.op, CellOp.apply, V.dec_enc]
  | fetchAdd d order =>
    rw [native, StateT.run_bind, run_fetchAddValue]
    simp [Call.op, CellOp.apply, V.dec_enc, V.enc_add]
  | compareExchange current next success failure =>
    rw [native, StateT.run_bind, run_compareExchangeValue p _ _ _ h]
    simp only [Call.op, CellOp.apply, V.enc_inj]
    split_ifs with hx <;> simp [hx, V.unpack_packed]

/-- The methods of an atomic type are the native functions through the view, each after the check of
its orderings. -/
structure IsViewOf (api : Api α δ) (p : Platform) : Prop where
  new : ∀ x, api.new x = atomicNew (V.enc x)
  call : ∀ c, api.call c = checked c.validate (V.native p c)

variable {V} {api : Api α δ} {p : Platform}

theorem IsViewOf.machine_eq [DecidableEq α] (h : V.IsViewOf api p) (refs : ℤ) (x : α)
    (c : Call α δ) :
    api.machine { refs, value := V.enc x } c =
      some ({ refs, value := V.enc (c.onCell V.add x).1 }, [(c.onCell V.add x).2]) := by
  rw [Api.machine, h.call, Call.onCell]
  cases hc : c.validate with
  | error e => rfl
  | ok u =>
    rw [run_checked_ok, V.run_native p hc]
    rfl

/-- **A type whose methods go through a view is a cell.** -/
theorem IsViewOf.isCell [DecidableEq α] (h : V.IsViewOf api p) : api.IsCell V.add V.enc := by
  intro value calls
  rw [Api.run, h.new]
  exact Machine.run_eq_trace (G := fun _ _ _ => True)
    (fun x => ({ refs := 1, value := V.enc x } : Core)) (h.machine_eq 1) (fun _ _ => trivial)
    value calls

end View

/-! ## The three types -/

/-- `AtomicInt` stores its values as they are. -/
def AtomicInt.view : View Int32 Int32 where
  enc x := x
  dec x := x
  delta d := d
  add x d := x + d
  unpack := AtomicInt.unpack
  dec_enc _ := rfl
  enc_add _ _ := rfl
  unpack_packed := AtomicInt.unpack_packed

/-- `AtomicUInt` stores its values as the signed ones with the same bits. -/
def AtomicUInt.view : View UInt32 UInt32 where
  enc := UInt32.toInt32
  dec := Int32.toUInt32
  delta := UInt32.toInt32
  add x d := x + d
  unpack := AtomicUInt.unpack
  dec_enc := UInt32.toUInt32_toInt32
  enc_add := UInt32.toInt32_add
  unpack_packed := AtomicUInt.unpack_packed

/-- `AtomicBool` stores its values as `0` and `1`. -/
def AtomicBool.view : View Bool Empty where
  enc := ofBool
  dec := toBool
  delta d := d.elim
  add _ d := d.elim
  unpack := AtomicBool.unpack
  dec_enc := toBool_ofBool
  enc_add _ d := d.elim
  unpack_packed := AtomicBool.unpack_packed_ofBool

namespace AtomicInt

theorem isViewOf (p : Platform) : view.IsViewOf (api p) p where
  new _ := rfl
  call c := by
    cases c with
    | load order => simp [Api.call, api, load, intLoad, Call.validate, checked, View.native, view]
    | store value order =>
      simp [Api.call, api, store, intStore, Call.validate, checked, View.native, view]
    | swap value order =>
      simp [Api.call, api, swap, intSwap, Call.validate, checked_ok, View.native, view]
    | fetchAdd delta order =>
      simp [Api.call, api, fetchAdd, intFetchAdd, Call.validate, checked_ok, View.native, view]
    | compareExchange current next success failure =>
      simp [Api.call, api, compareExchange, intCompareExchange, Call.validate, checked,
        View.native, view]

end AtomicInt

namespace AtomicUInt

theorem isViewOf (p : Platform) : view.IsViewOf (api p) p where
  new _ := rfl
  call c := by
    cases c with
    | load order => simp [Api.call, api, load, uintLoad, Call.validate, checked, View.native, view]
    | store value order =>
      simp [Api.call, api, store, uintStore, Call.validate, checked, View.native, view]
    | swap value order =>
      simp [Api.call, api, swap, uintSwap, Call.validate, checked_ok, View.native, view]
    | fetchAdd delta order =>
      simp [Api.call, api, fetchAdd, uintFetchAdd, Call.validate, checked_ok, View.native, view]
    | compareExchange current next success failure =>
      simp [Api.call, api, compareExchange, uintCompareExchange, Call.validate, checked,
        View.native, view]

end AtomicUInt

namespace AtomicBool

theorem isViewOf (p : Platform) : view.IsViewOf (api p) p where
  new value := congrArg (fun b => atomicNew (ofBool b)) (toBool_ofBool value)
  call c := by
    cases c with
    | load order => simp [Api.call, api, load, boolLoad, Call.validate, checked, View.native, view]
    | store value order =>
      simp [Api.call, api, store, boolStore, Call.validate, checked, View.native, view]
    | swap value order =>
      simp [Api.call, api, swap, boolSwap, Call.validate, checked_ok, View.native, view]
    | fetchAdd delta order => exact delta.elim
    | compareExchange current next success failure =>
      simp [Api.call, api, compareExchange, boolCompareExchange, Call.validate, checked,
        View.native, view]

end AtomicBool

theorem ofBool_eq (b : Bool) : ofBool b = 0 ∨ ofBool b = 1 := by
  cases b
  · exact .inl rfl
  · exact .inr rfl

/-- Of the 32 bits that were packed the unpacker of `AtomicBool` reads one: it takes `2` for `0`. -/
theorem bool_unpack_not_identity :
    AtomicBool.unpack (packed false 2) = AtomicBool.unpack (packed false 0) ∧
      ¬∀ e o, AtomicBool.unpack (packed e o) = { observed := toBool o, exchanged := e } := by
  refine ⟨by decide, fun h => ?_⟩
  have h2 := h false 2
  revert h2
  decide

/-- **Atomic variables are sequential cells**, on either platform:

* whatever the sequence of calls on a new variable, with any operands and orderings, an `AtomicInt`
  is a cell with values in `Int32`, an `AtomicUInt` one with values in `UInt32`, although it stores
  them signed, and an `AtomicBool` one with values in `Bool`;
* packing and unpacking the result of a compare-exchange is the identity, for all values of the two
  integer types and for the two of an `AtomicBool`, whose unpacker reads the lowest of 32 bits;
* the cell of an `AtomicBool` holds `0` or `1`. -/
theorem atomic_cells (p : Platform) :
    ((AtomicInt.api p).IsCell (fun x d => x + d) id ∧
      (AtomicUInt.api p).IsCell (fun x d => x + d) UInt32.toInt32 ∧
      (AtomicBool.api p).IsCell (fun _ d => d.elim) ofBool) ∧
    ((∀ e o, AtomicInt.unpack (packed e o) = { observed := o, exchanged := e }) ∧
      (∀ e o, AtomicUInt.unpack (packed e o.toInt32) = { observed := o, exchanged := e }) ∧
      (∀ e o, AtomicBool.unpack (packed e (ofBool o)) = { observed := o, exchanged := e }) ∧
      ∀ e o, AtomicBool.unpack (packed e o) =
        { observed := decide (o.toUInt32 &&& 1 ≠ 0), exchanged := e }) ∧
    ∀ value calls, ∃ core results, (AtomicBool.api p).run value calls = some (core, results) ∧
      (core.value = 0 ∨ core.value = 1) := by
  have hbool : (AtomicBool.api p).IsCell (fun _ d => d.elim) ofBool :=
    (AtomicBool.isViewOf p).isCell
  refine ⟨⟨(AtomicInt.isViewOf p).isCell, (AtomicUInt.isViewOf p).isCell, hbool⟩,
    ⟨AtomicInt.unpack_packed, AtomicUInt.unpack_packed, AtomicBool.unpack_packed_ofBool,
      AtomicBool.unpack_packed⟩, fun value calls => ?_⟩
  exact ⟨_, _, hbool value calls, ofBool_eq _⟩

-- An unsigned sum wraps around, and a failing exchange reports the value that it found.
example : ((AtomicUInt.api .posix).run 4294967295
    [.fetchAdd 3 .relaxed, .compareExchange 7 9 .seqCst .acquire, .load .release]).map Prod.snd =
      some [.ok (.value 4294967295), .ok (.exchange 2 false),
        .error (.invalidMemoryOrdering "load does not accept Release or AcqRel")] := by
  decide

end NativeSync.Atomic
