import NativeSync.Atomic.Core
import NativeSync.Foundations.Cell
import NativeSync.Foundations.Runs

/-!
# Atomic variables: the wrappers

The orderings of MoonBit and the checks on them (`atomic/types.mbt`, `atomic/atomic.mbt`), the
methods of `AtomicBool`, `AtomicInt` and `AtomicUInt`, and the three types as machines that are
given one call after the other. A method makes one native call, and that is atomic, so the calls of
any number of threads happen in some order, one after the other.
-/

namespace NativeSync.Atomic

open Foundations

/-- The orderings of the wrappers. -/
inductive MemoryOrdering
  | relaxed
  | acquire
  | release
  | acqRel
  | seqCst
  deriving DecidableEq

/-- `MemoryOrdering::code`. -/
def MemoryOrdering.code : MemoryOrdering → Int32
  | relaxed => 0
  | acquire => 1
  | release => 2
  | acqRel => 3
  | seqCst => 4

/-- A method that may raise. -/
abbrev Wrapper (α : Type) := ExceptT SyncError Native α

/-! ## Checks of orderings -/

/-- `validate_load_order`. -/
def validateLoadOrder : MemoryOrdering → Except SyncError Unit
  | .release | .acqRel =>
    throw (.invalidMemoryOrdering "load does not accept Release or AcqRel")
  | _ => pure ()

/-- `validate_store_order`. -/
def validateStoreOrder : MemoryOrdering → Except SyncError Unit
  | .acquire | .acqRel =>
    throw (.invalidMemoryOrdering "store does not accept Acquire or AcqRel")
  | _ => pure ()

/-- `failure_rank`. -/
def failureRank : MemoryOrdering → Int32
  | .relaxed => 0
  | .acquire => 1
  | .seqCst => 2
  | .release | .acqRel => -1

/-- `success_failure_rank`. -/
def successFailureRank : MemoryOrdering → Int32
  | .relaxed | .release => 0
  | .acquire | .acqRel => 1
  | .seqCst => 2

/-- `validate_compare_exchange_orders`. -/
def validateCompareExchangeOrders (success failure : MemoryOrdering) : Except SyncError Unit :=
  if failureRank failure < 0 ∨ failureRank failure > successFailureRank success then
    throw (.invalidMemoryOrdering
      "compare_exchange failure ordering cannot be Release, AcqRel, or stronger than success")
  else pure ()

/-! ## Results of an exchange -/

/-- `CompareExchangeResult`. -/
structure CompareExchangeResult (α : Type) where
  observed : α
  exchanged : Bool
  deriving DecidableEq

/-- `packed_exchanged`. -/
def packedExchanged (value : UInt64) : Bool := decide (value >>> 32 ≠ 0)

/-- `packed_observed_uint`. -/
def packedObservedUint (value : UInt64) : UInt32 := (value &&& 0xFFFFFFFF).toUInt32

/-- What `AtomicBool::compare_exchange` makes of the native result. -/
def AtomicBool.unpack (packed : UInt64) : CompareExchangeResult Bool :=
  { observed := decide (packed &&& 1 ≠ 0), exchanged := packedExchanged packed }

/-- What `AtomicInt::compare_exchange` makes of the native result. -/
def AtomicInt.unpack (packed : UInt64) : CompareExchangeResult Int32 :=
  { observed := (packedObservedUint packed).toInt32, exchanged := packedExchanged packed }

/-- What `AtomicUInt::compare_exchange` makes of the native result. -/
def AtomicUInt.unpack (packed : UInt64) : CompareExchangeResult UInt32 :=
  { observed := packedObservedUint packed, exchanged := packedExchanged packed }

/-! ## `AtomicBool` -/

namespace AtomicBool

/-- `AtomicBool::new`. -/
def new (value : Bool) : Core := boolNew (ofBool value)

/-- `AtomicBool::load`. -/
def load (p : Platform) (order : MemoryOrdering := .seqCst) : Wrapper Bool := do
  validateLoadOrder order
  return toBool (← boolLoad p order.code)

/-- `AtomicBool::store`. -/
def store (p : Platform) (value : Bool) (order : MemoryOrdering := .seqCst) : Wrapper Unit := do
  validateStoreOrder order
  boolStore p (ofBool value) order.code

/-- `AtomicBool::swap`. -/
def swap (p : Platform) (value : Bool) (order : MemoryOrdering := .seqCst) : Native Bool := do
  return toBool (← boolSwap p (ofBool value) order.code)

/-- `AtomicBool::compare_exchange`. -/
def compareExchange (p : Platform) (current next : Bool)
    (success failure : MemoryOrdering := .seqCst) : Wrapper (CompareExchangeResult Bool) := do
  validateCompareExchangeOrders success failure
  let packed ← boolCompareExchange p (ofBool current) (ofBool next) success.code failure.code
  return unpack packed

end AtomicBool

/-! ## `AtomicInt` -/

namespace AtomicInt

/-- `AtomicInt::new`. -/
def new (value : Int32) : Core := intNew value

/-- `AtomicInt::load`. -/
def load (p : Platform) (order : MemoryOrdering := .seqCst) : Wrapper Int32 := do
  validateLoadOrder order
  intLoad p order.code

/-- `AtomicInt::store`. -/
def store (p : Platform) (value : Int32) (order : MemoryOrdering := .seqCst) : Wrapper Unit := do
  validateStoreOrder order
  intStore p value order.code

/-- `AtomicInt::swap`. -/
def swap (p : Platform) (value : Int32) (order : MemoryOrdering := .seqCst) : Native Int32 :=
  intSwap p value order.code

/-- `AtomicInt::compare_exchange`. -/
def compareExchange (p : Platform) (current next : Int32)
    (success failure : MemoryOrdering := .seqCst) : Wrapper (CompareExchangeResult Int32) := do
  validateCompareExchangeOrders success failure
  let packed ← intCompareExchange p current next success.code failure.code
  return unpack packed

/-- `AtomicInt::fetch_add`. -/
def fetchAdd (p : Platform) (delta : Int32) (order : MemoryOrdering := .seqCst) : Native Int32 :=
  intFetchAdd p delta order.code

end AtomicInt

/-! ## `AtomicUInt` -/

namespace AtomicUInt

/-- `AtomicUInt::new`. -/
def new (value : UInt32) : Core := uintNew value

/-- `AtomicUInt::load`. -/
def load (p : Platform) (order : MemoryOrdering := .seqCst) : Wrapper UInt32 := do
  validateLoadOrder order
  uintLoad p order.code

/-- `AtomicUInt::store`. -/
def store (p : Platform) (value : UInt32) (order : MemoryOrdering := .seqCst) : Wrapper Unit := do
  validateStoreOrder order
  uintStore p value order.code

/-- `AtomicUInt::swap`. -/
def swap (p : Platform) (value : UInt32) (order : MemoryOrdering := .seqCst) : Native UInt32 :=
  uintSwap p value order.code

/-- `AtomicUInt::compare_exchange`. -/
def compareExchange (p : Platform) (current next : UInt32)
    (success failure : MemoryOrdering := .seqCst) : Wrapper (CompareExchangeResult UInt32) := do
  validateCompareExchangeOrders success failure
  let packed ← uintCompareExchange p current next success.code failure.code
  return unpack packed

/-- `AtomicUInt::fetch_add`. -/
def fetchAdd (p : Platform) (delta : UInt32) (order : MemoryOrdering := .seqCst) : Native UInt32 :=
  uintFetchAdd p delta order.code

end AtomicUInt

/-! ## Sequences of calls -/

/-- A call of a method. -/
inductive Call (α δ : Type)
  | load (order : MemoryOrdering)
  | store (value : α) (order : MemoryOrdering)
  | swap (value : α) (order : MemoryOrdering)
  | fetchAdd (delta : δ) (order : MemoryOrdering)
  | compareExchange (current next : α) (success failure : MemoryOrdering)

/-- What a call returns or raises. -/
abbrev Result (α : Type) := Except SyncError (CellAnswer α)

/-- The methods of an atomic type with values in `α`; a type without `fetch_add` has an empty `δ`.
`swap` and `fetch_add` do not raise. -/
structure Api (α δ : Type) where
  new : α → Core
  load : MemoryOrdering → Wrapper α
  store : α → MemoryOrdering → Wrapper Unit
  swap : α → MemoryOrdering → Native α
  fetchAdd : δ → MemoryOrdering → Native α
  compareExchange :
    α → α → MemoryOrdering → MemoryOrdering → Wrapper (CompareExchangeResult α)

variable {α δ : Type}

namespace Api

/-- The method that a call calls. -/
def call (api : Api α δ) : Call α δ → Wrapper (CellAnswer α)
  | .load order => do return .value (← api.load order)
  | .store value order => do
    api.store value order
    return .unit
  | .swap value order => do return .value (← api.swap value order)
  | .fetchAdd delta order => do return .value (← api.fetchAdd delta order)
  | .compareExchange current next success failure => do
    let r ← api.compareExchange current next success failure
    return .exchange r.observed r.exchanged

/-- The atomic type as a machine: an action is a call, its event is what the call returns. -/
def machine (api : Api α δ) : Machine Core (Call α δ) (Result α) := fun core c =>
  ((api.call c).run.run core).map fun r => (r.2, [r.1])

/-- The calls of a list, one after the other, on a new variable. -/
def run (api : Api α δ) (value : α) (calls : List (Call α δ)) : Option (Core × List (Result α)) :=
  api.machine.run (fun _ _ _ => True) (api.new value) calls

end Api

/-- The methods of `AtomicBool`. -/
def AtomicBool.api (p : Platform) : Api Bool Empty where
  new := new
  load order := load p order
  store value order := store p value order
  swap value order := swap p value order
  fetchAdd := nofun
  compareExchange current next success failure := compareExchange p current next success failure

/-- The methods of `AtomicInt`. -/
def AtomicInt.api (p : Platform) : Api Int32 Int32 where
  new := new
  load order := load p order
  store value order := store p value order
  swap value order := swap p value order
  fetchAdd delta order := fetchAdd p delta order
  compareExchange current next success failure := compareExchange p current next success failure

/-- The methods of `AtomicUInt`. -/
def AtomicUInt.api (p : Platform) : Api UInt32 UInt32 where
  new := new
  load order := load p order
  store value order := store p value order
  swap value order := swap p value order
  fetchAdd delta order := fetchAdd p delta order
  compareExchange current next success failure := compareExchange p current next success failure

end NativeSync.Atomic
