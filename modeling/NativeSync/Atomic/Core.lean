import Mathlib.Data.Int.Basic
import NativeSync.Native

/-!
# Atomic variables: the native cell

The core that the three atomic types share, one signed 32-bit cell, and the functions over it
(`atomic/native.c`). Each has a branch for Windows, over the `Interlocked` functions, and one for
the other systems, over the compiler's `__atomic` functions. A native function makes one call of
such a primitive, and that call is atomic.

The compiler does not define its functions for every ordering; where it does not, the model has no
result.
-/

namespace NativeSync.Atomic

/-- The branches of `#if defined(_WIN32)`. -/
inductive Platform
  | posix
  | windows
  deriving DecidableEq

/-- The shared core (`sync_atomic_core_t`). -/
structure Core where
  refs : ℤ
  value : Int32
  deriving DecidableEq

/-- A native function over the core, without result where its behaviour is undefined. -/
abbrev Native (α : Type) := StateT Core Option α

/-- The number that a truth value is in C, and a `Bool` between MoonBit and C. -/
def ofBool (b : Bool) : Int32 := if b then 1 else 0

/-- The truth value of a number. -/
def toBool (x : Int32) : Bool := decide (x ≠ 0)

@[simp] theorem toBool_ofBool (b : Bool) : toBool (ofBool b) = b := by
  cases b <;> rfl

/-! ## Orderings -/

/-- The orderings of the compiler (`__ATOMIC_RELAXED` and so on). -/
inductive AtomicOrder
  | relaxed
  | acquire
  | release
  | acqRel
  | seqCst
  deriving DecidableEq

/-- `sync_memory_order`. -/
def memoryOrder (order : Int32) : AtomicOrder :=
  match order with
  | 0 => .relaxed
  | 1 => .acquire
  | 2 => .release
  | 3 => .acqRel
  | _ => .seqCst

namespace AtomicOrder

/-- The orderings for which `__atomic_load_n` is defined. -/
def forLoad : AtomicOrder → Bool
  | release | acqRel => false
  | _ => true

/-- The orderings for which `__atomic_store_n` is defined. -/
def forStore : AtomicOrder → Bool
  | acquire | acqRel => false
  | _ => true

/-- The second ordering gives all guarantees of the first. -/
def le : AtomicOrder → AtomicOrder → Bool
  | relaxed, _ => true
  | acquire, o => o = acquire ∨ o = acqRel ∨ o = seqCst
  | release, o => o = release ∨ o = acqRel ∨ o = seqCst
  | acqRel, o => o = acqRel ∨ o = seqCst
  | seqCst, o => o = seqCst

/-- The orderings for which `__atomic_compare_exchange_n` is defined: that of a failure is one of a
load, and not stronger than that of a success. -/
def forCompareExchange (success failure : AtomicOrder) : Bool :=
  failure.forLoad && failure.le success

end AtomicOrder

/-! ## The primitives -/

/-- `__atomic_load_n`. -/
def atomicLoadN (order : AtomicOrder) : Native Int32 := do
  guard order.forLoad
  return (← get).value

/-- `__atomic_store_n`. -/
def atomicStoreN (value : Int32) (order : AtomicOrder) : Native Unit := do
  guard order.forStore
  modify fun core => { core with value }

/-- `__atomic_exchange_n`, defined for every ordering. -/
def atomicExchangeN (value : Int32) (_order : AtomicOrder) : Native Int32 :=
  modifyGet fun core => (core.value, { core with value })

/-- `__atomic_fetch_add`, defined for every ordering. -/
def atomicFetchAdd (delta : Int32) (_order : AtomicOrder) : Native Int32 :=
  modifyGet fun core => (core.value, { core with value := core.value + delta })

/-- `__atomic_compare_exchange_n`: what it returns, and what `*expected` is afterwards, which it
writes only where it does not exchange. -/
def atomicCompareExchangeN (expected desired : Int32) (success failure : AtomicOrder) :
    Native (Bool × Int32) := do
  guard (success.forCompareExchange failure)
  let core ← get
  if core.value = expected then
    set { core with value := desired }
    return (true, expected)
  else
    return (false, core.value)

/-- `InterlockedExchange`. -/
def interlockedExchange (value : Int32) : Native Int32 :=
  modifyGet fun core => (core.value, { core with value })

/-- `InterlockedExchangeAdd`. -/
def interlockedExchangeAdd (delta : Int32) : Native Int32 :=
  modifyGet fun core => (core.value, { core with value := core.value + delta })

/-- `InterlockedCompareExchange`: it returns the value that it found. -/
def interlockedCompareExchange (exchange comparand : Int32) : Native Int32 := do
  let core ← get
  if core.value = comparand then
    set { core with value := exchange }
  return core.value

/-! ## The cell -/

/-- `sync_atomic_new`. -/
def atomicNew (value : Int32) : Core := { refs := 1, value }

/-- `sync_atomic_load_value`. -/
def loadValue : Platform → Int32 → Native Int32
  | .windows, _ => interlockedCompareExchange 0 0
  | .posix, order => atomicLoadN (memoryOrder order)

/-- `sync_atomic_store_value`. -/
def storeValue : Platform → Int32 → Int32 → Native Unit
  | .windows, value, _ => discard (interlockedExchange value)
  | .posix, value, order => atomicStoreN value (memoryOrder order)

/-- `sync_atomic_swap_value`. -/
def swapValue : Platform → Int32 → Int32 → Native Int32
  | .windows, value, _ => interlockedExchange value
  | .posix, value, order => atomicExchangeN value (memoryOrder order)

/-- The 64-bit result of `sync_atomic_compare_exchange_value`. -/
def packed (exchanged : Bool) (observed : Int32) : UInt64 :=
  exchanged.toUInt64 <<< 32 ||| observed.toUInt32.toUInt64

/-- `sync_atomic_compare_exchange_value`. -/
def compareExchangeValue :
    Platform → (current next success failure : Int32) → Native UInt64
  | .windows, current, next, _, _ => do
    let observed ← interlockedCompareExchange next current
    return packed (observed = current) observed
  | .posix, current, next, success, failure => do
    let (exchanged, observed) ←
      atomicCompareExchangeN current next (memoryOrder success) (memoryOrder failure)
    return packed exchanged observed

/-- `sync_atomic_fetch_add_value`. -/
def fetchAddValue : Platform → Int32 → Int32 → Native Int32
  | .windows, delta, _ => interlockedExchangeAdd delta
  | .posix, delta, order => atomicFetchAdd delta (memoryOrder order)

/-! ## The three types -/

/-- `sync_atomic_bool_new`. -/
def boolNew (value : Int32) : Core := atomicNew (ofBool (toBool value))

/-- `sync_atomic_bool_load`. -/
def boolLoad (p : Platform) (order : Int32) : Native Int32 := do
  return ofBool (toBool (← loadValue p order))

/-- `sync_atomic_bool_store`. -/
def boolStore (p : Platform) (next order : Int32) : Native Unit :=
  storeValue p (ofBool (toBool next)) order

/-- `sync_atomic_bool_swap`. -/
def boolSwap (p : Platform) (next order : Int32) : Native Int32 := do
  return ofBool (toBool (← swapValue p (ofBool (toBool next)) order))

/-- `sync_atomic_bool_compare_exchange`. -/
def boolCompareExchange (p : Platform) (current next success failure : Int32) : Native UInt64 :=
  compareExchangeValue p (ofBool (toBool current)) (ofBool (toBool next)) success failure

/-- `sync_atomic_int_new`. -/
def intNew (value : Int32) : Core := atomicNew value

/-- `sync_atomic_int_load`. -/
def intLoad (p : Platform) (order : Int32) : Native Int32 := loadValue p order

/-- `sync_atomic_int_store`. -/
def intStore (p : Platform) (next order : Int32) : Native Unit := storeValue p next order

/-- `sync_atomic_int_swap`. -/
def intSwap (p : Platform) (next order : Int32) : Native Int32 := swapValue p next order

/-- `sync_atomic_int_compare_exchange`. -/
def intCompareExchange (p : Platform) (current next success failure : Int32) : Native UInt64 :=
  compareExchangeValue p current next success failure

/-- `sync_atomic_int_fetch_add`. -/
def intFetchAdd (p : Platform) (delta order : Int32) : Native Int32 := fetchAddValue p delta order

/-- `sync_atomic_uint_new`. -/
def uintNew (value : UInt32) : Core := atomicNew value.toInt32

/-- `sync_atomic_uint_load`. -/
def uintLoad (p : Platform) (order : Int32) : Native UInt32 := do
  return (← loadValue p order).toUInt32

/-- `sync_atomic_uint_store`. -/
def uintStore (p : Platform) (next : UInt32) (order : Int32) : Native Unit :=
  storeValue p next.toInt32 order

/-- `sync_atomic_uint_swap`. -/
def uintSwap (p : Platform) (next : UInt32) (order : Int32) : Native UInt32 := do
  return (← swapValue p next.toInt32 order).toUInt32

/-- `sync_atomic_uint_compare_exchange`. -/
def uintCompareExchange (p : Platform) (current next : UInt32) (success failure : Int32) :
    Native UInt64 :=
  compareExchangeValue p current.toInt32 next.toInt32 success failure

/-- `sync_atomic_uint_fetch_add`. -/
def uintFetchAdd (p : Platform) (delta : UInt32) (order : Int32) : Native UInt32 := do
  return (← fetchAddValue p delta.toInt32 order).toUInt32

end NativeSync.Atomic
