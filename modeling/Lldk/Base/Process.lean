import Lldk.Lib.Heap
import Lldk.Utilities.Bitset

/-!
The state that the library keeps for a process: its memory, the statics of `lldk_thread_local.cpp`
and `allocator_impl.cpp`, and the error code of every thread.

* `Block` is what one `malloc` returned: the size it was asked for, the header that the
  allocation functions write, and the object placed in it.
* `Process.log` is history, read by no function: the objects created and destroyed and the
  blocks released.
* `Fault` is what C++ leaves undefined, and a lock that never returns: an access through a null
  table or outside one, and the use of a block that is gone, its second release included.
* `lldkAllocate`, `lldkFree`, `lldkGetAllocateStats`: the counted allocation functions, which the
  source exports with two leading underscores.
-/

namespace Lldk

open Lib Lldk.Bitset

/-- A thread. -/
abbrev Tid := Nat

inductive ErrorCode
  | kUnknown
  | kSuccess
  | kDebug
  | kInfo
  | kWarn
  | kError
  | kEvent
  | kSystemCallError
  | kThrowException
  | kNoMemory
  | kInvalidParam
  | kInvalidState
  | kInvalidCall
  | kCallFailed
  deriving DecidableEq, Repr

/-- `IAllocator::AllocateStats` -/
structure AllocateStats where
  uTid : UInt64
  uAllocatedSize : UInt64
  uAllocatedCount : UInt64
  uFreedSize : UInt64
  uFreedCount : UInt64
  deriving DecidableEq, Repr

namespace AllocateStats

/-- `{0, 0, 0, 0, 0}` -/
def zero : AllocateStats := ⟨0, 0, 0, 0, 0⟩

def addAllocated (s : AllocateStats) (uSize : UInt64) : AllocateStats :=
  { s with
    uAllocatedSize := s.uAllocatedSize + uSize
    uAllocatedCount := s.uAllocatedCount + 1 }

def addFreed (s : AllocateStats) (uSize : UInt64) : AllocateStats :=
  { s with
    uFreedSize := s.uFreedSize + uSize
    uFreedCount := s.uFreedCount + 1 }

/-- The bytes that a record shows as live. -/
def liveSize (s : AllocateStats) : UInt64 := s.uAllocatedSize - s.uFreedSize

/-- The blocks that a record shows as live. -/
def liveCount (s : AllocateStats) : UInt64 := s.uAllocatedCount - s.uFreedCount

@[simp] theorem liveSize_zero : zero.liveSize = 0 := rfl

@[simp] theorem liveCount_zero : zero.liveCount = 0 := rfl

@[simp] theorem liveSize_addAllocated (s : AllocateStats) (uSize : UInt64) :
    (s.addAllocated uSize).liveSize = s.liveSize + uSize := by
  simp only [liveSize, addAllocated]
  grind

@[simp] theorem liveCount_addAllocated (s : AllocateStats) (uSize : UInt64) :
    (s.addAllocated uSize).liveCount = s.liveCount + 1 := by
  simp only [liveCount, addAllocated]
  grind

@[simp] theorem liveSize_addFreed (s : AllocateStats) (uSize : UInt64) :
    (s.addFreed uSize).liveSize = s.liveSize - uSize := by
  simp only [liveSize, addFreed]
  grind

@[simp] theorem liveCount_addFreed (s : AllocateStats) (uSize : UInt64) :
    (s.addFreed uSize).liveCount = s.liveCount - 1 := by
  simp only [liveCount, addFreed]
  grind

end AllocateStats

/-- `LldkThreadLocalBase::kMaxInstanceId` -/
def kMaxInstanceId : Nat := 2048

def kInvalidInstanceId : Nat := kMaxInstanceId

/-- `LldkBitset<kMaxInstanceId>` -/
def instanceIds : BitsetSize where
  kSize := kMaxInstanceId
  fits := by decide
  asserted := by decide

/-- `sizeof(uint64_t)`, the size of the header before every payload. -/
def headerSize : UInt64 := 8

structure Block (β : Type) where
  uMalloced : UInt64
  uSize : UInt64
  object : Option β

/-- The table that a thread's `s_ppInstances` points to: its block and its entries, of which
those below `kMaxInstanceId` exist. -/
structure SlotTable where
  addr : Nat
  slots : Nat → Option Nat

inductive Event
  | created (a : Nat)
  | destroyed (a : Nat)
  | freed (a : Nat)
  deriving DecidableEq, Repr

inductive Fault
  /-- `s_ppInstances[..]` while `s_ppInstances` is null -/
  | nullTable
  | slotRange (uInstanceId : Nat)
  | bitRange (uIndex : Nat)
  /-- a block that is gone is used, or an object in a block where there is none -/
  | deadObject (a : Nat)
  /-- an exception leaves a destructor -/
  | terminate (what : String)
  /-- `lock` does not return on a mutex that the thread itself holds -/
  | hangs (t : Tid)
  deriving DecidableEq, Repr

structure Process (β : Type) where
  heap : Heap (Block β)
  s_allocateStats : AllocateStats
  s_bitset : LldkBitset instanceIds
  /-- The thread-local pointer of every thread. -/
  s_ppInstances : Tid → Option SlotTable
  /-- The registered tables, by the thread that owns them. -/
  s_vecpppInstances : List Tid
  s_eErrorCode : Tid → ErrorCode
  log : List Event

variable {β : Type}

namespace Process

/-- Before the first call. -/
def init : Process β :=
  ⟨Heap.empty, .zero, .new, fun _ => none, [], fun _ => .kSuccess, []⟩

def lldkSetErrorCode (p : Process β) (t : Tid) (eErrorCode : ErrorCode) : Process β :=
  { p with s_eErrorCode := Function.update p.s_eErrorCode t eErrorCode }

def note (p : Process β) (e : Event) : Process β := { p with log := p.log ++ [e] }

/-- `new(pStorage) T()`, when the constructor does not throw. -/
def placeObject (p : Process β) (a : Nat) (value : β) : Process β :=
  { p.note (.created a) with
    heap := p.heap.modify a fun b => { b with object := some value } }

/-- The block `a` without its object. -/
def emptied (p : Process β) (a : Nat) : Process β :=
  { p.note (.destroyed a) with
    heap := p.heap.modify a fun b => { b with object := none } }

/-- `p->~T()` -/
def destroyObject (p : Process β) (a : Nat) : Except Fault (Process β) :=
  match p.heap.cells a with
  | none => .error (.deadObject a)
  | some _ => .ok (p.emptied a)

/-- `malloc(uSize + sizeof(uint64_t))` and the header; `mem` says whether `malloc` succeeds. -/
def mallocWithHeader (p : Process β) (uSize : UInt64) (mem : Bool) : Option Nat × Process β :=
  if mem then
    (some p.heap.next, { p with heap := (p.heap.alloc ⟨uSize + headerSize, uSize, none⟩).2 })
  else (none, p)

/-- `::free` of the block of a payload. -/
def freeBlock (p : Process β) (a : Nat) : Process β :=
  { p.note (.freed a) with heap := p.heap.free a }

/-- `__lldkAllocate`, called by thread `t`. -/
def lldkAllocate (p : Process β) (t : Tid) (uSize : UInt64) (mem : Bool) :
    Option Nat × Process β :=
  match p.mallocWithHeader uSize mem with
  | (none, p) => (none, p.lldkSetErrorCode t .kNoMemory)
  | (some a, p) => (some a, { p with s_allocateStats := p.s_allocateStats.addAllocated uSize })

/-- The block `a`, whose header says `uSize`, is counted as freed, and gone. -/
def released (p : Process β) (a : Nat) (uSize : UInt64) : Process β :=
  { p with s_allocateStats := p.s_allocateStats.addFreed uSize }.freeBlock a

/-- `__lldkFree`, called by thread `t`. -/
def lldkFree (p : Process β) (t : Tid) (pMemory : Option Nat) : Except Fault (Process β) :=
  match pMemory with
  | none => .ok (p.lldkSetErrorCode t .kInvalidParam)
  | some a =>
    match p.heap.cells a with
    | none => .error (.deadObject a)
    | some b => .ok (p.released a b.uSize)

/-- `__lldkGetAllocateStats` with a buffer (`buffer = true`) or a null pointer. -/
def lldkGetAllocateStats (p : Process β) (t : Tid) (buffer : Bool) :
    Int × Option AllocateStats × Process β :=
  if buffer then (0, some p.s_allocateStats, p) else (-1, none, p.lldkSetErrorCode t .kInvalidParam)

end Process

end Lldk
