import Lldk.Base.AllocatorLocks
import Lldk.Lib.Hands
import Lldk.Lib.Outline

/-!
`__lldkAllocate` and `__lldkFree` of any number of threads, and what `__lldkGetAllocateStats`
reports of them.

* `lldkAllocate` and `lldkFree` are the code of a thread: `malloc`, the header, each load and each
  store of a counter and the release are actions of their own, between which other threads run.
  `alone_lldkAllocate`, `alone_lldkFree`: by themselves they are the functions of the sequential
  model.
* `Counting` adds the blocks that were returned and not given back, as a history; a block that is
  not among them cannot be freed.
* `Place` is where a thread stands, `Place.hand` the block that its call has, and `Accounts` the
  invariant: a counter shows the blocks of the history and those in the hands of the calls that
  have counted them.
* `counters_balance`: when no call is in progress, the counters show the blocks that are live.
-/

namespace Lldk

open Lib Lib.Threads Lib.Trace Process

/-! ## The steps in memory -/

namespace Process

/-- `malloc`, which leaves anything in the header. -/
def malloc (p : Process Object) (uMalloced junk : UInt64) (mem : Bool) :
    Option Nat × Process Object :=
  if mem then (some p.heap.next, { p with heap := (p.heap.alloc ⟨uMalloced, junk, none⟩).2 })
  else (none, p)

/-- `*((uint64_t *)pData) = uSize` -/
def writeHeader (p : Process Object) (a : Nat) (uSize : UInt64) : Process Object :=
  { p with heap := p.heap.modify a fun b => { b with uSize } }

/-- `*((uint64_t *)pOriginalMemory)` -/
def header (p : Process Object) (a : Nat) : Option UInt64 := (p.heap.cells a).map Block.uSize

def store (p : Process Object) (f : AllocateStats → AllocateStats) : Process Object :=
  { p with s_allocateStats := f p.s_allocateStats }

theorem header_writeHeader {p : Process Object} {a : Nat} {junk : UInt64}
    (h : p.header a = some junk) (uSize : UInt64) :
    (p.writeHeader a uSize).header a = some uSize := by
  obtain ⟨b, hb, -⟩ := Option.map_eq_some_iff.mp h
  simp only [header, writeHeader, Heap.cells_modify_self, hb, Option.map_some]

/-- `malloc` and the header, in one step. -/
theorem mallocWithHeader_eq (p : Process Object) (uSize junk : UInt64) (mem : Bool) :
    p.mallocWithHeader uSize mem =
      match p.malloc (uSize + headerSize) junk mem with
      | (none, p) => (none, p)
      | (some a, p) => (some a, p.writeHeader a uSize) := by
  cases mem with
  | false => rfl
  | true =>
    simp only [mallocWithHeader, malloc, if_true, writeHeader, Heap.modify, Heap.alloc,
      Function.update_self, Function.update_idem, Option.map_some]

end Process

/-- The counters of the allocations, or of the frees. -/
inductive Counters
  | allocated
  | freed

namespace Counters

def size : Counters → AllocateStats → UInt64
  | .allocated, s => s.uAllocatedSize
  | .freed, s => s.uFreedSize

def count : Counters → AllocateStats → UInt64
  | .allocated, s => s.uAllocatedCount
  | .freed, s => s.uFreedCount

def setSize : Counters → UInt64 → AllocateStats → AllocateStats
  | .allocated, uValue, s => { s with uAllocatedSize := uValue }
  | .freed, uValue, s => { s with uFreedSize := uValue }

def setCount : Counters → UInt64 → AllocateStats → AllocateStats
  | .allocated, uValue, s => { s with uAllocatedCount := uValue }
  | .freed, uValue, s => { s with uFreedCount := uValue }

/-- What adding `uStep` to a counter does to the difference of the two. -/
def moves (c : Counters) (uValue uStep : UInt64) : UInt64 :=
  match c with
  | .allocated => uValue + uStep
  | .freed => uValue - uStep

variable (c : Counters) (s : AllocateStats) (uStep : UInt64)

theorem liveSize_setSize :
    (c.setSize (c.size s + uStep) s).liveSize = c.moves s.liveSize uStep := by
  cases c with
  | allocated => exact s.liveSize_addAllocated uStep
  | freed => exact s.liveSize_addFreed uStep

theorem liveCount_setCount : (c.setCount (c.count s + 1) s).liveCount = c.moves s.liveCount 1 := by
  cases c with
  | allocated => exact s.liveCount_addAllocated 0
  | freed => exact s.liveCount_addFreed 0

theorem liveCount_setSize (uValue : UInt64) :
    (c.setSize uValue s).liveCount = s.liveCount := by
  cases c <;> rfl

theorem liveSize_setCount (uValue : UInt64) :
    (c.setCount uValue s).liveSize = s.liveSize := by
  cases c <;> rfl

end Counters

/-- What a call returns. -/
inductive Returned
  | pointer (pData : Option Nat)
  | unit
  | stats (rc : Int) (pAllocateStats : Option AllocateStats)
  deriving DecidableEq

/-- The block that a call has made. -/
def Returned.made : Returned → Option Nat
  | .pointer pData => pData
  | _ => none

abbrev CountingCode (α : Type) := Prog Mutex (Process Object) Unit α

namespace CountingCode

open Prog

/-! ## The code of a thread -/

def onProcess {α : Type} (f : Process Object → α × Process Object) : CountingCode α :=
  .act () (fun p => (f p).2) fun p => .ret (f p).1

def load {α : Type} (f : AllocateStats → α) : CountingCode α :=
  onProcess fun p => (f p.s_allocateStats, p)

def store (f : AllocateStats → AllocateStats) : CountingCode Unit :=
  onProcess fun p => ((), p.store f)

/-- `s_allocateStats.uAllocatedSize += uSize`, or the same of `uFreedSize`. -/
def addSize (c : Counters) (uSize : UInt64) : CountingCode Unit := do
  let uValue ← load c.size
  store (c.setSize (uValue + uSize))

/-- `s_allocateStats.uAllocatedCount++`, or the same of `uFreedCount`. -/
def addOne (c : Counters) : CountingCode Unit := do
  let uValue ← load c.count
  store (c.setCount (uValue + 1))

/-- The critical section. -/
def count (c : Counters) (uSize : UInt64) : CountingCode Unit := do
  addSize c uSize
  addOne c

def fail (t : Tid) (eErrorCode : ErrorCode) (r : Returned) : CountingCode Returned := do
  onProcess fun p => ((), p.lldkSetErrorCode t eErrorCode)
  return r

/-- After the critical section: the pointer is returned, or the block is released. -/
def finish (a : Nat) : Counters → CountingCode Returned
  | .allocated => pure (.pointer (some a))
  | .freed => do
    onProcess fun p => ((), p.freeBlock a)
    return .unit

def counted (c : Counters) (a : Nat) (uSize : UInt64) : CountingCode Returned := do
  lockGuard .registry (count c uSize)
  finish a c

/-- The block, once there is one. -/
def allocated (a : Nat) (uSize : UInt64) : CountingCode Returned := do
  onProcess fun p => ((), p.writeHeader a uSize)
  counted .allocated a uSize

/-- `__lldkAllocate` -/
def lldkAllocate (t : Tid) (uSize junk : UInt64) (mem : Bool) : CountingCode Returned := do
  match ← onProcess fun p => p.malloc (uSize + headerSize) junk mem with
  | none => fail t .kNoMemory (.pointer none)
  | some a => allocated a uSize

def readHeader (a : Nat) : CountingCode UInt64 :=
  .act () id fun p =>
    match p.header a with
    | none => .fault
    | some uSize => .ret uSize

/-- `__lldkFree` -/
def lldkFree (t : Tid) : Option Nat → CountingCode Returned
  | none => fail t .kInvalidParam .unit
  | some a => do
    let uSize ← readHeader a
    counted .freed a uSize

def copyStats : CountingCode Returned := do
  return .stats 0 (some (← load id))

/-- `__lldkGetAllocateStats`, with a buffer or a null pointer. -/
def lldkGetAllocateStats (t : Tid) (buffer : Bool) : CountingCode Returned :=
  if buffer then lockGuard .registry copyStats else fail t .kInvalidParam (.stats (-1) none)

/-! ## A call by itself -/

section Alone

variable (p : Process Object) (t : Tid)

@[simp] theorem alone_onProcess {α : Type} (f : Process Object → α × Process Object) :
    (onProcess f).alone p = some (f p) := rfl

theorem alone_counted (c : Counters) (a : Nat) (uSize : UInt64) :
    (counted c a uSize).alone p = (finish a c).alone
      (p.store fun s =>
        match c with
        | .allocated => s.addAllocated uSize
        | .freed => s.addFreed uSize) := by
  cases c <;> rfl

/-- **With nobody else around** the code is the function of the sequential model. -/
theorem alone_lldkAllocate (uSize junk : UInt64) (mem : Bool) :
    (lldkAllocate t uSize junk mem).alone p =
      some (.pointer (p.lldkAllocate t uSize mem).1, (p.lldkAllocate t uSize mem).2) := by
  simp only [lldkAllocate, Process.lldkAllocate, mallocWithHeader_eq p uSize junk, alone_bind,
    alone_onProcess, Option.bind_some]
  cases hm : p.malloc (uSize + headerSize) junk mem with
  | mk q p' =>
    cases q with
    | none => rfl
    | some a =>
      show (counted .allocated a uSize).alone (p'.writeHeader a uSize) = _
      rw [alone_counted]
      rfl

theorem alone_lldkFree (pMemory : Option Nat) :
    (lldkFree t pMemory).alone p =
      (p.lldkFree t pMemory).toOption.map fun p => (.unit, p) := by
  cases pMemory with
  | none => rfl
  | some a =>
    cases hb : p.heap.cells a with
    | none =>
      have hheader : p.header a = none := by rw [header, hb, Option.map_none]
      have hread : (readHeader a).alone p = none := by
        simp only [readHeader, alone, hheader, id]
      simp only [lldkFree, Process.lldkFree_dead hb, alone_bind, hread, Option.bind_none]
      rfl
    | some b =>
      have hheader : p.header a = some b.uSize := by rw [header, hb, Option.map_some]
      have hread : (readHeader a).alone p = some (b.uSize, p) := by
        simp only [readHeader, alone, hheader, id]
      simp only [lldkFree, Process.lldkFree_live hb, alone_bind, hread, Option.bind_some,
        alone_counted]
      rfl

theorem alone_lldkGetAllocateStats (buffer : Bool) :
    (lldkGetAllocateStats t buffer).alone p =
      some (.stats (p.lldkGetAllocateStats t buffer).1 (p.lldkGetAllocateStats t buffer).2.1,
        (p.lldkGetAllocateStats t buffer).2.2) := by
  cases buffer <;> rfl

end Alone

/-! ## Places -/

/-- Where a thread is on its way through the critical section; `uValue` is the counter that it has
loaded. -/
inductive Stage
  | lock
  | loadSize
  | storeSize (uValue : UInt64)
  | loadCount
  | storeCount (uValue : UInt64)
  | unlock

/-- Where a thread stands: what it does next. `uSize` is the size of the block `a`. -/
inductive Place
  | returned (r : Returned)
  | crashed
  | fails (eErrorCode : ErrorCode) (r : Returned)
  | malloc (uSize junk : UInt64) (mem : Bool)
  | writeHeader (a : Nat) (uSize : UInt64)
  | readHeader (a : Nat) (uSize : UInt64)
  | count (c : Counters) (stage : Stage) (a : Nat) (uSize : UInt64)
  | release (a : Nat) (uSize : UInt64)
  | lockStats
  | copyStats
  | unlockStats (s : AllocateStats)

/-- The places in a critical section. -/
def Place.locked : Place → Bool
  | .count _ .lock _ _ => false
  | .count .. => true
  | .copyStats | .unlockStats _ => true
  | _ => false

/-- What is left of a call in its critical section. -/
def closing (c : Counters) (a : Nat) (p : CountingCode Unit) : CountingCode Returned := do
  p >>= fun () => .unlock .registry (.ret ())
  finish a c

def left (t : Tid) : Place → CountingCode Returned
  | .returned r => .ret r
  | .crashed => .fault
  | .fails eErrorCode r => fail t eErrorCode r
  | .malloc uSize junk mem => lldkAllocate t uSize junk mem
  | .writeHeader a uSize => allocated a uSize
  | .readHeader a _ => lldkFree t (some a)
  | .count c .lock a uSize => counted c a uSize
  | .count c .loadSize a uSize => closing c a (count c uSize)
  | .count c (.storeSize uValue) a uSize =>
    closing c a do
      store (c.setSize (uValue + uSize))
      addOne c
  | .count c .loadCount a _ => closing c a (addOne c)
  | .count c (.storeCount uValue) a _ => closing c a (store (c.setCount (uValue + 1)))
  | .count c .unlock a _ => closing c a (pure ())
  | .release a _ => finish a .freed
  | .lockStats => lldkGetAllocateStats t true
  | .copyStats => copyStats >>= fun r => .unlock .registry (.ret r)
  | .unlockStats s => .unlock .registry (.ret (.stats 0 (some s)))

/-- The place after the critical section. -/
def Place.finish (a : Nat) (uSize : UInt64) : Counters → Place
  | .allocated => .returned (.pointer (some a))
  | .freed => .release a uSize

def next (t : Tid) : Place → Next Mutex (Process Object) Unit Returned Place
  | .returned r => .ret r
  | .crashed => .fault
  | .fails eErrorCode r => .act () (fun p => p.lldkSetErrorCode t eErrorCode) fun _ => .returned r
  | .malloc uSize junk mem =>
    .act () (fun p => (p.malloc (uSize + headerSize) junk mem).2) fun p =>
      match (p.malloc (uSize + headerSize) junk mem).1 with
      | none => .fails .kNoMemory (.pointer none)
      | some a => .writeHeader a uSize
  | .writeHeader a uSize =>
    .act () (fun p => p.writeHeader a uSize) fun _ => .count .allocated .lock a uSize
  | .readHeader a _ =>
    .act () id fun p =>
      match p.header a with
      | none => .crashed
      | some uSize => .count .freed .lock a uSize
  | .count c .lock a uSize => .lock .registry (.count c .loadSize a uSize)
  | .count c .loadSize a uSize =>
    .act () id fun p => .count c (.storeSize (c.size p.s_allocateStats)) a uSize
  | .count c (.storeSize uValue) a uSize =>
    .act () (fun p => p.store (c.setSize (uValue + uSize))) fun _ => .count c .loadCount a uSize
  | .count c .loadCount a uSize =>
    .act () id fun p => .count c (.storeCount (c.count p.s_allocateStats)) a uSize
  | .count c (.storeCount uValue) a uSize =>
    .act () (fun p => p.store (c.setCount (uValue + 1))) fun _ => .count c .unlock a uSize
  | .count c .unlock a uSize => .unlock .registry (.finish a uSize c)
  | .release a _ => .act () (fun p => p.freeBlock a) fun _ => .returned .unit
  | .lockStats => .lock .registry .copyStats
  | .copyStats => .act () id fun p => .unlockStats p.s_allocateStats
  | .unlockStats s => .unlock .registry (.returned (.stats 0 (some s)))

theorem left_eq (t : Tid) (φ : Place) : left t φ = (next t φ).prog (left t) := by
  cases φ with
  | malloc uSize junk mem =>
    refine congrArg (Prog.act () _) (funext fun p => ?_)
    dsimp only
    cases (p.malloc (uSize + headerSize) junk mem).1 <;> rfl
  | readHeader a uSize =>
    refine congrArg (Prog.act () id) (funext fun p => ?_)
    dsimp only
    cases p.header a <;> rfl
  | count c stage a uSize =>
    cases stage with
    | unlock => cases c <;> rfl
    | _ => rfl
  | _ => rfl

theorem held (t : Tid) (φ : Place) :
    (next t φ).Held (HoldsOnly .registry Place.locked) φ := by
  cases φ with
  | returned r => exact not_holdsOnly rfl
  | crashed => trivial
  | fails eErrorCode r => exact fun _ _ => Iff.rfl
  | malloc uSize junk mem =>
    intro p m
    dsimp only
    cases (p.malloc (uSize + headerSize) junk mem).1 <;> exact Iff.rfl
  | writeHeader a uSize => exact fun _ _ => Iff.rfl
  | readHeader a uSize =>
    intro p m
    dsimp only
    cases p.header a <;> exact Iff.rfl
  | count c stage a uSize =>
    cases stage with
    | lock => exact Next.held_lock rfl rfl
    | unlock => cases c <;> exact Next.held_unlock rfl rfl
    | _ => exact fun _ _ => Iff.rfl
  | release a uSize => exact fun _ _ => Iff.rfl
  | lockStats => exact Next.held_lock rfl rfl
  | copyStats => exact fun _ _ => Iff.rfl
  | unlockStats s => exact Next.held_unlock rfl rfl

def outline : Outline Tid Mutex (Process Object) Unit Returned Place where
  next := next
  left := left
  holds := HoldsOnly .registry Place.locked
  left_eq := left_eq
  held := held

/-! ## Hands -/

/-- The block that a call has, with its size. -/
def Place.hand : Place → Option (Nat × UInt64)
  | .writeHeader a uSize => some (a, uSize)
  | .readHeader a uSize => some (a, uSize)
  | .count _ _ a uSize => some (a, uSize)
  | .release a uSize => some (a, uSize)
  | _ => none

/-- The block that a call has and that a counter shows; `passed` are the stages after its store. -/
def Place.shown (passed : Stage → Bool) : Place → Option (Nat × UInt64)
  | .readHeader a uSize => some (a, uSize)
  | .count .allocated stage a uSize => if passed stage then some (a, uSize) else none
  | .count .freed stage a uSize => if passed stage then none else some (a, uSize)
  | _ => none

def Stage.sized : Stage → Bool
  | .loadCount | .storeCount _ | .unlock => true
  | _ => false

def Stage.numbered : Stage → Bool
  | .unlock => true
  | _ => false

theorem Place.hand_of_shown {passed : Stage → Bool} (φ : Place) (e : Nat × UInt64)
    (h : φ.shown passed = some e) : φ.hand = some e := by
  cases φ with
  | readHeader a uSize => exact h
  | count c stage a uSize =>
    cases c <;>
    · simp only [shown] at h
      split at h
      · first | exact h | cases h
      · first | exact h | cases h
  | _ => cases h

/-- The call has the same block at both places, and both counters show it alike. -/
structure Place.Same (φ φ' : Place) : Prop where
  hand : φ'.hand = φ.hand
  sized : φ'.shown Stage.sized = φ.shown Stage.sized
  numbered : φ'.shown Stage.numbered = φ.shown Stage.numbered

/-- Between two stages neither of which comes after a store. -/
theorem Place.same_count {c : Counters} {stage stage' : Stage} {a : Nat} {uSize : UInt64}
    (hsized : stage'.sized = stage.sized) (hnumbered : stage'.numbered = stage.numbered) :
    Place.Same (.count c stage a uSize) (.count c stage' a uSize) := by
  refine ⟨rfl, ?_, ?_⟩
  · cases c <;> simp only [shown, hsized]
  · cases c <;> simp only [shown, hnumbered]

/-- What a counter shows: the live blocks, and those in the hands. -/
def Balanced (passed : Stage → Bool) (w : UInt64 → Nat) (live : Ledger Nat UInt64)
    (place : Tid → Place) (uValue : UInt64) : Prop :=
  ∃ K, Hands.Tallies (Place.shown passed) live place K ∧ uValue = UInt64.ofNat (K.total w)

section Balanced

variable {passed : Stage → Bool} {w : UInt64 → Nat} {live : Ledger Nat UInt64}
  {place : Tid → Place} {φ : Place} {t : Tid} {uValue : UInt64} {a : Nat} {uSize : UInt64}

theorem apart_shown (passed : Stage → Bool) (A : Hands.Apart Place.hand live place) :
    Hands.Apart (Place.shown passed) live place :=
  A.mono Place.hand_of_shown

theorem Balanced.keep (h : Balanced passed w live place uValue)
    (hshown : φ.shown passed = (place t).shown passed) :
    Balanced passed w live (Function.update place t φ) uValue := by
  obtain ⟨K, T, hK⟩ := h
  exact ⟨K, T.keep hshown, hK⟩

/-- Thread `t` stores the counter. -/
theorem Balanced.pass {c : Counters} {stage : Stage} (stage' : Stage)
    (h : Balanced passed w live place uValue) (A : Hands.Apart Place.hand live place)
    (hplace : place t = .count c stage a uSize) (hstage : passed stage = false)
    (hstage' : passed stage' = true) :
    Balanced passed w live (Function.update place t (.count c stage' a uSize))
      (c.moves uValue (UInt64.ofNat (w uSize))) := by
  obtain ⟨K, T, rfl⟩ := h
  cases c with
  | allocated =>
    have A' : Hands.Apart Place.hand live
        (Function.update place t (.count .allocated stage' a uSize)) :=
      A.keep fun e he => by rwa [hplace]
    obtain ⟨hnot, T'⟩ := T.add (k := a) (v := uSize) (apart_shown passed A')
      (by simp [hplace, Place.shown, hstage]) (by simp [Place.shown, hstage'])
    refine ⟨K.insert a uSize, T', ?_⟩
    rw [Ledger.total_insert_of_notMem w hnot, UInt64.ofNat_add]
    exact UInt64.add_comm ..
  | freed =>
    obtain ⟨hK, T'⟩ := T.remove (t := t) (k := a) (v := uSize)
      (φ := .count .freed stage' a uSize) (apart_shown passed A)
      (by simp [hplace, Place.shown, hstage])
      (by simp [Place.shown, hstage'])
    refine ⟨K.erase a, T', ?_⟩
    rw [Ledger.total_erase w hK, UInt64.ofNat_add, UInt64.add_comm]
    exact UInt64.add_sub_cancel ..

/-- The block that thread `t` has counted becomes live. -/
theorem Balanced.put (h : Balanced passed w live place uValue)
    (A : Hands.Apart Place.hand live place)
    (hsome : (place t).shown passed = some (a, uSize)) (hnone : φ.shown passed = none) :
    Balanced passed w (live.insert a uSize) (Function.update place t φ) uValue := by
  obtain ⟨K, T, hK⟩ := h
  exact ⟨K, T.put (apart_shown passed A) hsome hnone, hK⟩

/-- Thread `t` gives a live block back, and the counter shows it still. -/
theorem Balanced.pick (h : Balanced passed w live place uValue)
    (A : Hands.Apart Place.hand live place) (hlive : live.lookup a = some uSize)
    (hnone : (place t).shown passed = none) (hsome : φ.shown passed = some (a, uSize)) :
    Balanced passed w (live.erase a) (Function.update place t φ) uValue := by
  obtain ⟨K, T, hK⟩ := h
  exact ⟨K, T.pick (apart_shown passed A) hlive hnone hsome, hK⟩

end Balanced

/-! ## The invariant -/

/-- What a thread knows of a counter that it has loaded. -/
def Stage.knows (c : Counters) (s : AllocateStats) : Stage → Prop
  | .storeSize uValue => uValue = c.size s
  | .storeCount uValue => uValue = c.count s
  | _ => True

/-- What a thread knows at a place. -/
def Place.knows (p : Process Object) : Place → Prop
  | .crashed => False
  | .fails _ r => r.made = none
  | .writeHeader a _ => ∃ junk, p.header a = some junk
  | .readHeader a uSize => p.header a = some uSize
  | .count c stage a uSize => p.header a = some uSize ∧ stage.knows c p.s_allocateStats
  | .release a uSize => p.header a = some uSize
  | _ => True

structure Accounts (p : Process Object) (live : Ledger Nat UInt64) (place : Tid → Place) :
    Prop where
  apart : Hands.Apart Place.hand live place
  sizes : Balanced Stage.sized UInt64.toNat live place p.s_allocateStats.liveSize
  counts : Balanced Stage.numbered (fun _ => 1) live place p.s_allocateStats.liveCount
  headers : ∀ a uSize, live.lookup a = some uSize → p.header a = some uSize
  knows : ∀ t, (place t).knows p

section Accounts

variable {p p' : Process Object} {live : Ledger Nat UInt64} {place : Tid → Place} {φ : Place}
  {t : Tid} {a : Nat} {uSize : UInt64}

/-- What is in a hand is in memory. -/
theorem Place.header_of_hand (h : φ.knows p) (hhand : φ.hand = some (a, uSize)) :
    ∃ uSize', p.header a = some uSize' := by
  cases φ with
  | writeHeader a uSize =>
    cases hhand
    exact h
  | readHeader a uSize =>
    cases hhand
    exact ⟨uSize, h⟩
  | count c stage a uSize =>
    cases hhand
    exact ⟨uSize, h.1⟩
  | release a uSize =>
    cases hhand
    exact ⟨uSize, h⟩
  | _ => cases hhand

/-- A thread knows what it knew while others leave its block alone, and the counters if it is in
the critical section. -/
theorem Place.knows_frame (h : φ.knows p)
    (hheader : ∀ a uSize, φ.hand = some (a, uSize) → p'.header a = p.header a)
    (hstats : φ.locked = true → p'.s_allocateStats = p.s_allocateStats) : φ.knows p' := by
  cases φ with
  | crashed => exact h
  | fails eErrorCode r => exact h
  | writeHeader a uSize =>
    obtain ⟨junk, h⟩ := h
    exact ⟨junk, (hheader a uSize rfl).trans h⟩
  | readHeader a uSize => exact (hheader a uSize rfl).trans h
  | count c stage a uSize =>
    refine ⟨(hheader a uSize rfl).trans h.1, ?_⟩
    cases stage with
    | lock => trivial
    | _ =>
      rw [hstats rfl]
      exact h.2
  | release a uSize => exact (hheader a uSize rfl).trans h
  | _ => trivial

/-- Fresh memory is not in a hand, and not live. -/
theorem Accounts.fresh (A : Accounts p live place) (t : Tid) (uSize : UInt64) :
    (place t).hand ≠ some (p.heap.next, uSize) := by
  intro h
  obtain ⟨uSize', hheader⟩ := Place.header_of_hand (A.knows t) h
  rw [header, p.heap.fresh _ (Nat.le_refl _)] at hheader
  cases hheader

theorem Accounts.fresh_live (A : Accounts p live place) : p.heap.next ∉ live := by
  intro h
  obtain ⟨uSize, h⟩ := Option.isSome_iff_exists.mp (AList.lookup_isSome.mpr h)
  have hheader := A.headers _ _ h
  rw [header, p.heap.fresh _ (Nat.le_refl _)] at hheader
  cases hheader

/-- After a step of thread `t` that leaves the blocks of the others alone, and the counters of
those in the critical section. -/
theorem Accounts.knows_of (A : Accounts p live place) (hknows : φ.knows p')
    (hheader : ∀ t' a uSize, t' ≠ t → (place t').hand = some (a, uSize) →
      p'.header a = p.header a)
    (hstats : ∀ t', t' ≠ t → (place t').locked = true →
      p'.s_allocateStats = p.s_allocateStats) (t' : Tid) :
    (Function.update place t φ t').knows p' := by
  refine (Function.forall_update_iff place fun _ φ' => φ'.knows p').mpr ⟨hknows, fun t' ht => ?_⟩ t'
  exact Place.knows_frame (A.knows t') (fun a uSize => hheader t' a uSize ht) (hstats t' ht)

/-- The steps that leave the blocks and the counters alone. -/
theorem Accounts.quiet (A : Accounts p live place) (hsame : (place t).Same φ)
    (hheap : p'.heap = p.heap) (hstats : p'.s_allocateStats = p.s_allocateStats)
    (hknows : φ.knows p') : Accounts p' live (Function.update place t φ) := by
  have hheader : ∀ a, p'.header a = p.header a := by
    intro a
    rw [header, hheap, header]
  refine ⟨A.apart.keep fun e he => by rwa [← hsame.hand], ?_, ?_, fun a uSize h => ?_, ?_⟩
  · rw [hstats]
    exact A.sizes.keep hsame.sized
  · rw [hstats]
    exact A.counts.keep hsame.numbered
  · rw [hheader]
    exact A.headers a uSize h
  · exact A.knows_of hknows (fun _ a _ _ _ => hheader a) fun _ _ _ => hstats

/-- `malloc` returns a block. -/
theorem Accounts.take (A : Accounts p live place) {uMalloced junk : UInt64}
    (hshown : ∀ passed, (place t).shown passed = none) :
    Accounts (p.malloc uMalloced junk true).2 live
      (Function.update place t (.writeHeader p.heap.next uSize)) := by
  have hheader : ∀ a junk', p.header a = some junk' →
      (p.malloc uMalloced junk true).2.header a = p.header a := by
    intro a junk' h
    obtain ⟨b, hb, -⟩ := Option.map_eq_some_iff.mp h
    exact congrArg (Option.map Block.uSize)
      ((Heap.cells_alloc_of_some _ hb).trans hb.symm)
  refine ⟨A.apart.take rfl A.fresh_live A.fresh, A.sizes.keep (hshown _).symm,
    A.counts.keep (hshown _).symm, fun a uSize h => ?_, A.knows_of ⟨junk, ?_⟩ ?_ fun _ _ _ => rfl⟩
  · rw [hheader a uSize (A.headers a uSize h)]
    exact A.headers a uSize h
  · exact congrArg (Option.map Block.uSize) (Heap.cells_alloc_self ..)
  · intro t' a uSize' _ hhand
    obtain ⟨junk', h⟩ := Place.header_of_hand (A.knows t') hhand
    exact hheader a junk' h

/-- A step on the block that thread `t` has. -/
theorem Accounts.own (A : Accounts p live place) (hsome : (place t).hand = some (a, uSize))
    (hhand : ∀ e, φ.hand = some e → (place t).hand = some e)
    (hsized : φ.shown Stage.sized = (place t).shown Stage.sized)
    (hnumbered : φ.shown Stage.numbered = (place t).shown Stage.numbered)
    (hheader : ∀ a', a' ≠ a → p'.header a' = p.header a')
    (hstats : p'.s_allocateStats = p.s_allocateStats)
    (hknows : φ.knows p') : Accounts p' live (Function.update place t φ) := by
  refine ⟨A.apart.keep hhand, ?_, ?_, fun a' uSize' h => ?_, ?_⟩
  · rw [hstats]
    exact A.sizes.keep hsized
  · rw [hstats]
    exact A.counts.keep hnumbered
  · have hne : a' ≠ a := by
      rintro rfl
      exact A.apart.pool hsome (AList.lookup_isSome.mp (by rw [h]; rfl))
    rw [hheader a' hne]
    exact A.headers a' uSize' h
  · refine A.knows_of hknows (fun t' a' uSize' ht h => hheader a' ?_) fun _ _ _ => hstats
    rintro rfl
    exact A.apart.not_other hsome ht uSize' h

/-- A store of thread `t`, in the critical section. -/
theorem Accounts.stores (A : Accounts p live place) {c : Counters} {stage stage' : Stage}
    (hplace : place t = .count c stage a uSize)
    (hlock : ∀ t', t' ≠ t → (place t').locked = false) {f : AllocateStats → AllocateStats}
    (hsizes : Balanced Stage.sized UInt64.toNat live
      (Function.update place t (.count c stage' a uSize)) (f p.s_allocateStats).liveSize)
    (hcounts : Balanced Stage.numbered (fun _ => 1) live
      (Function.update place t (.count c stage' a uSize)) (f p.s_allocateStats).liveCount)
    (hstage : stage'.knows c (f p.s_allocateStats)) :
    Accounts (p.store f) live (Function.update place t (.count c stage' a uSize)) := by
  have hknows := A.knows t
  rw [hplace] at hknows
  refine ⟨A.apart.keep fun e he => by rwa [hplace], hsizes, hcounts, A.headers,
    A.knows_of ⟨hknows.1, hstage⟩ (fun _ _ _ _ _ => rfl) fun t' ht h => ?_⟩
  rw [hlock t' ht] at h
  cases h

theorem Accounts.storesSize (A : Accounts p live place) {c : Counters} {uValue : UInt64}
    (hplace : place t = .count c (.storeSize uValue) a uSize)
    (hlock : ∀ t', t' ≠ t → (place t').locked = false) :
    Accounts (p.store (c.setSize (uValue + uSize))) live
      (Function.update place t (.count c .loadCount a uSize)) := by
  have hknows := A.knows t
  rw [hplace] at hknows
  obtain ⟨-, rfl⟩ := hknows
  refine A.stores hplace hlock ?_ ?_ trivial
  · have h := A.sizes.pass .loadCount A.apart hplace rfl rfl
    rwa [UInt64.ofNat_toNat, ← c.liveSize_setSize] at h
  · rw [c.liveCount_setSize]
    exact A.counts.keep (by rw [hplace]; cases c <;> rfl)

theorem Accounts.storesCount (A : Accounts p live place) {c : Counters} {uValue : UInt64}
    (hplace : place t = .count c (.storeCount uValue) a uSize)
    (hlock : ∀ t', t' ≠ t → (place t').locked = false) :
    Accounts (p.store (c.setCount (uValue + 1))) live
      (Function.update place t (.count c .unlock a uSize)) := by
  have hknows := A.knows t
  rw [hplace] at hknows
  obtain ⟨-, rfl⟩ := hknows
  refine A.stores hplace hlock ?_ ?_ trivial
  · rw [c.liveSize_setCount]
    exact A.sizes.keep (by rw [hplace]; cases c <;> rfl)
  · have h := A.counts.pass .unlock A.apart hplace rfl rfl
    rwa [show UInt64.ofNat 1 = 1 from rfl, ← c.liveCount_setCount] at h

/-- The block that thread `t` has made and counted is returned. -/
theorem Accounts.put (A : Accounts p live place)
    (hplace : place t = .count .allocated .unlock a uSize) :
    Accounts p (live.insert a uSize)
      (Function.update place t (.returned (.pointer (some a)))) := by
  have hknows := A.knows t
  rw [hplace] at hknows
  have hsome : (place t).hand = some (a, uSize) := by rw [hplace]; rfl
  refine ⟨A.apart.put hsome rfl, A.sizes.put A.apart (by rw [hplace]; rfl) rfl,
    A.counts.put A.apart (by rw [hplace]; rfl) rfl, fun a' uSize' h => ?_,
    A.knows_of trivial (fun _ _ _ _ _ => rfl) fun _ _ _ => rfl⟩
  by_cases ha : a' = a
  · subst ha
    rw [AList.lookup_insert] at h
    cases h
    exact hknows.1
  · rw [AList.lookup_insert_ne ha] at h
    exact A.headers a' uSize' h

/-- A live block is given to `lldkFree`. -/
theorem Accounts.pick (A : Accounts p live place) {r : Returned} (hplace : place t = .returned r)
    (hlive : live.lookup a = some uSize) :
    Accounts p (live.erase a) (Function.update place t (.readHeader a uSize)) := by
  have hmem : a ∈ live := AList.lookup_isSome.mp (by rw [hlive]; rfl)
  refine ⟨A.apart.pick hmem rfl, A.sizes.pick A.apart hlive (by rw [hplace]; rfl) rfl,
    A.counts.pick A.apart hlive (by rw [hplace]; rfl) rfl, fun a' uSize' h => ?_,
    A.knows_of (A.headers a uSize hlive) (fun _ _ _ _ _ => rfl) fun _ _ _ => rfl⟩
  have ha : a' ≠ a := by
    rintro rfl
    rw [AList.lookup_erase] at h
    cases h
  rw [AList.lookup_erase_ne ha] at h
  exact A.headers a' uSize' h

/-- The size that the call of a thread was asked for. -/
def Place.asked : Place → Option UInt64
  | .malloc uSize _ _ => some uSize
  | .writeHeader _ uSize => some uSize
  | .count .allocated _ _ uSize => some uSize
  | _ => none

theorem asked_go {φ₀ : Place} (h : (next t φ₀).Goes p φ p') (hasked : φ.asked = some uSize) :
    φ₀.asked = some uSize := by
  cases φ₀ with
  | returned r => exact absurd h (Next.not_goes_ret r)
  | crashed => exact absurd h Next.not_goes_fault
  | malloc uSize' junk mem =>
    obtain ⟨rfl, rfl⟩ := Next.goes_act h
    cases mem with
    | true => exact hasked
    | false => cases hasked
  | writeHeader a uSize' =>
    obtain ⟨rfl, rfl⟩ := Next.goes_act h
    exact hasked
  | readHeader a uSize' =>
    obtain ⟨rfl, rfl⟩ := Next.goes_act h
    cases hheader : p'.header a with
    | none =>
      simp only [hheader] at hasked
      cases hasked
    | some uSize'' =>
      simp only [hheader] at hasked
      cases hasked
  | count c stage a uSize' =>
    cases stage with
    | lock =>
      obtain ⟨rfl, rfl⟩ := Next.goes_lock h
      cases c <;> exact hasked
    | unlock =>
      obtain ⟨rfl, rfl⟩ := Next.goes_unlock h
      cases c <;> cases hasked
    | _ =>
      obtain ⟨rfl, rfl⟩ := Next.goes_act h
      cases c <;> exact hasked
  | lockStats =>
    obtain ⟨rfl, rfl⟩ := Next.goes_lock h
    cases hasked
  | unlockStats s =>
    obtain ⟨rfl, rfl⟩ := Next.goes_unlock h
    cases hasked
  | _ =>
    obtain ⟨rfl, rfl⟩ := Next.goes_act h
    cases hasked

/-- A step of thread `t` from the stages of a critical section, up to the last. -/
theorem accounts_count (A : Accounts p live place) {c : Counters} {stage : Stage}
    (hplace : place t = .count c stage a uSize) (hstage : stage ≠ .unlock)
    (hlock : (place t).locked = true → ∀ t', t' ≠ t → (place t').locked = false)
    (h : (next t (.count c stage a uSize)).Goes p φ p') :
    (∃ stage', φ = .count c stage' a uSize) ∧
      Accounts p' live (Function.update place t φ) := by
  have hknows := A.knows t
  rw [hplace] at hknows hlock
  cases stage with
  | lock =>
    obtain ⟨rfl, rfl⟩ := Next.goes_lock h
    refine ⟨⟨_, rfl⟩, A.quiet ?_ rfl rfl ⟨hknows.1, trivial⟩⟩
    rw [hplace]
    exact Place.same_count rfl rfl
  | loadSize =>
    obtain ⟨rfl, rfl⟩ := Next.goes_act h
    refine ⟨⟨_, rfl⟩, A.quiet ?_ rfl rfl ⟨hknows.1, rfl⟩⟩
    rw [hplace]
    exact Place.same_count rfl rfl
  | storeSize uValue =>
    obtain ⟨rfl, rfl⟩ := Next.goes_act h
    exact ⟨⟨_, rfl⟩, A.storesSize hplace (hlock rfl)⟩
  | loadCount =>
    obtain ⟨rfl, rfl⟩ := Next.goes_act h
    refine ⟨⟨_, rfl⟩, A.quiet ?_ rfl rfl ⟨hknows.1, rfl⟩⟩
    rw [hplace]
    exact Place.same_count rfl rfl
  | storeCount uValue =>
    obtain ⟨rfl, rfl⟩ := Next.goes_act h
    exact ⟨⟨_, rfl⟩, A.storesCount hplace (hlock rfl)⟩
  | unlock => exact absurd rfl hstage

/-- **A step** of thread `t`: it returns the block that it has made, or none. -/
theorem accounts_go (A : Accounts p live place)
    (hlock : (place t).locked = true → ∀ t', t' ≠ t → (place t').locked = false)
    (h : (next t (place t)).Goes p φ p') :
    (∃ a uSize, place t = .count .allocated .unlock a uSize ∧ φ = .returned (.pointer (some a)) ∧
      Accounts p' (live.insert a uSize) (Function.update place t φ)) ∨
    ((∀ r, φ = .returned r → r.made = none) ∧ Accounts p' live (Function.update place t φ)) := by
  have hknows := A.knows t
  cases hφ : place t with
  | returned r =>
    rw [hφ] at h
    exact absurd h (Next.not_goes_ret r)
  | crashed =>
    rw [hφ] at hknows
    exact hknows.elim
  | fails eErrorCode r =>
    rw [hφ] at h hknows
    obtain ⟨rfl, rfl⟩ := Next.goes_act h
    refine Or.inr ⟨fun r' hr => ?_, A.quiet ?_ rfl rfl trivial⟩
    · cases hr
      exact hknows
    · rw [hφ]
      exact ⟨rfl, rfl, rfl⟩
  | malloc uSize junk mem =>
    rw [hφ] at h
    obtain ⟨rfl, rfl⟩ := Next.goes_act h
    refine Or.inr ?_
    cases mem with
    | true => exact ⟨nofun, A.take fun passed => by rw [hφ]; rfl⟩
    | false =>
      refine ⟨nofun, A.quiet ?_ rfl rfl rfl⟩
      rw [hφ]
      exact ⟨rfl, rfl, rfl⟩
  | writeHeader a uSize =>
    rw [hφ] at h hknows
    obtain ⟨rfl, rfl⟩ := Next.goes_act h
    obtain ⟨junk, hjunk⟩ := hknows
    refine Or.inr ⟨nofun, A.own (a := a) (by rw [hφ]; rfl) (fun e he => by rwa [hφ]) ?_ ?_
      (fun a' ha => ?_) rfl ⟨?_, trivial⟩⟩
    · rw [hφ]
      rfl
    · rw [hφ]
      rfl
    · exact congrArg (Option.map Block.uSize) (Heap.cells_modify_ne _ ha)
    · exact header_writeHeader hjunk uSize
  | readHeader a uSize =>
    rw [hφ] at h hknows
    obtain ⟨rfl, rfl⟩ := Next.goes_act h
    have hheader : p'.header a = some uSize := hknows
    simp only [hheader]
    refine Or.inr ⟨nofun, A.quiet ?_ rfl rfl ⟨hheader, trivial⟩⟩
    rw [hφ]
    exact ⟨rfl, rfl, rfl⟩
  | count c stage a uSize =>
    rw [hφ] at h hknows
    cases stage with
    | unlock =>
      obtain ⟨rfl, rfl⟩ := Next.goes_unlock h
      cases c with
      | allocated => exact Or.inl ⟨a, uSize, rfl, rfl, A.put hφ⟩
      | freed =>
        refine Or.inr ⟨nofun, A.quiet ?_ rfl rfl hknows.1⟩
        rw [hφ]
        exact ⟨rfl, rfl, rfl⟩
    | _ =>
      obtain ⟨⟨stage', rfl⟩, A'⟩ := accounts_count A hφ nofun hlock h
      exact Or.inr ⟨nofun, A'⟩
  | release a uSize =>
    rw [hφ] at h
    obtain ⟨rfl, rfl⟩ := Next.goes_act h
    refine Or.inr ⟨fun r hr => by cases hr; rfl, A.own (a := a) (by rw [hφ]; rfl) nofun ?_ ?_
      (fun a' ha => ?_) rfl trivial⟩
    · rw [hφ]
      rfl
    · rw [hφ]
      rfl
    · exact congrArg (Option.map Block.uSize) (Heap.cells_free_ne ha)
  | lockStats =>
    rw [hφ] at h
    obtain ⟨rfl, rfl⟩ := Next.goes_lock h
    refine Or.inr ⟨nofun, A.quiet ?_ rfl rfl trivial⟩
    rw [hφ]
    exact ⟨rfl, rfl, rfl⟩
  | copyStats =>
    rw [hφ] at h
    obtain ⟨rfl, rfl⟩ := Next.goes_act h
    refine Or.inr ⟨nofun, A.quiet ?_ rfl rfl trivial⟩
    rw [hφ]
    exact ⟨rfl, rfl, rfl⟩
  | unlockStats s =>
    rw [hφ] at h
    obtain ⟨rfl, rfl⟩ := Next.goes_unlock h
    refine Or.inr ⟨fun r hr => by cases hr; rfl, A.quiet ?_ rfl rfl trivial⟩
    rw [hφ]
    exact ⟨rfl, rfl, rfl⟩

end Accounts

end CountingCode

/-! ## Runs -/

open CountingCode

inductive CountingCall
  | lldkAllocate (uSize junk : UInt64) (mem : Bool)
  | lldkFree (pMemory : Option Nat)
  | lldkGetAllocateStats (buffer : Bool)

def CountingCall.code (t : Tid) : CountingCall → CountingCode Returned
  | .lldkAllocate uSize junk mem => CountingCode.lldkAllocate t uSize junk mem
  | .lldkFree pMemory => CountingCode.lldkFree t pMemory
  | .lldkGetAllocateStats buffer => CountingCode.lldkGetAllocateStats t buffer

/-- The block that is given back. -/
def CountingCall.frees : CountingCall → Option Nat
  | .lldkFree pMemory => pMemory
  | _ => none

/-- The threads, and as a history the blocks that were returned and not given back, with the
sizes that were requested; `requested` is the last request of each thread. -/
structure Counting where
  config : Config Tid Mutex (Process Object) Unit Returned
  live : Ledger Nat UInt64
  requested : Tid → UInt64

inductive CountingFault
  | halt (h : Halt)
  | notLive
  deriving DecidableEq, Repr

namespace Counting

/-- Before the first call. -/
def start : Counting := ⟨⟨.init, fun _ => none, fun _ => .ret .unit⟩, ∅, fun _ => 0⟩

/-- Thread `t` has started a call. -/
def started (s : Counting) (t : Tid) : CountingCall → Counting
  | .lldkAllocate uSize _ _ => { s with requested := Function.update s.requested t uSize }
  | .lldkFree (some a) => { s with live := s.live.erase a }
  | _ => s

/-- Thread `t` has made a step. -/
def went (s : Counting) (t : Tid) (out : Option Returned) : Counting :=
  match out.bind Returned.made with
  | some a => { s with live := s.live.insert a (s.requested t) }
  | none => s

/-- No call is in progress. -/
def idle (s : Counting) : Prop := ∀ t, (s.config.progs t).result ≠ none

end Counting

def countingStep : Step Counting (Move Tid CountingCall) (Option Returned) CountingFault
  | s, .start t call =>
    if call.frees.all fun a => (s.live.lookup a).isSome then
      match callStep CountingCall.code s.config (.start t call) with
      | .error e => .error (.halt e)
      | .ok (c, out) => .ok ({ s.started t call with config := c }, out)
    else .error .notLive
  | s, .go t =>
    match callStep CountingCall.code s.config (.go t) with
    | .error e => .error (.halt e)
    | .ok (c, out) => .ok ({ s.went t out with config := c }, out)

namespace Counting

/-- Every thread stands at a place, the counters show what they have to, and what a call was asked
for is on record. -/
def Consistent (s : Counting) : Prop :=
  ∃ place, Stands outline s.config place ∧ Accounts s.config.shared s.live place ∧
    ∀ t uSize, (place t).asked = some uSize → s.requested t = uSize

variable {s s' : Counting}

theorem consistent_start : Consistent start := by
  refine ⟨fun _ => .returned .unit, ⟨fun t => rfl, fun m t => ⟨nofun, nofun⟩⟩,
    ⟨⟨nofun, nofun⟩, ?_, ?_, nofun, fun t => trivial⟩, nofun⟩
  · exact ⟨∅, Hands.tallies_empty fun t => rfl, rfl⟩
  · exact ⟨∅, Hands.tallies_empty fun t => rfl, rfl⟩

variable {place : Tid → Place} {t : Tid} {call : CountingCall} {out : Option Returned}
  {c : Config Tid Mutex (Process Object) Unit Returned}

theorem countingStep_start (h : countingStep s (.start t call) = .ok (s', out)) :
    (call.frees.all fun a => (s.live.lookup a).isSome) = true ∧
      ∃ c, threadStep CountingCall.code s.config (.start t call) = .ok (c, ()) ∧
        s' = { s.started t call with config := c } := by
  simp only [countingStep] at h
  split at h
  · rename_i hlive
    cases hc : callStep CountingCall.code s.config (.start t call) with
    | error e =>
      rw [hc] at h
      cases h
    | ok r =>
      rw [hc] at h
      cases h
      exact ⟨hlive, r.1, (callStep_start hc).1, rfl⟩
  · cases h

theorem countingStep_go (h : countingStep s (.go t) = .ok (s', out)) :
    ∃ c, threadStep CountingCall.code s.config (.go t) = .ok (c, ()) ∧
      out = (c.progs t).result ∧ s' = { s.went t out with config := c } := by
  simp only [countingStep] at h
  cases hc : callStep CountingCall.code s.config (.go t) with
  | error e =>
    rw [hc] at h
    cases h
  | ok r =>
    rw [hc] at h
    cases h
    exact ⟨r.1, (callStep_go hc).1, (callStep_go hc).2, rfl⟩

theorem returned_of_next {φ : Place} {r : Returned} (h : next t φ = .ret r) :
    φ = .returned r := by
  cases φ with
  | returned r' =>
    cases h
    rfl
  | count c stage a uSize => cases stage <;> cases h
  | _ => cases h

theorem started_requested_of_ne (s : Counting) (call : CountingCall) {t' : Tid} (ht : t' ≠ t) :
    (s.started t call).requested t' = s.requested t' := by
  cases call with
  | lldkAllocate uSize junk mem => exact Function.update_of_ne ht ..
  | lldkFree pMemory => cases pMemory <;> rfl
  | lldkGetAllocateStats buffer => rfl

/-- **A call** of thread `t` begins at the place of its code. -/
theorem consistent_call (hs : s.Consistent) {φ : Place} (hcode : call.code t = left t φ)
    (hlocked : φ.locked = false)
    (haccounts : ∀ place r, place t = .returned r → Accounts s.config.shared s.live place →
      Accounts s.config.shared (s.started t call).live (Function.update place t φ))
    (hasked : ∀ uSize, φ.asked = some uSize → (s.started t call).requested t = uSize)
    (h : threadStep CountingCall.code s.config (.start t call) = .ok (c, ())) :
    Consistent { s.started t call with config := c } := by
  obtain ⟨place, S, A, hrequested⟩ := hs
  obtain ⟨⟨r, hret⟩, hshared, S'⟩ := S.start hcode (not_holdsOnly hlocked) h
  refine ⟨_, S', ?_, ?_⟩
  · rw [hshared]
    exact haccounts place r (returned_of_next hret) A
  · refine (Function.forall_update_iff place fun t' φ' => ∀ uSize, φ'.asked = some uSize →
      (s.started t call).requested t' = uSize).mpr ⟨hasked, fun t' ht uSize h => ?_⟩
    rw [started_requested_of_ne s call ht]
    exact hrequested t' uSize h

/-- A call that is not given a block. -/
theorem accounts_call {φ : Place} {r : Returned} {p : Process Object} {live : Ledger Nat UInt64}
    (hplace : place t = .returned r) (A : Accounts p live place) (hhand : φ.hand = none)
    (hshown : ∀ passed, φ.shown passed = none) (hknows : φ.knows p) :
    Accounts p live (Function.update place t φ) := by
  refine A.quiet ?_ rfl rfl hknows
  rw [hplace]
  exact ⟨hhand, hshown _, hshown _⟩

theorem consistent_start_call (hs : s.Consistent)
    (hlive : (call.frees.all fun a => (s.live.lookup a).isSome) = true)
    (h : threadStep CountingCall.code s.config (.start t call) = .ok (c, ())) :
    Consistent { s.started t call with config := c } := by
  cases call with
  | lldkAllocate uSize junk mem =>
    refine consistent_call hs (φ := .malloc uSize junk mem) rfl rfl
      (fun place r hplace A => accounts_call hplace A rfl (fun _ => rfl) trivial)
      (fun uSize' hasked => ?_) h
    cases hasked
    exact Function.update_self ..
  | lldkFree pMemory =>
    cases pMemory with
    | none =>
      exact consistent_call hs (φ := .fails .kInvalidParam .unit) rfl rfl
        (fun place r hplace A => accounts_call hplace A rfl (fun _ => rfl) rfl) nofun h
    | some a =>
      obtain ⟨uSize, hlookup⟩ := Option.isSome_iff_exists.mp hlive
      exact consistent_call hs (φ := .readHeader a uSize) rfl rfl
        (fun place r hplace A => A.pick hplace hlookup) nofun h
  | lldkGetAllocateStats buffer =>
    cases buffer with
    | true =>
      exact consistent_call hs (φ := .lockStats) rfl rfl
        (fun place r hplace A => accounts_call hplace A rfl (fun _ => rfl) trivial) nofun h
    | false =>
      exact consistent_call hs (φ := .fails .kInvalidParam (.stats (-1) none)) rfl rfl
        (fun place r hplace A => accounts_call hplace A rfl (fun _ => rfl) rfl) nofun h

theorem consistent_go (hs : s.Consistent)
    (h : threadStep CountingCall.code s.config (.go t) = .ok (c, ())) :
    Consistent { s.went t (c.progs t).result with config := c } := by
  obtain ⟨place, S, A, hrequested⟩ := hs
  obtain ⟨φ, hgoes, S'⟩ := S.go h
  have hprog : c.progs t = left t φ := by
    rw [S'.progs t, Function.update_self]
    rfl
  have hasked : ∀ t' uSize, (Function.update place t φ t').asked = some uSize →
      s.requested t' = uSize :=
    (Function.forall_update_iff place fun t' φ' => ∀ uSize, φ'.asked = some uSize →
      s.requested t' = uSize).mpr ⟨fun uSize h => hrequested t uSize (asked_go hgoes h),
        fun t' _ => hrequested t'⟩
  rcases accounts_go A (fun hlocked t' ht => S.others_unlocked rfl hlocked ht) hgoes with
    ⟨a, uSize, hplace, rfl, A'⟩ | ⟨hmade, A'⟩
  · have hreq : s.requested t = uSize := hrequested t uSize (by rw [hplace]; rfl)
    rw [hprog]
    refine ⟨_, S', ?_, hasked⟩
    rw [← hreq] at A'
    exact A'
  · have hnone : (c.progs t).result.bind Returned.made = none := by
      cases hr : (c.progs t).result with
      | none => rfl
      | some r =>
        have hn := S'.next_of_result hr
        rw [Function.update_self] at hn
        exact hmade r (returned_of_next hn)
    rw [went, hnone]
    exact ⟨_, S', A', hasked⟩

theorem consistent_step {move : Move Tid CountingCall} {out : Option Returned}
    (hs : s.Consistent) (h : countingStep s move = .ok (s', out)) : s'.Consistent := by
  cases move with
  | start t call =>
    obtain ⟨hlive, c, hstep, rfl⟩ := countingStep_start h
    exact consistent_start_call hs hlive hstep
  | go t =>
    obtain ⟨c, hstep, rfl, rfl⟩ := countingStep_go h
    exact consistent_go hs hstep

theorem consistent_run {moves : List (Move Tid CountingCall)} {outs : List (Option Returned)}
    (h : run countingStep start moves = .ok (s, outs)) : s.Consistent :=
  run_invariant (fun _ _ _ _ hs hstep => consistent_step hs hstep) consistent_start h

/-- The header of a block that is given back is there to be read. -/
theorem not_crashed (hs : s.Consistent) (t : Tid) : s.config.progs t ≠ .fault := by
  obtain ⟨place, S, A, -⟩ := hs
  have hknows := A.knows t
  have hprog : s.config.progs t = (next t (place t)).prog (left t) := S.prog_eq t
  rw [hprog]
  generalize place t = φ at hknows
  intro h
  cases φ with
  | crashed => exact hknows
  | count c stage a uSize => cases stage <;> cases h
  | _ => cases h

theorem returned_of_idle (S : Stands outline s.config place) (hidle : s.idle) (t : Tid) :
    ∃ r, place t = .returned r := by
  obtain ⟨r, hr⟩ := Option.ne_none_iff_exists'.mp (hidle t)
  exact ⟨r, returned_of_next (S.next_of_result hr)⟩

/-- A call of `__lldkGetAllocateStats`, when no other call is in progress. -/
theorem run_stats (S : Stands outline s.config place) (hidle : s.idle) (t : Tid) :
    ∃ s', run countingStep s
        (.start t (.lldkGetAllocateStats true) :: List.replicate 3 (.go t)) =
      .ok (s', [none, none, none, some (.stats 0 (some s.config.shared.s_allocateStats))]) := by
  obtain ⟨r, hplace⟩ := returned_of_idle S hidle t
  have hprog : s.config.progs t = .ret r := by
    rw [S.progs t, hplace]
    rfl
  have hfree : s.config.owner .registry = none := by
    cases howner : s.config.owner .registry with
    | none => rfl
    | some t' =>
      obtain ⟨r', hplace'⟩ := returned_of_idle S hidle t'
      have hholds : outline.holds (place t') .registry := (S.owner .registry t').mp howner
      rw [hplace'] at hholds
      exact absurd hholds (not_holdsOnly rfl _)
  simp [run, List.replicate, countingStep, CountingCall.frees, callStep, threadStep, hprog, hfree,
    Except.map, CountingCall.code, CountingCode.lldkGetAllocateStats, Prog.lockGuard, started,
    went, Prog.result, copyStats, load, onProcess, Bind.bind, Prog.bind, Pure.pure, id]

/-- **The counters balance**: whatever the threads did and however their calls were interleaved,
when no call is in progress `__lldkGetAllocateStats` reports the total size and the number of the
blocks that were returned and not given back, modulo 2^64. -/
theorem counters_balance {moves : List (Move Tid CountingCall)} {outs : List (Option Returned)}
    (h : run countingStep start moves = .ok (s, outs)) (hidle : s.idle) (t : Tid) :
    ∃ s' stats, run countingStep s
        (.start t (.lldkGetAllocateStats true) :: List.replicate 3 (.go t)) =
      .ok (s', [none, none, none, some (.stats 0 (some stats))]) ∧
      stats.uAllocatedSize - stats.uFreedSize = UInt64.ofNat (s.live.total UInt64.toNat) ∧
      stats.uAllocatedCount - stats.uFreedCount = UInt64.ofNat s.live.entries.length := by
  obtain ⟨place, S, A, -⟩ := consistent_run h
  obtain ⟨s', hrun⟩ := run_stats S hidle t
  have hshown : ∀ passed t, (place t).shown passed = none := by
    intro passed t
    obtain ⟨r, hplace⟩ := returned_of_idle S hidle t
    rw [hplace]
    rfl
  refine ⟨s', _, hrun, ?_, ?_⟩
  · obtain ⟨K, T, hK⟩ := A.sizes
    rw [← T.total_eq (hshown _)]
    exact hK
  · obtain ⟨K, T, hK⟩ := A.counts
    rw [← Ledger.total_one, ← T.total_eq (hshown _)]
    exact hK

/-- A thread that did not move has no call in progress. -/
theorem progs_of_run {moves : List (Move Tid CountingCall)} {outs : List (Option Returned)}
    (h : run countingStep s moves = .ok (s', outs)) (ht : ∀ move ∈ moves, t ≠ move.thread) :
    s'.config.progs t = s.config.progs t := by
  induction moves generalizing s outs with
  | nil =>
    cases h
    rfl
  | cons move moves ih =>
    obtain ⟨d, out, outs', hstep, hrun, rfl⟩ := run_cons_eq_ok.mp h
    obtain ⟨hne, hrest⟩ := List.forall_mem_cons.mp ht
    rw [ih hrun hrest]
    cases move with
    | start t' call =>
      obtain ⟨-, c, hthread, rfl⟩ := countingStep_start hstep
      exact progs_of_ne hthread hne
    | go t' =>
      obtain ⟨c, hthread, -, rfl⟩ := countingStep_go hstep
      exact progs_of_ne hthread hne

theorem idle_of_run {moves : List (Move Tid CountingCall)} {outs : List (Option Returned)}
    (h : run countingStep start moves = .ok (s, outs))
    (hdone : ∀ move ∈ moves, (s.config.progs move.thread).result.isSome) : s.idle := by
  intro t
  by_cases ht : ∃ move ∈ moves, t = move.thread
  · obtain ⟨move, hmem, rfl⟩ := ht
    exact Option.isSome_iff_ne_none.mp (hdone move hmem)
  · rw [progs_of_run h fun move hmem he => ht ⟨move, hmem, he⟩]
    exact nofun

/-- Thread 1 allocates 100 bytes and thread 2 allocates 50, at once; thread 3 gives the block of
thread 1 back while thread 2 counts its own, and `malloc` fails for thread 1. -/
def interleaved : List (Move Tid CountingCall) :=
  List.flatten [[.start 1 (.lldkAllocate 100 7 true), .start 2 (.lldkAllocate 50 9 true)],
    [.go 1, .go 2, .go 2], List.replicate 7 (.go 1), [.start 3 (.lldkFree (some 0)), .go 2, .go 3],
    List.replicate 5 (.go 2), List.replicate 7 (.go 3),
    [.start 1 (.lldkAllocate 8 0 false), .go 1, .go 1]]

theorem counters_balance_interleaved :
    ∃ s outs, run countingStep start interleaved = .ok (s, outs) ∧
      outs.filterMap id = [.pointer (some 0), .pointer (some 1), .unit, .pointer none] ∧
      s.live.entries = [⟨1, 50⟩] ∧
      ∃ s' stats, run countingStep s
          (.start 1 (.lldkGetAllocateStats true) :: List.replicate 3 (.go 1)) =
        .ok (s', [none, none, none, some (.stats 0 (some stats))]) ∧
        stats.uAllocatedSize - stats.uFreedSize = UInt64.ofNat (s.live.total UInt64.toNat) ∧
        stats.uAllocatedCount - stats.uFreedCount = UInt64.ofNat s.live.entries.length := by
  obtain ⟨⟨s, outs⟩, h, hends⟩ := exists_of_any (x := run countingStep start interleaved)
    (P := fun r => decide (r.2.filterMap id =
        [.pointer (some 0), .pointer (some 1), .unit, .pointer none]) &&
      decide (r.1.live.entries = [⟨1, 50⟩]) &&
      interleaved.all fun move => (r.1.config.progs move.thread).result.isSome)
    (by decide +kernel)
  simp only [Bool.and_eq_true, decide_eq_true_eq, List.all_eq_true] at hends
  obtain ⟨⟨houts, hlive⟩, hdone⟩ := hends
  exact ⟨s, outs, h, houts, hlive, counters_balance h (idle_of_run h hdone) 1⟩

end Counting

end Lldk
