import Lldk.Base.Allocator
import Lldk.Lib.Threads

/-!
The functions of the library with the mutexes they lock, as programs of threads.

* `Mutex` are the three mutexes: `s_mutex` of `allocator_impl.cpp`, the local one of
  `lldkGetAllocatorSingleton`, and `s_mutex` of `lldk_thread_local.cpp`.
* Each function is the one of the sequential model with its lock guards, in actions between which
  other threads may come; `call` is what a thread may start.
* `alone_lldkCreateAllocator`, `alone_lldkDestroyAllocator` and the lemmas before them: by itself,
  with every mutex granted, a program does what the sequential function does.
-/

namespace Lldk

open Lib Lib.Threads Process Library

inductive Mutex
  /-- `s_mutex` of `allocator_impl.cpp` -/
  | registry
  /-- `s_mutex` in `lldkGetAllocatorSingleton` -/
  | singleton
  /-- `s_mutex` of `lldk_thread_local.cpp` -/
  | ids
  deriving DecidableEq, Repr

/-- The actions that are told apart. -/
inductive Site
  | plain
  /-- the look at the slot of id `i` in `~LldkThreadLocal` -/
  | destructs (uInstanceId : Nat)

abbrev LibraryCode (α : Type) := Prog Mutex Library Site α

namespace LibraryCode

open Prog

/-! ## Actions -/

def onLibrary {α : Type} (f : Library → Except Fault (α × Library)) : LibraryCode α :=
  attempt .plain f

def onProcess {α : Type} (f : Process Object → Except Fault (α × Process Object)) :
    LibraryCode α :=
  onLibrary fun l => (f l.proc).map fun r => (r.1, l.withProc r.2)

def modify (f : Process Object → Process Object) : LibraryCode Unit :=
  onProcess fun p => .ok ((), f p)

def read {α : Type} (f : Library → α) : LibraryCode α := onLibrary fun l => .ok (f l, l)

def setErrorCode (t : Tid) (eErrorCode : ErrorCode) : LibraryCode Unit :=
  modify fun p => p.lldkSetErrorCode t eErrorCode

def destroyObject (a : Nat) : LibraryCode Unit :=
  onProcess fun p => (p.destroyObject a).map fun p => ((), p)

/-! ## `lldk_thread_local.cpp` and the counted allocation -/

def newInstanceId : LibraryCode Nat := lockGuard .ids (onProcess fun p => p.newInstanceId)

def deleteInstanceId (uInstanceId : Nat) : LibraryCode Unit :=
  lockGuard .ids (onProcess fun p => (p.deleteInstanceId uInstanceId).map fun p => ((), p))

def lldkAllocate (t : Tid) (uSize : UInt64) (mem : Bool) : LibraryCode (Option Nat) := do
  match ← onProcess fun p => .ok (p.mallocWithHeader uSize mem) with
  | none =>
    setErrorCode t .kNoMemory
    return none
  | some a =>
    lockGuard .registry (modify fun p =>
      { p with s_allocateStats := p.s_allocateStats.addAllocated uSize })
    return some a

/-- `::free` of a block that may have gone since its header was read. -/
def freeBlock (a : Nat) : LibraryCode Unit :=
  onProcess fun p =>
    match p.heap.cells a with
    | none => .error (.deadObject a)
    | some _ => .ok ((), p.freeBlock a)

def lldkFree (t : Tid) (pMemory : Option Nat) : LibraryCode Unit :=
  match pMemory with
  | none => setErrorCode t .kInvalidParam
  | some a => do
    match ← read fun l => l.proc.heap.cells a with
    | none => .fault
    | some b =>
      lockGuard .registry (modify fun p =>
        { p with s_allocateStats := p.s_allocateStats.addFreed b.uSize })
      freeBlock a

def createInstances (t : Tid) (env : Env) : LibraryCode Bool := do
  match ← lldkAllocate t tableSize env.tableMem with
  | none =>
    setErrorCode t .kNoMemory
    return false
  | some a =>
    modify fun p => p.withTable t ⟨a, fun _ => none⟩
    let pushed ← lockGuard .ids (onProcess fun p =>
      if env.pushMem then .ok (true, { p with s_vecpppInstances := p.s_vecpppInstances ++ [t] })
      else .ok (false, p))
    if pushed then return true
    else
      lldkFree t (some a)
      modify fun p => { p with s_ppInstances := Function.update p.s_ppInstances t none }
      setErrorCode t .kThrowException
      return false

def setThreadLocalStorage (t : Tid) (uInstanceId : Nat) (pStorage : Option Nat) (env : Env) :
    LibraryCode Int :=
  match pStorage with
  | none => do
    setErrorCode t .kInvalidParam
    return -1
  | some a =>
    if uInstanceId = kInvalidInstanceId then do
      setErrorCode t .kInvalidParam
      return -1
    else do
      let ready ←
        match ← read fun l => l.proc.s_ppInstances t with
        | some _ => pure true
        | none => createInstances t env
      if ready then
        onProcess fun p => (p.storeSlot t uInstanceId a).map fun p => ((), p)
        return 0
      else return -1

/-! ## `LldkThreadLocal` -/

def constructThreadLocal (T : ObjectType Object) (t : Tid) (env : Env) :
    LibraryCode Constructed := do
  let uInstanceId ← newInstanceId
  if uInstanceId = kInvalidInstanceId then return .threw "Failed to create instance id"
  else
    match ← lldkAllocate t T.size env.storageMem with
    | none => return .threw "Failed to create storage"
    | some pStorage =>
      if env.ctorThrows then return .threw "T()"
      else
        modify fun p => p.placeObject pStorage T.value
        let rc ← setThreadLocalStorage t uInstanceId (some pStorage) env
        if rc ≠ 0 then
          lldkFree t (some pStorage)
          deleteInstanceId uInstanceId
          return .threw "Failed to set thread local storage"
        else return .object ⟨uInstanceId⟩ pStorage

def destructThreadLocal (t : Tid) (obj : LldkThreadLocal) : LibraryCode Unit := do
  match ← attempt (.destructs obj.m_uInstanceId) fun l =>
      (l.proc.getThreadLocalStorage t obj.m_uInstanceId).map fun q => (q, l) with
  | none => deleteInstanceId obj.m_uInstanceId
  | some pStorage =>
    destroyObject pStorage
    lldkFree t (some pStorage)
    let _ ← setThreadLocalStorage t obj.m_uInstanceId none {}
    deleteInstanceId obj.m_uInstanceId

/-! ## `AllocatorImpl` -/

def constructAllocator (t : Tid) (pName : String) (env : Env) :
    LibraryCode (Except String AllocatorImpl) :=
  if env.nameMem then do
    match ← constructThreadLocal statsType t env with
    | .threw what => return .error what
    | .object obj _ => return .ok ⟨pName, 0, obj⟩
  else pure (.error "std::bad_alloc")

def destroyAllocator (t : Tid) (a : Nat) : LibraryCode Unit := do
  match ← read fun l => l.proc.readAllocator a with
  | none => .fault
  | some al =>
    destructThreadLocal t al.m_allocatorThreadLocal
    destroyObject a

def newAllocator (t : Tid) (pName : String) (env : CallEnv) : LibraryCode (Except String Nat) :=
  if env.objectMem then do
    let a ← onProcess fun p => .ok (p.heap.next, { p with
      heap := (p.heap.alloc ⟨sizeofAllocatorImpl, sizeofAllocatorImpl, none⟩).2 })
    match ← constructAllocator t pName env.toEnv with
    | .error what =>
      modify fun p => p.freeBlock a
      return .error what
    | .ok al =>
      modify fun p => p.placeObject a (.allocator al)
      return .ok a
  else pure (.error "std::bad_alloc")

def newObject (t : Tid) (self : AllocatorImpl) (pName : String) (env : CallEnv) :
    LibraryCode (Except String (Option Nat)) := do
  match ← onProcess fun p => self.allocate p t sizeofAllocatorImpl env.objectMem with
  | none => return .ok none
  | some pMemory =>
    match ← constructAllocator t pName env.toEnv with
    | .error what =>
      onProcess fun p => (self.free p t (some pMemory)).map fun p => ((), p)
      return .error what
    | .ok al =>
      modify fun p => p.placeObject pMemory (.allocator al)
      return .ok (some pMemory)

def deleteObject (t : Tid) (self : AllocatorImpl) (pObject : Nat) : LibraryCode Unit := do
  destroyAllocator t pObject
  onProcess fun p => (self.free p t (some pObject)).map fun p => ((), p)

def getAllocateStats (t : Tid) (self : AllocatorImpl) (pAllocateStats : Option (List AllocateStats))
    (pThreadCount : Option UInt32) :
    LibraryCode (Int × Option (List AllocateStats) × Option UInt32) :=
  let body := onProcess fun p =>
    (self.getAllocateStats p t pAllocateStats pThreadCount).map fun r =>
      ((r.1, r.2.1, r.2.2.1), r.2.2.2)
  if pAllocateStats.isSome && pThreadCount.isSome then lockGuard .ids body else body

/-! ## The exported functions -/

def lldkGetAllocatorSingleton (t : Tid) (env : CallEnv) :
    LibraryCode (Except String (Option Nat)) := do
  match ← read fun l => l.s_pAllocator with
  | some a => return .ok (some a)
  | none =>
    lockGuard .singleton do
      match ← read fun l => l.s_pAllocator with
      | some a => return .ok (some a)
      | none =>
        match ← newAllocator t "lldk.global.allocator" env.forSingleton with
        | .error what => return .error what
        | .ok a =>
          onLibrary fun l => .ok ((), { l with s_pAllocator := some a })
          let rc ← onProcess fun p => p.initAllocator a 0
          if rc ≠ 0 then
            destroyAllocator t a
            modify fun p => p.freeBlock a
            setErrorCode t .kNoMemory
            return .ok none
          else return .ok (some a)

def deleteAllocatorImpl (t : Tid) (pAllocator : Nat) (env : CallEnv) : LibraryCode Unit := do
  match ← lldkGetAllocatorSingleton t env with
  | .error _ => .fault
  | .ok none => setErrorCode t .kInvalidState
  | .ok (some s) =>
    match ← read fun l => l.proc.readAllocator s with
    | none => .fault
    | some pAllocatorSingleton => deleteObject t pAllocatorSingleton pAllocator

def createCheck (t : Tid) (pName : String) (env : CallEnv) : LibraryCode (Except String Bool) :=
  lockGuard .registry <|
    if env.keyMem then do
      match ← read fun l => l.find pName with
      | some _ =>
        setErrorCode t .kInvalidParam
        return .ok false
      | none => return .ok true
    else pure (.error "std::bad_alloc")

def createObject (t : Tid) (pName : String) (uMaxSizeMB : UInt64) (env : CallEnv) :
    LibraryCode (Except String (Option Nat)) := do
  match ← lldkGetAllocatorSingleton t env with
  | .error what => return .error what
  | .ok none =>
    setErrorCode t .kInvalidState
    return .ok none
  | .ok (some s) =>
    match ← read fun l => l.proc.readAllocator s with
    | none => .fault
    | some pAllocatorSingleton =>
      match ← newObject t pAllocatorSingleton pName env with
      | .error what => return .error what
      | .ok none =>
        setErrorCode t .kNoMemory
        return .ok none
      | .ok (some a) =>
        let rc ← onProcess fun p => p.initAllocator a uMaxSizeMB
        if rc ≠ 0 then
          setErrorCode t .kNoMemory
          deleteAllocatorImpl t a env
          return .ok none
        else return .ok (some a)

/-- How `emplace` ends. -/
inductive Emplaced
  | done
  /-- it throws, before or after it took the pointer -/
  | threw (took : Bool)

def emplace (t : Tid) (pName : String) (pAllocator : Nat) (env : CallEnv) :
    LibraryCode Emplaced :=
  if env.nodeMem then do
    match ← read fun l => l.find pName with
    | some _ =>
      deleteAllocatorImpl t pAllocator env
      return .done
    | none =>
      if env.rehashMem then
        onLibrary fun l =>
          .ok ((), { l with s_pAllocatorMap := l.s_pAllocatorMap ++ [(pName, pAllocator)] })
        return .done
      else
        deleteAllocatorImpl t pAllocator env
        return .threw true
  else pure (.threw false)

def createEmplace (t : Tid) (pName : String) (pAllocator : Nat) (env : CallEnv) :
    LibraryCode (Option Nat) := do
  match ← lockGuard .registry (emplace t pName pAllocator env) with
  | .done => return some pAllocator
  | .threw true =>
    setErrorCode t .kThrowException
    return none
  | .threw false =>
    setErrorCode t .kThrowException
    deleteAllocatorImpl t pAllocator env
    return none

def lldkCreateAllocator (t : Tid) (pName : Option String) (uMaxSizeMB : UInt64) (env : CallEnv) :
    LibraryCode (Except String (Option Nat)) :=
  match pName with
  | none => do
    setErrorCode t .kInvalidParam
    return .ok none
  | some pName => do
    match ← createCheck t pName env with
    | .error what => return .error what
    | .ok false => return .ok none
    | .ok true =>
      match ← createObject t pName uMaxSizeMB env with
      | .error what => return .error what
      | .ok none => return .ok none
      | .ok (some a) =>
        let q ← createEmplace t pName a env
        return .ok q

/-- The critical section of `lldkDestroyAllocator`. -/
def eraseAllocator (t : Tid) (pAllocator : Nat) (env : CallEnv) :
    LibraryCode (Except String Unit) := do
  match ← read fun l => l.proc.readAllocator pAllocator with
  | none => .fault
  | some pAllocatorImpl =>
    if env.keyMem then
      if (← read fun l => l.find pAllocatorImpl.getName) = some pAllocator then
        onLibrary fun l => .ok ((), l.erase pAllocatorImpl.getName)
        deleteAllocatorImpl t pAllocator env
        return .ok ()
      else return .ok ()
    else return .error "std::bad_alloc"

def lldkDestroyAllocator (t : Tid) (pAllocator : Option Nat) (env : CallEnv) :
    LibraryCode (Except String Unit) :=
  match pAllocator with
  | none => do
    setErrorCode t .kInvalidParam
    return .ok ()
  | some a => do
    match ← read fun l => l.proc.readAllocator a with
    | none => .fault
    | some _ =>
      match ← lockGuard .registry (eraseAllocator t a env) with
      | .error what => return .error what
      | .ok () =>
        setErrorCode t .kInvalidParam
        return .ok ()

def lldkGetAllocateStats (t : Tid) (buffer : Bool) : LibraryCode (Int × Option AllocateStats) :=
  if buffer then
    lockGuard .registry (onProcess fun p => .ok (((p.lldkGetAllocateStats t true).1,
      (p.lldkGetAllocateStats t true).2.1), (p.lldkGetAllocateStats t true).2.2))
  else do
    setErrorCode t .kInvalidParam
    return (-1, none)

/-- What a thread may call. -/
inductive Call
  | lldkCreateAllocator (pName : Option String) (uMaxSizeMB : UInt64) (env : CallEnv)
  | lldkDestroyAllocator (pAllocator : Option Nat) (env : CallEnv)
  | lldkGetAllocatorSingleton (env : CallEnv)
  | getAllocateStats (pAllocator : Nat) (pAllocateStats : Option (List AllocateStats))
    (pThreadCount : Option UInt32)
  | lldkAllocate (uSize : UInt64) (mem : Bool)
  | lldkFree (pMemory : Option Nat)
  | lldkGetAllocateStats (buffer : Bool)
  /-- an `AllocatorImpl` that the registry does not know -/
  | newAllocator (pName : String) (env : CallEnv)
  | destroyAllocator (pAllocator : Nat)

/-- The code of a call; what it returns is not looked at. -/
def call (t : Tid) : Call → LibraryCode Unit
  | .lldkCreateAllocator pName uMaxSizeMB env => do
    let _ ← lldkCreateAllocator t pName uMaxSizeMB env
  | .lldkDestroyAllocator pAllocator env => do
    let _ ← lldkDestroyAllocator t pAllocator env
  | .lldkGetAllocatorSingleton env => do
    let _ ← lldkGetAllocatorSingleton t env
  | .getAllocateStats a pAllocateStats pThreadCount => do
    match ← read fun l => l.proc.readAllocator a with
    | none => .fault
    | some al =>
      let _ ← getAllocateStats t al pAllocateStats pThreadCount
  | .lldkAllocate uSize mem => do
    let _ ← lldkAllocate t uSize mem
  | .lldkFree pMemory => lldkFree t pMemory
  | .lldkGetAllocateStats buffer => do
    let _ ← lldkGetAllocateStats t buffer
  | .newAllocator pName env => do
    let _ ← newAllocator t pName env
  | .destroyAllocator a => destroyAllocator t a

/-! ## The programs by themselves -/

section Alone

variable (l : Library) (t : Tid)

@[simp] theorem alone_onLibrary {α : Type} (f : Library → Except Fault (α × Library)) :
    (onLibrary f).alone l = (f l).toOption := alone_attempt ..

@[simp] theorem alone_onProcess {α : Type}
    (f : Process Object → Except Fault (α × Process Object)) :
    (onProcess f).alone l = (f l.proc).toOption.map fun r => (r.1, l.withProc r.2) := by
  unfold onProcess
  rw [alone_onLibrary]
  cases f l.proc <;> rfl

@[simp] theorem alone_modify (f : Process Object → Process Object) :
    (modify f).alone l = some ((), l.withProc (f l.proc)) := by
  unfold modify
  rw [alone_onProcess]
  rfl

@[simp] theorem alone_read {α : Type} (f : Library → α) :
    (read f).alone l = some (f l, l) := alone_onLibrary ..

@[simp] theorem alone_setErrorCode (e : ErrorCode) :
    (setErrorCode t e).alone l = some ((), l.lldkSetErrorCode t e) := alone_modify ..

@[simp] theorem alone_newInstanceId :
    newInstanceId.alone l = l.proc.newInstanceId.toOption.map fun r => (r.1, l.withProc r.2) := by
  unfold newInstanceId
  rw [alone_lockGuard, alone_onProcess]

@[simp] theorem alone_deleteInstanceId (i : Nat) :
    (deleteInstanceId i).alone l =
      (l.proc.deleteInstanceId i).toOption.map fun p => ((), l.withProc p) := by
  unfold deleteInstanceId
  rw [alone_lockGuard, alone_onProcess]
  cases l.proc.deleteInstanceId i <;> rfl

@[simp] theorem alone_lldkAllocate (uSize : UInt64) (mem : Bool) :
    (lldkAllocate t uSize mem).alone l =
      some ((l.proc.lldkAllocate t uSize mem).1,
        l.withProc (l.proc.lldkAllocate t uSize mem).2) := by
  unfold lldkAllocate
  cases mem with
  | false => rfl
  | true => rfl

@[simp] theorem alone_destroyObject (a : Nat) :
    (destroyObject a).alone l =
      (l.proc.destroyObject a).toOption.map fun p => ((), l.withProc p) := by
  unfold destroyObject
  rw [alone_onProcess]
  cases l.proc.destroyObject a <;> rfl

theorem alone_freeBlock {a : Nat} {b : Block Object} (hc : l.proc.heap.cells a = some b) :
    (freeBlock a).alone l = some ((), l.withProc (l.proc.freeBlock a)) := by
  unfold freeBlock
  rw [alone_onProcess, hc]
  rfl

@[simp] theorem alone_lldkFree (pMemory : Option Nat) :
    (lldkFree t pMemory).alone l =
      (l.proc.lldkFree t pMemory).toOption.map fun p => ((), l.withProc p) := by
  cases pMemory with
  | none => rfl
  | some a =>
    unfold lldkFree
    rw [alone_bind, alone_read]
    cases hc : l.proc.heap.cells a with
    | none =>
      simp only [Option.bind_some, Process.lldkFree_dead hc]
      rfl
    | some b =>
      simp only [Option.bind_some, Process.lldkFree_live hc, alone_bind, alone_lockGuard,
        alone_modify]
      exact alone_freeBlock _ hc

/-- A table that cannot be registered is taken back, as if it had not been there. -/
theorem alone_createInstances (env : Env) (ht : l.proc.s_ppInstances t = none) :
    (createInstances t env).alone l =
      (l.proc.createInstances t env).toOption.map fun r => (r.1, l.withProc r.2) := by
  unfold createInstances
  rw [alone_bind, alone_lldkAllocate]
  cases htable : env.tableMem with
  | false =>
    simp only [Process.createInstances, htable]
    rfl
  | true =>
    cases hpush : env.pushMem with
    | true =>
      simp only [Process.createInstances, htable, hpush, if_true]
      rfl
    | false =>
      have hback : ∀ table, Function.update (Function.update l.proc.s_ppInstances t (some table)) t
          none = l.proc.s_ppInstances := by
        intro table
        rw [Function.update_idem, ← ht, Function.update_eq_self]
      have hcell : (l.proc.heap.alloc ⟨tableSize + headerSize, tableSize, none⟩).2.cells
          l.proc.heap.next = some ⟨tableSize + headerSize, tableSize, none⟩ :=
        Heap.cells_alloc_self _ _
      have hseq : l.proc.lldkAllocate t tableSize true =
          (some l.proc.heap.next, { l.proc with
            heap := (l.proc.heap.alloc ⟨tableSize + headerSize, tableSize, none⟩).2
            s_allocateStats := l.proc.s_allocateStats.addAllocated tableSize }) := rfl
      simp only [Process.createInstances, htable, hpush, hseq, Option.bind_some, alone_bind,
        alone_modify, alone_lockGuard, alone_onProcess, alone_lldkFree, alone_setErrorCode,
        alone_pure, Process.lldkFree, Process.released, Process.freeBlock, Process.note,
        Library.withProc, Process.withTable, hcell, hback,
        Except.toOption, Option.map_some, Bool.false_eq_true, if_false]
      rfl

@[simp] theorem alone_setThreadLocalStorage (i : Nat) (q : Option Nat) (env : Env) :
    (setThreadLocalStorage t i q env).alone l =
      (l.proc.setThreadLocalStorage t i q env).toOption.map fun r => (r.1, l.withProc r.2) := by
  cases q with
  | none => rfl
  | some a =>
    by_cases hi : i = kInvalidInstanceId
    · simp only [setThreadLocalStorage, Process.setThreadLocalStorage, hi, if_true]
      rfl
    · simp only [setThreadLocalStorage, Process.setThreadLocalStorage, hi, if_false, alone_bind,
        alone_read, Option.bind_some]
      cases ht : l.proc.s_ppInstances t with
      | some table =>
        simp only [alone_pure, Option.bind_some, if_true, alone_bind, alone_onProcess]
        cases l.proc.storeSlot t i a <;> rfl
      | none =>
        simp only [alone_bind, alone_createInstances l t env ht]
        rcases l.proc.createInstances t env with f | ⟨ready, p⟩
        · rfl
        · cases ready with
          | false => rfl
          | true =>
            simp only [Except.toOption, Option.map_some, Option.bind_some, if_true, alone_bind,
              alone_onProcess, Library.withProc]
            cases p.storeSlot t i a <;> rfl

@[simp] theorem alone_constructThreadLocal (T : ObjectType Object) (env : Env) :
    (constructThreadLocal T t env).alone l =
      (LldkThreadLocal.construct T l.proc t env).toOption.map fun r => (r.1, l.withProc r.2) := by
  unfold constructThreadLocal LldkThreadLocal.construct
  rw [alone_bind, alone_newInstanceId]
  cases l.proc.newInstanceId with
  | error f => rfl
  | ok r =>
    obtain ⟨i, p⟩ := r
    by_cases hi : i = kInvalidInstanceId
    · simp only [Except.toOption, Option.map_some, Option.bind_some, hi, if_true]
      rfl
    · simp only [Except.toOption, Option.map_some, Option.bind_some, hi, if_false, alone_bind,
        alone_lldkAllocate, LldkThreadLocal.setUp, Library.withProc]
      rcases ha : p.lldkAllocate t T.size env.storageMem with ⟨q, p₁⟩
      cases q with
      | none => rfl
      | some a =>
        cases hthrows : env.ctorThrows with
        | true => rfl
        | false =>
          simp only [Bool.false_eq_true, if_false, alone_bind, alone_modify,
            alone_setThreadLocalStorage, Option.bind_some, Library.withProc]
          cases (p₁.placeObject a T.value).setThreadLocalStorage t i (some a) env with
          | error f => rfl
          | ok r =>
            obtain ⟨rc, p₂⟩ := r
            simp only [Except.toOption, Option.map_some, Option.bind_some]
            by_cases hrc : rc ≠ 0
            · rw [if_pos hrc, if_pos hrc]
              simp only [alone_bind, alone_lldkFree, Library.withProc]
              cases p₂.lldkFree t (some a) with
              | error f => rfl
              | ok p₃ =>
                simp only [Except.toOption, Option.map_some, Option.bind_some,
                  alone_deleteInstanceId]
                cases p₃.deleteInstanceId i <;> rfl
            · rw [if_neg hrc, if_neg hrc]
              rfl

@[simp] theorem alone_destructThreadLocal (obj : LldkThreadLocal) :
    (destructThreadLocal t obj).alone l =
      (obj.destruct l.proc t).toOption.map fun p => ((), l.withProc p) := by
  unfold destructThreadLocal LldkThreadLocal.destruct
  rw [alone_bind, alone_attempt]
  cases l.proc.getThreadLocalStorage t obj.m_uInstanceId with
  | error f => rfl
  | ok q =>
    cases q with
    | none =>
      simp only [Except.map, Except.toOption, Option.bind_some, alone_deleteInstanceId]
    | some a =>
      simp only [Except.map, Except.toOption, Option.bind_some, alone_bind, alone_destroyObject]
      cases l.proc.destroyObject a with
      | error f => rfl
      | ok p₁ =>
        simp only [Option.map_some, Option.bind_some, alone_lldkFree, Library.withProc]
        cases p₁.lldkFree t (some a) with
        | error f => rfl
        | ok p₂ =>
          simp only [Except.toOption, Option.map_some, Option.bind_some,
            alone_setThreadLocalStorage, setThreadLocalStorage_null, alone_deleteInstanceId,
            Library.withProc]

@[simp] theorem alone_constructAllocator (pName : String) (env : Env) :
    (constructAllocator t pName env).alone l =
      (AllocatorImpl.construct l.proc t pName env).toOption.map fun r => (r.1, l.withProc r.2) := by
  unfold constructAllocator AllocatorImpl.construct
  cases env.nameMem with
  | false => rfl
  | true =>
    simp only [if_true, alone_bind, alone_constructThreadLocal]
    match LldkThreadLocal.construct statsType l.proc t env with
    | .error f => rfl
    | .ok (.threw what, p) => rfl
    | .ok (.object obj a, p) => rfl

@[simp] theorem alone_destroyAllocator (a : Nat) :
    (destroyAllocator t a).alone l =
      (l.proc.destroyAllocator t a).toOption.map fun p => ((), l.withProc p) := by
  unfold destroyAllocator Process.destroyAllocator
  rw [alone_bind, alone_read, Option.bind_some]
  cases l.proc.readAllocator a with
  | none => rfl
  | some al =>
    simp only [alone_bind, alone_destructThreadLocal]
    show _ = Option.map _ (Except.toOption (al.m_allocatorThreadLocal.destruct l.proc t >>= _))
    cases al.m_allocatorThreadLocal.destruct l.proc t with
    | error f => rfl
    | ok p =>
      simp only [Except.toOption, Option.map_some, Option.bind_some, alone_destroyObject,
        Library.withProc]
      show _ = Option.map _ (Except.toOption (p.destroyObject a))
      cases p.destroyObject a <;> rfl

@[simp] theorem alone_newAllocator (pName : String) (env : CallEnv) :
    (newAllocator t pName env).alone l =
      (l.proc.newAllocator t pName env).toOption.map fun r => (r.1, l.withProc r.2) := by
  unfold newAllocator Process.newAllocator
  cases env.objectMem with
  | false => rfl
  | true =>
    simp only [if_true, alone_bind, alone_onProcess, Except.toOption, Option.map_some,
      Option.bind_some, alone_constructAllocator, Library.withProc]
    match AllocatorImpl.construct { l.proc with heap := (l.proc.heap.alloc
        ⟨sizeofAllocatorImpl, sizeofAllocatorImpl, none⟩).2 } t pName env.toEnv with
    | .error f => rfl
    | .ok (.error what, p) => rfl
    | .ok (.ok al, p) => rfl

@[simp] theorem alone_newObject (self : AllocatorImpl) (pName : String) (env : CallEnv) :
    (newObject t self pName env).alone l =
      (self.newObject l.proc t pName env).toOption.map fun r => (r.1, l.withProc r.2) := by
  unfold newObject AllocatorImpl.newObject
  rw [alone_bind, alone_onProcess]
  match self.allocate l.proc t sizeofAllocatorImpl env.objectMem with
  | .error f => rfl
  | .ok (none, p) => rfl
  | .ok (some a, p) =>
    simp only [Except.toOption, Option.map_some, Option.bind_some, alone_bind,
      alone_constructAllocator, Library.withProc]
    show _ = Option.map _ (Except.toOption (AllocatorImpl.construct p t pName env.toEnv >>= _))
    match AllocatorImpl.construct p t pName env.toEnv with
    | .error f => rfl
    | .ok (.ok al, p₁) => rfl
    | .ok (.error what, p₁) =>
      simp only [Except.toOption, Option.map_some, Option.bind_some, alone_bind, alone_onProcess]
      show _ = Option.map _ (Except.toOption (self.free p₁ t (some a) >>= _))
      cases self.free p₁ t (some a) <;> rfl

@[simp] theorem alone_deleteObject (self : AllocatorImpl) (a : Nat) :
    (deleteObject t self a).alone l =
      (self.deleteObject l.proc t a).toOption.map fun p => ((), l.withProc p) := by
  unfold deleteObject AllocatorImpl.deleteObject
  rw [alone_bind, alone_destroyAllocator]
  cases l.proc.destroyAllocator t a with
  | error f => rfl
  | ok p =>
    simp only [Except.toOption, Option.map_some, Option.bind_some, alone_onProcess,
      Library.withProc]
    show _ = Option.map _ (Except.toOption (self.free p t (some a)))
    cases self.free p t (some a) <;> rfl

@[simp] theorem alone_lldkGetAllocatorSingleton (env : CallEnv) :
    (lldkGetAllocatorSingleton t env).alone l = (l.lldkGetAllocatorSingleton t env).toOption := by
  unfold lldkGetAllocatorSingleton Library.lldkGetAllocatorSingleton
  rw [alone_bind, alone_read, Option.bind_some]
  cases hs : l.s_pAllocator with
  | some a => rfl
  | none =>
    simp only [alone_lockGuard, alone_bind, alone_read, Option.bind_some, hs, alone_newAllocator]
    show _ = Except.toOption (l.proc.newAllocator t "lldk.global.allocator" env.forSingleton >>= _)
    match l.proc.newAllocator t "lldk.global.allocator" env.forSingleton with
    | .error f => rfl
    | .ok (.error what, p) => rfl
    | .ok (.ok a, p) =>
      simp only [Except.toOption, Option.map_some, Option.bind_some, alone_bind, alone_onLibrary,
        alone_onProcess, Library.withProc]
      show _ = Except.toOption (p.initAllocator a 0 >>= _)
      match p.initAllocator a 0 with
      | .error f => rfl
      | .ok (rc, p₁) =>
        simp only [Option.map_some, Option.bind_some]
        show _ = Except.toOption (if rc ≠ 0 then p₁.destroyAllocator t a >>= _ else _)
        by_cases hrc : rc ≠ 0
        · rw [if_pos hrc, if_pos hrc]
          simp only [alone_bind, alone_destroyAllocator]
          cases p₁.destroyAllocator t a <;> rfl
        · rw [if_neg hrc, if_neg hrc]
          rfl

@[simp] theorem alone_deleteAllocatorImpl (a : Nat) (env : CallEnv) :
    (deleteAllocatorImpl t a env).alone l =
      (l.deleteAllocatorImpl t a env).toOption.map fun l => ((), l) := by
  unfold deleteAllocatorImpl Library.deleteAllocatorImpl
  rw [alone_bind, alone_lldkGetAllocatorSingleton]
  match l.lldkGetAllocatorSingleton t env with
  | .error f => rfl
  | .ok (.error what, l₁) => rfl
  | .ok (.ok none, l₁) => rfl
  | .ok (.ok (some s), l₁) =>
    simp only [Except.toOption, Option.bind_some, alone_bind, alone_read]
    show _ = Option.map _ (Except.toOption (match l₁.proc.readAllocator s with
      | none => .error (.deadObject s)
      | some al => al.deleteObject l₁.proc t a >>= _))
    cases l₁.proc.readAllocator s with
    | none => rfl
    | some al =>
      simp only [alone_deleteObject]
      cases al.deleteObject l₁.proc t a <;> rfl

@[simp] theorem alone_createCheck (pName : String) (env : CallEnv) :
    (createCheck t pName env).alone l = some (l.createCheck t pName env) := by
  unfold createCheck Library.createCheck
  rw [alone_lockGuard]
  cases env.keyMem with
  | false => rfl
  | true =>
    simp only [if_true, alone_bind, alone_read, Option.bind_some]
    cases l.find pName <;> rfl

@[simp] theorem alone_createObject (pName : String) (uMaxSizeMB : UInt64) (env : CallEnv) :
    (createObject t pName uMaxSizeMB env).alone l =
      (l.createObject t pName uMaxSizeMB env).toOption := by
  unfold createObject Library.createObject
  rw [alone_bind, alone_lldkGetAllocatorSingleton]
  rcases l.lldkGetAllocatorSingleton t env with f | ⟨what | _ | s, l₁⟩
  · rfl
  · rfl
  · rfl
  · simp only [Except.toOption, Option.bind_some, alone_bind, alone_read]
    show _ = Except.toOption (match l₁.proc.readAllocator s with
      | none => .error (.deadObject s)
      | some al => al.newObject l₁.proc t pName env >>= _)
    cases l₁.proc.readAllocator s with
    | none => rfl
    | some al =>
      simp only [alone_bind, alone_newObject]
      show _ = Except.toOption (al.newObject l₁.proc t pName env >>= _)
      rcases al.newObject l₁.proc t pName env with f | ⟨what | _ | a, p⟩
      · rfl
      · rfl
      · rfl
      · simp only [Except.toOption, Option.map_some, Option.bind_some, alone_bind, alone_onProcess,
          Library.withProc]
        show _ = Except.toOption (p.initAllocator a uMaxSizeMB >>= _)
        rcases p.initAllocator a uMaxSizeMB with f | ⟨rc, p₁⟩
        · rfl
        · simp only [Option.map_some, Option.bind_some]
          show _ = Except.toOption (if rc ≠ 0 then
            (({ l₁ with proc := p₁ } : Library).lldkSetErrorCode t .kNoMemory).deleteAllocatorImpl t
              a env >>= _ else _)
          by_cases hrc : rc ≠ 0
          · rw [if_pos hrc, if_pos hrc]
            simp only [alone_bind, alone_setErrorCode, Option.bind_some, alone_deleteAllocatorImpl]
            cases (({ l₁ with proc := p₁ } : Library).lldkSetErrorCode t
              .kNoMemory).deleteAllocatorImpl t a env <;> rfl
          · rw [if_neg hrc, if_neg hrc]
            rfl

theorem deleteUnderLock_granted (a : Nat) {env : CallEnv} (hrelock : env.relock = true) :
    l.deleteUnderLock t a env = l.deleteAllocatorImpl t a env := by
  simp only [deleteUnderLock, hrelock, Bool.not_true, Bool.and_false, Bool.false_eq_true, if_false]

@[simp] theorem alone_createEmplace (pName : String) (a : Nat) {env : CallEnv}
    (hrelock : env.relock = true) :
    (createEmplace t pName a env).alone l = (l.createEmplace t pName a env).toOption := by
  unfold createEmplace Library.createEmplace emplace
  rw [alone_bind, alone_lockGuard]
  cases env.nodeMem with
  | false =>
    simp only [Bool.false_eq_true, if_false, alone_pure, Option.bind_some, alone_bind,
      alone_setErrorCode, alone_deleteAllocatorImpl]
    cases (l.lldkSetErrorCode t .kThrowException).deleteAllocatorImpl t a env <;> rfl
  | true =>
    simp only [if_true, alone_bind, alone_read, Option.bind_some,
      deleteUnderLock_granted l t a hrelock]
    cases l.find pName with
    | some b =>
      simp only [alone_bind, alone_deleteAllocatorImpl]
      cases l.deleteAllocatorImpl t a env <;> rfl
    | none =>
      cases env.rehashMem with
      | true => rfl
      | false =>
        simp only [Bool.false_eq_true, if_false, alone_bind, alone_deleteAllocatorImpl]
        cases l.deleteAllocatorImpl t a env <;> rfl

/-- **`lldkCreateAllocator`**, when the locks that a thread already holds are granted. -/
theorem alone_lldkCreateAllocator (pName : Option String) (uMaxSizeMB : UInt64) {env : CallEnv}
    (hrelock : env.relock = true) :
    (lldkCreateAllocator t pName uMaxSizeMB env).alone l =
      (l.lldkCreateAllocator t pName uMaxSizeMB env).toOption := by
  cases pName with
  | none => rfl
  | some name =>
    unfold lldkCreateAllocator Library.lldkCreateAllocator
    simp only [alone_bind, alone_createCheck, Option.bind_some]
    match l.createCheck t name env with
    | (.error what, l₁) => rfl
    | (.ok false, l₁) => rfl
    | (.ok true, l₁) =>
      simp only [alone_bind, alone_createObject]
      show _ = Except.toOption (l₁.createObject t name uMaxSizeMB env >>= _)
      match l₁.createObject t name uMaxSizeMB env with
      | .error f => rfl
      | .ok (.error what, l₂) => rfl
      | .ok (.ok none, l₂) => rfl
      | .ok (.ok (some a), l₂) =>
        simp only [Except.toOption, Option.bind_some, alone_bind,
          alone_createEmplace l₂ t name a hrelock]
        show _ = Except.toOption (l₂.createEmplace t name a env >>= _)
        cases l₂.createEmplace t name a env <;> rfl

/-- **`lldkDestroyAllocator`** -/
theorem alone_lldkDestroyAllocator (pAllocator : Option Nat) {env : CallEnv}
    (hrelock : env.relock = true) :
    (lldkDestroyAllocator t pAllocator env).alone l =
      (l.lldkDestroyAllocator t pAllocator env).toOption := by
  cases pAllocator with
  | none => rfl
  | some a =>
    unfold lldkDestroyAllocator Library.lldkDestroyAllocator eraseAllocator
    simp only [alone_bind, alone_read, Option.bind_some]
    cases hal : l.proc.readAllocator a with
    | none => rfl
    | some al =>
      simp only [alone_bind, alone_lockGuard, alone_read, Option.bind_some, hal]
      cases env.keyMem with
      | false => rfl
      | true =>
        simp only [if_true, alone_bind, alone_read, Option.bind_some,
          deleteUnderLock_granted _ t a hrelock]
        by_cases hfind : l.find al.getName = some a
        · simp only [if_pos hfind, alone_bind, alone_onLibrary, Except.toOption, Option.bind_some,
            alone_deleteAllocatorImpl]
          show _ = Except.toOption ((l.erase al.getName).deleteAllocatorImpl t a env >>= _)
          cases (l.erase al.getName).deleteAllocatorImpl t a env <;> rfl
        · simp only [if_neg hfind]
          rfl

end Alone

end LibraryCode

end Lldk
