import Lldk.Base.AllocatorImpl

/-!
The exported functions of `src/base/allocator_impl.cpp` over the registry of allocators.

* `Library` is a process, the registry and the singleton. The allocators live in the memory of
  the process.
* `newObject` and `deleteObject` are the members of `IAllocator` for an `AllocatorImpl`.
* `lldkGetAllocatorSingleton`, `lldkCreateAllocator` and `lldkDestroyAllocator` follow the source.
  A call ends with its result or with an exception; `createCheck`, `createObject` and
  `createEmplace` are the three parts of `lldkCreateAllocator` that other threads may come between.
* `CreateMove`, `EmplaceMove` and `DestroyMove` say once what the calls of the registry can do.
* Locks are not part of the state here. That a thread locks a mutex it holds shows in
  `deleteUnderLock`: destroying an allocator under the mutex of the registry locks that mutex again
  when the thread has a storage to free. C++ leaves this undefined; `CallEnv.relock` is what the
  platform does.
-/

namespace Lldk

open Lib Process

structure Library where
  proc : Process Object
  /-- Names and what their `unique_ptr`s hold. -/
  s_pAllocatorMap : List (String × Nat)
  s_pAllocator : Option Nat

/-- What may go wrong around a call. -/
structure CallEnv extends Env where
  /-- the memory of an `AllocatorImpl` -/
  objectMem : Bool := true
  /-- the key that `find` builds from a name -/
  keyMem : Bool := true
  /-- the node of `emplace` and its key -/
  nodeMem : Bool := true
  /-- the growth of the buckets, after the node is built -/
  rehashMem : Bool := true
  /-- `lock` returns on a mutex that the thread itself holds -/
  relock : Bool := false
  /-- the memory of the singleton, in the call that constructs it -/
  singletonMem : Bool := true
  /-- the constructor of the singleton -/
  singletonEnv : Env := {}

/-- The call as the construction of the singleton sees it. -/
def CallEnv.forSingleton (env : CallEnv) : CallEnv :=
  { env with toEnv := env.singletonEnv, objectMem := env.singletonMem }

/-- `sizeof(AllocatorImpl)` on x86_64 with libstdc++. -/
def sizeofAllocatorImpl : UInt64 := 96

/-- The allocators in the memory of the process. -/
def Process.readAllocator (p : Process Object) (a : Nat) : Option AllocatorImpl :=
  match p.heap.cells a with
  | some block =>
    match block.object with
    | some (.allocator al) => some al
    | _ => none
  | none => none

/-- `init` of the allocator at `a`. -/
def Process.initAllocator (p : Process Object) (a : Nat) (uMaxSizeMB : UInt64) :
    Except Fault (Int × Process Object) :=
  match p.readAllocator a with
  | none => .error (.deadObject a)
  | some al =>
    .ok ((al.init uMaxSizeMB).1,
      { p with
        heap := p.heap.modify a fun b =>
          { b with object := some (.allocator (al.init uMaxSizeMB).2) } })

/-- `~AllocatorImpl` of the allocator at `a`, on thread `t`. -/
def Process.destroyAllocator (p : Process Object) (t : Tid) (a : Nat) :
    Except Fault (Process Object) :=
  match p.readAllocator a with
  | none => .error (.deadObject a)
  | some al => do
    let p ← al.m_allocatorThreadLocal.destruct p t
    p.destroyObject a

/-- `new AllocatorImpl(pName)`: a constructor that throws gives the memory back. -/
def Process.newAllocator (p : Process Object) (t : Tid) (pName : String) (env : CallEnv) :
    Except Fault (Except String Nat × Process Object) :=
  if env.objectMem then do
    let a := p.heap.next
    let p := { p with
      heap := (p.heap.alloc ⟨sizeofAllocatorImpl, sizeofAllocatorImpl, none⟩).2 }
    match ← AllocatorImpl.construct p t pName env.toEnv with
    | (.error what, p) => return (.error what, p.freeBlock a)
    | (.ok al, p) => return (.ok a, p.placeObject a (.allocator al))
  else .ok (.error "std::bad_alloc", p)

namespace AllocatorImpl

/-- `newObject<AllocatorImpl>(pName)` -/
def newObject (p : Process Object) (t : Tid) (self : AllocatorImpl) (pName : String)
    (env : CallEnv) : Except Fault (Except String (Option Nat) × Process Object) := do
  match ← self.allocate p t sizeofAllocatorImpl env.objectMem with
  | (none, p) => return (.ok none, p)
  | (some pMemory, p) =>
    match ← construct p t pName env.toEnv with
    | (.error what, p) =>
      let p ← self.free p t (some pMemory)
      return (.error what, p)
    | (.ok al, p) => return (.ok (some pMemory), p.placeObject pMemory (.allocator al))

/-- `deleteObject` of the allocator at `pObject` -/
def deleteObject (p : Process Object) (t : Tid) (self : AllocatorImpl) (pObject : Nat) :
    Except Fault (Process Object) := do
  let p ← p.destroyAllocator t pObject
  self.free p t (some pObject)

end AllocatorImpl

namespace Library

def init : Library := ⟨.init, [], none⟩

def withProc (l : Library) (p : Process Object) : Library := { l with proc := p }

def lldkSetErrorCode (l : Library) (t : Tid) (eErrorCode : ErrorCode) : Library :=
  l.withProc (l.proc.lldkSetErrorCode t eErrorCode)

/-- The lookup of a name. -/
def find (l : Library) (pName : String) : Option Nat := l.s_pAllocatorMap.lookup pName

def erase (l : Library) (pName : String) : Library :=
  { l with s_pAllocatorMap := l.s_pAllocatorMap.filter fun e => e.1 ≠ pName }

/-- `lldkGetAllocatorSingleton`, called by thread `t`. -/
def lldkGetAllocatorSingleton (l : Library) (t : Tid) (env : CallEnv) :
    Except Fault (Except String (Option Nat) × Library) :=
  match l.s_pAllocator with
  | some a => .ok (.ok (some a), l)
  | none => do
    match ← l.proc.newAllocator t "lldk.global.allocator" env.forSingleton with
    | (.error what, p) => return (.error what, l.withProc p)
    | (.ok a, p) =>
      let (rc, p) ← p.initAllocator a 0
      if rc ≠ 0 then
        -- the pointer stays, to an object that is gone
        let p ← p.destroyAllocator t a
        return (.ok none, ({ l with proc := p.freeBlock a, s_pAllocator := some a } : Library)
          |>.lldkSetErrorCode t .kNoMemory)
      else return (.ok (some a), { l with proc := p, s_pAllocator := some a })

/-- `deleteAllocatorImpl`, the deleter of the `unique_ptr`s. -/
def deleteAllocatorImpl (l : Library) (t : Tid) (pAllocator : Nat) (env : CallEnv) :
    Except Fault Library := do
  match ← l.lldkGetAllocatorSingleton t env with
  | (.error what, _) => .error (.terminate what)
  | (.ok none, l) => return l.lldkSetErrorCode t .kInvalidState
  | (.ok (some s), l) =>
    match l.proc.readAllocator s with
    | none => .error (.deadObject s)
    | some pAllocatorSingleton =>
      let p ← pAllocatorSingleton.deleteObject l.proc t pAllocator
      return l.withProc p

/-- Whether the destructor of the allocator at `a` calls `__lldkFree` on thread `t`. -/
def frees (l : Library) (t : Tid) (a : Nat) : Bool :=
  match l.proc.readAllocator a with
  | none => false
  | some al =>
    match al.m_allocatorThreadLocal.get l.proc t with
    | .ok (some _) => true
    | _ => false

/-- The deleter while the thread holds the mutex of the registry, which `__lldkFree` locks. -/
def deleteUnderLock (l : Library) (t : Tid) (pAllocator : Nat) (env : CallEnv) :
    Except Fault Library :=
  if l.frees t pAllocator && !env.relock then .error (.hangs t)
  else l.deleteAllocatorImpl t pAllocator env

/-- The first critical section of `lldkCreateAllocator`: whether the call goes on. -/
def createCheck (l : Library) (t : Tid) (pName : String) (env : CallEnv) :
    Except String Bool × Library :=
  if env.keyMem then
    match l.find pName with
    | some _ => (.ok false, l.lldkSetErrorCode t .kInvalidParam)
    | none => (.ok true, l)
  else (.error "std::bad_alloc", l)

/-- The construction: a pointer to the new allocator, or null when the call returns null. -/
def createObject (l : Library) (t : Tid) (pName : String) (uMaxSizeMB : UInt64) (env : CallEnv) :
    Except Fault (Except String (Option Nat) × Library) := do
  match ← l.lldkGetAllocatorSingleton t env with
  | (.error what, l) => return (.error what, l)
  | (.ok none, l) => return (.ok none, l.lldkSetErrorCode t .kInvalidState)
  | (.ok (some s), l) =>
    match l.proc.readAllocator s with
    | none => .error (.deadObject s)
    | some pAllocatorSingleton =>
      match ← pAllocatorSingleton.newObject l.proc t pName env with
      | (.error what, p) => return (.error what, l.withProc p)
      | (.ok none, p) => return (.ok none, (l.withProc p).lldkSetErrorCode t .kNoMemory)
      | (.ok (some a), p) =>
        let (rc, p) ← p.initAllocator a uMaxSizeMB
        if rc ≠ 0 then
          let l ← ((l.withProc p).lldkSetErrorCode t .kNoMemory).deleteAllocatorImpl t a env
          return (.ok none, l)
        else return (.ok (some a), l.withProc p)

/-- The second critical section: the result of the call. The node of `emplace` takes the
`unique_ptr`, and is destroyed when the name is there already or the buckets cannot grow. -/
def createEmplace (l : Library) (t : Tid) (pName : String) (pAllocator : Nat) (env : CallEnv) :
    Except Fault (Option Nat × Library) :=
  if env.nodeMem then
    match l.find pName with
    | some _ => do
      let l ← l.deleteUnderLock t pAllocator env
      return (some pAllocator, l)
    | none =>
      if env.rehashMem then
        .ok (some pAllocator,
          { l with s_pAllocatorMap := l.s_pAllocatorMap ++ [(pName, pAllocator)] })
      else do
        let l ← l.deleteUnderLock t pAllocator env
        return (none, l.lldkSetErrorCode t .kThrowException)
  else do
    let l ← (l.lldkSetErrorCode t .kThrowException).deleteAllocatorImpl t pAllocator env
    return (none, l)

/-- `lldkCreateAllocator`, called by thread `t` without another thread coming between. -/
def lldkCreateAllocator (l : Library) (t : Tid) (pName : Option String) (uMaxSizeMB : UInt64)
    (env : CallEnv) : Except Fault (Except String (Option Nat) × Library) :=
  match pName with
  | none => .ok (.ok none, l.lldkSetErrorCode t .kInvalidParam)
  | some pName =>
    match l.createCheck t pName env with
    | (.error what, l) => .ok (.error what, l)
    | (.ok false, l) => .ok (.ok none, l)
    | (.ok true, l) => do
      match ← l.createObject t pName uMaxSizeMB env with
      | (.error what, l) => return (.error what, l)
      | (.ok none, l) => return (.ok none, l)
      | (.ok (some a), l) =>
        let (q, l) ← l.createEmplace t pName a env
        return (.ok q, l)

/-- `lldkDestroyAllocator`, called by thread `t`. -/
def lldkDestroyAllocator (l : Library) (t : Tid) (pAllocator : Option Nat) (env : CallEnv) :
    Except Fault (Except String Unit × Library) :=
  match pAllocator with
  | none => .ok (.ok (), l.lldkSetErrorCode t .kInvalidParam)
  | some a =>
    match l.proc.readAllocator a with
    | none => .error (.deadObject a)
    | some pAllocatorImpl =>
      if env.keyMem then
        if l.find pAllocatorImpl.getName = some a then do
          let l ← (l.erase pAllocatorImpl.getName).deleteUnderLock t a env
          return (.ok (), l.lldkSetErrorCode t .kInvalidParam)
        else .ok (.ok (), l.lldkSetErrorCode t .kInvalidParam)
      else .ok (.error "std::bad_alloc", l)

end Library

/-! ## The registry -/

namespace Library

/-- The lookup of a name in a registry that has no name twice. -/
theorem find_iff_mem {l : Library} (hl : (l.s_pAllocatorMap.map Prod.fst).Nodup) {n : String}
    {a : Nat} : l.find n = some a ↔ (n, a) ∈ l.s_pAllocatorMap := by
  unfold find
  generalize l.s_pAllocatorMap = m at hl ⊢
  induction m with
  | nil => simp
  | cons e m ih =>
    obtain ⟨n', a'⟩ := e
    obtain ⟨hnot, hm⟩ := List.nodup_cons.mp hl
    rw [List.lookup_cons, List.mem_cons, Prod.mk.injEq]
    by_cases hn : n = n'
    · subst hn
      have hout : (n, a) ∉ m := fun hin => hnot (List.mem_map.mpr ⟨(n, a), hin, rfl⟩)
      simp only [beq_self_eq_true, hout, or_false, true_and]
      exact ⟨fun h => (Option.some.inj h).symm, fun h => congrArg some h.symm⟩
    · simp only [beq_eq_false_iff_ne.mpr hn, hn, false_and, false_or]
      exact ih hm

theorem mem_of_find {l : Library} {n : String} {a : Nat} (h : l.find n = some a) :
    (n, a) ∈ l.s_pAllocatorMap := by
  obtain ⟨l₁, l₂, he, -⟩ := List.lookup_eq_some_iff.mp h
  rw [he]
  exact List.mem_append_right _ List.mem_cons_self

theorem find_registered (l : Library) (n m : String) (a : Nat) :
    find { l with s_pAllocatorMap := l.s_pAllocatorMap ++ [(n, a)] } m =
      (l.find m).or (if m = n then some a else none) := by
  unfold find
  rw [List.lookup_append, List.lookup_cons, List.lookup_nil]
  by_cases hmn : m = n
  · simp only [hmn, beq_self_eq_true, if_true]
  · simp only [beq_eq_false_iff_ne.mpr hmn, hmn, if_false]

theorem find_erase (l : Library) (n m : String) :
    (l.erase n).find m = if m = n then none else l.find m := by
  unfold find erase
  induction l.s_pAllocatorMap with
  | nil => simp
  | cons e es ih =>
    obtain ⟨k, a⟩ := e
    by_cases hk : k = n
    · subst hk
      rw [List.filter_cons_of_neg (by simp), ih, List.lookup_cons]
      by_cases hm : m = k
      · simp only [hm, if_true]
      · simp only [hm, if_false, beq_eq_false_iff_ne.mpr hm]
    · rw [List.filter_cons_of_pos (by simpa using hk), List.lookup_cons, List.lookup_cons, ih]
      by_cases hm : m = k
      · subst hm
        simp only [beq_self_eq_true, hk, if_false]
      · simp only [beq_eq_false_iff_ne.mpr hm]

end Library

/-! ## What the calls of the registry do -/

open Lib.Trace

namespace Library

/-- What the second critical section can do. -/
inductive EmplaceMove (l : Library) (t : Tid) (n : String) (a : Nat) (env : CallEnv) :
    Option Nat → Library → Prop
  | noNode {l' : Library} (hnode : env.nodeMem = false)
      (h : (l.lldkSetErrorCode t .kThrowException).deleteAllocatorImpl t a env = .ok l') :
      EmplaceMove l t n a env none l'
  | there {b : Nat} {l' : Library} (hnode : env.nodeMem = true) (hfind : l.find n = some b)
      (h : l.deleteUnderLock t a env = .ok l') : EmplaceMove l t n a env (some a) l'
  | noBuckets {l' : Library} (hnode : env.nodeMem = true) (hfind : l.find n = none)
      (hrehash : env.rehashMem = false) (h : l.deleteUnderLock t a env = .ok l') :
      EmplaceMove l t n a env none (l'.lldkSetErrorCode t .kThrowException)
  | added (hnode : env.nodeMem = true) (hfind : l.find n = none) (hrehash : env.rehashMem = true) :
      EmplaceMove l t n a env (some a)
        { l with s_pAllocatorMap := l.s_pAllocatorMap ++ [(n, a)] }

/-- What a call of `lldkCreateAllocator` can do. -/
inductive CreateMove (l : Library) (t : Tid) (uMaxSizeMB : UInt64) (env : CallEnv) :
    Option String → Except String (Option Nat) → Library → Prop
  | refused {pName : Option String}
      (hno : ∀ n, pName = some n → env.keyMem = true ∧ ∃ b, l.find n = some b) :
      CreateMove l t uMaxSizeMB env pName (.ok none) (l.lldkSetErrorCode t .kInvalidParam)
  | noKey {n : String} (hkey : env.keyMem = false) :
      CreateMove l t uMaxSizeMB env (some n) (.error "std::bad_alloc") l
  | stopped {n : String} {r : Except String (Option Nat)} {l' : Library} (hkey : env.keyMem = true)
      (hfind : l.find n = none) (h : l.createObject t n uMaxSizeMB env = .ok (r, l'))
      (hr : ∀ a, r ≠ .ok (some a)) : CreateMove l t uMaxSizeMB env (some n) r l'
  | made {n : String} {a : Nat} {q : Option Nat} {l₁ l' : Library} (hkey : env.keyMem = true)
      (hfind : l.find n = none) (h : l.createObject t n uMaxSizeMB env = .ok (.ok (some a), l₁))
      (hemplace : EmplaceMove l₁ t n a env q l') :
      CreateMove l t uMaxSizeMB env (some n) (.ok q) l'

/-- What a call of `lldkDestroyAllocator` can do. -/
inductive DestroyMove (l : Library) (t : Tid) (env : CallEnv) :
    Option Nat → Except String Unit → Library → Prop
  | refused {q : Option Nat} (hno : ∀ a, q = some a → env.keyMem = true ∧
      ∃ al, l.proc.readAllocator a = some al ∧ l.find al.getName ≠ some a) :
      DestroyMove l t env q (.ok ()) (l.lldkSetErrorCode t .kInvalidParam)
  | noKey {a : Nat} (hkey : env.keyMem = false) :
      DestroyMove l t env (some a) (.error "std::bad_alloc") l
  | deleted {a : Nat} {al : AllocatorImpl} {l' : Library} (hkey : env.keyMem = true)
      (hal : l.proc.readAllocator a = some al) (hfind : l.find al.getName = some a)
      (h : (l.erase al.getName).deleteUnderLock t a env = .ok l') :
      DestroyMove l t env (some a) (.ok ()) (l'.lldkSetErrorCode t .kInvalidParam)

section Moves

variable {l l' : Library} {t : Tid} {env : CallEnv}

theorem createEmplace_moves {n : String} {a : Nat} {q : Option Nat}
    (h : l.createEmplace t n a env = .ok (q, l')) : EmplaceMove l t n a env q l' := by
  unfold createEmplace at h
  split at h
  · rename_i hnode
    split at h
    · rename_i b hfind
      obtain ⟨l₁, hd, h⟩ := bind_eq_ok.mp h
      cases h
      exact .there hnode hfind hd
    · rename_i hfind
      split at h
      · rename_i hrehash
        cases h
        exact .added hnode hfind hrehash
      · rename_i hrehash
        obtain ⟨l₁, hd, h⟩ := bind_eq_ok.mp h
        cases h
        exact .noBuckets hnode hfind (Bool.eq_false_iff.mpr hrehash) hd
  · rename_i hnode
    obtain ⟨l₁, hd, h⟩ := bind_eq_ok.mp h
    cases h
    exact .noNode (Bool.eq_false_iff.mpr hnode) hd

theorem lldkCreateAllocator_moves {pName : Option String} {uMaxSizeMB : UInt64}
    {r : Except String (Option Nat)}
    (h : l.lldkCreateAllocator t pName uMaxSizeMB env = .ok (r, l')) :
    CreateMove l t uMaxSizeMB env pName r l' := by
  cases pName with
  | none =>
    cases h
    exact .refused fun n hn => by cases hn
  | some n =>
    cases hkey : env.keyMem with
    | false =>
      simp only [lldkCreateAllocator, createCheck, hkey] at h
      cases h
      exact .noKey hkey
    | true =>
      cases hfind : l.find n with
      | some b =>
        simp only [lldkCreateAllocator, createCheck, hkey, hfind, if_true] at h
        cases h
        refine .refused fun m hm => ⟨hkey, b, ?_⟩
        cases hm
        exact hfind
      | none =>
        simp only [lldkCreateAllocator, createCheck, hkey, hfind, if_true] at h
        obtain ⟨⟨r₁, l₁⟩, ho, h⟩ := bind_eq_ok.mp h
        rcases r₁ with what | _ | a
        · cases h
          exact .stopped hkey hfind ho fun a ha => by cases ha
        · cases h
          exact .stopped hkey hfind ho fun a ha => by cases ha
        · obtain ⟨⟨q, l₂⟩, he, h⟩ := bind_eq_ok.mp h
          cases h
          exact .made hkey hfind ho (createEmplace_moves he)

theorem lldkDestroyAllocator_moves {q : Option Nat} {r : Except String Unit}
    (h : l.lldkDestroyAllocator t q env = .ok (r, l')) : DestroyMove l t env q r l' := by
  cases q with
  | none =>
    cases h
    exact .refused fun a ha => by cases ha
  | some a =>
    cases hal : l.proc.readAllocator a with
    | none => simp [lldkDestroyAllocator, hal] at h
    | some al =>
      cases hkey : env.keyMem with
      | false =>
        simp only [lldkDestroyAllocator, hal, hkey] at h
        cases h
        exact .noKey hkey
      | true =>
        by_cases hfind : l.find al.getName = some a
        · simp only [lldkDestroyAllocator, hal, hkey, hfind, if_true] at h
          obtain ⟨l₁, hd, h⟩ := bind_eq_ok.mp h
          cases h
          exact .deleted hkey hal hfind hd
        · simp only [lldkDestroyAllocator, hal, hkey, hfind, if_true, if_false] at h
          cases h
          refine .refused fun b hb => ⟨hkey, al, ?_⟩
          cases hb
          exact ⟨hal, hfind⟩

end Moves

end Library

/-! ## Blocks that come and go -/

theorem readAllocator_congr {p p' : Process Object} {a : Nat}
    (h : p'.heap.cells a = p.heap.cells a) : p'.readAllocator a = p.readAllocator a := by
  unfold readAllocator
  rw [h]

theorem cells_of_readAllocator {p : Process Object} {a : Nat} {al : AllocatorImpl}
    (h : p.readAllocator a = some al) :
    ∃ block, p.heap.cells a = some block ∧ block.object = some (.allocator al) := by
  unfold readAllocator at h
  cases hc : p.heap.cells a with
  | none =>
    rw [hc] at h
    cases h
  | some block =>
    simp only [hc] at h
    refine ⟨block, rfl, ?_⟩
    split at h
    · rename_i al' hal
      cases h
      exact hal
    · cases h

theorem readAllocator_of_cells {p : Process Object} {a : Nat} {block : Block Object}
    {al : AllocatorImpl} (hc : p.heap.cells a = some block)
    (ho : block.object = some (.allocator al)) : p.readAllocator a = some al := by
  simp only [readAllocator, hc, ho]

theorem readAllocator_lt {p : Process Object} {a : Nat} {al : AllocatorImpl}
    (h : p.readAllocator a = some al) : a < p.heap.next := by
  obtain ⟨block, hc, -⟩ := cells_of_readAllocator h
  exact Heap.lt_next hc

/-- A block holds a record or an allocator, not both. -/
theorem readAllocator_of_readStats {p : Process Object} {a : Nat} {s : AllocateStats}
    (h : p.readStats a = some s) : p.readAllocator a = none := by
  obtain ⟨block, hc, ho⟩ := cells_of_readStats h
  simp only [readAllocator, hc, ho]

/-- The update of a record leaves every allocator as it is. -/
theorem Updated.readAllocator {p p' : Process Object} {r : Option Nat}
    {f : AllocateStats → AllocateStats} (h : Updated p r f p') (a : Nat) :
    p'.readAllocator a = p.readAllocator a := by
  by_cases hr : r = some a
  · obtain ⟨s, hs⟩ := h.live a hr
    rw [readAllocator_of_readStats hs, readAllocator_of_readStats (h.record a s hr hs)]
  · exact readAllocator_congr (h.others a hr)

/-- Allocators stay, and a slot that changed holds a new block, and is not null. -/
structure Grew (p p' : Process Object) : Prop where
  next : p.heap.next ≤ p'.heap.next
  allocators : ∀ b al, p.readAllocator b = some al → p'.readAllocator b = some al
  slots : ∀ t i b, p'.slot t i = some b →
    p.slot t i = some b ∨ (p.heap.next ≤ b ∧ b < p'.heap.next)
  kept : ∀ t i b, p.slot t i = some b → ∃ b', p'.slot t i = some b'

theorem Grew.refl (p : Process Object) : Grew p p :=
  ⟨Nat.le_refl _, fun _ _ h => h, fun _ _ _ h => Or.inl h, fun _ _ b h => ⟨b, h⟩⟩

theorem Grew.trans {p p' p'' : Process Object} (h : Grew p p') (h' : Grew p' p'') :
    Grew p p'' where
  next := Nat.le_trans h.next h'.next
  allocators := fun b al hb => h'.allocators b al (h.allocators b al hb)
  slots := by
    intro t i b hb
    have hn := h.next
    have hn' := h'.next
    rcases h'.slots t i b hb with hb | hb
    · rcases h.slots t i b hb with hb | hb
      · exact Or.inl hb
      · exact Or.inr (by omega)
    · exact Or.inr (by omega)
  kept := by
    intro t i b hb
    obtain ⟨b', hb'⟩ := h.kept t i b hb
    exact h'.kept t i b' hb'

/-- A step that keeps the tables and the allocators. -/
theorem Grew.of_tables {p p' : Process Object} (hnext : p.heap.next ≤ p'.heap.next)
    (hslots : p'.s_ppInstances = p.s_ppInstances)
    (hall : ∀ b al, p.readAllocator b = some al → p'.readAllocator b = some al) : Grew p p' :=
  ⟨hnext, hall, fun t i _ hb => Or.inl ((slot_congr hslots t i).symm.trans hb),
    fun t i b hb => ⟨b, (slot_congr hslots t i).trans hb⟩⟩

theorem readAllocator_of_blocks {p p' : Process Object}
    (h : ∀ b block, p.heap.cells b = some block → p'.heap.cells b = some block) {b : Nat}
    {al : AllocatorImpl} (hb : p.readAllocator b = some al) : p'.readAllocator b = some al := by
  obtain ⟨block, hc, ho⟩ := cells_of_readAllocator hb
  exact readAllocator_of_cells (h b block hc) ho

/-- What a constructor does to the process, whether it returns or throws. -/
structure Constructs (p p' : Process Object) : Prop extends Grew p p' where
  blocks : ∀ b block, p.heap.cells b = some block → p'.heap.cells b = some block

theorem constructs_refl (p : Process Object) : Constructs p p := ⟨Grew.refl p, fun _ _ h => h⟩

theorem constructs_threadLocal {T : ObjectType Object} {p p' : Process Object} {t : Tid} {env : Env}
    {r : Constructed} (h : LldkThreadLocal.construct T p t env = .ok (r, p')) :
    Constructs p p' := by
  rcases LldkThreadLocal.construct_cases T h with ⟨i, -, -, -, hb⟩ | ⟨_, -, rfl | ⟨i, ha⟩⟩
  · refine ⟨⟨Nat.le_of_lt hb.next, fun b al => readAllocator_of_blocks hb.blocks,
      fun t' j b hs => ?_, fun t' j b hs => ?_⟩, hb.blocks⟩
    · by_cases hself : t' = t ∧ j = i
      · obtain ⟨rfl, rfl⟩ := hself
        rw [hb.self] at hs
        cases hs
        exact Or.inr ⟨Nat.le_refl _, hb.next⟩
      · rw [hb.others t' j (not_and_or.mp hself)] at hs
        exact Or.inl hs
    · by_cases hself : t' = t ∧ j = i
      · obtain ⟨rfl, rfl⟩ := hself
        exact ⟨_, hb.self⟩
      · exact ⟨b, (hb.others t' j (not_and_or.mp hself)).trans hs⟩
  · exact constructs_refl p'
  · exact ⟨Grew.of_tables ha.next ha.s_ppInstances fun b al => readAllocator_of_blocks ha.blocks,
      ha.blocks⟩

theorem AllocatorImpl.constructs {p p' : Process Object} {t : Tid} {name : String} {env : Env}
    {r : Except String AllocatorImpl} (h : AllocatorImpl.construct p t name env = .ok (r, p')) :
    Constructs p p' ∧ ∀ al, r = .ok al → al.m_sName = name := by
  cases hname : env.nameMem with
  | false =>
    simp only [construct, hname] at h
    cases h
    exact ⟨constructs_refl p, fun al hr => by cases hr⟩
  | true =>
    simp only [construct, hname, if_true] at h
    split at h
    · cases h
    · rename_i what q hc
      cases h
      exact ⟨constructs_threadLocal hc, fun al hr => by cases hr⟩
    · rename_i obj a q hc
      cases h
      refine ⟨constructs_threadLocal hc, fun al hr => ?_⟩
      cases hr
      rfl

/-- Besides, the new block `a` holds an allocator of that name, and is in no slot. -/
structure Gained (p p' : Process Object) (name : String) (a : Nat) : Prop extends Grew p p' where
  fresh : p.heap.next ≤ a
  live : ∃ al, p'.readAllocator a = some al ∧ al.m_sName = name
  unstored : ∀ t i, p'.slot t i ≠ some a

/-- The slots refer to blocks that were allocated. -/
def SlotsBelow (p : Process Object) : Prop := ∀ t i b, p.slot t i = some b → b < p.heap.next

theorem SlotsBelow.grew {p p' : Process Object} (h : SlotsBelow p) (hg : Grew p p') :
    SlotsBelow p' := by
  intro t i b hb
  rcases hg.slots t i b hb with hold | hnew
  · exact Nat.lt_of_lt_of_le (h t i b hold) hg.next
  · exact hnew.2

/-- An allocator constructed in a block that was allocated for it. -/
theorem gained_placeObject {p p₁ p₂ : Process Object} {block : Block Object} {al : AllocatorImpl}
    (hslots : SlotsBelow p) (h₁ : Grew p p₁) (htables : p₁.s_ppInstances = p.s_ppInstances)
    (hnext : p₁.heap.next = p.heap.next + 1) (hcell : p₁.heap.cells p.heap.next = some block)
    (h₂ : Constructs p₁ p₂) :
    Gained p (p₂.placeObject p.heap.next (.allocator al)) al.m_sName p.heap.next where
  next := Nat.le_trans h₁.next h₂.next
  allocators := by
    intro b al' hb
    have hne : b ≠ p.heap.next := Nat.ne_of_lt (readAllocator_lt hb)
    have hcongr : (p₂.placeObject p.heap.next (.allocator al)).heap.cells b = p₂.heap.cells b :=
      Heap.cells_modify_ne _ hne
    rw [readAllocator_congr hcongr]
    exact h₂.allocators b al' (h₁.allocators b al' hb)
  slots := by
    intro t i b hb
    rcases h₂.slots t i b hb with hold | hnew
    · exact Or.inl ((slot_congr htables t i).symm.trans hold)
    · have hle : p.heap.next ≤ b := by omega
      exact Or.inr ⟨hle, hnew.2⟩
  kept := fun t i b hb => h₂.kept t i b ((slot_congr htables t i).trans hb)
  fresh := Nat.le_refl _
  live := by
    refine ⟨al, ?_, rfl⟩
    have hcell₂ : (p₂.placeObject p.heap.next (.allocator al)).heap.cells p.heap.next =
        some { block with object := some (.allocator al) } := by
      show (p₂.heap.modify p.heap.next _).cells p.heap.next = _
      rw [Heap.cells_modify_self, h₂.blocks _ _ hcell]
      rfl
    exact readAllocator_of_cells hcell₂ rfl
  unstored := by
    intro t i hb
    rcases h₂.slots t i p.heap.next hb with hold | hnew
    · have hlt := hslots t i _ ((slot_congr htables t i).symm.trans hold)
      omega
    · omega

/-- A block that is given back takes no allocator with it. -/
theorem grew_freeBlock {p p₁ : Process Object} {a : Nat} (h : Grew p p₁) (ha : p.heap.next ≤ a) :
    Grew p (p₁.freeBlock a) := by
  refine ⟨h.next, fun b al hb => ?_, h.slots, h.kept⟩
  have hne : b ≠ a := by
    have hlt := readAllocator_lt hb
    omega
  have hcongr : (p₁.freeBlock a).heap.cells b = p₁.heap.cells b := Heap.cells_free_ne hne
  rw [readAllocator_congr hcongr]
  exact h.allocators b al hb

theorem newAllocator_ok {p p' : Process Object} {t : Tid} {name : String} {env : CallEnv}
    {r : Except String Nat} (hslots : SlotsBelow p) (h : p.newAllocator t name env = .ok (r, p')) :
    (∃ a, r = .ok a ∧ Gained p p' name a) ∨ ∃ what, r = .error what ∧ Grew p p' := by
  cases hmem : env.objectMem with
  | false =>
    simp only [newAllocator, hmem] at h
    cases h
    exact Or.inr ⟨_, rfl, Grew.refl p⟩
  | true =>
    simp only [newAllocator, hmem, if_true] at h
    obtain ⟨⟨r', p₁⟩, hc, h⟩ := bind_eq_ok.mp h
    obtain ⟨hcon, hname⟩ := AllocatorImpl.constructs hc
    have hblock : Grew p { p with
        heap := (p.heap.alloc ⟨sizeofAllocatorImpl, sizeofAllocatorImpl, none⟩).2 } :=
      Grew.of_tables (Nat.le_succ _) rfl fun b al hb =>
        readAllocator_of_blocks (fun c block hc => Heap.cells_alloc_of_some _ hc) hb
    cases r' with
    | error what =>
      cases h
      exact Or.inr ⟨what, rfl, grew_freeBlock (hblock.trans hcon.toGrew) (Nat.le_refl _)⟩
    | ok al =>
      cases h
      rw [← hname al rfl]
      exact Or.inl ⟨_, rfl, gained_placeObject hslots hblock rfl rfl
        (Heap.cells_alloc_self _ _) hcon⟩

namespace AllocatorImpl

/-- An allocation that succeeds: the tables stay, and the block is there. -/
theorem allocate_grew {p p' : Process Object} {t : Tid} {self : AllocatorImpl} {uSize : UInt64}
    {mem : Bool} {a : Nat} (h : self.allocate p t uSize mem = .ok (some a, p')) :
    a = p.heap.next ∧ Grew p p' ∧ p'.s_ppInstances = p.s_ppInstances ∧
      p'.heap.next = p.heap.next + 1 ∧ ∃ block, p'.heap.cells p.heap.next = some block := by
  have htables := allocate_tables h
  obtain ⟨rfl, r, -, hu⟩ := allocate_some h
  have hnext : p'.heap.next = p.heap.next + 1 := hu.next
  have hcell : (withBlock p uSize).heap.cells p.heap.next =
      some ⟨uSize + headerSize, uSize, none⟩ := Heap.cells_alloc_self _ _
  have hnot : r ≠ some p.heap.next := by
    intro hr
    obtain ⟨s, hs⟩ := hu.live _ hr
    obtain ⟨block, hc, ho⟩ := cells_of_readStats hs
    rw [hcell] at hc
    cases hc
    cases ho
  refine ⟨rfl, Grew.of_tables (by omega) htables.s_ppInstances fun b al hb => ?_,
    htables.s_ppInstances, hnext, _, (hu.others _ hnot).trans hcell⟩
  rw [hu.readAllocator]
  exact readAllocator_of_blocks (fun c block hc => Heap.cells_alloc_of_some _ hc) hb

theorem newObject_ok {p p' : Process Object} {t : Tid} {self : AllocatorImpl} {name : String}
    {env : CallEnv} {r : Except String (Option Nat)} (hslots : SlotsBelow p)
    (h : self.newObject p t name env = .ok (r, p')) :
    (∃ a, r = .ok (some a) ∧ Gained p p' name a) ∨ ((∀ a, r ≠ .ok (some a)) ∧ Grew p p') := by
  unfold newObject at h
  obtain ⟨⟨q, p₁⟩, hq, h⟩ := bind_eq_ok.mp h
  cases q with
  | none =>
    cases h
    rw [allocate_none hq]
    refine Or.inr ⟨fun a hr => ?_, Grew.of_tables (Nat.le_refl _) rfl fun b al hb => hb⟩
    cases hr
  | some a =>
    obtain ⟨rfl, hgrew, htables, hnext, block, hcell⟩ := allocate_grew hq
    obtain ⟨⟨r', p₂⟩, hc, h⟩ := bind_eq_ok.mp h
    obtain ⟨hcon, hname⟩ := constructs hc
    cases r' with
    | error what =>
      obtain ⟨p₃, hf, h⟩ := bind_eq_ok.mp h
      cases h
      obtain ⟨b, r, p₄, -, -, hu, rfl⟩ := free_some hf
      have hcount : Grew p₂ p₄ := Grew.of_tables (Nat.le_of_eq hu.next.symm) hu.tables.s_ppInstances
        fun b al hb => (hu.readAllocator b).trans hb
      refine Or.inr ⟨fun a hr => ?_,
        grew_freeBlock (hgrew.trans (hcon.toGrew.trans hcount)) (Nat.le_refl _)⟩
      cases hr
    | ok al =>
      cases h
      rw [← hname al rfl]
      exact Or.inl ⟨_, rfl, gained_placeObject hslots hgrew htables hnext hcell hcon⟩

end AllocatorImpl

/-- `init` succeeds, and changes the allocator only. -/
theorem Gained.init {p p₁ p' : Process Object} {name : String} {a : Nat} (h : Gained p p₁ name a)
    {uMaxSizeMB : UInt64} {rc : Int} (hi : p₁.initAllocator a uMaxSizeMB = .ok (rc, p')) :
    rc = 0 ∧ Gained p p' name a := by
  obtain ⟨al, hal, hname⟩ := h.live
  obtain ⟨block, hcell, -⟩ := cells_of_readAllocator hal
  simp only [initAllocator, hal] at hi
  cases hi
  refine ⟨rfl, ⟨h.next, fun b al' hb => ?_, h.slots, h.kept⟩, h.fresh,
    ⟨(al.init uMaxSizeMB).2, ?_, hname⟩, h.unstored⟩
  · have hne : b ≠ a := by
      have hlt := readAllocator_lt hb
      have hfresh := h.fresh
      omega
    rw [readAllocator_congr (Heap.cells_modify_ne _ hne)]
    exact h.allocators b al' hb
  · have hcell' : (p₁.heap.modify a fun b => { b with
        object := some (.allocator (al.init uMaxSizeMB).2) }).cells a =
        some { block with object := some (.allocator (al.init uMaxSizeMB).2) } := by
      rw [Heap.cells_modify_self, hcell]
      rfl
    exact readAllocator_of_cells hcell' rfl

/-- The allocator at `a` was destroyed and its block released. Allocators that no slot refers to
stay. -/
structure Deleted (p : Process Object) (a : Nat) (p' : Process Object) : Prop where
  next : p'.heap.next = p.heap.next
  s_ppInstances : p'.s_ppInstances = p.s_ppInstances
  gone : p'.heap.cells a = none
  allocators : ∀ b al, b ≠ a → (∀ t i, p.slot t i ≠ some b) → p.readAllocator b = some al →
    p'.readAllocator b = some al

/-- `~AllocatorImpl` -/
theorem destroyAllocator_ok {p p' : Process Object} {t : Tid} {a : Nat}
    (h : p.destroyAllocator t a = .ok p') :
    p'.heap.next = p.heap.next ∧ p'.s_ppInstances = p.s_ppInstances ∧
      ∀ b al, b ≠ a → (∀ t i, p.slot t i ≠ some b) → p.readAllocator b = some al →
        p'.readAllocator b = some al := by
  unfold destroyAllocator at h
  cases hal : p.readAllocator a with
  | none => simp [hal] at h
  | some al =>
    simp only [hal] at h
    obtain ⟨p₁, hd, h⟩ := bind_eq_ok.mp h
    obtain ⟨-, -, rfl⟩ := destroyObject_ok h
    have hp := LldkThreadLocal.destruct_destructed hd
    refine ⟨hp.next, hp.s_ppInstances, fun b al' hne hslot hb => ?_⟩
    have hcell : (p₁.emptied a).heap.cells b = p.heap.cells b :=
      (Heap.cells_modify_ne _ hne).trans (hp.others b (hslot t _))
    rw [readAllocator_congr hcell]
    exact hb

theorem AllocatorImpl.deleteObject_ok {p p' : Process Object} {t : Tid} {self : AllocatorImpl}
    {a : Nat} (h : self.deleteObject p t a = .ok p') : Deleted p a p' := by
  obtain ⟨p₁, hd, h⟩ := bind_eq_ok.mp h
  obtain ⟨hnext, htables, hall⟩ := destroyAllocator_ok hd
  obtain ⟨b, r, p₂, -, -, hu, rfl⟩ := free_some h
  refine ⟨hu.next.trans hnext, hu.tables.s_ppInstances.trans htables, Heap.cells_free_self _ _,
    fun c al hne hslot hc => ?_⟩
  have hcell : (p₂.freeBlock a).heap.cells c = p₂.heap.cells c := Heap.cells_free_ne hne
  rw [readAllocator_congr hcell, hu.readAllocator]
  exact hall c al hne hslot hc

namespace Library

variable {l l' : Library} {t : Tid} {env : CallEnv}

/-- **The singleton.** It is there already, or it is constructed now, or its constructor throws. -/
theorem lldkGetAllocatorSingleton_ok {r : Except String (Option Nat)}
    (hslots : SlotsBelow l.proc) (h : l.lldkGetAllocatorSingleton t env = .ok (r, l')) :
    (∃ s, l.s_pAllocator = some s ∧ l' = l ∧ r = .ok (some s)) ∨
      (∃ s p, l.s_pAllocator = none ∧ l' = { l with proc := p, s_pAllocator := some s } ∧
        r = .ok (some s) ∧ Gained l.proc p "lldk.global.allocator" s) ∨
      ∃ what p, l' = l.withProc p ∧ r = .error what ∧ Grew l.proc p := by
  unfold lldkGetAllocatorSingleton at h
  cases hs : l.s_pAllocator with
  | some s =>
    simp only [hs] at h
    cases h
    exact Or.inl ⟨s, rfl, rfl, rfl⟩
  | none =>
    simp only [hs] at h
    obtain ⟨⟨r', p⟩, hn, h⟩ := bind_eq_ok.mp h
    rcases newAllocator_ok hslots hn with ⟨a, rfl, hg⟩ | ⟨what, rfl, hg⟩
    · obtain ⟨⟨rc, p₁⟩, hi, h⟩ := bind_eq_ok.mp h
      obtain ⟨rfl, hg⟩ := hg.init hi
      cases h
      exact Or.inr (Or.inl ⟨a, p₁, rfl, rfl, rfl, hg⟩)
    · cases h
      exact Or.inr (Or.inr ⟨what, p, rfl, rfl, hg⟩)

/-- The singleton's step leaves what `createObject` needs. -/
theorem slotsBelow_singleton {r : Except String (Option Nat)} (hslots : SlotsBelow l.proc)
    (h : l.lldkGetAllocatorSingleton t env = .ok (r, l')) : SlotsBelow l'.proc := by
  rcases lldkGetAllocatorSingleton_ok hslots h with
    ⟨s, -, rfl, -⟩ | ⟨s, p, -, rfl, -, hg⟩ | ⟨what, p, rfl, -, hg⟩
  · exact hslots
  · exact hslots.grew hg.toGrew
  · exact hslots.grew hg

/-- **The construction** of an allocator: first the singleton, then the object. -/
theorem createObject_ok {r : Except String (Option Nat)} {pName : String} {uMaxSizeMB : UInt64}
    (hslots : SlotsBelow l.proc) (h : l.createObject t pName uMaxSizeMB env = .ok (r, l')) :
    ∃ r₁ l₁ p, l.lldkGetAllocatorSingleton t env = .ok (r₁, l₁) ∧ l' = l₁.withProc p ∧
      ((∃ a s, r = .ok (some a) ∧ r₁ = .ok (some s) ∧ Gained l₁.proc p pName a) ∨
        ((∀ a, r ≠ .ok (some a)) ∧ Grew l₁.proc p)) := by
  unfold createObject at h
  obtain ⟨⟨r₁, l₁⟩, hs, h⟩ := bind_eq_ok.mp h
  have hslots₁ := slotsBelow_singleton hslots hs
  refine ⟨r₁, l₁, ?_⟩
  match r₁ with
  | .error what =>
    cases h
    exact ⟨l'.proc, hs, rfl, Or.inr ⟨nofun, Grew.refl _⟩⟩
  | .ok none =>
    cases h
    exact ⟨_, hs, rfl, Or.inr ⟨nofun,
      Grew.of_tables (Nat.le_refl _) rfl fun b al hb => hb⟩⟩
  | .ok (some s) =>
    cases hal : l₁.proc.readAllocator s with
    | none => simp [hal] at h
    | some al =>
      simp only [hal] at h
      obtain ⟨⟨r₂, p₂⟩, hn, h⟩ := bind_eq_ok.mp h
      rcases AllocatorImpl.newObject_ok hslots₁ hn with ⟨a, rfl, hg⟩ | ⟨hnot, hg⟩
      · obtain ⟨⟨rc, p₃⟩, hi, h⟩ := bind_eq_ok.mp h
        obtain ⟨rfl, hg⟩ := hg.init hi
        cases h
        exact ⟨p₃, hs, rfl, Or.inl ⟨a, s, rfl, rfl, hg⟩⟩
      · match r₂ with
        | .error what =>
          cases h
          exact ⟨p₂, hs, rfl, Or.inr ⟨nofun, hg⟩⟩
        | .ok none =>
          cases h
          exact ⟨_, hs, rfl, Or.inr ⟨nofun,
            hg.trans (Grew.of_tables (Nat.le_refl _) rfl fun b al hb => hb)⟩⟩
        | .ok (some a) => exact absurd rfl (hnot a)

/-- **The deleter**, when there is a singleton. -/
theorem deleteAllocatorImpl_ok {a s : Nat} (hs : l.s_pAllocator = some s)
    (h : l.deleteAllocatorImpl t a env = .ok l') :
    ∃ p, l' = l.withProc p ∧ Deleted l.proc a p := by
  have hsingleton : l.lldkGetAllocatorSingleton t env = .ok (.ok (some s), l) := by
    simp only [lldkGetAllocatorSingleton, hs]
  unfold deleteAllocatorImpl at h
  obtain ⟨r, hr, h⟩ := bind_eq_ok.mp h
  rw [hsingleton] at hr
  cases hr
  cases hal : l.proc.readAllocator s with
  | none => simp [hal] at h
  | some al =>
    simp only [hal] at h
    obtain ⟨p, hd, h⟩ := bind_eq_ok.mp h
    cases h
    exact ⟨p, rfl, AllocatorImpl.deleteObject_ok hd⟩

theorem deleteUnderLock_ok {a s : Nat} (hs : l.s_pAllocator = some s)
    (h : l.deleteUnderLock t a env = .ok l') : ∃ p, l' = l.withProc p ∧ Deleted l.proc a p := by
  unfold deleteUnderLock at h
  split at h
  · cases h
  · exact deleteAllocatorImpl_ok hs h

end Library

end Lldk
