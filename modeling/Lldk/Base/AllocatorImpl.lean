import Lldk.Utilities.ThreadLocal

/-!
`AllocatorImpl` (`src/base/allocator_impl.cpp`): an allocator that counts, in one record for each
thread, what the thread allocates and frees.

* `Object` is what the blocks of the process may hold: a record or an allocator.
* `allocate`, `free`, `reAllocate` and `getAllocateStats` follow the source. The record of the
  calling thread is whatever `m_allocatorThreadLocal.get()` returns; a record that is not there
  is the fault `deadObject`.
* `visit_collect`: what `getAllocateStats` writes into the caller's buffer.

The member `m_mutex` of the class is used by none of its functions.
-/

namespace Lldk

open Lib Process

structure AllocatorImpl where
  m_sName : String
  m_uMaxSizeMB : UInt64
  m_allocatorThreadLocal : LldkThreadLocal
  deriving DecidableEq, Repr

inductive Object
  | stats (s : AllocateStats)
  | allocator (a : AllocatorImpl)
  deriving DecidableEq, Repr

/-- `AllocateStats` as the `T` of the thread-local member: five words, and `T()` zeroes them. -/
def statsType : ObjectType Object := ⟨40, .stats .zero⟩

/-- The records in the memory of the process. -/
def Process.readStats (p : Process Object) (a : Nat) : Option AllocateStats :=
  match p.heap.cells a with
  | some block =>
    match block.object with
    | some (.stats s) => some s
    | _ => none
  | none => none

def Object.mapStats (f : AllocateStats → AllocateStats) : Object → Object
  | .stats s => .stats (f s)
  | .allocator a => .allocator a

/-- `if (pAllocateStats != nullptr) { .. }` around an update of the record. -/
def Process.updateStats (p : Process Object) (pAllocateStats : Option Nat)
    (f : AllocateStats → AllocateStats) : Except Fault (Process Object) :=
  match pAllocateStats with
  | none => .ok p
  | some a =>
    match p.readStats a with
    | none => .error (.deadObject a)
    | some _ =>
      .ok { p with
        heap := p.heap.modify a fun b => { b with object := b.object.map (Object.mapStats f) } }

/-- How `realloc` ends. -/
inductive Realloc
  | fails
  | inPlace
  | moves
  /-- a size of 0: the block is released, and the answer is null; with any other size a failure -/
  | releases
  deriving DecidableEq, Repr

def Realloc.returnsNull (r : Realloc) : Prop := r = .fails ∨ r = .releases

instance (r : Realloc) : Decidable r.returnsNull := inferInstanceAs (Decidable (_ ∨ _))

/-- `realloc`, asked for the size of a block of `uSize`, releases the old block and returns null. -/
def Realloc.drops (r : Realloc) (uSize : UInt64) : Prop :=
  r = .releases ∧ uSize + headerSize = 0

instance (r : Realloc) (uSize : UInt64) : Decidable (r.drops uSize) :=
  inferInstanceAs (Decidable (_ ∧ _))

/-- `realloc` returns null and leaves the old block. -/
def Realloc.refuses (r : Realloc) (uSize : UInt64) : Prop :=
  r = .fails ∨ r = .releases ∧ uSize + headerSize ≠ 0

instance (r : Realloc) (uSize : UInt64) : Decidable (r.refuses uSize) :=
  inferInstanceAs (Decidable (_ ∨ _))

theorem Realloc.not_drops_of_refuses {r : Realloc} {uSize : UInt64} (h : r.refuses uSize) :
    ¬ r.drops uSize := by
  rintro ⟨rfl, hzero⟩
  rcases h with he | ⟨-, hne⟩
  · cases he
  · exact hne hzero

namespace AllocatorImpl

/-- The constructor: the name, then the members in order. -/
def construct (p : Process Object) (t : Tid) (pName : String) (env : Env) :
    Except Fault (Except String AllocatorImpl × Process Object) :=
  if env.nameMem then
    match LldkThreadLocal.construct statsType p t env with
    | .error f => .error f
    | .ok (.threw what, p) => .ok (.error what, p)
    | .ok (.object obj _, p) => .ok (.ok ⟨pName, 0, obj⟩, p)
  else .ok (.error "std::bad_alloc", p)

def init (self : AllocatorImpl) (uMaxSizeMB : UInt64) : Int × AllocatorImpl :=
  (0, { self with m_uMaxSizeMB := uMaxSizeMB })

def getName (self : AllocatorImpl) : String := self.m_sName

/-- `m_allocatorThreadLocal.get()` and the update of the record it returns. -/
def count (p : Process Object) (t : Tid) (self : AllocatorImpl)
    (f : AllocateStats → AllocateStats) : Except Fault (Process Object) :=
  match self.m_allocatorThreadLocal.get p t with
  | .error e => .error e
  | .ok pAllocateStats => p.updateStats pAllocateStats f

def allocate (p : Process Object) (t : Tid) (self : AllocatorImpl) (uSize : UInt64) (mem : Bool) :
    Except Fault (Option Nat × Process Object) :=
  match p.mallocWithHeader uSize mem with
  | (none, p) => .ok (none, p.lldkSetErrorCode t .kNoMemory)
  | (some pData, p) =>
    match self.count p t (fun s => s.addAllocated uSize) with
    | .error f => .error f
    | .ok p => .ok (some pData, p)

/-- `free`. The header of a block that is gone cannot be read. -/
def free (p : Process Object) (t : Tid) (self : AllocatorImpl) (pMemory : Option Nat) :
    Except Fault (Process Object) :=
  match pMemory with
  | none => .ok (p.lldkSetErrorCode t .kInvalidParam)
  | some a =>
    match p.heap.cells a with
    | none => .error (.deadObject a)
    | some b =>
      match self.count p t (fun s => s.addFreed b.uSize) with
      | .error f => .error f
      | .ok p => .ok (p.freeBlock a)

/-- The block after `realloc` and the new header: the same one, or a new one with what was in
the old. The size that `realloc` is asked for wraps. -/
def resize (p : Process Object) (a : Nat) (b : Block Object) (uSize : UInt64) :
    Realloc → Option Nat × Process Object
  | .fails => (none, p)
  | .inPlace =>
    (some a, { p with
      heap := p.heap.modify a fun b => { b with uMalloced := uSize + headerSize, uSize := uSize } })
  | .moves =>
    (some p.heap.next, { p.freeBlock a with
      heap := (p.heap.alloc ⟨uSize + headerSize, uSize, b.object⟩).2.free a })
  | .releases => (none, if uSize + headerSize = 0 then p.freeBlock a else p)

def reAllocate (p : Process Object) (t : Tid) (self : AllocatorImpl) (pMemory : Option Nat)
    (uSize : UInt64) (mem : Bool) (r : Realloc) : Except Fault (Option Nat × Process Object) :=
  match pMemory with
  | none => allocate p t self uSize mem
  | some a =>
    match p.heap.cells a with
    | none => .error (.deadObject a)
    | some b =>
      match resize p a b uSize r with
      | (none, p) => .ok (none, p.lldkSetErrorCode t .kNoMemory)
      | (some pNewMemory, p) =>
        match self.count p t (fun s => (s.addFreed b.uSize).addAllocated uSize) with
        | .error f => .error f
        | .ok p => .ok (some pNewMemory, p)

/-- The callback of `getAllocateStats`: the records written so far and the caller's buffer. -/
def collect (p : Process Object) (uThreadMaxSize : Nat)
    (s : Except Fault (Nat × List AllocateStats)) (pStats : Nat) :
    Except Fault (Nat × List AllocateStats) × Int :=
  match s with
  | .error f => (.error f, 0)
  | .ok (uThreadCount, buf) =>
    if uThreadCount < uThreadMaxSize then
      match p.readStats pStats with
      | some r => (.ok (uThreadCount + 1, buf.set uThreadCount r), 0)
      | none => (.error (.deadObject pStats), 0)
    else (.ok (uThreadCount, buf), 0)

/-- `getAllocateStats`: the result, the buffer and `*pThreadCount` afterwards. -/
def getAllocateStats (p : Process Object) (t : Tid) (self : AllocatorImpl)
    (pAllocateStats : Option (List AllocateStats)) (pThreadCount : Option UInt32) :
    Except Fault (Int × Option (List AllocateStats) × Option UInt32 × Process Object) :=
  match pAllocateStats, pThreadCount with
  | some buf, some uThreadMaxSize =>
    match self.m_allocatorThreadLocal.foreach p t (some (collect p uThreadMaxSize.toNat))
        (.ok (0, buf)) with
    | .error f => .error f
    | .ok (_, .error f, _) => .error f
    | .ok (_, .ok (uThreadCount, buf), p) =>
      .ok (0, some buf, some (UInt32.ofNat uThreadCount), p)
  | pAllocateStats, pThreadCount =>
    .ok (-1, pAllocateStats, pThreadCount, p.lldkSetErrorCode t .kInvalidParam)

end AllocatorImpl

/-! ## What the calls leave -/

/-- The ids, the tables and the registrations are as they were, and no block is new again. -/
structure SameTables (p p' : Process Object) : Prop where
  s_bitset : p'.s_bitset = p.s_bitset
  s_ppInstances : p'.s_ppInstances = p.s_ppInstances
  s_vecpppInstances : p'.s_vecpppInstances = p.s_vecpppInstances
  next : p.heap.next ≤ p'.heap.next

theorem SameTables.refl (p : Process Object) : SameTables p p := ⟨rfl, rfl, rfl, Nat.le_refl _⟩

theorem SameTables.trans {p p' p'' : Process Object} (h : SameTables p p')
    (h' : SameTables p' p'') : SameTables p p'' :=
  ⟨h'.s_bitset.trans h.s_bitset, h'.s_ppInstances.trans h.s_ppInstances,
    h'.s_vecpppInstances.trans h.s_vecpppInstances, Nat.le_trans h.next h'.next⟩

/-- The process-wide counters and the error codes are as they were. -/
structure SameBooks (p p' : Process Object) : Prop where
  s_allocateStats : p'.s_allocateStats = p.s_allocateStats
  s_eErrorCode : p'.s_eErrorCode = p.s_eErrorCode

theorem SameBooks.refl (p : Process Object) : SameBooks p p := ⟨rfl, rfl⟩

theorem SameBooks.trans {p p' p'' : Process Object} (h : SameBooks p p') (h' : SameBooks p' p'') :
    SameBooks p p'' :=
  ⟨h'.s_allocateStats.trans h.s_allocateStats, h'.s_eErrorCode.trans h.s_eErrorCode⟩

theorem sameBooks_updateStats {p p' : Process Object} {r : Option Nat}
    {f : AllocateStats → AllocateStats} (h : p.updateStats r f = .ok p') : SameBooks p p' := by
  cases r with
  | none =>
    cases h
    exact SameBooks.refl p
  | some a =>
    simp only [Process.updateStats] at h
    cases hs : p.readStats a with
    | none => simp [hs] at h
    | some s =>
      simp only [hs] at h
      cases h
      exact ⟨rfl, rfl⟩

theorem readStats_congr {p p' : Process Object} {a : Nat} (h : p'.heap.cells a = p.heap.cells a) :
    p'.readStats a = p.readStats a := by
  unfold Process.readStats
  rw [h]

theorem cells_of_readStats {p : Process Object} {a : Nat} {s : AllocateStats}
    (h : p.readStats a = some s) :
    ∃ block, p.heap.cells a = some block ∧ block.object = some (.stats s) := by
  unfold Process.readStats at h
  cases hc : p.heap.cells a with
  | none =>
    rw [hc] at h
    cases h
  | some block =>
    simp only [hc] at h
    refine ⟨block, rfl, ?_⟩
    split at h
    · rename_i s' hs
      cases h
      exact hs
    · cases h

theorem readStats_of_cells {p : Process Object} {a : Nat} {block : Block Object}
    {s : AllocateStats} (hc : p.heap.cells a = some block) (ho : block.object = some (.stats s)) :
    p.readStats a = some s := by
  simp only [Process.readStats, hc, ho]

/-- The record that `r` points to was updated with `f`; nothing else happened. -/
structure Updated (p : Process Object) (r : Option Nat) (f : AllocateStats → AllocateStats)
    (p' : Process Object) : Prop where
  tables : SameTables p p'
  next : p'.heap.next = p.heap.next
  live : ∀ a, r = some a → ∃ s, p.readStats a = some s
  record : ∀ a s, r = some a → p.readStats a = some s → p'.readStats a = some (f s)
  others : ∀ a, r ≠ some a → p'.heap.cells a = p.heap.cells a

theorem updated_updateStats {p p' : Process Object} {r : Option Nat}
    {f : AllocateStats → AllocateStats} (h : p.updateStats r f = .ok p') : Updated p r f p' := by
  cases r with
  | none =>
    cases h
    refine ⟨SameTables.refl p, rfl, fun a hr => ?_, fun a s hr => ?_, fun _ _ => rfl⟩
    · cases hr
    · cases hr
  | some a =>
    simp only [Process.updateStats] at h
    cases hs : p.readStats a with
    | none => simp [hs] at h
    | some s =>
      simp only [hs] at h
      cases h
      obtain ⟨block, hc, ho⟩ := cells_of_readStats hs
      refine ⟨⟨rfl, rfl, rfl, Nat.le_refl _⟩, rfl, fun a' ha' => ?_, fun a' s' ha' hs' => ?_,
        fun a' ha' => ?_⟩
      · cases ha'
        exact ⟨s, hs⟩
      · cases ha'
        rw [hs] at hs'
        cases hs'
        have hcell : (p.heap.modify a fun b => { b with
            object := b.object.map (Object.mapStats f) }).cells a =
            some { block with object := block.object.map (Object.mapStats f) } := by
          rw [Heap.cells_modify_self, hc]
          rfl
        exact readStats_of_cells hcell (by rw [ho]; rfl)
      · have hne : a' ≠ a := by
          rintro rfl
          exact ha' rfl
        exact Heap.cells_modify_ne _ hne

/-- A record survives an update, under the same `uTid` when the update keeps it. -/
theorem Updated.uTid {p p' : Process Object} {r : Option Nat}
    {f : AllocateStats → AllocateStats} (h : Updated p r f p') (hf : ∀ s, (f s).uTid = s.uTid)
    {a : Nat} {s : AllocateStats} (hs : p.readStats a = some s) :
    ∃ s', p'.readStats a = some s' ∧ s'.uTid = s.uTid := by
  by_cases hr : r = some a
  · exact ⟨f s, h.record a s hr hs, hf s⟩
  · exact ⟨s, (readStats_congr (h.others a hr)).trans hs, rfl⟩

namespace AllocatorImpl

theorem count_ok {p p' : Process Object} {t : Tid} {self : AllocatorImpl}
    {f : AllocateStats → AllocateStats} (h : self.count p t f = .ok p') :
    ∃ r, self.m_allocatorThreadLocal.get p t = .ok r ∧ Updated p r f p' := by
  unfold count at h
  cases hg : self.m_allocatorThreadLocal.get p t with
  | error e => simp [hg] at h
  | ok r =>
    simp only [hg] at h
    exact ⟨r, rfl, updated_updateStats h⟩

theorem construct_ok {p p' : Process Object} {t : Tid} {name : String} {env : Env}
    {self : AllocatorImpl} (h : construct p t name env = .ok (.ok self, p')) :
    ∃ a, LldkThreadLocal.construct statsType p t env =
      .ok (.object self.m_allocatorThreadLocal a, p') := by
  cases hname : env.nameMem with
  | false => simp [construct, hname] at h
  | true =>
    simp only [construct, hname, if_true] at h
    split at h
    · cases h
    · cases h
    · rename_i obj a q hc
      cases h
      exact ⟨a, hc⟩

/-- The process with one more block. -/
def withBlock (p : Process Object) (uSize : UInt64) : Process Object :=
  { p with heap := (p.heap.alloc ⟨uSize + headerSize, uSize, none⟩).2 }

theorem mallocWithHeader_true (p : Process Object) (uSize : UInt64) :
    p.mallocWithHeader uSize true = (some p.heap.next, withBlock p uSize) := rfl

theorem allocate_counts {p p' : Process Object} {t : Tid} {self : AllocatorImpl} {uSize : UInt64}
    {mem : Bool} {q : Nat} (h : self.allocate p t uSize mem = .ok (some q, p')) :
    q = p.heap.next ∧
      self.count (withBlock p uSize) t (fun s => s.addAllocated uSize) = .ok p' := by
  cases mem with
  | false =>
    simp [allocate, mallocWithHeader] at h
  | true =>
    simp only [allocate, mallocWithHeader_true] at h
    cases hc : self.count (withBlock p uSize) t (fun s => s.addAllocated uSize) with
    | error f => simp [hc] at h
    | ok p₁ =>
      simp only [hc] at h
      cases h
      exact ⟨rfl, rfl⟩

/-- An allocation that succeeds: a new block, and the caller's record counts it. -/
theorem allocate_some {p p' : Process Object} {t : Tid} {self : AllocatorImpl} {uSize : UInt64}
    {mem : Bool} {q : Nat} (h : self.allocate p t uSize mem = .ok (some q, p')) :
    q = p.heap.next ∧ ∃ r, self.m_allocatorThreadLocal.get (withBlock p uSize) t = .ok r ∧
      Updated (withBlock p uSize) r (fun s => s.addAllocated uSize) p' := by
  obtain ⟨hq, hc⟩ := allocate_counts h
  exact ⟨hq, count_ok hc⟩

/-- An allocation that returns null: `malloc` had failed. -/
theorem allocate_none {p p' : Process Object} {t : Tid} {self : AllocatorImpl} {uSize : UInt64}
    {mem : Bool} (h : self.allocate p t uSize mem = .ok (none, p')) :
    p' = p.lldkSetErrorCode t .kNoMemory := by
  cases mem with
  | false =>
    cases h
    rfl
  | true =>
    simp only [allocate, mallocWithHeader_true] at h
    cases hc : self.count (withBlock p uSize) t (fun s => s.addAllocated uSize) with
    | error f => simp [hc] at h
    | ok p₁ => simp [hc] at h

theorem allocate_tables {p p' : Process Object} {t : Tid} {self : AllocatorImpl} {uSize : UInt64}
    {mem : Bool} {q : Option Nat} (h : self.allocate p t uSize mem = .ok (q, p')) :
    SameTables p p' := by
  cases q with
  | none =>
    rw [allocate_none h]
    exact ⟨rfl, rfl, rfl, Nat.le_refl _⟩
  | some a =>
    obtain ⟨-, r, -, hu⟩ := allocate_some h
    have hblock : SameTables p (withBlock p uSize) := ⟨rfl, rfl, rfl, Nat.le_succ _⟩
    exact hblock.trans hu.tables

theorem free_counts {p p' : Process Object} {t : Tid} {self : AllocatorImpl} {a : Nat}
    (h : self.free p t (some a) = .ok p') :
    ∃ b p₁, p.heap.cells a = some b ∧ self.count p t (fun s => s.addFreed b.uSize) = .ok p₁ ∧
      p' = p₁.freeBlock a := by
  cases hb : p.heap.cells a with
  | none => simp [free, hb] at h
  | some b =>
    simp only [free, hb] at h
    cases hc : self.count p t (fun s => s.addFreed b.uSize) with
    | error f => simp [hc] at h
    | ok p₁ =>
      simp only [hc] at h
      cases h
      exact ⟨b, p₁, rfl, hc, rfl⟩

/-- A `free` that succeeds: the caller's record counts the block, and the block goes. -/
theorem free_some {p p' : Process Object} {t : Tid} {self : AllocatorImpl} {a : Nat}
    (h : self.free p t (some a) = .ok p') :
    ∃ b r p₁, p.heap.cells a = some b ∧ self.m_allocatorThreadLocal.get p t = .ok r ∧
      Updated p r (fun s => s.addFreed b.uSize) p₁ ∧ p' = p₁.freeBlock a := by
  obtain ⟨b, p₁, hb, hc, rfl⟩ := free_counts h
  obtain ⟨r, hg, hu⟩ := count_ok hc
  exact ⟨b, r, p₁, hb, hg, hu, rfl⟩

theorem free_tables {p p' : Process Object} {t : Tid} {self : AllocatorImpl} {q : Option Nat}
    (h : self.free p t q = .ok p') : SameTables p p' := by
  cases q with
  | none =>
    cases h
    exact ⟨rfl, rfl, rfl, Nat.le_refl _⟩
  | some a =>
    obtain ⟨b, r, p₁, -, -, hu, rfl⟩ := free_some h
    exact hu.tables.trans ⟨rfl, rfl, rfl, Nat.le_refl _⟩

theorem reAllocate_counts {p p' : Process Object} {t : Tid} {self : AllocatorImpl} {a q : Nat}
    {uSize : UInt64} {mem : Bool} {re : Realloc}
    (h : self.reAllocate p t (some a) uSize mem re = .ok (some q, p')) :
    ∃ b p₁, p.heap.cells a = some b ∧ resize p a b uSize re = (some q, p₁) ∧
      self.count p₁ t (fun s => (s.addFreed b.uSize).addAllocated uSize) = .ok p' := by
  cases hb : p.heap.cells a with
  | none => simp [reAllocate, hb] at h
  | some b =>
    simp only [reAllocate, hb] at h
    rcases hr : resize p a b uSize re with ⟨_ | q', p₁⟩
    · simp [hr] at h
    · simp only [hr] at h
      cases hc : self.count p₁ t (fun s => (s.addFreed b.uSize).addAllocated uSize) with
      | error f => simp [hc] at h
      | ok p₂ =>
        simp only [hc] at h
        cases h
        exact ⟨b, p₁, rfl, hr, hc⟩

/-- A `reAllocate` of a block that succeeds: the block is resized, and the caller's record counts
the old size as freed and the new one as allocated. -/
theorem reAllocate_some {p p' : Process Object} {t : Tid} {self : AllocatorImpl} {a q : Nat}
    {uSize : UInt64} {mem : Bool} {re : Realloc}
    (h : self.reAllocate p t (some a) uSize mem re = .ok (some q, p')) :
    ∃ b p₁ r, p.heap.cells a = some b ∧ resize p a b uSize re = (some q, p₁) ∧
      self.m_allocatorThreadLocal.get p₁ t = .ok r ∧
      Updated p₁ r (fun s => (s.addFreed b.uSize).addAllocated uSize) p' := by
  obtain ⟨b, p₁, hb, hr, hc⟩ := reAllocate_counts h
  obtain ⟨r, hg, hu⟩ := count_ok hc
  exact ⟨b, p₁, r, hb, hr, hg, hu⟩

/-- A resize moves or rewrites its own block, and a block it moves to is new. -/
theorem resize_some {p p₁ : Process Object} {a q : Nat} {b : Block Object} {uSize : UInt64}
    {re : Realloc} (h : resize p a b uSize re = (some q, p₁)) :
    SameTables p p₁ ∧ (q = a ∨ q = p.heap.next) ∧
      ∀ a', a' ≠ a → a' ≠ q → p₁.heap.cells a' = p.heap.cells a' := by
  cases re with
  | fails => cases h
  | inPlace =>
    cases h
    exact ⟨⟨rfl, rfl, rfl, Nat.le_refl _⟩, Or.inl rfl,
      fun a' ha _ => Heap.cells_modify_ne _ ha⟩
  | moves =>
    cases h
    refine ⟨⟨rfl, rfl, rfl, Nat.le_succ _⟩, Or.inr rfl, fun a' ha hq => ?_⟩
    show ((p.heap.alloc _).2.free a).cells a' = _
    rw [Heap.cells_free_ne ha, Heap.cells_alloc_ne _ hq]
  | releases => cases h

theorem reAllocate_moves {p p' : Process Object} {t : Tid} {self : AllocatorImpl} {a q : Nat}
    {uSize : UInt64} {mem : Bool} {re : Realloc}
    (h : self.reAllocate p t (some a) uSize mem re = .ok (some q, p')) :
    ¬ re.refuses uSize ∧ ¬ re.drops uSize := by
  obtain ⟨b, p₁, r, -, hr, -⟩ := reAllocate_some h
  constructor
  · rintro (rfl | ⟨rfl, -⟩)
    · cases hr
    · cases hr
  · rintro ⟨rfl, -⟩
    cases hr

/-- A `reAllocate` of a block that returns null: `realloc` had failed, or released the block. -/
theorem reAllocate_none {p p' : Process Object} {t : Tid} {self : AllocatorImpl} {a : Nat}
    {uSize : UInt64} {mem : Bool} {re : Realloc}
    (h : self.reAllocate p t (some a) uSize mem re = .ok (none, p')) :
    re.refuses uSize ∧ p' = p.lldkSetErrorCode t .kNoMemory ∨
      re.drops uSize ∧ p' = (p.freeBlock a).lldkSetErrorCode t .kNoMemory := by
  cases hb : p.heap.cells a with
  | none => simp [reAllocate, hb] at h
  | some b =>
    simp only [reAllocate, hb] at h
    rcases hr : resize p a b uSize re with ⟨_ | a', p₁⟩
    · simp only [hr] at h
      cases h
      cases re with
      | fails =>
        cases hr
        exact Or.inl ⟨Or.inl rfl, rfl⟩
      | inPlace => cases hr
      | moves => cases hr
      | releases =>
        simp only [resize, Prod.mk.injEq, true_and] at hr
        by_cases hzero : uSize + headerSize = 0
        · rw [if_pos hzero] at hr
          exact Or.inr ⟨⟨rfl, hzero⟩, by rw [hr]⟩
        · rw [if_neg hzero] at hr
          exact Or.inl ⟨Or.inr ⟨rfl, hzero⟩, by rw [hr]⟩
    · simp only [hr] at h
      cases hc : self.count p₁ t (fun s => (s.addFreed b.uSize).addAllocated uSize) with
      | error f => simp [hc] at h
      | ok p₂ => simp [hc] at h

theorem reAllocate_tables {p p' : Process Object} {t : Tid} {self : AllocatorImpl}
    {q q' : Option Nat} {uSize : UInt64} {mem : Bool} {re : Realloc}
    (h : self.reAllocate p t q uSize mem re = .ok (q', p')) : SameTables p p' := by
  cases q with
  | none => exact allocate_tables h
  | some a =>
    cases q' with
    | some a' =>
      obtain ⟨b, p₁, r, -, hr, -, hu⟩ := reAllocate_some h
      exact (resize_some hr).1.trans hu.tables
    | none =>
      rcases reAllocate_none h with ⟨-, rfl⟩ | ⟨-, rfl⟩
      · exact ⟨rfl, rfl, rfl, Nat.le_refl _⟩
      · exact ⟨rfl, rfl, rfl, Nat.le_refl _⟩

/-! ## The counters and error codes of a call that succeeds -/

theorem sameBooks_count {p p' : Process Object} {t : Tid} {self : AllocatorImpl}
    {f : AllocateStats → AllocateStats} (h : self.count p t f = .ok p') : SameBooks p p' := by
  unfold count at h
  cases hg : self.m_allocatorThreadLocal.get p t with
  | error e => simp [hg] at h
  | ok r =>
    simp only [hg] at h
    exact sameBooks_updateStats h

theorem sameBooks_allocate {p p' : Process Object} {t : Tid} {self : AllocatorImpl}
    {uSize : UInt64} {mem : Bool} {q : Nat} (h : self.allocate p t uSize mem = .ok (some q, p')) :
    SameBooks p p' := by
  have hblock : SameBooks p (withBlock p uSize) := ⟨rfl, rfl⟩
  exact hblock.trans (sameBooks_count (allocate_counts h).2)

theorem sameBooks_free {p p' : Process Object} {t : Tid} {self : AllocatorImpl} {a : Nat}
    (h : self.free p t (some a) = .ok p') : SameBooks p p' := by
  obtain ⟨b, p₁, -, hc, rfl⟩ := free_counts h
  exact (sameBooks_count hc).trans ⟨rfl, rfl⟩

theorem sameBooks_reAllocate {p p' : Process Object} {t : Tid} {self : AllocatorImpl}
    {pMemory : Option Nat} {uSize : UInt64} {mem : Bool} {re : Realloc} {q : Nat}
    (h : self.reAllocate p t pMemory uSize mem re = .ok (some q, p')) : SameBooks p p' := by
  cases pMemory with
  | none => exact sameBooks_allocate h
  | some a =>
    obtain ⟨b, p₁, -, hr, hc⟩ := reAllocate_counts h
    have hresize : SameBooks p p₁ := by
      cases re with
      | fails => cases hr
      | inPlace =>
        cases hr
        exact ⟨rfl, rfl⟩
      | moves =>
        cases hr
        exact ⟨rfl, rfl⟩
      | releases => cases hr
    exact hresize.trans (sameBooks_count hc)

/-! ## What `getAllocateStats` writes -/

theorem visit_collect_error (p : Process Object) (m : Nat) (f : Fault) (as : List Nat) :
    visit (collect p m) (.error f) as = (true, .error f) := by
  induction as with
  | nil => rfl
  | cons a as ih =>
    rw [visit_cons]
    exact ih

/-- **The traversal of the records.** From entry `k` on, the buffer gets the records that are
visited, as many as fit; a visited record that is not there is a fault. -/
theorem visit_collect (p : Process Object) (m : Nat) (as : List Nat) (k : Nat)
    (buf : List AllocateStats) (hk : k ≤ m) (hm : m ≤ buf.length) :
    (∃ rs, (as.take (m - k)).map p.readStats = rs.map some ∧
      visit (collect p m) (.ok (k, buf)) as =
        (true, .ok (k + rs.length, buf.take k ++ rs ++ buf.drop (k + rs.length)))) ∨
      ∃ a, a ∈ as.take (m - k) ∧ p.readStats a = none ∧
        visit (collect p m) (.ok (k, buf)) as = (true, .error (.deadObject a)) := by
  induction as generalizing k buf with
  | nil =>
    refine Or.inl ⟨[], by simp, ?_⟩
    simp [visit]
  | cons a as ih =>
    rw [visit_cons]
    by_cases hlt : k < m
    · have htake : (a :: as).take (m - k) = a :: as.take (m - (k + 1)) := by
        rw [show m - k = (m - (k + 1)) + 1 by omega, List.take_succ_cons]
      rw [htake]
      cases hr : p.readStats a with
      | none =>
        refine Or.inr ⟨a, List.mem_cons_self .., hr, ?_⟩
        simp only [collect, hlt, if_true, hr, ne_eq, not_true_eq_false, if_false]
        exact visit_collect_error p m _ as
      | some r =>
        have hlen : m ≤ (buf.set k r).length := by
          rw [List.length_set]
          exact hm
        simp only [collect, hlt, if_true, hr, ne_eq, not_true_eq_false, if_false]
        rcases ih (k + 1) (buf.set k r) hlt hlen with ⟨rs, hread, hv⟩ | ⟨b, hb, hnone, hv⟩
        · refine Or.inl ⟨r :: rs, ?_, ?_⟩
          · rw [List.map_cons, List.map_cons, hr, hread]
          · rw [hv]
            have hfront : (buf.set k r).take (k + 1) = buf.take k ++ [r] := by
              rw [List.take_add_one, List.take_set_of_le (Nat.le_refl k),
                List.getElem?_set_self (by omega)]
              rfl
            have hback : (buf.set k r).drop (k + 1 + rs.length) =
                buf.drop (k + 1 + rs.length) := List.drop_set_of_lt (by omega)
            rw [hfront, hback, List.length_cons]
            simp only [List.append_assoc, List.cons_append, List.nil_append]
            rw [show k + 1 + rs.length = k + (rs.length + 1) by omega]
        · exact Or.inr ⟨b, List.mem_cons_of_mem _ hb, hnone, hv⟩
    · have hkm : m - k = 0 := by omega
      simp only [collect, hlt, if_false, ne_eq, not_true_eq_false]
      rcases ih k buf hk hm with ⟨rs, hread, hv⟩ | ⟨b, hb, -, -⟩
      · refine Or.inl ⟨rs, ?_, hv⟩
        rw [hkm, List.take_zero] at hread ⊢
        exact hread
      · rw [hkm, List.take_zero] at hb
        cases hb

/-- **`getAllocateStats` with a buffer and a capacity within it.** The traversal decides: the
records that fit are copied, in their order, over the front of the buffer, and nothing else
changes; or one of them is not there. -/
theorem getAllocateStats_cases {al : AllocatorImpl}
    (hi : al.m_allocatorThreadLocal.m_uInstanceId < kMaxInstanceId) (p : Process Object) (t : Tid)
    {buf : List AllocateStats} {m : UInt32} (hm : m.toNat ≤ buf.length) :
    (∃ rs : List AllocateStats,
      ((p.storages al.m_allocatorThreadLocal.m_uInstanceId).take m.toNat).map p.readStats =
        rs.map some ∧
      al.getAllocateStats p t (some buf) (some m) =
        .ok (0, some (rs ++ buf.drop rs.length), some (UInt32.ofNat rs.length), p)) ∨
      ∃ a, a ∈ (p.storages al.m_allocatorThreadLocal.m_uInstanceId).take m.toNat ∧
        p.readStats a = none ∧
        al.getAllocateStats p t (some buf) (some m) = .error (.deadObject a) := by
  have hid : al.m_allocatorThreadLocal.m_uInstanceId ≠ kInvalidInstanceId := Nat.ne_of_lt hi
  have hforeach : al.m_allocatorThreadLocal.foreach p t (some (collect p m.toNat)) (.ok (0, buf)) =
      p.foreach t al.m_allocatorThreadLocal.m_uInstanceId (some (collect p m.toNat))
        (.ok (0, buf)) := by
    simp only [LldkThreadLocal.foreach, ne_eq, hid, not_false_eq_true, if_true]
  rcases visit_collect p m.toNat (p.storages al.m_allocatorThreadLocal.m_uInstanceId) 0 buf
    (Nat.zero_le _) hm with ⟨rs, hread, hv⟩ | ⟨a, ha, hnone, hv⟩
  · rw [Nat.sub_zero] at hread
    rw [Nat.zero_add, List.take_zero, List.nil_append] at hv
    exact Or.inl ⟨rs, hread, by simp only [getAllocateStats, hforeach, foreach_eq p t hi, hv]⟩
  · rw [Nat.sub_zero] at ha
    exact Or.inr ⟨a, ha, hnone, by simp only [getAllocateStats, hforeach, foreach_eq p t hi, hv]⟩

end AllocatorImpl

end Lldk
