import Lldk.Lib.Trace
import Lldk.Utilities.ThreadLocalBase

/-!
`LldkThreadLocal<T>` (`src/utilities/lldk_thread_local.h`) and programs that use it.

* `construct`, `moveConstruct`, `moveAssign`, `destruct`, `get` and `foreach` are the members of
  the class; a constructor that throws leaves whatever it had done.
* `World` is a process and the objects that are alive; `worldStep` runs one member on any thread.
* `construct_cases`, `destruct_spec`: what the constructor and the destructor leave.
-/

namespace Lldk

open Lib Lib.Trace Process

/-- `T`: its size and what `T()` builds. -/
structure ObjectType (β : Type) where
  size : UInt64
  value : β

structure LldkThreadLocal where
  m_uInstanceId : Nat
  deriving DecidableEq, Repr

/-- How a constructor ends: an object and its storage, or an exception. -/
inductive Constructed
  | object (obj : LldkThreadLocal) (pStorage : Nat)
  | threw (what : String)
  deriving DecidableEq, Repr

variable {β : Type} (T : ObjectType β)

namespace LldkThreadLocal

/-- The constructor from the point where it has its id: the storage, the object in it, and the
slot. -/
def setUp (p : Process β) (t : Tid) (uInstanceId : Nat) (env : Env) :
    Except Fault (Constructed × Process β) :=
  match p.lldkAllocate t T.size env.storageMem with
  | (none, p) => .ok (.threw "Failed to create storage", p)
  | (some pStorage, p) =>
    if env.ctorThrows then .ok (.threw "T()", p)
    else
      match (p.placeObject pStorage T.value).setThreadLocalStorage t uInstanceId (some pStorage)
          env with
      | .error f => .error f
      | .ok (rc, p) =>
        if rc ≠ 0 then
          match p.lldkFree t (some pStorage) with
          | .error f => .error f
          | .ok p =>
            match p.deleteInstanceId uInstanceId with
            | .error f => .error f
            | .ok p => .ok (.threw "Failed to set thread local storage", p)
        else .ok (.object ⟨uInstanceId⟩ pStorage, p)

/-- The constructor, on thread `t`. -/
def construct (p : Process β) (t : Tid) (env : Env) : Except Fault (Constructed × Process β) :=
  match p.newInstanceId with
  | .error f => .error f
  | .ok (uInstanceId, p) =>
    if uInstanceId = kInvalidInstanceId then .ok (.threw "Failed to create instance id", p)
    else setUp T p t uInstanceId env

/-- The move constructor: the new object and what is left of `that`. -/
def moveConstruct (that : LldkThreadLocal) : LldkThreadLocal × LldkThreadLocal :=
  (⟨that.m_uInstanceId⟩, ⟨kInvalidInstanceId⟩)

/-- Move assignment from another object. The id that `obj` held is overwritten. -/
def moveAssign (_obj that : LldkThreadLocal) : LldkThreadLocal × LldkThreadLocal :=
  (⟨that.m_uInstanceId⟩, ⟨kInvalidInstanceId⟩)

/-- The destructor, on thread `t`. -/
def destruct (p : Process β) (t : Tid) (obj : LldkThreadLocal) : Except Fault (Process β) :=
  match p.getThreadLocalStorage t obj.m_uInstanceId with
  | .error f => .error f
  | .ok none => p.deleteInstanceId obj.m_uInstanceId
  | .ok (some pStorage) =>
    match p.destroyObject pStorage with
    | .error f => .error f
    | .ok p =>
      match p.lldkFree t (some pStorage) with
      | .error f => .error f
      | .ok p =>
        match p.setThreadLocalStorage t obj.m_uInstanceId none {} with
        | .error f => .error f
        | .ok (_, p) => p.deleteInstanceId obj.m_uInstanceId

def get (p : Process β) (t : Tid) (obj : LldkThreadLocal) : Except Fault (Option Nat) :=
  p.getThreadLocalStorage t obj.m_uInstanceId

/-- `foreach`, called by thread `t`; it returns -1 for an object without an id and for an empty
callback. -/
def foreach {σ : Type} (p : Process β) (t : Tid) (obj : LldkThreadLocal)
    (func : Option (σ → Nat → σ × Int)) (s : σ) : Except Fault (Int × σ × Process β) :=
  match func with
  | some func =>
    if obj.m_uInstanceId ≠ kInvalidInstanceId then
      p.foreach t obj.m_uInstanceId (some func) s
    else .ok (-1, s, p)
  | none => .ok (-1, s, p)

end LldkThreadLocal

/-! ## What the constructor leaves -/

/-- Nothing that a constructor on thread `t` needs, once it has an id, goes wrong. -/
def Env.serves (env : Env) (p : Process β) (t : Tid) : Prop :=
  env.storageMem = true ∧ env.ctorThrows = false ∧
    (p.hasTable t ∨ (env.tableMem = true ∧ env.pushMem = true))

/-- The object of id `i` was constructed on thread `t`, in the next free block. -/
structure Built (p : Process β) (t : Tid) (i : Nat) (p' : Process β) : Prop where
  marked : ∀ j, p'.marked j ↔ p.marked j ∨ j = i
  hasTable : ∀ t', p'.hasTable t' ↔ p.hasTable t' ∨ t' = t
  self : p'.slot t i = some p.heap.next
  others : ∀ t' j, t' ≠ t ∨ j ≠ i → p'.slot t' j = p.slot t' j
  registered : p.hasTable t → p'.s_vecpppInstances = p.s_vecpppInstances
  first : ¬ p.hasTable t → p'.s_vecpppInstances = p.s_vecpppInstances ++ [t]
  storage : ∃ block, p'.heap.cells p.heap.next = some block ∧ block.object = some T.value
  blocks : ∀ b block, p.heap.cells b = some block → p'.heap.cells b = some block
  next : p.heap.next < p'.heap.next

/-- What the same construction did to the memory, the counters and the history. -/
structure Booked (p : Process β) (t : Tid) (p' : Process β) : Prop where
  log : p'.log = p.log ++ [.created p.heap.next]
  s_eErrorCode : p'.s_eErrorCode = p.s_eErrorCode
  s_allocateStats : p'.s_allocateStats = if p.hasTable t then p.s_allocateStats.addAllocated T.size
    else (p.s_allocateStats.addAllocated T.size).addAllocated tableSize
  cells : ∀ b block, p'.heap.cells b = some block → p.heap.cells b = some block ∨
    b = p.heap.next ∨
      b = p.heap.next + 1 ∧ ∃ table, p'.s_ppInstances t = some table ∧ table.addr = b
  addrs : ∀ t' table, p.s_ppInstances t' = some table →
    ∃ table', p'.s_ppInstances t' = some table' ∧ table'.addr = table.addr

/-- The constructor threw after it was given id `i`: at most the id stays marked and blocks
nobody refers to stay behind. -/
structure Aborted (p : Process β) (i : Nat) (p' : Process β) : Prop where
  keeps : ∀ j, j ≠ i → (p'.marked j ↔ p.marked j)
  s_ppInstances : p'.s_ppInstances = p.s_ppInstances
  s_vecpppInstances : p'.s_vecpppInstances = p.s_vecpppInstances
  blocks : ∀ b block, p.heap.cells b = some block → p'.heap.cells b = some block
  next : p.heap.next ≤ p'.heap.next

namespace LldkThreadLocal

/-- The process when the new object of type `T` is in its storage. -/
def withStorage (p : Process β) (t : Tid) : Process β :=
  (p.lldkAllocate t T.size true).2.placeObject p.heap.next T.value

theorem withStorage_self (p : Process β) (t : Tid) :
    (withStorage T p t).heap.cells p.heap.next =
      some ⟨T.size + headerSize, T.size, some T.value⟩ := by
  show ((p.heap.alloc ⟨T.size + headerSize, T.size, none⟩).2.modify p.heap.next _).cells
    p.heap.next = _
  rw [Heap.cells_modify_self, Heap.cells_alloc_self]
  rfl

theorem withStorage_storage (p : Process β) (t : Tid) :
    ∃ block, (withStorage T p t).heap.cells p.heap.next = some block ∧
      block.object = some T.value :=
  ⟨_, withStorage_self T p t, rfl⟩

theorem withStorage_ne (p : Process β) (t : Tid) {b : Nat} (hne : b ≠ p.heap.next) :
    (withStorage T p t).heap.cells b = p.heap.cells b :=
  (Heap.cells_modify_ne _ hne).trans (Heap.cells_alloc_ne _ hne)

theorem withStorage_blocks (p : Process β) (t : Tid) {b : Nat} {block : Block β}
    (hb : p.heap.cells b = some block) : (withStorage T p t).heap.cells b = some block :=
  (withStorage_ne T p t (Nat.ne_of_lt (Heap.lt_next hb))).trans hb

variable {p : Process β} {t : Tid} {i : Nat} {env : Env}

/-- The storage is obtained. -/
theorem lldkAllocate_storage (hmem : env.storageMem = true) :
    p.lldkAllocate t T.size env.storageMem =
      (some p.heap.next, (p.lldkAllocate t T.size true).2) := by
  rw [hmem]
  rfl

theorem setUp_built (hi : i < kMaxInstanceId) (henv : env.serves p t) :
    ∃ p', setUp T p t i env = .ok (.object ⟨i⟩ p.heap.next, p') ∧
      Stored (withStorage T p t) t i p.heap.next p' := by
  obtain ⟨hmem, hctor, htable⟩ := henv
  obtain ⟨p', hset, hst⟩ : ∃ p', (withStorage T p t).setThreadLocalStorage t i
      (some p.heap.next) env = .ok (0, p') ∧ Stored (withStorage T p t) t i p.heap.next p' :=
    setThreadLocalStorage_stored (p := withStorage T p t) hi htable p.heap.next
  rw [withStorage] at hset
  refine ⟨p', ?_, hst⟩
  simp [setUp, lldkAllocate_storage T hmem, hctor, hset]

theorem setUp_eq (hi : i < kMaxInstanceId) (henv : env.serves p t) :
    setUp T p t i env =
      .ok (.object ⟨i⟩ p.heap.next, (withStorage T p t).afterStore t i p.heap.next) := by
  obtain ⟨hmem, hctor, htable⟩ := henv
  have hset : (withStorage T p t).setThreadLocalStorage t i (some p.heap.next) env =
      .ok (0, (withStorage T p t).afterStore t i p.heap.next) :=
    setThreadLocalStorage_eq (p := withStorage T p t) hi htable p.heap.next
  rw [withStorage] at hset
  simp [setUp, lldkAllocate_storage T hmem, hctor, hset, withStorage]

/-- A constructor that has its object and fails to store it releases the storage, then the id. -/
theorem setUp_givesBack (hi : i < kMaxInstanceId) (hmem : env.storageMem = true)
    (hctor : env.ctorThrows = false) {p₁ : Process β}
    (hset : (withStorage T p t).setThreadLocalStorage t i (some p.heap.next) env =
      .ok (-1, p₁)) (hu : Untouched (withStorage T p t) p₁) :
    ∃ b, setUp T p t i env = .ok (.threw "Failed to set thread local storage",
        (p₁.released p.heap.next T.size).withBits b) ∧
      ∀ j, ((p₁.released p.heap.next T.size).withBits b).marked j ↔ p.marked j ∧ j ≠ i := by
  obtain ⟨b, hdel, hmarked⟩ := deleteInstanceId_spec (p₁.released p.heap.next T.size) hi
  have hcell := (hu.blocks p.heap.next).trans (withStorage_self T p t)
  have hfree := lldkFree_live hcell t
  rw [withStorage] at hset
  refine ⟨b, by simp [setUp, lldkAllocate_storage T hmem, hctor, hset, hfree, hdel], fun j => ?_⟩
  have hbits : p₁.s_bitset = p.s_bitset := hu.s_bitset
  rw [hmarked j, marked_congr ((released_spec p₁ p.heap.next T.size).s_bitset.trans hbits)]

/-- When the slot cannot be set, the constructor gives back its storage and its id. -/
theorem setUp_noSlot (hi : i < kMaxInstanceId) (hmem : env.storageMem = true)
    (hctor : env.ctorThrows = false) (ht : ¬ p.hasTable t)
    (htable : ¬ (env.tableMem = true ∧ env.pushMem = true)) :
    ∃ p', setUp T p t i env = .ok (.threw "Failed to set thread local storage", p') ∧
      (∀ j, p'.marked j ↔ p.marked j ∧ j ≠ i) ∧ p'.s_ppInstances = p.s_ppInstances ∧
      p'.s_vecpppInstances = p.s_vecpppInstances ∧
      (∀ b block, p.heap.cells b = some block → p'.heap.cells b = some block) ∧
      p.heap.next ≤ p'.heap.next := by
  have hne : i ≠ kInvalidInstanceId := Nat.ne_of_lt hi
  obtain ⟨p₁, hset, hu⟩ : ∃ p', (withStorage T p t).setThreadLocalStorage t i
      (some p.heap.next) env = .ok (-1, p') ∧ Untouched (withStorage T p t) p' :=
    setThreadLocalStorage_failed (p := withStorage T p t) hne ht htable p.heap.next
  have hr := released_spec p₁ p.heap.next T.size
  obtain ⟨b, hsetUp, hmarked⟩ := setUp_givesBack T hi hmem hctor hset hu
  refine ⟨(p₁.released p.heap.next T.size).withBits b, hsetUp, hmarked,
    hr.s_ppInstances.trans hu.s_ppInstances, hr.s_vecpppInstances.trans hu.s_vecpppInstances,
    fun c block hc => ?_, ?_⟩
  · have hc' : c ≠ p.heap.next := Nat.ne_of_lt (Heap.lt_next hc)
    show (p₁.released p.heap.next T.size).heap.cells c = some block
    rw [hr.others c hc', hu.blocks c]
    exact withStorage_blocks T p t hc
  · have hnext : p.heap.next + 1 ≤ p₁.heap.next := hu.next
    show p.heap.next ≤ (p₁.released p.heap.next T.size).heap.next
    rw [hr.next]
    omega

theorem setUp_aborted (hi : i < kMaxInstanceId) (henv : ¬ env.serves p t) :
    ∃ what p', setUp T p t i env = .ok (.threw what, p') ∧ Aborted p i p' := by
  cases hmem : env.storageMem with
  | false =>
    refine ⟨"Failed to create storage", p.lldkSetErrorCode t .kNoMemory, ?_,
      fun j _ => Iff.rfl, rfl, rfl, fun _ _ hb => hb, Nat.le_refl _⟩
    simp [setUp, hmem, lldkAllocate, mallocWithHeader]
  | true =>
    cases hctor : env.ctorThrows with
    | true =>
      refine ⟨"T()", (p.lldkAllocate t T.size true).2, ?_, fun j _ => Iff.rfl, rfl, rfl,
        fun b block hb => Heap.cells_alloc_of_some _ hb, Nat.le_succ _⟩
      simp [setUp, hmem, hctor, lldkAllocate, mallocWithHeader]
    | false =>
      have ht : ¬ p.hasTable t := fun ht => henv ⟨hmem, hctor, Or.inl ht⟩
      have htable : ¬ (env.tableMem = true ∧ env.pushMem = true) :=
        fun h => henv ⟨hmem, hctor, Or.inr h⟩
      obtain ⟨p', hs, hmarked, h₁, h₂, h₃, h₄⟩ := setUp_noSlot T hi hmem hctor ht htable
      refine ⟨_, p', hs, fun j hj => ?_, h₁, h₂, h₃, h₄⟩
      rw [hmarked j]
      exact ⟨fun h => h.1, fun h => ⟨h, hj⟩⟩

/-- When `T()` throws, the id stays marked. -/
theorem construct_ctorThrows (hi : i < kMaxInstanceId) (hfree : ¬ p.marked i)
    (hleast : ∀ j, j < i → p.marked j) (hmem : env.storageMem = true)
    (hctor : env.ctorThrows = true) :
    ∃ p', construct T p t env = .ok (.threw "T()", p') ∧ p'.marked i := by
  obtain ⟨b, hnew, hmarked⟩ := newInstanceId_least hi hfree hleast
  have hne : i ≠ kInvalidInstanceId := Nat.ne_of_lt hi
  refine ⟨((p.withBits b).lldkAllocate t T.size true).2, ?_, (hmarked i).mpr (Or.inr rfl)⟩
  simp [construct, hnew, hne, setUp, hmem, hctor, lldkAllocate, mallocWithHeader]

theorem construct_exhausted (hall : ∀ j, j < kMaxInstanceId → p.marked j) (t : Tid) (env : Env) :
    construct T p t env = .ok (.threw "Failed to create instance id", p) := by
  simp only [construct, newInstanceId_exhausted hall, if_true]

/-- **A constructor that gets all it needs.** -/
theorem construct_built (hi : i < kMaxInstanceId) (hfree : ¬ p.marked i)
    (hleast : ∀ j, j < i → p.marked j) (henv : env.serves p t) :
    ∃ p', construct T p t env = .ok (.object ⟨i⟩ p.heap.next, p') ∧ Built T p t i p' := by
  obtain ⟨b, hnew, hmarked⟩ := newInstanceId_least hi hfree hleast
  have hne : i ≠ kInvalidInstanceId := Nat.ne_of_lt hi
  have henv' : env.serves (p.withBits b) t := henv
  obtain ⟨p', hs, hst⟩ := setUp_built T hi henv'
  obtain ⟨block, hcell, hobj⟩ := withStorage_storage T (p.withBits b) t
  refine ⟨p', by simp only [construct, hnew, hne, if_false, hs]; rfl, fun j => ?_, hst.hasTable,
    hst.self, hst.others, hst.registered, hst.first, ⟨block, hst.blocks _ _ hcell, hobj⟩,
    fun c block' hc => ?_, hst.next⟩
  · rw [← hmarked j]
    exact marked_congr hst.s_bitset j
  · exact hst.blocks c block' (withStorage_blocks T (p.withBits b) t hc)

/-- **A constructor that fails after it got an id.** -/
theorem construct_aborted (hi : i < kMaxInstanceId) (hfree : ¬ p.marked i)
    (hleast : ∀ j, j < i → p.marked j) (henv : ¬ env.serves p t) :
    ∃ what p', construct T p t env = .ok (.threw what, p') ∧ Aborted p i p' := by
  obtain ⟨b, hnew, hmarked⟩ := newInstanceId_least hi hfree hleast
  have hne : i ≠ kInvalidInstanceId := Nat.ne_of_lt hi
  have henv' : ¬ env.serves (p.withBits b) t := henv
  obtain ⟨what, p', hs, ha⟩ := setUp_aborted T hi henv'
  refine ⟨what, p', by simp only [construct, hnew, hne, if_false, hs], fun j hj => ?_,
    ha.s_ppInstances, ha.s_vecpppInstances, ha.blocks, ha.next⟩
  rw [ha.keeps j hj, hmarked j]
  exact ⟨fun h => h.resolve_right hj, Or.inl⟩

/-- **The constructor**, as it can end: with an object under the least free id, or with an
exception and nothing, or at most an id and blocks nobody refers to, left behind. -/
theorem construct_cases {r : Constructed} {p' : Process β}
    (h : construct T p t env = .ok (r, p')) :
    (∃ i, r = .object ⟨i⟩ p.heap.next ∧ i < kMaxInstanceId ∧ ¬ p.marked i ∧ Built T p t i p') ∨
      ∃ what, r = .threw what ∧ (p' = p ∨ ∃ i, Aborted p i p') := by
  rcases exists_least_free p with ⟨i, hi, hfree, hleast⟩ | hall
  · by_cases henv : env.serves p t
    · obtain ⟨q, hc, hb⟩ := construct_built T hi hfree hleast henv
      rw [h] at hc
      cases hc
      exact Or.inl ⟨i, rfl, hi, hfree, hb⟩
    · obtain ⟨what, q, hc, ha⟩ := construct_aborted T hi hfree hleast henv
      rw [h] at hc
      cases hc
      exact Or.inr ⟨what, rfl, Or.inr ⟨i, ha⟩⟩
  · rw [construct_exhausted T hall t env] at h
    cases h
    exact Or.inr ⟨_, rfl, Or.inl rfl⟩

/-- **A constructor that returned** has built its object under the least free id. -/
theorem construct_object {obj : LldkThreadLocal} {a : Nat} {p' : Process β}
    (h : construct T p t env = .ok (.object obj a, p')) :
    obj.m_uInstanceId < kMaxInstanceId ∧ ¬ p.marked obj.m_uInstanceId ∧ a = p.heap.next ∧
      Built T p t obj.m_uInstanceId p' := by
  rcases construct_cases T h with ⟨i, he, hi, hfree, hb⟩ | ⟨what, he, -⟩
  · cases he
    exact ⟨hi, hfree, rfl, hb⟩
  · cases he

/-- **A constructor that threw** found every id marked, or lacked something after it got one. -/
theorem construct_threw {what : String} {p' : Process β}
    (h : construct T p t env = .ok (.threw what, p')) :
    (p' = p ∧ ∀ j, j < kMaxInstanceId → p.marked j) ∨
      ∃ i, i < kMaxInstanceId ∧ ¬ p.marked i ∧ ¬ env.serves p t ∧ Aborted p i p' := by
  rcases exists_least_free p with ⟨i, hi, hfree, hleast⟩ | hall
  · by_cases henv : env.serves p t
    · obtain ⟨q, hc, -⟩ := construct_built T hi hfree hleast henv
      rw [h] at hc
      cases hc
    · obtain ⟨what', q, hc, ha⟩ := construct_aborted T hi hfree hleast henv
      rw [h] at hc
      cases hc
      exact Or.inr ⟨i, hi, hfree, henv, ha⟩
  · rw [construct_exhausted T hall t env] at h
    cases h
    exact Or.inl ⟨rfl, hall⟩

/-- The constructor never reads or writes outside its table or the bitset. -/
theorem construct_returns (p : Process β) (t : Tid) (env : Env) :
    ∃ r p', construct T p t env = .ok (r, p') := by
  rcases exists_least_free p with ⟨i, hi, hfree, hleast⟩ | hall
  · by_cases henv : env.serves p t
    · obtain ⟨q, hc, -⟩ := construct_built T hi hfree hleast henv
      exact ⟨_, q, hc⟩
    · obtain ⟨what, q, hc, -⟩ := construct_aborted T hi hfree hleast henv
      exact ⟨_, q, hc⟩
  · exact ⟨_, p, construct_exhausted T hall t env⟩

theorem withStorage_cells (p : Process β) (t : Tid) {b : Nat} {block : Block β}
    (h : (withStorage T p t).heap.cells b = some block) :
    p.heap.cells b = some block ∨ b = p.heap.next := by
  by_cases hb : b = p.heap.next
  · exact Or.inr hb
  · have hold : (withStorage T p t).heap.cells b = p.heap.cells b := by
      show ((p.heap.alloc ⟨T.size + headerSize, T.size, none⟩).2.modify p.heap.next _).cells b = _
      rw [Heap.cells_modify_ne _ hb, Heap.cells_alloc_ne _ hb]
    exact Or.inl (hold.symm.trans h)

/-- The slot is set in the table that is there, or in a new one, in a block of its own. -/
theorem booked_afterStore (p : Process β) (t : Tid) (i : Nat) :
    Booked T p t ((withStorage T p t).afterStore t i p.heap.next) := by
  have htables : (withStorage T p t).s_ppInstances = p.s_ppInstances := rfl
  cases ht : p.s_ppInstances t with
  | some table =>
    have heq : (withStorage T p t).afterStore t i p.heap.next = (withStorage T p t).withTable t
        { table with slots := Function.update table.slots i (some p.heap.next) } := by
      simp only [afterStore, htables, ht]
    rw [heq]
    refine ⟨rfl, rfl, (if_pos ⟨table, ht⟩).symm, fun b block hb => ?_, fun t' table' ht' => ?_⟩
    · exact (withStorage_cells T p t hb).imp_right Or.inl
    · by_cases he : t' = t
      · subst he
        rw [ht] at ht'
        cases ht'
        exact ⟨_, Function.update_self .., rfl⟩
      · exact ⟨table', (Function.update_of_ne he ..).trans ht', rfl⟩
  | none =>
    have heq : (withStorage T p t).afterStore t i p.heap.next =
        (withStorage T p t).firstStore t i p.heap.next := by
      simp only [afterStore, htables, ht]
    rw [heq]
    refine ⟨rfl, rfl, (if_neg (noTable_iff.mpr ht)).symm, fun b block hb => ?_,
      fun t' table' ht' => ?_⟩
    · by_cases hnew : b = (withStorage T p t).heap.next
      · exact Or.inr (Or.inr ⟨hnew, _, Function.update_self .., hnew.symm⟩)
      · have hold : ((withStorage T p t).firstStore t i p.heap.next).heap.cells b =
            (withStorage T p t).heap.cells b := Heap.cells_alloc_ne _ hnew
        exact (withStorage_cells T p t (hold.symm.trans hb)).imp_right Or.inl
    · have he : t' ≠ t := by
        rintro rfl
        rw [ht] at ht'
        cases ht'
      exact ⟨table', (Function.update_of_ne he ..).trans ht', rfl⟩

/-- A constructor that fails after it got an id touches no block that was there or had been. -/
theorem setUp_aborted_old (hi : i < kMaxInstanceId) (henv : ¬ env.serves p t) {r : Constructed}
    {p' : Process β} (h : setUp T p t i env = .ok (r, p')) {b : Nat} (hb : b < p.heap.next) :
    p'.heap.cells b = p.heap.cells b := by
  have hne : b ≠ p.heap.next := Nat.ne_of_lt hb
  cases hmem : env.storageMem with
  | false =>
    simp only [setUp, hmem, lldkAllocate, mallocWithHeader, Bool.false_eq_true, if_false] at h
    cases h
    rfl
  | true =>
    cases hctor : env.ctorThrows with
    | true =>
      simp only [setUp, hmem, hctor, lldkAllocate, mallocWithHeader, if_true] at h
      cases h
      exact Heap.cells_alloc_ne _ hne
    | false =>
      have ht : ¬ p.hasTable t := fun ht => henv ⟨hmem, hctor, Or.inl ht⟩
      have htable : ¬ (env.tableMem = true ∧ env.pushMem = true) :=
        fun h => henv ⟨hmem, hctor, Or.inr h⟩
      have hid : i ≠ kInvalidInstanceId := Nat.ne_of_lt hi
      obtain ⟨p₁, hset, hu⟩ : ∃ p', (withStorage T p t).setThreadLocalStorage t i
          (some p.heap.next) env = .ok (-1, p') ∧ Untouched (withStorage T p t) p' :=
        setThreadLocalStorage_failed (p := withStorage T p t) hid ht htable p.heap.next
      have hr := released_spec p₁ p.heap.next T.size
      obtain ⟨bits, hsetUp, -⟩ := setUp_givesBack T hi hmem hctor hset hu
      rw [hsetUp] at h
      cases h
      calc (p₁.released p.heap.next T.size).heap.cells b
          = p₁.heap.cells b := hr.others b hne
        _ = (withStorage T p t).heap.cells b := hu.blocks b
        _ = p.heap.cells b := withStorage_ne T p t hne

/-- **The books after a constructor that returned.** -/
theorem construct_booked {obj : LldkThreadLocal} {a : Nat} {p' : Process β}
    (h : construct T p t env = .ok (.object obj a, p')) : Booked T p t p' := by
  rcases exists_least_free p with ⟨i, hi, hfree, hleast⟩ | hall
  · by_cases henv : env.serves p t
    · obtain ⟨b, hnew, -⟩ := newInstanceId_least hi hfree hleast
      have hne : i ≠ kInvalidInstanceId := Nat.ne_of_lt hi
      have henv' : env.serves (p.withBits b) t := henv
      simp only [construct, hnew, hne, if_false, setUp_eq T hi henv'] at h
      cases h
      have hb := booked_afterStore T (p.withBits b) t i
      exact ⟨hb.log, hb.s_eErrorCode, hb.s_allocateStats, hb.cells, hb.addrs⟩
    · obtain ⟨what, q, hc, -⟩ := construct_aborted T hi hfree hleast henv
      rw [h] at hc
      cases hc
  · rw [construct_exhausted T hall t env] at h
    cases h

/-- The constructor touches no block that was there or had been. -/
theorem construct_old {r : Constructed} {p' : Process β} (h : construct T p t env = .ok (r, p'))
    {b : Nat} (hb : b < p.heap.next) : p'.heap.cells b = p.heap.cells b := by
  cases r with
  | object obj a =>
    obtain ⟨-, -, -, hbuilt⟩ := construct_object T h
    have hbooked := construct_booked T h
    cases hc : p.heap.cells b with
    | some block => exact hbuilt.blocks b block hc
    | none =>
      cases hc' : p'.heap.cells b with
      | none => rfl
      | some block =>
        rcases hbooked.cells b block hc' with hold | he | ⟨he, -⟩
        · rw [hc] at hold
          cases hold
        · omega
        · omega
  | threw what =>
    rcases exists_least_free p with ⟨i, hi, hfree, hleast⟩ | hall
    · obtain ⟨bits, hnew, -⟩ := newInstanceId_least hi hfree hleast
      have hne : i ≠ kInvalidInstanceId := Nat.ne_of_lt hi
      by_cases henv : env.serves p t
      · obtain ⟨q, hc, -⟩ := construct_built T hi hfree hleast henv
        rw [h] at hc
        cases hc
      · have henv' : ¬ env.serves (p.withBits bits) t := henv
        simp only [construct, hnew, hne, if_false] at h
        exact setUp_aborted_old T hi henv' h hb
    · rw [construct_exhausted T hall t env] at h
      cases h
      rfl

/-! ## What the destructor leaves -/

/-- The object of id `i` was destroyed on thread `t`. The slot keeps its pointer: the null that
the destructor stores is rejected. -/
structure Destructed (p : Process β) (t : Tid) (i : Nat) (p' : Process β) : Prop where
  marked : ∀ j, p'.marked j ↔ p.marked j ∧ j ≠ i
  s_ppInstances : p'.s_ppInstances = p.s_ppInstances
  s_vecpppInstances : p'.s_vecpppInstances = p.s_vecpppInstances
  gone : ∀ a, p.slot t i = some a → p'.heap.cells a = none
  others : ∀ b, p.slot t i ≠ some b → p'.heap.cells b = p.heap.cells b
  next : p'.heap.next = p.heap.next

/-- `~T()` and the release of the storage. -/
theorem released_emptied (p : Process β) (a : Nat) (uSize : UInt64) :
    Released p a ((p.emptied a).released a uSize) := by
  have hr := released_spec (p.emptied a) a uSize
  refine ⟨hr.s_bitset, hr.s_ppInstances, hr.s_vecpppInstances, hr.gone, fun b hb => ?_, hr.next⟩
  rw [hr.others b hb]
  exact Heap.cells_modify_ne _ hb

/-- The destructor of an object whose slot is null only gives the id back. -/
theorem destruct_null {obj : LldkThreadLocal} (hi : obj.m_uInstanceId < kMaxInstanceId)
    (ht : p.hasTable t) (hs : p.slot t obj.m_uInstanceId = none) :
    obj.destruct p t = p.deleteInstanceId obj.m_uInstanceId := by
  have hget := getThreadLocalStorage_ok ht hi
  simp only [destruct, hget, hs]

/-- The destructor of an object with a storage. -/
theorem destruct_live {obj : LldkThreadLocal} {a : Nat} {block : Block β}
    (hi : obj.m_uInstanceId < kMaxInstanceId) (ht : p.hasTable t)
    (hs : p.slot t obj.m_uInstanceId = some a) (hb : p.heap.cells a = some block) :
    obj.destruct p t = (((p.emptied a).released a block.uSize).lldkSetErrorCode t
      .kInvalidParam).deleteInstanceId obj.m_uInstanceId := by
  have hget := getThreadLocalStorage_ok ht hi
  have hfree := lldkFree_live (emptied_self hb) t
  simp only [destruct, hget, hs, destroyObject_live hb, hfree, setThreadLocalStorage_null]

/-- The destructor of an object whose slot points to a block that is gone. -/
theorem destruct_dead {obj : LldkThreadLocal} {a : Nat} (hi : obj.m_uInstanceId < kMaxInstanceId)
    (ht : p.hasTable t) (hs : p.slot t obj.m_uInstanceId = some a) (hb : p.heap.cells a = none) :
    obj.destruct p t = .error (.deadObject a) := by
  have hget := getThreadLocalStorage_ok ht hi
  simp only [destruct, hget, hs, destroyObject_dead hb]

/-- **The destructor** of an object with an id, on a thread with a table and no dangling pointer
under the id. -/
theorem destruct_spec {obj : LldkThreadLocal} (hi : obj.m_uInstanceId < kMaxInstanceId)
    (ht : p.hasTable t) (hlive : p.slotLive t obj.m_uInstanceId) :
    ∃ p', obj.destruct p t = .ok p' ∧ Destructed p t obj.m_uInstanceId p' := by
  cases hs : p.slot t obj.m_uInstanceId with
  | none =>
    obtain ⟨b, hdel, hmarked⟩ := deleteInstanceId_spec p hi
    refine ⟨p.withBits b, (destruct_null hi ht hs).trans hdel, hmarked, rfl, rfl,
      fun a ha => ?_, fun b _ => rfl, rfl⟩
    rw [hs] at ha
    cases ha
  | some a =>
    obtain ⟨block, hblock⟩ := hlive a hs
    have hr := released_emptied p a block.uSize
    have hu := untouched_lldkSetErrorCode ((p.emptied a).released a block.uSize) t .kInvalidParam
    obtain ⟨b, hdel, hmarked⟩ := deleteInstanceId_spec
      (((p.emptied a).released a block.uSize).lldkSetErrorCode t .kInvalidParam) hi
    refine ⟨(((p.emptied a).released a block.uSize).lldkSetErrorCode t .kInvalidParam).withBits b,
      (destruct_live hi ht hs hblock).trans hdel, fun j => ?_,
      hr.s_ppInstances, hr.s_vecpppInstances, fun a' ha => ?_, fun c hc => ?_, hr.next⟩
    · rw [hmarked j, hu.marked j, marked_congr hr.s_bitset]
    · rw [hs] at ha
      cases ha
      exact hr.gone
    · have hca : c ≠ a := by
        rintro rfl
        exact hc hs
      exact hr.others c hca

/-- A destructor that came to its end used a table, an id below `kMaxInstanceId`, and a storage
that was there. -/
theorem destruct_ok {obj : LldkThreadLocal} {p' : Process β} (h : obj.destruct p t = .ok p') :
    obj.m_uInstanceId < kMaxInstanceId ∧ p.hasTable t ∧ p.slotLive t obj.m_uInstanceId := by
  by_cases ht : p.hasTable t
  · have hi : obj.m_uInstanceId < kMaxInstanceId := by
      by_contra hi
      obtain ⟨table, ht⟩ := ht
      simp [destruct, getThreadLocalStorage, ht, hi] at h
    refine ⟨hi, ht, fun a ha => ?_⟩
    cases hb : p.heap.cells a with
    | none =>
      rw [destruct_dead hi ht ha hb] at h
      cases h
    | some block => exact ⟨block, rfl⟩
  · simp [destruct, getThreadLocalStorage_noTable ht] at h

theorem destruct_destructed {obj : LldkThreadLocal} {p' : Process β}
    (h : obj.destruct p t = .ok p') : Destructed p t obj.m_uInstanceId p' := by
  obtain ⟨hi, ht, hlive⟩ := destruct_ok h
  obtain ⟨q, hd, hq⟩ := destruct_spec hi ht hlive
  rw [h] at hd
  cases hd
  exact hq

/-- A traversal leaves the tables, the ids and the memory as they are. -/
theorem foreach_untouched {σ : Type} {obj : LldkThreadLocal} {func : σ → Nat → σ × Int} {s s' : σ}
    {rc : Int} {p' : Process β} (hi : obj.m_uInstanceId ≤ kMaxInstanceId)
    (h : obj.foreach p t (some func) s = .ok (rc, s', p')) : Untouched p p' := by
  by_cases hid : obj.m_uInstanceId = kInvalidInstanceId
  · simp only [foreach, hid, ne_eq, not_true_eq_false, if_false] at h
    cases h
    exact Untouched.refl p
  · have hlt : obj.m_uInstanceId < kMaxInstanceId := Nat.lt_of_le_of_ne hi hid
    obtain ⟨rc', q, hf, hu, -⟩ := foreach_spec p t hlt func s
    simp only [foreach, ne_eq, hid, not_false_eq_true, if_true, hf] at h
    cases h
    exact hu

/-- What the destructor does to the object that its slot points to. -/
theorem destruct_log {obj : LldkThreadLocal} {p' : Process β} (h : obj.destruct p t = .ok p') :
    p'.log = p.log ++ match p.slot t obj.m_uInstanceId with
      | some a => [.destroyed a, .freed a]
      | none => [] := by
  obtain ⟨hi, ht, hlive⟩ := destruct_ok h
  cases hs : p.slot t obj.m_uInstanceId with
  | none =>
    obtain ⟨b, hdel, -⟩ := deleteInstanceId_spec p hi
    rw [destruct_null hi ht hs, hdel] at h
    cases h
    exact (List.append_nil _).symm
  | some a =>
    obtain ⟨block, hblock⟩ := hlive a hs
    obtain ⟨b, hdel, -⟩ := deleteInstanceId_spec
      (((p.emptied a).released a block.uSize).lldkSetErrorCode t .kInvalidParam) hi
    rw [destruct_live hi ht hs hblock, hdel] at h
    cases h
    exact List.append_assoc ..

/-- The storage that the destructor releases is counted, and the null that it stores is rejected. -/
theorem destruct_books {obj : LldkThreadLocal} {p' : Process β} {a : Nat} {block : Block β}
    (h : obj.destruct p t = .ok p') (hs : p.slot t obj.m_uInstanceId = some a)
    (hc : p.heap.cells a = some block) :
    p'.s_allocateStats = p.s_allocateStats.addFreed block.uSize ∧
      p'.s_eErrorCode t = .kInvalidParam := by
  obtain ⟨hi, ht, -⟩ := destruct_ok h
  obtain ⟨b, hdel, -⟩ := deleteInstanceId_spec
    (((p.emptied a).released a block.uSize).lldkSetErrorCode t .kInvalidParam) hi
  rw [destruct_live hi ht hs hc, hdel] at h
  cases h
  exact ⟨rfl, Function.update_self ..⟩

end LldkThreadLocal

/-! ## Programs -/

/-- An object that is alive. Its first owner's thread and storage are history: no member of the
class reads them. -/
structure Instance where
  obj : LldkThreadLocal
  tid : Tid
  pStorage : Nat
  deriving DecidableEq, Repr

structure World (β : Type) where
  proc : Process β
  objs : Nat → Option Instance

/-- The calls of a program; `o` and `src` name objects, `t` the calling thread. -/
inductive WorldOp
  | construct (t : Tid) (o : Nat) (env : Env)
  | moveConstruct (o src : Nat)
  | moveAssign (o src : Nat)
  | destroy (t : Tid) (o : Nat)
  | get (t : Tid) (o : Nat)
  /-- `func` answers `answer a` for storage `a`. -/
  | foreach (t : Tid) (o : Nat) (answer : Nat → Int)

inductive WorldOut
  | unit
  | threw (what : String)
  | ptr (p : Option Nat)
  | visited (rc : Int) (as : List Nat)
  deriving DecidableEq, Repr

inductive WorldFault
  | library (f : Fault)
  /-- the program names an object that is not alive, or constructs over one that is -/
  | badObject (o : Nat)
  deriving DecidableEq, Repr

/-- A callback that keeps the list of the storages it was called on. -/
def recordVisits (answer : Nat → Int) (as : List Nat) (a : Nat) : List Nat × Int :=
  (as ++ [a], answer a)

def World.init : World β := ⟨.init, fun _ => none⟩

def worldStep : Step (World β) WorldOp WorldOut WorldFault
  | w, .construct t o env =>
    match w.objs o with
    | some _ => .error (.badObject o)
    | none =>
      match LldkThreadLocal.construct T w.proc t env with
      | .error f => .error (.library f)
      | .ok (.threw what, p) => .ok ({ w with proc := p }, .threw what)
      | .ok (.object obj pStorage, p) =>
        .ok (⟨p, Function.update w.objs o (some ⟨obj, t, pStorage⟩)⟩, .unit)
  | w, .moveConstruct o src =>
    match w.objs o, w.objs src with
    | none, some that =>
      let (obj, rest) := that.obj.moveConstruct
      .ok ({ w with
        objs := Function.update (Function.update w.objs src (some { that with obj := rest })) o
          (some { that with obj := obj }) }, .unit)
    | some _, _ => .error (.badObject o)
    | none, none => .error (.badObject src)
  | w, .moveAssign o src =>
    match w.objs o, w.objs src with
    | some inst, some that =>
      if o = src then .ok (w, .unit)
      else
        let (obj, rest) := inst.obj.moveAssign that.obj
        .ok ({ w with
          objs := Function.update (Function.update w.objs src (some { that with obj := rest })) o
            (some { that with obj := obj }) }, .unit)
    | none, _ => .error (.badObject o)
    | some _, none => .error (.badObject src)
  | w, .destroy t o =>
    match w.objs o with
    | none => .error (.badObject o)
    | some inst =>
      match inst.obj.destruct w.proc t with
      | .error f => .error (.library f)
      | .ok p => .ok (⟨p, Function.update w.objs o none⟩, .unit)
  | w, .get t o =>
    match w.objs o with
    | none => .error (.badObject o)
    | some inst =>
      match inst.obj.get w.proc t with
      | .error f => .error (.library f)
      | .ok q => .ok (w, .ptr q)
  | w, .foreach t o answer =>
    match w.objs o with
    | none => .error (.badObject o)
    | some inst =>
      match inst.obj.foreach w.proc t (some (recordVisits answer)) [] with
      | .error f => .error (.library f)
      | .ok (rc, as, p) => .ok ({ w with proc := p }, .visited rc as)

/-! ## Single steps -/

section Steps

variable {T} {w : World β} {t : Tid} {o src : Nat} {env : Env} {p : Process β}

/-- The objects after the id of `that`, at `src`, went to `o`. -/
def moved (objs : Nat → Option Instance) (o src : Nat) (that : Instance) : Nat → Option Instance :=
  Function.update (Function.update objs src (some { that with obj := ⟨kInvalidInstanceId⟩ })) o
    (some that)

theorem worldStep_construct_object {obj : LldkThreadLocal} {a : Nat} (ho : w.objs o = none)
    (hc : LldkThreadLocal.construct T w.proc t env = .ok (.object obj a, p)) :
    worldStep T w (.construct t o env) =
      .ok (⟨p, Function.update w.objs o (some ⟨obj, t, a⟩)⟩, .unit) := by
  simp only [worldStep, ho, hc]

theorem worldStep_construct_threw {what : String} (ho : w.objs o = none)
    (hc : LldkThreadLocal.construct T w.proc t env = .ok (.threw what, p)) :
    worldStep T w (.construct t o env) = .ok ({ w with proc := p }, .threw what) := by
  simp only [worldStep, ho, hc]

theorem worldStep_moveConstruct {that : Instance} (ho : w.objs o = none)
    (hsrc : w.objs src = some that) :
    worldStep T w (.moveConstruct o src) =
      .ok ({ w with objs := moved w.objs o src that }, .unit) := by
  simp only [worldStep, ho, hsrc]
  rfl

theorem worldStep_moveAssign {inst that : Instance} (hne : o ≠ src) (ho : w.objs o = some inst)
    (hsrc : w.objs src = some that) :
    worldStep T w (.moveAssign o src) =
      .ok ({ w with objs := moved w.objs o src that }, .unit) := by
  simp only [worldStep, ho, hsrc, hne, if_false]
  rfl

theorem worldStep_moveAssign_self {inst : Instance} (ho : w.objs o = some inst) :
    worldStep T w (.moveAssign o o) = .ok (w, .unit) := by
  simp only [worldStep, ho, if_true]

theorem worldStep_destroy {inst : Instance} (ho : w.objs o = some inst)
    (hd : inst.obj.destruct w.proc t = .ok p) :
    worldStep T w (.destroy t o) = .ok (⟨p, Function.update w.objs o none⟩, .unit) := by
  simp only [worldStep, ho, hd]

theorem worldStep_get {inst : Instance} (ho : w.objs o = some inst)
    (hi : inst.obj.m_uInstanceId < kMaxInstanceId) (ht : w.proc.hasTable t) :
    worldStep T w (.get t o) = .ok (w, .ptr (w.proc.slot t inst.obj.m_uInstanceId)) := by
  simp only [worldStep, ho, LldkThreadLocal.get, getThreadLocalStorage_ok ht hi]

/-- A traversal of a live object leaves the tables, the ids and the memory as they are. -/
theorem worldStep_foreach {inst : Instance} (ho : w.objs o = some inst)
    (hi : inst.obj.m_uInstanceId ≤ kMaxInstanceId) (answer : Nat → Int) :
    ∃ p' out, worldStep T w (.foreach t o answer) = .ok ({ w with proc := p' }, out) ∧
      Untouched w.proc p' := by
  by_cases hid : inst.obj.m_uInstanceId = kInvalidInstanceId
  · refine ⟨w.proc, .visited (-1) [], ?_, Untouched.refl _⟩
    simp only [worldStep, ho, LldkThreadLocal.foreach, hid, ne_eq, not_true_eq_false, if_false]
  · have hlt : inst.obj.m_uInstanceId < kMaxInstanceId := Nat.lt_of_le_of_ne hi hid
    obtain ⟨rc, p', hf, hu, -⟩ := foreach_spec w.proc t hlt (recordVisits answer) []
    refine ⟨p', .visited rc (visit (recordVisits answer) []
      (w.proc.storages inst.obj.m_uInstanceId)).2, ?_, hu⟩
    simp only [worldStep, ho, LldkThreadLocal.foreach, ne_eq, hid, not_false_eq_true, if_true, hf]

/-- What a step that does not fault has done, one constructor for each way through a member. -/
inductive Stepped (T : ObjectType β) (w : World β) : WorldOp → World β → WorldOut → Prop
  | constructed {t : Tid} {o : Nat} {env : Env} {obj : LldkThreadLocal} {a : Nat} {p : Process β}
      (ho : w.objs o = none)
      (hc : LldkThreadLocal.construct T w.proc t env = .ok (.object obj a, p)) :
      Stepped T w (.construct t o env) ⟨p, Function.update w.objs o (some ⟨obj, t, a⟩)⟩ .unit
  | threw {t : Tid} {o : Nat} {env : Env} {what : String} {p : Process β} (ho : w.objs o = none)
      (hc : LldkThreadLocal.construct T w.proc t env = .ok (.threw what, p)) :
      Stepped T w (.construct t o env) { w with proc := p } (.threw what)
  | moveConstructed {o src : Nat} {that : Instance} (ho : w.objs o = none)
      (hsrc : w.objs src = some that) :
      Stepped T w (.moveConstruct o src) { w with objs := moved w.objs o src that } .unit
  | moveAssigned {o src : Nat} {inst that : Instance} (hne : o ≠ src) (ho : w.objs o = some inst)
      (hsrc : w.objs src = some that) :
      Stepped T w (.moveAssign o src) { w with objs := moved w.objs o src that } .unit
  | moveAssignedSelf {o : Nat} {inst : Instance} (ho : w.objs o = some inst) :
      Stepped T w (.moveAssign o o) w .unit
  | destroyed {t : Tid} {o : Nat} {inst : Instance} {p : Process β} (ho : w.objs o = some inst)
      (hd : inst.obj.destruct w.proc t = .ok p) :
      Stepped T w (.destroy t o) ⟨p, Function.update w.objs o none⟩ .unit
  | got {t : Tid} {o : Nat} {inst : Instance} {q : Option Nat} (ho : w.objs o = some inst)
      (hg : inst.obj.get w.proc t = .ok q) : Stepped T w (.get t o) w (.ptr q)
  | visited {t : Tid} {o : Nat} {answer : Nat → Int} {inst : Instance} {rc : Int} {as : List Nat}
      {p : Process β} (ho : w.objs o = some inst)
      (hf : inst.obj.foreach w.proc t (some (recordVisits answer)) [] = .ok (rc, as, p)) :
      Stepped T w (.foreach t o answer) { w with proc := p } (.visited rc as)

/-- **Inversion of a step.** -/
theorem stepped_of_ok {op : WorldOp} {w' : World β} {out : WorldOut}
    (h : worldStep T w op = .ok (w', out)) : Stepped T w op w' out := by
  cases op with
  | construct t o env =>
    cases ho : w.objs o with
    | some inst => simp [worldStep, ho] at h
    | none =>
      obtain ⟨r, p, hc⟩ := LldkThreadLocal.construct_returns T w.proc t env
      cases r with
      | object obj a =>
        rw [worldStep_construct_object ho hc] at h
        cases h
        exact .constructed ho hc
      | threw what =>
        rw [worldStep_construct_threw ho hc] at h
        cases h
        exact .threw ho hc
  | moveConstruct o src =>
    cases ho : w.objs o with
    | some inst => simp [worldStep, ho] at h
    | none =>
      cases hsrc : w.objs src with
      | none => simp [worldStep, ho, hsrc] at h
      | some that =>
        rw [worldStep_moveConstruct ho hsrc] at h
        cases h
        exact .moveConstructed ho hsrc
  | moveAssign o src =>
    cases ho : w.objs o with
    | none => simp [worldStep, ho] at h
    | some inst =>
      cases hsrc : w.objs src with
      | none => simp [worldStep, ho, hsrc] at h
      | some that =>
        by_cases hne : o = src
        · subst hne
          rw [worldStep_moveAssign_self ho] at h
          cases h
          exact .moveAssignedSelf ho
        · rw [worldStep_moveAssign hne ho hsrc] at h
          cases h
          exact .moveAssigned hne ho hsrc
  | destroy t o =>
    cases ho : w.objs o with
    | none => simp [worldStep, ho] at h
    | some inst =>
      cases hd : inst.obj.destruct w.proc t with
      | error f => simp [worldStep, ho, hd] at h
      | ok p =>
        rw [worldStep_destroy ho hd] at h
        cases h
        exact .destroyed ho hd
  | get t o =>
    cases ho : w.objs o with
    | none => simp [worldStep, ho] at h
    | some inst =>
      cases hg : inst.obj.get w.proc t with
      | error f => simp [worldStep, ho, hg] at h
      | ok q =>
        simp only [worldStep, ho, hg] at h
        cases h
        exact .got ho hg
  | foreach t o answer =>
    cases ho : w.objs o with
    | none => simp [worldStep, ho] at h
    | some inst =>
      cases hf : inst.obj.foreach w.proc t (some (recordVisits answer)) [] with
      | error f => simp [worldStep, ho, hf] at h
      | ok r =>
        obtain ⟨rc, as, p⟩ := r
        simp only [worldStep, ho, hf] at h
        cases h
        exact .visited ho hf

end Steps

end Lldk
