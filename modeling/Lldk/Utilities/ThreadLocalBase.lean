import Mathlib.Data.Nat.Find
import Lldk.Base.Process

/-!
`LldkThreadLocalBase` (`src/utilities/lldk_thread_local.cpp`): instance ids and the slot tables
of the threads.

* `newInstanceId`, `deleteInstanceId`, `setThreadLocalStorage`, `getThreadLocalStorage` and
  `foreach` follow the source; an access through a null table or outside a table or the bitset
  is a `Fault`.
* `slot p t i` is the entry of id `i` in thread `t`'s table, null while there is no table.
* One lemma for each outcome of a function says which state it leaves: `newInstanceId_least`,
  `newInstanceId_exhausted`, `deleteInstanceId_spec`, `setThreadLocalStorage_stored`,
  `setThreadLocalStorage_failed`, `foreach_spec`.
-/

namespace Lldk

open Lib Lib.BitWords Lldk.Bitset

/-- What may go wrong around a call: the allocations that succeed and whether `T()` throws. -/
structure Env where
  /-- the storage of the object -/
  storageMem : Bool := true
  ctorThrows : Bool := false
  /-- the slot table -/
  tableMem : Bool := true
  /-- the growth of `s_vecpppInstances` -/
  pushMem : Bool := true
  /-- the copy of a name -/
  nameMem : Bool := true

variable {β : Type}

namespace Process

def withBits (p : Process β) (b : LldkBitset instanceIds) : Process β := { p with s_bitset := b }

def newInstanceId (p : Process β) : Except Fault (Nat × Process β) :=
  let uInstanceId := p.s_bitset.findFirstNone
  if uInstanceId = kMaxInstanceId then .ok (kInvalidInstanceId, p)
  else
    match p.s_bitset.set uInstanceId with
    | some b => .ok (uInstanceId, p.withBits b)
    | none => .error (.bitRange uInstanceId)

def deleteInstanceId (p : Process β) (uInstanceId : Nat) : Except Fault (Process β) :=
  match p.s_bitset.clear uInstanceId with
  | some b => .ok (p.withBits b)
  | none => .error (.bitRange uInstanceId)

/-- `sizeof(void *) * kMaxInstanceId` -/
def tableSize : UInt64 := 8 * UInt64.ofNat kMaxInstanceId

def withTable (p : Process β) (t : Tid) (table : SlotTable) : Process β :=
  { p with s_ppInstances := Function.update p.s_ppInstances t (some table) }

/-- The first store of a thread: its table is allocated, zeroed and registered. A table that
cannot be registered is released, and the thread has none again. -/
def createInstances (p : Process β) (t : Tid) (env : Env) : Except Fault (Bool × Process β) :=
  match p.lldkAllocate t tableSize env.tableMem with
  | (none, p) => .ok (false, p.lldkSetErrorCode t .kNoMemory)
  | (some a, p) =>
    if env.pushMem then
      .ok (true,
        { p.withTable t ⟨a, fun _ => none⟩ with s_vecpppInstances := p.s_vecpppInstances ++ [t] })
    else
      match p.lldkFree t (some a) with
      | .error f => .error f
      | .ok p => .ok (false, p.lldkSetErrorCode t .kThrowException)

/-- `s_ppInstances[uInstanceId] = pStorage` -/
def storeSlot (p : Process β) (t : Tid) (uInstanceId a : Nat) : Except Fault (Process β) :=
  match p.s_ppInstances t with
  | none => .error .nullTable
  | some table =>
    if uInstanceId < kMaxInstanceId then
      .ok (p.withTable t { table with slots := Function.update table.slots uInstanceId (some a) })
    else .error (.slotRange uInstanceId)

def setThreadLocalStorage (p : Process β) (t : Tid) (uInstanceId : Nat) (pStorage : Option Nat)
    (env : Env) : Except Fault (Int × Process β) :=
  match pStorage with
  | none => .ok (-1, p.lldkSetErrorCode t .kInvalidParam)
  | some a =>
    if uInstanceId = kInvalidInstanceId then .ok (-1, p.lldkSetErrorCode t .kInvalidParam)
    else
      match (match p.s_ppInstances t with
        | some _ => Except.ok (true, p)
        | none => p.createInstances t env) with
      | .error f => .error f
      | .ok (false, p) => .ok (-1, p)
      | .ok (true, p) =>
        match p.storeSlot t uInstanceId a with
        | .error f => .error f
        | .ok p => .ok (0, p)

def getThreadLocalStorage (p : Process β) (t : Tid) (uInstanceId : Nat) :
    Except Fault (Option Nat) :=
  match p.s_ppInstances t with
  | none => .error .nullTable
  | some table =>
    if uInstanceId < kMaxInstanceId then .ok (table.slots uInstanceId)
    else .error (.slotRange uInstanceId)

/-- The loop of `foreach`: `func` is called on the slots that are not null until it returns
something other than 0. The result says whether the loop came to its end. -/
def foreachLoop {σ : Type} (s_ppInstances : Tid → Option SlotTable) (uInstanceId : Nat)
    (func : σ → Nat → σ × Int) : σ → List Tid → Except Fault (Bool × σ)
  | s, [] => .ok (true, s)
  | s, t :: ts =>
    match s_ppInstances t with
    | none => foreachLoop s_ppInstances uInstanceId func s ts
    | some table =>
      if uInstanceId < kMaxInstanceId then
        match table.slots uInstanceId with
        | none => foreachLoop s_ppInstances uInstanceId func s ts
        | some a =>
          let (s', rc) := func s a
          if rc ≠ 0 then .ok (false, s') else foreachLoop s_ppInstances uInstanceId func s' ts
      else .error (.slotRange uInstanceId)

/-- `foreach`, called by thread `t`; `func` carries a state `σ` from call to call. -/
def foreach {σ : Type} (p : Process β) (t : Tid) (uInstanceId : Nat)
    (func : Option (σ → Nat → σ × Int)) (s : σ) : Except Fault (Int × σ × Process β) :=
  match func with
  | none => .ok (-1, s, p.lldkSetErrorCode t .kInvalidParam)
  | some func =>
    match foreachLoop p.s_ppInstances uInstanceId func s p.s_vecpppInstances with
    | .error f => .error f
    | .ok (true, s) => .ok (0, s, p)
    | .ok (false, s) => .ok (-1, s, p.lldkSetErrorCode t .kCallFailed)

/-! ## Ids -/

/-- `i` is marked used in `s_bitset`. -/
def marked (p : Process β) (i : Nat) : Prop := p.s_bitset.test i = some true

instance (p : Process β) (i : Nat) : Decidable (p.marked i) :=
  inferInstanceAs (Decidable (_ = _))

theorem marked_iff {p : Process β} {i : Nat} :
    p.marked i ↔ i < kMaxInstanceId ∧ bit p.s_bitset.m_arrBits i = true := by
  unfold marked
  rw [LldkBitset.test_eq]
  by_cases h : i < instanceIds.kSize
  · rw [if_pos h, Option.some.injEq]
    exact ⟨fun hb => ⟨h, hb⟩, fun hb => hb.2⟩
  · rw [if_neg h]
    constructor
    · intro he
      cases he
    · rintro ⟨hi, -⟩
      exact absurd hi h

theorem marked_congr {p p' : Process β} (h : p'.s_bitset = p.s_bitset) (i : Nat) :
    p'.marked i ↔ p.marked i := by
  unfold marked
  rw [h]

/-- `newInstanceId` hands out the least id that is not marked, and marks it. -/
theorem newInstanceId_least {p : Process β} {i : Nat} (hi : i < kMaxInstanceId)
    (hfree : ¬ p.marked i) (hleast : ∀ j, j < i → p.marked j) :
    ∃ b, p.newInstanceId = .ok (i, p.withBits b) ∧
      ∀ j, (p.withBits b).marked j ↔ p.marked j ∨ j = i := by
  have hfound : p.s_bitset.findFirstNone = i := by
    have hle := p.s_bitset.findFirstNone_le
    have hlt : p.s_bitset.findFirstNone < instanceIds.kSize := by
      rcases Nat.lt_or_ge p.s_bitset.findFirstNone instanceIds.kSize with h | h
      · exact h
      · have hall := LldkBitset.findFirstNone_eq_kSize.mp (Nat.le_antisymm hle h)
        exact absurd (marked_iff.mpr ⟨hi, hall i hi⟩) hfree
    obtain ⟨hclear, hset⟩ := LldkBitset.findFirstNone_lt hlt
    rcases Nat.lt_trichotomy p.s_bitset.findFirstNone i with h | h | h
    · have hm := (marked_iff.mp (hleast _ h)).2
      rw [hclear] at hm
      cases hm
    · exact h
    · exact absurd (marked_iff.mpr ⟨hi, hset i h⟩) hfree
  have hsize : i < instanceIds.kSize := hi
  obtain ⟨b, hb, hbits⟩ := p.s_bitset.set_ok hsize
  refine ⟨b, ?_, fun j => ?_⟩
  · have hne : i ≠ kMaxInstanceId := Nat.ne_of_lt hi
    simp only [newInstanceId, hfound, hne, if_false, hb]
  · rw [marked_iff, marked_iff]
    show j < kMaxInstanceId ∧ bit b.m_arrBits j = true ↔ _
    rw [hbits j, Bool.or_eq_true, decide_eq_true_eq]
    constructor
    · rintro ⟨hj, hb | he⟩
      · exact Or.inl ⟨hj, hb⟩
      · exact Or.inr he
    · rintro (⟨hj, hb⟩ | rfl)
      · exact ⟨hj, Or.inl hb⟩
      · exact ⟨hi, Or.inr rfl⟩

theorem newInstanceId_exhausted {p : Process β} (hall : ∀ j, j < kMaxInstanceId → p.marked j) :
    p.newInstanceId = .ok (kInvalidInstanceId, p) := by
  have hfound : p.s_bitset.findFirstNone = kMaxInstanceId :=
    LldkBitset.findFirstNone_eq_kSize.mpr fun j hj => (marked_iff.mp (hall j hj)).2
  simp only [newInstanceId, hfound, if_true]

/-- Either some id is free, and then there is a least one, or all are marked. -/
theorem exists_least_free (p : Process β) :
    (∃ i, i < kMaxInstanceId ∧ ¬ p.marked i ∧ ∀ j, j < i → p.marked j) ∨
      ∀ j, j < kMaxInstanceId → p.marked j := by
  by_cases h : ∃ i, i < kMaxInstanceId ∧ ¬ p.marked i
  · have hfind := Nat.find_spec h
    refine Or.inl ⟨Nat.find h, hfind.1, hfind.2, fun j hj => ?_⟩
    have hmin := Nat.find_min h hj
    have hlt : j < kMaxInstanceId := by omega
    exact not_not.mp fun hn => hmin ⟨hlt, hn⟩
  · refine Or.inr fun j hj => not_not.mp fun hn => h ⟨j, hj, hn⟩

theorem deleteInstanceId_spec (p : Process β) {i : Nat} (hi : i < kMaxInstanceId) :
    ∃ b, p.deleteInstanceId i = .ok (p.withBits b) ∧
      ∀ j, (p.withBits b).marked j ↔ p.marked j ∧ j ≠ i := by
  have hsize : i < instanceIds.kSize := hi
  obtain ⟨b, hb, hbits⟩ := p.s_bitset.clear_ok hsize
  refine ⟨b, by simp only [deleteInstanceId, hb], fun j => ?_⟩
  rw [marked_iff, marked_iff]
  show j < kMaxInstanceId ∧ bit b.m_arrBits j = true ↔ _
  rw [hbits j, Bool.and_eq_true, decide_eq_true_eq]
  exact ⟨fun ⟨hj, hb, hne⟩ => ⟨⟨hj, hb⟩, hne⟩, fun ⟨⟨hj, hb⟩, hne⟩ => ⟨hj, hb, hne⟩⟩

/-! ## Slots -/

def hasTable (p : Process β) (t : Tid) : Prop := ∃ table, p.s_ppInstances t = some table

instance (p : Process β) (t : Tid) : Decidable (p.hasTable t) :=
  decidable_of_iff ((p.s_ppInstances t).isSome = true) Option.isSome_iff_exists

/-- The entry of id `i` for thread `t`; a thread without a table has none. -/
def slot (p : Process β) (t : Tid) (i : Nat) : Option Nat :=
  match p.s_ppInstances t with
  | some table => table.slots i
  | none => none

theorem slot_congr {p p' : Process β} (h : p'.s_ppInstances = p.s_ppInstances) (t : Tid)
    (i : Nat) : p'.slot t i = p.slot t i := by
  unfold slot
  rw [h]

theorem hasTable_congr {p p' : Process β} (h : p'.s_ppInstances = p.s_ppInstances) (t : Tid) :
    p'.hasTable t ↔ p.hasTable t := by
  unfold hasTable
  rw [h]

theorem slot_of_table {p : Process β} {t : Tid} {table : SlotTable}
    (h : p.s_ppInstances t = some table) (i : Nat) : p.slot t i = table.slots i := by
  simp only [slot, h]

theorem slot_of_noTable {p : Process β} {t : Tid} (h : ¬ p.hasTable t) (i : Nat) :
    p.slot t i = none := by
  unfold slot
  cases ht : p.s_ppInstances t with
  | none => rfl
  | some table => exact absurd ⟨table, ht⟩ h

theorem noTable_iff {p : Process β} {t : Tid} : ¬ p.hasTable t ↔ p.s_ppInstances t = none := by
  constructor
  · intro h
    cases ht : p.s_ppInstances t with
    | none => rfl
    | some table => exact absurd ⟨table, ht⟩ h
  · rintro h ⟨table, ht⟩
    rw [h] at ht
    cases ht

theorem hasTable_withTable {p : Process β} {t t' : Tid} {table : SlotTable} :
    (p.withTable t table).hasTable t' ↔ p.hasTable t' ∨ t' = t := by
  by_cases h : t' = t
  · subst h
    simp [hasTable, withTable]
  · simp [hasTable, withTable, h]

@[simp] theorem withTable_self (p : Process β) (t : Tid) (table : SlotTable) :
    (p.withTable t table).s_ppInstances t = some table := Function.update_self ..

@[simp] theorem slot_withTable_self (p : Process β) (t : Tid) (table : SlotTable) (i : Nat) :
    (p.withTable t table).slot t i = table.slots i := by
  simp [slot, withTable]

theorem slot_withTable_ne {p : Process β} {t t' : Tid} (h : t' ≠ t) (table : SlotTable) (i : Nat) :
    (p.withTable t table).slot t' i = p.slot t' i := by
  simp [slot, withTable, h]

theorem getThreadLocalStorage_ok {p : Process β} {t : Tid} {i : Nat} (ht : p.hasTable t)
    (hi : i < kMaxInstanceId) : p.getThreadLocalStorage t i = .ok (p.slot t i) := by
  obtain ⟨table, ht⟩ := ht
  simp only [getThreadLocalStorage, slot, ht, hi, if_true]

theorem getThreadLocalStorage_noTable {p : Process β} {t : Tid} (h : ¬ p.hasTable t) (i : Nat) :
    p.getThreadLocalStorage t i = .error .nullTable := by
  simp only [getThreadLocalStorage, noTable_iff.mp h]

theorem eq_slot_of_getThreadLocalStorage {p : Process β} {t : Tid} {i : Nat} {q : Option Nat}
    (h : p.getThreadLocalStorage t i = .ok q) : q = p.slot t i := by
  by_cases ht : p.hasTable t
  · obtain ⟨table, ht⟩ := ht
    simp only [getThreadLocalStorage, ht] at h
    split at h
    · cases h
      simp only [slot, ht]
    · cases h
  · rw [getThreadLocalStorage_noTable ht] at h
    cases h

/-- The slot of id `i` on thread `t` is null or points to a block that is there. -/
def slotLive (p : Process β) (t : Tid) (i : Nat) : Prop :=
  ∀ a, p.slot t i = some a → ∃ block, p.heap.cells a = some block

instance (p : Process β) (t : Tid) (i : Nat) : Decidable (p.slotLive t i) :=
  decidable_of_iff (∀ a ∈ p.slot t i, (p.heap.cells a).isSome = true) (by
    simp only [slotLive, Option.isSome_iff_exists, Option.mem_def])

/-- What a successful store of `a` under `(t, i)` leaves behind. -/
structure Stored (p : Process β) (t : Tid) (i a : Nat) (p' : Process β) : Prop where
  s_bitset : p'.s_bitset = p.s_bitset
  hasTable : ∀ t', p'.hasTable t' ↔ p.hasTable t' ∨ t' = t
  self : p'.slot t i = some a
  others : ∀ t' j, t' ≠ t ∨ j ≠ i → p'.slot t' j = p.slot t' j
  registered : p.hasTable t → p'.s_vecpppInstances = p.s_vecpppInstances
  first : ¬ p.hasTable t → p'.s_vecpppInstances = p.s_vecpppInstances ++ [t]
  blocks : ∀ b block, p.heap.cells b = some block → p'.heap.cells b = some block
  next : p.heap.next ≤ p'.heap.next

/-- What a call that fails leaves behind: everything but the error code and the counters. -/
structure Untouched (p p' : Process β) : Prop where
  s_bitset : p'.s_bitset = p.s_bitset
  s_ppInstances : p'.s_ppInstances = p.s_ppInstances
  s_vecpppInstances : p'.s_vecpppInstances = p.s_vecpppInstances
  blocks : ∀ b, p'.heap.cells b = p.heap.cells b
  next : p.heap.next ≤ p'.heap.next

theorem Untouched.refl (p : Process β) : Untouched p p :=
  ⟨rfl, rfl, rfl, fun _ => rfl, Nat.le_refl _⟩

theorem Untouched.trans {p p' p'' : Process β} (h : Untouched p p') (h' : Untouched p' p'') :
    Untouched p p'' :=
  ⟨h'.s_bitset.trans h.s_bitset, h'.s_ppInstances.trans h.s_ppInstances,
    h'.s_vecpppInstances.trans h.s_vecpppInstances, fun b => (h'.blocks b).trans (h.blocks b),
    Nat.le_trans h.next h'.next⟩

theorem untouched_lldkSetErrorCode (p : Process β) (t : Tid) (e : ErrorCode) :
    Untouched p (p.lldkSetErrorCode t e) := ⟨rfl, rfl, rfl, fun _ => rfl, Nat.le_refl _⟩

theorem Untouched.marked {p p' : Process β} (h : Untouched p p') (i : Nat) :
    p'.marked i ↔ p.marked i :=
  marked_congr h.s_bitset i

/-- What the release of the block of `a` leaves behind. -/
structure Released (p : Process β) (a : Nat) (p' : Process β) : Prop where
  s_bitset : p'.s_bitset = p.s_bitset
  s_ppInstances : p'.s_ppInstances = p.s_ppInstances
  s_vecpppInstances : p'.s_vecpppInstances = p.s_vecpppInstances
  gone : p'.heap.cells a = none
  others : ∀ b, b ≠ a → p'.heap.cells b = p.heap.cells b
  next : p'.heap.next = p.heap.next

theorem released_spec (p : Process β) (a : Nat) (uSize : UInt64) :
    Released p a (p.released a uSize) :=
  ⟨rfl, rfl, rfl, Heap.cells_free_self .., fun _ hb => Heap.cells_free_ne hb, rfl⟩

/-- The release of a block that is there. -/
theorem lldkFree_live {p : Process β} {a : Nat} {block : Block β}
    (hb : p.heap.cells a = some block) (t : Tid) :
    p.lldkFree t (some a) = .ok (p.released a block.uSize) := by
  simp only [lldkFree, hb]

theorem lldkFree_dead {p : Process β} {a : Nat} (hb : p.heap.cells a = none) (t : Tid) :
    p.lldkFree t (some a) = .error (.deadObject a) := by
  simp only [lldkFree, hb]

/-- A release that came to its end had a block. -/
theorem lldkFree_ok {p p' : Process β} {t : Tid} {a : Nat} (h : p.lldkFree t (some a) = .ok p') :
    ∃ block, p.heap.cells a = some block ∧ p' = p.released a block.uSize := by
  cases hc : p.heap.cells a with
  | none =>
    rw [lldkFree_dead hc] at h
    cases h
  | some block =>
    rw [lldkFree_live hc] at h
    cases h
    exact ⟨block, rfl, rfl⟩

theorem released_lldkFree {p p' : Process β} {t : Tid} {a : Nat}
    (h : p.lldkFree t (some a) = .ok p') : Released p a p' := by
  obtain ⟨block, -, rfl⟩ := lldkFree_ok h
  exact released_spec p a block.uSize

theorem destroyObject_live {p : Process β} {a : Nat} {block : Block β}
    (hb : p.heap.cells a = some block) : p.destroyObject a = .ok (p.emptied a) := by
  simp only [destroyObject, hb]

theorem destroyObject_dead {p : Process β} {a : Nat} (hb : p.heap.cells a = none) :
    p.destroyObject a = .error (.deadObject a) := by
  simp only [destroyObject, hb]

theorem destroyObject_ok {p p' : Process β} {a : Nat} (h : p.destroyObject a = .ok p') :
    ∃ block, p.heap.cells a = some block ∧ p' = p.emptied a := by
  cases hc : p.heap.cells a with
  | none =>
    rw [destroyObject_dead hc] at h
    cases h
  | some block =>
    rw [destroyObject_live hc] at h
    cases h
    exact ⟨block, rfl, rfl⟩

theorem emptied_self {p : Process β} {a : Nat} {block : Block β}
    (hb : p.heap.cells a = some block) :
    (p.emptied a).heap.cells a = some { block with object := none } := by
  show (p.heap.modify a _).cells a = _
  rw [Heap.cells_modify_self, hb]
  rfl

/-- A block that was allocated just before and is released again leaves no trace. -/
theorem untouched_released_next (p : Process β) (t : Tid) (size : UInt64) :
    Untouched p ((p.lldkAllocate t size true).2.released p.heap.next size) := by
  have hr := released_spec (p.lldkAllocate t size true).2 p.heap.next size
  refine ⟨hr.s_bitset, hr.s_ppInstances, hr.s_vecpppInstances, fun b => ?_, ?_⟩
  · by_cases hb : b = p.heap.next
    · rw [hb, hr.gone, p.heap.fresh _ (Nat.le_refl _)]
    · rw [hr.others b hb]
      exact Heap.cells_alloc_ne _ hb
  · rw [hr.next]
    exact Nat.le_succ _

theorem lldkFree_next (p : Process β) (t : Tid) (size : UInt64) :
    (p.lldkAllocate t size true).2.lldkFree t (some p.heap.next) =
      .ok ((p.lldkAllocate t size true).2.released p.heap.next size) := by
  have hb : (p.lldkAllocate t size true).2.heap.cells p.heap.next =
      some ⟨size + headerSize, size, none⟩ := Heap.cells_alloc_self ..
  exact lldkFree_live hb t

/-- The table cannot be registered, and is released again. -/
theorem createInstances_unregistered (p : Process β) (t : Tid) {env : Env}
    (hm : env.tableMem = true) (hp : env.pushMem = false) :
    p.createInstances t env = .ok (false,
      ((p.lldkAllocate t tableSize true).2.released p.heap.next tableSize).lldkSetErrorCode t
        .kThrowException) := by
  have hfree := lldkFree_next p t tableSize
  obtain ⟨q, hq⟩ : ∃ q, p.lldkAllocate t tableSize true = (some p.heap.next, q) := ⟨_, rfl⟩
  rw [hq] at hfree
  simp only [createInstances, hm, hq, hp, hfree, Bool.false_eq_true, if_false]

theorem createInstances_failed (p : Process β) (t : Tid) {env : Env}
    (h : ¬ (env.tableMem = true ∧ env.pushMem = true)) :
    ∃ p', p.createInstances t env = .ok (false, p') ∧ Untouched p p' := by
  cases hm : env.tableMem with
  | false =>
    refine ⟨_, by simp only [createInstances, hm]; rfl, ?_⟩
    exact (untouched_lldkSetErrorCode p t .kNoMemory).trans (untouched_lldkSetErrorCode _ t _)
  | true =>
    have hp : env.pushMem = false := by
      cases hp : env.pushMem with
      | false => rfl
      | true => exact absurd ⟨hm, hp⟩ h
    exact ⟨_, createInstances_unregistered p t hm hp, (untouched_released_next p t tableSize).trans
      (untouched_lldkSetErrorCode _ t .kThrowException)⟩

/-- A store through a table that is there. -/
theorem storeSlot_stored {p : Process β} {t : Tid} {i : Nat} {table : SlotTable}
    (ht : p.s_ppInstances t = some table) (hi : i < kMaxInstanceId) (a : Nat) :
    ∃ p', p.storeSlot t i a = .ok p' ∧ Stored p t i a p' := by
  refine ⟨p.withTable t { table with slots := Function.update table.slots i (some a) },
    by simp only [storeSlot, ht, hi, if_true], ?_⟩
  refine ⟨rfl, fun _ => hasTable_withTable, ?_, fun t' j hne => ?_, fun _ => rfl,
    fun hno => absurd ⟨table, ht⟩ hno, fun _ _ h => h, Nat.le_refl _⟩
  · simp only [slot_withTable_self, Function.update_self]
  · by_cases htt : t' = t
    · subst htt
      have hj : j ≠ i := hne.resolve_left fun h => h rfl
      simp only [slot_withTable_self, Function.update_of_ne hj, slot_of_table ht]
    · exact slot_withTable_ne htt _ _

/-- The process after the first store of a thread that gets its table. -/
def firstStore (p : Process β) (t : Tid) (i a : Nat) : Process β :=
  { (p.lldkAllocate t tableSize true).2.withTable t
      ⟨p.heap.next, Function.update (fun _ => none) i (some a)⟩ with
    s_vecpppInstances := p.s_vecpppInstances ++ [t] }

theorem createInstances_storeSlot (p : Process β) (t : Tid) {i : Nat} {env : Env}
    (hi : i < kMaxInstanceId) (hm : env.tableMem = true) (hp : env.pushMem = true) (a : Nat) :
    ∃ p₁, p.createInstances t env = .ok (true, p₁) ∧
      p₁.storeSlot t i a = .ok (p.firstStore t i a) := by
  refine ⟨_, by simp only [createInstances, hm, hp]; rfl, ?_⟩
  simp only [storeSlot, withTable, Function.update_self, hi, if_true, firstStore,
    Function.update_idem]
  rfl

theorem firstStore_stored {p : Process β} {t : Tid} (ht : ¬ p.hasTable t) (i a : Nat) :
    Stored p t i a (p.firstStore t i a) := by
  -- its tables are those of `p` with the one of `t` put in
  have htables : (p.firstStore t i a).s_ppInstances =
      (p.withTable t ⟨p.heap.next, Function.update (fun _ => none) i (some a)⟩).s_ppInstances := rfl
  refine ⟨rfl, fun t' => ?_, ?_, fun t' j hne => ?_, fun hyes => absurd hyes ht,
    fun _ => rfl, fun b block hb => Heap.cells_alloc_of_some _ hb, Nat.le_succ _⟩
  · rw [hasTable_congr htables]
    exact hasTable_withTable
  · simp only [slot_congr htables, slot_withTable_self, Function.update_self]
  · rw [slot_congr htables]
    by_cases htt : t' = t
    · subst htt
      have hj : j ≠ i := hne.resolve_left fun h => h rfl
      simp only [slot_withTable_self, Function.update_of_ne hj, slot_of_noTable ht]
    · exact slot_withTable_ne htt _ _

/-- **A store that gets what it needs.** -/
theorem setThreadLocalStorage_stored {p : Process β} {t : Tid} {i : Nat} {env : Env}
    (hi : i < kMaxInstanceId)
    (henv : p.hasTable t ∨ (env.tableMem = true ∧ env.pushMem = true)) (a : Nat) :
    ∃ p', p.setThreadLocalStorage t i (some a) env = .ok (0, p') ∧ Stored p t i a p' := by
  have hne : i ≠ kInvalidInstanceId := Nat.ne_of_lt hi
  by_cases ht : p.hasTable t
  · obtain ⟨table, ht⟩ := ht
    obtain ⟨p', hs, hst⟩ := storeSlot_stored ht hi a
    exact ⟨p', by simp only [setThreadLocalStorage, hne, if_false, ht, hs], hst⟩
  · obtain ⟨hm, hp⟩ := henv.resolve_left ht
    obtain ⟨p₁, hc, hs⟩ := createInstances_storeSlot p t hi hm hp a
    refine ⟨p.firstStore t i a, ?_, firstStore_stored ht i a⟩
    simp only [setThreadLocalStorage, hne, if_false, noTable_iff.mp ht, hc, hs]

/-- The process after a store that gets what it needs. -/
def afterStore (p : Process β) (t : Tid) (i a : Nat) : Process β :=
  match p.s_ppInstances t with
  | some table => p.withTable t { table with slots := Function.update table.slots i (some a) }
  | none => p.firstStore t i a

theorem setThreadLocalStorage_eq {p : Process β} {t : Tid} {i : Nat} {env : Env}
    (hi : i < kMaxInstanceId)
    (henv : p.hasTable t ∨ (env.tableMem = true ∧ env.pushMem = true)) (a : Nat) :
    p.setThreadLocalStorage t i (some a) env = .ok (0, p.afterStore t i a) := by
  have hne : i ≠ kInvalidInstanceId := Nat.ne_of_lt hi
  cases ht : p.s_ppInstances t with
  | some table =>
    simp only [setThreadLocalStorage, hne, if_false, ht, storeSlot, hi, if_true, afterStore]
  | none =>
    obtain ⟨hm, hp⟩ := henv.resolve_left (noTable_iff.mpr ht)
    obtain ⟨p₁, hc, hs⟩ := createInstances_storeSlot p t hi hm hp a
    simp only [setThreadLocalStorage, hne, if_false, ht, hc, hs, afterStore]

/-- A first store that does not get its table. -/
theorem setThreadLocalStorage_failed {p : Process β} {t : Tid} {i : Nat} {env : Env}
    (hi : i ≠ kInvalidInstanceId) (ht : ¬ p.hasTable t)
    (henv : ¬ (env.tableMem = true ∧ env.pushMem = true)) (a : Nat) :
    ∃ p', p.setThreadLocalStorage t i (some a) env = .ok (-1, p') ∧ Untouched p p' := by
  obtain ⟨p', hc, hu⟩ := createInstances_failed p t henv
  exact ⟨p', by simp only [setThreadLocalStorage, hi, if_false, noTable_iff.mp ht, hc], hu⟩

/-- A null pointer is rejected. -/
theorem setThreadLocalStorage_null (p : Process β) (t : Tid) (i : Nat) (env : Env) :
    p.setThreadLocalStorage t i none env = .ok (-1, p.lldkSetErrorCode t .kInvalidParam) := rfl

/-! ## Traversal -/

/-- The slots of id `i` that are not null, in the order of registration. -/
def storages (p : Process β) (i : Nat) : List Nat :=
  p.s_vecpppInstances.filterMap fun t => p.slot t i

/-- What `foreach` does to a list of pointers. -/
def visit {σ : Type} (func : σ → Nat → σ × Int) : σ → List Nat → Bool × σ
  | s, [] => (true, s)
  | s, a :: as =>
    let (s', rc) := func s a
    if rc ≠ 0 then (false, s') else visit func s' as

theorem visit_cons {σ : Type} (func : σ → Nat → σ × Int) (s : σ) (a : Nat) (as : List Nat) :
    visit func s (a :: as) =
      if (func s a).2 ≠ 0 then (false, (func s a).1) else visit func (func s a).1 as := rfl

theorem foreachLoop_eq {σ : Type} (p : Process β) {i : Nat} (hi : i < kMaxInstanceId)
    (func : σ → Nat → σ × Int) (s : σ) (ts : List Tid) :
    foreachLoop p.s_ppInstances i func s ts =
      .ok (visit func s (ts.filterMap fun t => p.slot t i)) := by
  induction ts generalizing s with
  | nil => rfl
  | cons t ts ih =>
    cases ht : p.s_ppInstances t with
    | none =>
      have hslot : p.slot t i = none := by simp only [slot, ht]
      rw [List.filterMap_cons_none (f := fun t => p.slot t i) hslot]
      simp only [foreachLoop, ht]
      exact ih s
    | some table =>
      cases hs : table.slots i with
      | none =>
        have hslot : p.slot t i = none := (slot_of_table ht i).trans hs
        rw [List.filterMap_cons_none (f := fun t => p.slot t i) hslot]
        simp only [foreachLoop, ht, hi, if_true, hs]
        exact ih s
      | some a =>
        have hslot : p.slot t i = some a := (slot_of_table ht i).trans hs
        rw [List.filterMap_cons_some (f := fun t => p.slot t i) hslot]
        simp only [foreachLoop, ht, hi, if_true, hs, visit, ih]
        split <;> rfl

/-- **Traversal.** `foreach` visits the storages of its id. It returns 0 when it has visited
them all; when `func` stops it, it sets an error code and returns -1. -/
theorem foreach_eq {σ : Type} (p : Process β) (t : Tid) {i : Nat} (hi : i < kMaxInstanceId)
    (func : σ → Nat → σ × Int) (s : σ) :
    p.foreach t i (some func) s =
      match visit func s (p.storages i) with
      | (true, s') => .ok (0, s', p)
      | (false, s') => .ok (-1, s', p.lldkSetErrorCode t .kCallFailed) := by
  simp only [foreach, foreachLoop_eq p hi, storages]
  rcases visit func s (List.filterMap (fun t => p.slot t i) p.s_vecpppInstances) with ⟨b, s'⟩
  cases b <;> rfl

/-- `foreach` leaves everything but the error code of its caller as it is. -/
theorem foreach_spec {σ : Type} (p : Process β) (t : Tid) {i : Nat} (hi : i < kMaxInstanceId)
    (func : σ → Nat → σ × Int) (s : σ) :
    ∃ rc p', p.foreach t i (some func) s = .ok (rc, (visit func s (p.storages i)).2, p') ∧
      Untouched p p' ∧ p'.heap = p.heap := by
  rw [foreach_eq p t hi func s]
  rcases visit func s (p.storages i) with ⟨b, s'⟩
  cases b with
  | true => exact ⟨0, p, rfl, Untouched.refl p, rfl⟩
  | false => exact ⟨-1, _, rfl, untouched_lldkSetErrorCode p t _, rfl⟩

end Process

end Lldk
