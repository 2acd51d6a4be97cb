import Lldk.Base.Allocator

/-!
What the construction and the destruction of an allocator leave, in full.

* `Counts p t al r`: `al` can count what thread `t` allocates and frees, in the record `r` or
  in none.
* `Made`: an allocator was constructed in the next block and its record in the block after it;
  `newAllocator_made` and `newObject_made` are the two ways.
* `Unmade`: an allocator was destroyed, its record released and its block freed
  (`deleteObject_unmade`).
* `createObject_made`, `deleteAllocatorImpl_unmade`: the same for the functions of the library.
-/

namespace Lldk

open Lib Lib.Trace Process

/-! ## Counting -/

/-- What `get` returns for thread `t` is null, or a record that is there. -/
structure Counts (p : Process Object) (t : Tid) (al : AllocatorImpl) (r : Option Nat) : Prop where
  get : al.m_allocatorThreadLocal.get p t = .ok r
  live : ∀ b, r = some b → ∃ s, p.readStats b = some s

theorem get_congr {p p' : Process Object} (h : p'.s_ppInstances = p.s_ppInstances)
    (obj : LldkThreadLocal) (t : Tid) : obj.get p' t = obj.get p t := by
  simp only [LldkThreadLocal.get, getThreadLocalStorage, h]

theorem Counts.congr {p p' : Process Object} {t : Tid} {al : AllocatorImpl} {r : Option Nat}
    (h : Counts p t al r) (htables : p'.s_ppInstances = p.s_ppInstances)
    (hcells : ∀ b, r = some b → p'.heap.cells b = p.heap.cells b) : Counts p' t al r := by
  refine ⟨(get_congr htables _ t).trans h.get, fun b hb => ?_⟩
  obtain ⟨s, hs⟩ := h.live b hb
  exact ⟨s, (readStats_congr (hcells b hb)).trans hs⟩

theorem Counts.count {p : Process Object} {t : Tid} {al : AllocatorImpl} {r : Option Nat}
    (h : Counts p t al r) (f : AllocateStats → AllocateStats) :
    ∃ p', al.count p t f = .ok p' ∧ Updated p r f p' ∧ SameBooks p p' := by
  have hcount : al.count p t f = p.updateStats r f := by
    simp only [AllocatorImpl.count, h.get]
  have hupdate : ∃ p', p.updateStats r f = .ok p' := by
    cases r with
    | none => exact ⟨p, rfl⟩
    | some b =>
      obtain ⟨s, hs⟩ := h.live b rfl
      exact ⟨_, by simp only [Process.updateStats, hs]; rfl⟩
  obtain ⟨p', hp⟩ := hupdate
  exact ⟨p', hcount.trans hp, updated_updateStats hp, sameBooks_updateStats hp⟩

theorem readStats_lt {p : Process Object} {a : Nat} {s : AllocateStats}
    (h : p.readStats a = some s) : a < p.heap.next := by
  obtain ⟨block, hc, -⟩ := cells_of_readStats h
  exact Heap.lt_next hc

/-! ## The block of an object -/

/-- The next block was allocated and is empty; the record `r` counts it. -/
structure Reserved (p : Process Object) (r : Option Nat) (uSize : UInt64) (p' : Process Object) :
    Prop where
  tables : SameTables p p'
  books : SameBooks p p'
  next : p'.heap.next = p.heap.next + 1
  block : ∃ block, p'.heap.cells p.heap.next = some block ∧ block.uSize = uSize
  record : ∀ b s, r = some b → p.readStats b = some s →
    p'.readStats b = some (s.addAllocated uSize)
  old : ∀ b, b < p.heap.next → r ≠ some b → p'.heap.cells b = p.heap.cells b

theorem reserved_alloc (p : Process Object) (uMalloced uSize : UInt64) :
    Reserved p none uSize { p with heap := (p.heap.alloc ⟨uMalloced, uSize, none⟩).2 } where
  tables := ⟨rfl, rfl, rfl, Nat.le_succ _⟩
  books := ⟨rfl, rfl⟩
  next := rfl
  block := ⟨_, Heap.cells_alloc_self _ _, rfl⟩
  record := fun b s hr => by cases hr
  old := fun b hb _ => Heap.cells_alloc_ne _ (Nat.ne_of_lt hb)

theorem AllocatorImpl.allocate_reserved {p : Process Object} {t : Tid} {self : AllocatorImpl}
    {r : Option Nat} (h : Counts p t self r) (uSize : UInt64) :
    ∃ p', self.allocate p t uSize true = .ok (some p.heap.next, p') ∧ Reserved p r uSize p' := by
  have hlt : ∀ b, r = some b → b < p.heap.next := by
    intro b hb
    obtain ⟨s, hs⟩ := h.live b hb
    exact readStats_lt hs
  have hold : ∀ b, b < p.heap.next → (withBlock p uSize).heap.cells b = p.heap.cells b :=
    fun b hb => Heap.cells_alloc_ne _ (Nat.ne_of_lt hb)
  have hblock : Counts (withBlock p uSize) t self r :=
    h.congr rfl fun b hb => hold b (hlt b hb)
  obtain ⟨p', hc, hu, hbooks⟩ := hblock.count (fun s => s.addAllocated uSize)
  have hnot : r ≠ some p.heap.next := by
    intro hr
    exact Nat.lt_irrefl _ (hlt _ hr)
  refine ⟨p', by simp only [allocate, mallocWithHeader_true, hc], ?_, ?_, hu.next,
    ⟨_, (hu.others _ hnot).trans (Heap.cells_alloc_self _ _), rfl⟩, fun b s hr hs => ?_,
    fun b hb hr => (hu.others b hr).trans (hold b hb)⟩
  · have hgrow : SameTables p (withBlock p uSize) := ⟨rfl, rfl, rfl, Nat.le_succ _⟩
    exact hgrow.trans hu.tables
  · have hsame : SameBooks p (withBlock p uSize) := ⟨rfl, rfl⟩
    exact hsame.trans hbooks
  · exact hu.record b s hr ((readStats_congr (hold b (hlt b hr))).trans hs)

/-! ## Constructions -/

/-- The id of the thread-local member. -/
def AllocatorImpl.id (al : AllocatorImpl) : Nat := al.m_allocatorThreadLocal.m_uInstanceId

/-- The allocator `al` was constructed on thread `t` in the next block, and its record in the one
after it. The record `r` counts the block of `al`. -/
structure Made (p : Process Object) (t : Tid) (r : Option Nat) (al : AllocatorImpl)
    (p' : Process Object) : Prop where
  id_lt : al.id < kMaxInstanceId
  free : ¬ p.marked al.id
  marked : ∀ j, p'.marked j ↔ p.marked j ∨ j = al.id
  hasTable : p'.hasTable t
  registered : p.hasTable t → p'.s_vecpppInstances = p.s_vecpppInstances
  first : ¬ p.hasTable t → p'.s_vecpppInstances = p.s_vecpppInstances ++ [t]
  self : p'.slot t al.id = some (p.heap.next + 1)
  others : ∀ t' j, t' ≠ t ∨ j ≠ al.id → p'.slot t' j = p.slot t' j
  object : p'.readAllocator p.heap.next = some al
  storage : p'.readStats (p.heap.next + 1) = some .zero
  record : ∀ b s, r = some b → p.readStats b = some s →
    p'.readStats b = some (s.addAllocated sizeofAllocatorImpl)
  old : ∀ b, b < p.heap.next → r ≠ some b → p'.heap.cells b = p.heap.cells b
  new : p.hasTable t → ∀ b, p.heap.next + 2 ≤ b → p'.heap.cells b = none
  next : p.heap.next + 1 < p'.heap.next
  s_allocateStats : p'.s_allocateStats = if p.hasTable t then
      p.s_allocateStats.addAllocated statsType.size
    else (p.s_allocateStats.addAllocated statsType.size).addAllocated tableSize
  s_eErrorCode : p'.s_eErrorCode = p.s_eErrorCode

/-- On a thread with a table, the constructor of the member allocates its storage only. -/
theorem construct_new {p p' : Process Object} {t : Tid} {env : Env} {obj : LldkThreadLocal}
    {a : Nat} (ht : p.hasTable t)
    (h : LldkThreadLocal.construct statsType p t env = .ok (.object obj a, p')) {b : Nat}
    (hb : p.heap.next + 1 ≤ b) : p'.heap.cells b = none := by
  rcases exists_least_free p with ⟨i, hi, hfree, hleast⟩ | hall
  · by_cases henv : env.serves p t
    · obtain ⟨bits, hnew, -⟩ := newInstanceId_least hi hfree hleast
      have hne : i ≠ kInvalidInstanceId := Nat.ne_of_lt hi
      have henv' : env.serves (p.withBits bits) t := henv
      obtain ⟨table, ht⟩ := ht
      have htable : (LldkThreadLocal.withStorage statsType (p.withBits bits) t).s_ppInstances t =
          some table := ht
      simp only [LldkThreadLocal.construct, hnew, hne, if_false,
        LldkThreadLocal.setUp_eq statsType hi henv', afterStore, htable] at h
      cases h
      exact Heap.fresh _ b hb
    · obtain ⟨what, q, hc, -⟩ := LldkThreadLocal.construct_aborted statsType hi hfree hleast henv
      rw [h] at hc
      cases hc
  · rw [LldkThreadLocal.construct_exhausted statsType hall t env] at h
    cases h

/-- An allocator constructed in a block that was reserved for it. -/
theorem made_placeObject {p p₁ p₂ : Process Object} {t : Tid} {r : Option Nat} {name : String}
    {env : Env} {obj : LldkThreadLocal} {b : Nat} (h₁ : Reserved p r sizeofAllocatorImpl p₁)
    (hr : ∀ b, r = some b → b < p.heap.next)
    (hc : LldkThreadLocal.construct statsType p₁ t env = .ok (.object obj b, p₂)) :
    Made p t r ⟨name, 0, obj⟩ (p₂.placeObject p.heap.next (.allocator ⟨name, 0, obj⟩)) := by
  obtain ⟨hlt, hfree, -, hbuilt⟩ := LldkThreadLocal.construct_object statsType hc
  have hbooked := LldkThreadLocal.construct_booked statsType hc
  have hnext : p.heap.next < p₁.heap.next := by
    rw [h₁.next]
    exact Nat.lt_succ_self _
  have hold : ∀ c, c < p.heap.next →
      (p₂.placeObject p.heap.next (.allocator ⟨name, 0, obj⟩)).heap.cells c = p₁.heap.cells c := by
    intro c hcl
    have hplace : (p₂.placeObject p.heap.next (.allocator ⟨name, 0, obj⟩)).heap.cells c =
        p₂.heap.cells c := Heap.cells_modify_ne _ (Nat.ne_of_lt hcl)
    rw [hplace]
    exact LldkThreadLocal.construct_old statsType hc (Nat.lt_trans hcl hnext)
  have htable : p₁.hasTable t ↔ p.hasTable t := hasTable_congr h₁.tables.s_ppInstances t
  obtain ⟨block, hblock, -⟩ := h₁.block
  refine ⟨hlt, ?_, fun j => ?_, (hbuilt.hasTable t).mpr (Or.inr rfl), fun ht => ?_, fun ht => ?_,
    ?_, fun t' j hne => ?_, ?_, ?_, fun c s hcr hs => ?_, fun c hcl hcr => ?_, fun ht c hcl => ?_,
    ?_, ?_, hbooked.s_eErrorCode.trans h₁.books.s_eErrorCode⟩
  · exact fun hm => hfree ((marked_congr h₁.tables.s_bitset _).mpr hm)
  · rw [← marked_congr h₁.tables.s_bitset j]
    exact hbuilt.marked j
  · exact (hbuilt.registered (htable.mpr ht)).trans h₁.tables.s_vecpppInstances
  · rw [← h₁.tables.s_vecpppInstances]
    exact hbuilt.first fun ht' => ht (htable.mp ht')
  · rw [← h₁.next]
    exact hbuilt.self
  · exact (hbuilt.others t' j hne).trans (slot_congr h₁.tables.s_ppInstances t' j)
  · have hcell : (p₂.placeObject p.heap.next (.allocator ⟨name, 0, obj⟩)).heap.cells p.heap.next =
        some { block with object := some (.allocator ⟨name, 0, obj⟩) } := by
      show (p₂.heap.modify p.heap.next _).cells p.heap.next = _
      rw [Heap.cells_modify_self, LldkThreadLocal.construct_old statsType hc hnext, hblock]
      rfl
    exact readAllocator_of_cells hcell rfl
  · obtain ⟨block', hcell, hobj⟩ := hbuilt.storage
    rw [h₁.next] at hcell
    have hplace : (p₂.placeObject p.heap.next (.allocator ⟨name, 0, obj⟩)).heap.cells
        (p.heap.next + 1) = p₂.heap.cells (p.heap.next + 1) :=
      Heap.cells_modify_ne _ (Nat.succ_ne_self _)
    exact readStats_of_cells (hplace.trans hcell) hobj
  · exact (readStats_congr (hold c (hr c hcr))).trans (h₁.record c s hcr hs)
  · exact (hold c hcl).trans (h₁.old c hcl hcr)
  · have hne : c ≠ p.heap.next := by omega
    have hplace : (p₂.placeObject p.heap.next (.allocator ⟨name, 0, obj⟩)).heap.cells c =
        p₂.heap.cells c := Heap.cells_modify_ne _ hne
    rw [hplace]
    refine construct_new (htable.mpr ht) hc ?_
    rw [h₁.next]
    omega
  · have hlt' : p₁.heap.next < p₂.heap.next := hbuilt.next
    have hplace : (p₂.placeObject p.heap.next (.allocator ⟨name, 0, obj⟩)).heap.next =
        p₂.heap.next := rfl
    rw [hplace]
    rw [h₁.next] at hlt'
    exact hlt'
  · have hstats := hbooked.s_allocateStats
    rw [h₁.books.s_allocateStats] at hstats
    simp only [htable] at hstats
    exact hstats

/-- `init` succeeds, and changes the limit only. -/
theorem Made.init {p p₁ : Process Object} {t : Tid} {r : Option Nat} {al : AllocatorImpl}
    (h : Made p t r al p₁) (hr : ∀ b, r = some b → b < p.heap.next) (uMaxSizeMB : UInt64) :
    ∃ p', p₁.initAllocator p.heap.next uMaxSizeMB = .ok (0, p') ∧
      Made p t r { al with m_uMaxSizeMB := uMaxSizeMB } p' := by
  obtain ⟨block, hcell, -⟩ := cells_of_readAllocator h.object
  refine ⟨{ p₁ with heap := p₁.heap.modify p.heap.next fun b =>
    { b with object := some (.allocator (al.init uMaxSizeMB).2) } },
    by simp only [initAllocator, h.object]; rfl, ?_⟩
  have hne : ∀ b, b ≠ p.heap.next → (p₁.heap.modify p.heap.next fun b =>
      { b with object := some (.allocator (al.init uMaxSizeMB).2) }).cells b =
        p₁.heap.cells b := fun b hb => Heap.cells_modify_ne _ hb
  refine ⟨h.id_lt, h.free, h.marked, h.hasTable, h.registered, h.first, h.self, h.others, ?_, ?_,
    fun b s hb hs => ?_, fun b hb hbr => ?_, fun ht b hb => ?_, h.next, h.s_allocateStats,
    h.s_eErrorCode⟩
  · have hcell' : (p₁.heap.modify p.heap.next fun b =>
        { b with object := some (.allocator (al.init uMaxSizeMB).2) }).cells p.heap.next =
        some { block with object := some (.allocator (al.init uMaxSizeMB).2) } := by
      rw [Heap.cells_modify_self, hcell]
      rfl
    exact readAllocator_of_cells hcell' rfl
  · exact (readStats_congr (hne _ (Nat.succ_ne_self _))).trans h.storage
  · exact (readStats_congr (hne b (Nat.ne_of_lt (hr b hb)))).trans (h.record b s hb hs)
  · exact (hne b (Nat.ne_of_lt hb)).trans (h.old b hb hbr)
  · have hb' : b ≠ p.heap.next := by omega
    exact (hne b hb').trans (h.new ht b hb)

/-- Some id is not marked used. -/
def Process.hasFreeId (p : Process Object) : Prop := ∃ i, i < kMaxInstanceId ∧ ¬ p.marked i

instance (p : Process Object) : Decidable p.hasFreeId :=
  decidable_of_iff (p.s_bitset.findFirstNone ≠ kMaxInstanceId) (by
    have hall : p.s_bitset.findFirstNone = kMaxInstanceId ↔
        ∀ j, j < kMaxInstanceId → p.marked j := by
      refine Bitset.LldkBitset.findFirstNone_eq_kSize.trans (forall_congr' fun j => ?_)
      exact ⟨fun h hj => marked_iff.mpr ⟨hj, h hj⟩, fun h hj => (marked_iff.mp (h hj)).2⟩
    rw [ne_eq, hall]
    unfold hasFreeId
    push Not
    rfl)

theorem construct_of_hasFreeId {p : Process Object} {t : Tid} {env : Env} (hid : p.hasFreeId)
    (henv : env.serves p t) :
    ∃ obj a p', LldkThreadLocal.construct statsType p t env = .ok (.object obj a, p') := by
  rcases exists_least_free p with ⟨i, hi, hfree, hleast⟩ | hall
  · obtain ⟨p', hc, -⟩ := LldkThreadLocal.construct_built statsType hi hfree hleast henv
    exact ⟨_, _, p', hc⟩
  · obtain ⟨i, hi, hfree⟩ := hid
    exact absurd (hall i hi) hfree

/-- A constructor that returned found an id and everything else it needs. -/
theorem serves_of_construct {p p' : Process Object} {t : Tid} {env : Env} {obj : LldkThreadLocal}
    {a : Nat} (h : LldkThreadLocal.construct statsType p t env = .ok (.object obj a, p')) :
    p.hasFreeId ∧ env.serves p t := by
  rcases exists_least_free p with ⟨i, hi, hfree, hleast⟩ | hall
  · refine ⟨⟨i, hi, hfree⟩, ?_⟩
    by_contra henv
    obtain ⟨what, q, hc, -⟩ := LldkThreadLocal.construct_aborted statsType hi hfree hleast henv
    rw [h] at hc
    cases hc
  · rw [LldkThreadLocal.construct_exhausted statsType hall t env] at h
    cases h

theorem nameMem_of_construct {p p' : Process Object} {t : Tid} {name : String} {env : Env}
    {al : AllocatorImpl} (h : AllocatorImpl.construct p t name env = .ok (.ok al, p')) :
    env.nameMem = true := by
  cases hname : env.nameMem with
  | false => simp [AllocatorImpl.construct, hname] at h
  | true => rfl

/-- What two processes that agree on ids and tables offer to a constructor. -/
theorem serves_congr {p p' : Process Object} (h : SameTables p p') {t : Tid} {env : Env} :
    p'.hasFreeId ∧ env.serves p' t ↔ p.hasFreeId ∧ env.serves p t := by
  have hmarked : ∀ j, p'.marked j ↔ p.marked j := marked_congr h.s_bitset
  have htable : p'.hasTable t ↔ p.hasTable t := hasTable_congr h.s_ppInstances t
  simp only [hasFreeId, Env.serves, hmarked, htable]

/-- **The construction of the singleton.** -/
theorem newAllocator_made {p : Process Object} {t : Tid} (name : String) (env : CallEnv)
    (hmem : env.objectMem = true) (hname : env.nameMem = true) (hid : p.hasFreeId)
    (henv : env.serves p t) :
    ∃ al p', p.newAllocator t name env = .ok (.ok p.heap.next, p') ∧ Made p t none al p' ∧
      al.m_sName = name := by
  have hblock := reserved_alloc p sizeofAllocatorImpl sizeofAllocatorImpl
  obtain ⟨obj, b, p₂, hc⟩ := construct_of_hasFreeId (p := { p with
    heap := (p.heap.alloc ⟨sizeofAllocatorImpl, sizeofAllocatorImpl, none⟩).2 }) hid henv
  refine ⟨⟨name, 0, obj⟩, _, ?_, made_placeObject hblock (fun b hb => by cases hb) hc, rfl⟩
  simp only [newAllocator, hmem, if_true, AllocatorImpl.construct, hname, hc]
  rfl

namespace AllocatorImpl

/-- **The construction of an allocator** in a block of the singleton. -/
theorem newObject_made {p : Process Object} {t : Tid} {self : AllocatorImpl} {r : Option Nat}
    {env : CallEnv} (name : String) (h : Counts p t self r) (hmem : env.objectMem = true)
    (hname : env.nameMem = true) (hid : p.hasFreeId) (henv : env.serves p t) :
    ∃ al p', self.newObject p t name env = .ok (.ok (some p.heap.next), p') ∧
      Made p t r al p' ∧ al.m_sName = name := by
  obtain ⟨p₁, ha, hres⟩ := allocate_reserved h sizeofAllocatorImpl
  obtain ⟨hid₁, henv₁⟩ := (serves_congr hres.tables).mpr ⟨hid, henv⟩
  obtain ⟨obj, b, p₂, hc⟩ := construct_of_hasFreeId hid₁ henv₁
  have hlt : ∀ b, r = some b → b < p.heap.next := by
    intro b hb
    obtain ⟨s, hs⟩ := h.live b hb
    exact readStats_lt hs
  refine ⟨⟨name, 0, obj⟩, _, ?_, made_placeObject hres hlt hc, rfl⟩
  simp only [newObject, hmem, ha, construct, hname, if_true, hc, bind, Except.bind]
  rfl

end AllocatorImpl

/-- A singleton that was constructed had what it needs. -/
theorem serves_of_newAllocator {p p' : Process Object} {t : Tid} {name : String} {env : CallEnv}
    {a : Nat} (h : p.newAllocator t name env = .ok (.ok a, p')) :
    env.objectMem = true ∧ env.nameMem = true ∧ p.hasFreeId ∧ env.serves p t := by
  cases hmem : env.objectMem with
  | false => simp [newAllocator, hmem] at h
  | true =>
    simp only [newAllocator, hmem, if_true] at h
    obtain ⟨⟨r, p₁⟩, hc, h⟩ := bind_eq_ok.mp h
    cases r with
    | error what => cases h
    | ok al =>
      have hname := nameMem_of_construct hc
      obtain ⟨b, hc⟩ := AllocatorImpl.construct_ok hc
      have hblock := reserved_alloc p sizeofAllocatorImpl sizeofAllocatorImpl
      exact ⟨rfl, hname, (serves_congr hblock.tables).mp (serves_of_construct hc)⟩

/-- So had an allocator, and the singleton could count its block. -/
theorem AllocatorImpl.serves_of_newObject {p p' : Process Object} {t : Tid} {self : AllocatorImpl}
    {name : String} {env : CallEnv} {a : Nat}
    (h : self.newObject p t name env = .ok (.ok (some a), p')) :
    (∃ r, Counts p t self r) ∧ env.objectMem = true ∧ env.nameMem = true ∧ p.hasFreeId ∧
      env.serves p t := by
  obtain ⟨⟨q, p₁⟩, hq, h⟩ := bind_eq_ok.mp h
  cases q with
  | none => cases h
  | some b =>
    have hmem : env.objectMem = true := by
      cases hmem : env.objectMem with
      | false =>
        rw [hmem] at hq
        cases hq
      | true => rfl
    have htables := allocate_tables hq
    obtain ⟨rfl, r, hget, hu⟩ := allocate_some hq
    obtain ⟨⟨r', p₂⟩, hc, h⟩ := bind_eq_ok.mp h
    cases r' with
    | error what =>
      obtain ⟨p₃, -, h⟩ := bind_eq_ok.mp h
      cases h
    | ok al =>
      have hname := nameMem_of_construct hc
      obtain ⟨c, hc⟩ := construct_ok hc
      refine ⟨⟨r, hget, fun d hd => ?_⟩, hmem, hname,
        (serves_congr htables).mp (serves_of_construct hc)⟩
      obtain ⟨s, hs⟩ := hu.live d hd
      have hne : d ≠ p.heap.next := by
        rintro rfl
        have hcell : (withBlock p sizeofAllocatorImpl).heap.cells p.heap.next =
            some ⟨sizeofAllocatorImpl + headerSize, sizeofAllocatorImpl, none⟩ :=
          Heap.cells_alloc_self _ _
        simp [readStats, hcell] at hs
      exact ⟨s, (readStats_congr (Heap.cells_alloc_ne _ hne)).symm.trans hs⟩

/-! ## Releases -/

/-- The block of `a`, of size `uSize`, was freed; the record `r` counts it. -/
structure Freed (p : Process Object) (r : Option Nat) (a : Nat) (uSize : UInt64)
    (p' : Process Object) : Prop where
  tables : SameTables p p'
  books : SameBooks p p'
  next : p'.heap.next = p.heap.next
  gone : p'.heap.cells a = none
  record : ∀ b s, r = some b → p.readStats b = some s → p'.readStats b = some (s.addFreed uSize)
  others : ∀ b, b ≠ a → r ≠ some b → p'.heap.cells b = p.heap.cells b

theorem AllocatorImpl.free_freed {p : Process Object} {t : Tid} {self : AllocatorImpl}
    {r : Option Nat} {a : Nat} {block : Block Object} (h : Counts p t self r)
    (hc : p.heap.cells a = some block) (hr : r ≠ some a) :
    ∃ p', self.free p t (some a) = .ok p' ∧ Freed p r a block.uSize p' := by
  obtain ⟨p₁, hcount, hu, hbooks⟩ := h.count (fun s => s.addFreed block.uSize)
  have hcell : ∀ b, b ≠ a → (p₁.freeBlock a).heap.cells b = p₁.heap.cells b :=
    fun b hb => Heap.cells_free_ne hb
  refine ⟨p₁.freeBlock a, by simp only [free, hc, hcount],
    hu.tables.trans ⟨rfl, rfl, rfl, Nat.le_refl _⟩, hbooks.trans ⟨rfl, rfl⟩, hu.next,
    Heap.cells_free_self _ _, fun b s hb hs => ?_, fun b hb hbr => ?_⟩
  · have hne : b ≠ a := by
      rintro rfl
      exact hr hb
    exact (readStats_congr (hcell b hne)).trans (hu.record b s hb hs)
  · exact (hcell b hb).trans (hu.others b hbr)

/-- A construction that finds no id: the memory is given back, and the record has counted both. -/
theorem AllocatorImpl.newObject_exhausted {p : Process Object} {t : Tid} {self : AllocatorImpl}
    {r : Option Nat} (name : String) (env : CallEnv) (h : Counts p t self r)
    (hmem : env.objectMem = true) (hname : env.nameMem = true) (hid : ¬ p.hasFreeId) :
    ∃ p', self.newObject p t name env = .ok (.error "Failed to create instance id", p') ∧
      SameTables p p' ∧ SameBooks p p' ∧
      (∀ b s, r = some b → p.readStats b = some s → p'.readStats b =
        some ((s.addAllocated sizeofAllocatorImpl).addFreed sizeofAllocatorImpl)) ∧
      ∀ b, b < p.heap.next → r ≠ some b → p'.heap.cells b = p.heap.cells b := by
  obtain ⟨p₁, ha, hres⟩ := allocate_reserved h sizeofAllocatorImpl
  have hlt : ∀ b, r = some b → b < p.heap.next := by
    intro b hb
    obtain ⟨s, hs⟩ := h.live b hb
    exact readStats_lt hs
  have hall : ∀ j, j < kMaxInstanceId → p₁.marked j := by
    intro j hj
    rw [marked_congr hres.tables.s_bitset]
    exact not_not.mp fun hn => hid ⟨j, hj, hn⟩
  have hc := LldkThreadLocal.construct_exhausted statsType hall t env.toEnv
  have hcounts : Counts p₁ t self r := by
    refine ⟨(get_congr hres.tables.s_ppInstances _ t).trans h.get, fun b hb => ?_⟩
    obtain ⟨s, hs⟩ := h.live b hb
    exact ⟨_, hres.record b s hb hs⟩
  obtain ⟨block, hblock, hsize⟩ := hres.block
  have hne : r ≠ some p.heap.next := fun hr => Nat.lt_irrefl _ (hlt _ hr)
  obtain ⟨p₂, hf, hfreed⟩ := free_freed hcounts hblock hne
  rw [hsize] at hfreed
  refine ⟨p₂, ?_, hres.tables.trans hfreed.tables, hres.books.trans hfreed.books,
    fun b s hb hs => hfreed.record b _ hb (hres.record b s hb hs), fun b hb hbr => ?_⟩
  · simp only [newObject, hmem, ha, construct, hname, if_true, hc, bind, Except.bind, hf]
    rfl
  · exact (hfreed.others b (Nat.ne_of_lt hb) hbr).trans (hres.old b hb hbr)

/-- The allocator at `a`, of id `i` and with its record at `b`, was destroyed on thread `t`. The
record `r` counts the block of `a`. -/
structure Unmade (p : Process Object) (t : Tid) (r : Option Nat) (a b i : Nat)
    (p' : Process Object) : Prop where
  marked : ∀ j, p'.marked j ↔ p.marked j ∧ j ≠ i
  s_ppInstances : p'.s_ppInstances = p.s_ppInstances
  s_vecpppInstances : p'.s_vecpppInstances = p.s_vecpppInstances
  object : p'.heap.cells a = none
  storage : p'.heap.cells b = none
  record : ∀ c s, r = some c → p.readStats c = some s →
    ∃ uSize, p'.readStats c = some (s.addFreed uSize)
  others : ∀ c, c ≠ a → c ≠ b → r ≠ some c → p'.heap.cells c = p.heap.cells c
  next : p'.heap.next = p.heap.next
  s_allocateStats : ∃ uSize, p'.s_allocateStats = p.s_allocateStats.addFreed uSize
  s_eErrorCode : p'.s_eErrorCode t = .kInvalidParam

/-- **The destruction of an allocator** whose record is there, on the thread of that record. -/
theorem AllocatorImpl.deleteObject_unmade {p : Process Object} {t : Tid} {self al : AllocatorImpl}
    {r : Option Nat} {a b : Nat} {s : AllocateStats} (h : Counts p t self r)
    (hal : p.readAllocator a = some al) (hi : al.id < kMaxInstanceId)
    (hslot : p.slot t al.id = some b) (hb : p.readStats b = some s) (hr : r ≠ some b) :
    ∃ p', self.deleteObject p t a = .ok p' ∧ Unmade p t r a b al.id p' := by
  have hra : r ≠ some a := by
    intro hra
    obtain ⟨s', hs'⟩ := h.live a hra
    rw [readAllocator_of_readStats hs'] at hal
    cases hal
  have hab : a ≠ b := by
    rintro rfl
    rw [readAllocator_of_readStats hb] at hal
    cases hal
  have ht : p.hasTable t := by
    by_contra hno
    rw [slot_of_noTable hno] at hslot
    cases hslot
  obtain ⟨block, hblock, -⟩ := cells_of_readAllocator hal
  obtain ⟨record, hrecord, -⟩ := cells_of_readStats hb
  have hlive : p.slotLive t al.m_allocatorThreadLocal.m_uInstanceId := by
    intro c hc
    obtain rfl : b = c := Option.some.inj (hslot.symm.trans hc)
    exact ⟨record, hrecord⟩
  obtain ⟨p₁, hd, hp₁⟩ := LldkThreadLocal.destruct_spec
    (show al.m_allocatorThreadLocal.m_uInstanceId < kMaxInstanceId from hi) ht hlive
  have hbooks := LldkThreadLocal.destruct_books hd hslot hrecord
  have hothers : ∀ c, c ≠ b → p₁.heap.cells c = p.heap.cells c := by
    intro c hc
    refine hp₁.others c fun hs => hc ?_
    have he : some b = some c := hslot.symm.trans hs
    exact (Option.some.inj he).symm
  have hblock₁ : p₁.heap.cells a = some block := (hothers a hab).trans hblock
  have hplace : ∀ c, c ≠ a → (p₁.emptied a).heap.cells c = p₁.heap.cells c :=
    fun c hc => Heap.cells_modify_ne _ hc
  have hkept : ∀ c, r = some c → (p₁.emptied a).heap.cells c = p.heap.cells c := by
    intro c hc
    have hca : c ≠ a := by
      rintro rfl
      exact hra hc
    have hcb : c ≠ b := by
      rintro rfl
      exact hr hc
    exact (hplace c hca).trans (hothers c hcb)
  have hcounts : Counts (p₁.emptied a) t self r := h.congr hp₁.s_ppInstances hkept
  obtain ⟨p₂, hf, hfreed⟩ := free_freed hcounts (emptied_self hblock₁) hra
  have hdestroy : p.destroyAllocator t a = .ok (p₁.emptied a) := by
    simp only [destroyAllocator, hal, hd]
    exact destroyObject_live hblock₁
  refine ⟨p₂, ?_, fun j => ?_, hfreed.tables.s_ppInstances.trans hp₁.s_ppInstances,
    hfreed.tables.s_vecpppInstances.trans hp₁.s_vecpppInstances, hfreed.gone, ?_,
    fun c s' hc hs' => ⟨_, hfreed.record c s' hc ((readStats_congr (hkept c hc)).trans hs')⟩,
    fun c hca hcb hcr => ?_, hfreed.next.trans hp₁.next, ⟨record.uSize, ?_⟩, ?_⟩
  · simp only [deleteObject, hdestroy]
    exact hf
  · rw [marked_congr hfreed.tables.s_bitset]
    exact hp₁.marked j
  · rw [hfreed.others b hab.symm hr, hplace b hab.symm]
    exact hp₁.gone b hslot
  · rw [hfreed.others c hca hcr, hplace c hca, hothers c hcb]
  · rw [hfreed.books.s_allocateStats]
    exact hbooks.1
  · rw [hfreed.books.s_eErrorCode]
    exact hbooks.2

/-! ## The exported functions -/

namespace Library

variable {l : Library} {t : Tid} {env : CallEnv}

theorem getSingleton_of_some {s : Nat} (hs : l.s_pAllocator = some s) (t : Tid) (env : CallEnv) :
    l.lldkGetAllocatorSingleton t env = .ok (.ok (some s), l) := by
  simp only [lldkGetAllocatorSingleton, hs]

/-- Nothing that the construction of the singleton on thread `t` needs is missing. -/
def servesSingleton (l : Library) (t : Tid) (env : CallEnv) : Prop :=
  env.singletonMem = true ∧ env.singletonEnv.nameMem = true ∧ l.proc.hasFreeId ∧
    env.singletonEnv.serves l.proc t

theorem getSingleton_made (hs : l.s_pAllocator = none) (henv : l.servesSingleton t env) :
    ∃ al p, l.lldkGetAllocatorSingleton t env = .ok (.ok (some l.proc.heap.next),
        { l with proc := p, s_pAllocator := some l.proc.heap.next }) ∧
      Made l.proc t none al p ∧ al.m_sName = "lldk.global.allocator" := by
  obtain ⟨hmem, hname, hid, hserves⟩ := henv
  obtain ⟨al, p₁, hn, hmade, he⟩ := newAllocator_made "lldk.global.allocator"
    env.forSingleton hmem hname hid hserves
  obtain ⟨p₂, hi, hmade₂⟩ := hmade.init (fun b hb => by cases hb) 0
  refine ⟨_, p₂, ?_, hmade₂, he⟩
  simp only [lldkGetAllocatorSingleton, hs, hn, bind, Except.bind, hi]
  rfl

theorem servesSingleton_of_ok {l' : Library} {q : Option Nat} (hs : l.s_pAllocator = none)
    (h : l.lldkGetAllocatorSingleton t env = .ok (.ok q, l')) : l.servesSingleton t env := by
  simp only [lldkGetAllocatorSingleton, hs] at h
  obtain ⟨⟨r, p⟩, hn, h⟩ := bind_eq_ok.mp h
  cases r with
  | error what => cases h
  | ok a => exact serves_of_newAllocator hn

/-- **The construction**, when there is a singleton that counts for thread `t`. -/
theorem createObject_made {s : Nat} {self : AllocatorImpl} {r : Option Nat}
    (hs : l.s_pAllocator = some s) (hself : l.proc.readAllocator s = some self)
    (hcounts : Counts l.proc t self r) (hmem : env.objectMem = true)
    (hname : env.nameMem = true) (hid : l.proc.hasFreeId) (henv : env.serves l.proc t)
    (pName : String) (uMaxSizeMB : UInt64) :
    ∃ al p, l.createObject t pName uMaxSizeMB env =
        .ok (.ok (some l.proc.heap.next), l.withProc p) ∧
      Made l.proc t r al p ∧ al.m_sName = pName ∧ al.m_uMaxSizeMB = uMaxSizeMB := by
  obtain ⟨al, p₁, hn, hmade, he⟩ :=
    AllocatorImpl.newObject_made pName hcounts hmem hname hid henv
  have hlt : ∀ b, r = some b → b < l.proc.heap.next := by
    intro b hb
    obtain ⟨st, hst⟩ := hcounts.live b hb
    exact readStats_lt hst
  obtain ⟨p₂, hi, hmade₂⟩ := hmade.init hlt uMaxSizeMB
  refine ⟨_, p₂, ?_, hmade₂, he, rfl⟩
  simp only [createObject, getSingleton_of_some hs, bind, Except.bind, hself, hn, hi]
  rfl

/-- What a construction that succeeded had. -/
theorem serves_of_createObject {l' : Library} {s a : Nat} {self : AllocatorImpl} {pName : String}
    {uMaxSizeMB : UInt64} (hs : l.s_pAllocator = some s)
    (hself : l.proc.readAllocator s = some self)
    (h : l.createObject t pName uMaxSizeMB env = .ok (.ok (some a), l')) :
    (∃ r, Counts l.proc t self r) ∧ env.objectMem = true ∧ env.nameMem = true ∧
      l.proc.hasFreeId ∧ env.serves l.proc t := by
  unfold createObject at h
  rw [getSingleton_of_some hs] at h
  obtain ⟨q, hq, h⟩ := bind_eq_ok.mp h
  cases hq
  simp only [hself] at h
  obtain ⟨⟨r, p⟩, hn, h⟩ := bind_eq_ok.mp h
  rcases r with what | _ | b
  · cases h
  · cases h
  · exact AllocatorImpl.serves_of_newObject hn

/-- A call that constructs the singleton goes on as if it had been there. -/
theorem createObject_of_getSingleton {l₁ : Library} {s : Nat}
    (h : l.lldkGetAllocatorSingleton t env = .ok (.ok (some s), l₁))
    (hs : l₁.s_pAllocator = some s) (pName : String) (uMaxSizeMB : UInt64) :
    l.createObject t pName uMaxSizeMB env = l₁.createObject t pName uMaxSizeMB env := by
  simp only [createObject, h, getSingleton_of_some hs, bind, Except.bind]

theorem lldkCreateAllocator_of_getSingleton {l₁ : Library} {s : Nat} {n : String}
    (h : l.lldkGetAllocatorSingleton t env = .ok (.ok (some s), l₁))
    (hs : l₁.s_pAllocator = some s) (hkey : env.keyMem = true) (hfind : l.find n = none)
    (hfind₁ : l₁.find n = none) (uMaxSizeMB : UInt64) :
    l.lldkCreateAllocator t (some n) uMaxSizeMB env =
      l₁.lldkCreateAllocator t (some n) uMaxSizeMB env := by
  simp only [lldkCreateAllocator, createCheck, hkey, if_true, hfind, hfind₁,
    createObject_of_getSingleton h hs]

/-- An allocator that was constructed has a storage on its thread. -/
theorem createObject_stored {l' : Library} {n : String} {uMaxSizeMB : UInt64} {a : Nat}
    (hslots : SlotsBelow l.proc)
    (h : l.createObject t n uMaxSizeMB env = .ok (.ok (some a), l')) :
    ∃ al b, l'.proc.readAllocator a = some al ∧ al.id < kMaxInstanceId ∧
      l'.proc.slot t al.id = some b := by
  obtain ⟨r₁, l₁, p, hs, rfl, ⟨a', s, -, rfl, -⟩ | ⟨hnot, -⟩⟩ := createObject_ok hslots h
  · have hs₁ : l₁.s_pAllocator = some s := by
      rcases lldkGetAllocatorSingleton_ok hslots hs with
        ⟨s', hs', rfl, he⟩ | ⟨s', p', -, rfl, he, -⟩ | ⟨what, p', -, he, -⟩
      · cases he
        exact hs'
      · cases he
        rfl
      · cases he
    rw [createObject_of_getSingleton hs hs₁] at h
    cases hself : l₁.proc.readAllocator s with
    | none => simp [createObject, getSingleton_of_some hs₁, bind, Except.bind, hself] at h
    | some self =>
      obtain ⟨⟨r, hcounts⟩, hmem, hname, hid, henv⟩ := serves_of_createObject hs₁ hself h
      obtain ⟨al, p', hc, hmade, -, -⟩ :=
        createObject_made hs₁ hself hcounts hmem hname hid henv n uMaxSizeMB
      rw [h] at hc
      cases hc
      exact ⟨al, _, hmade.object, hmade.id_lt, hmade.self⟩
  · exact absurd rfl (hnot a)

/-- A thread with a storage of the allocator frees it in the destructor. -/
theorem frees_of_slot {a b : Nat} {al : AllocatorImpl} (hal : l.proc.readAllocator a = some al)
    (hi : al.id < kMaxInstanceId) (hslot : l.proc.slot t al.id = some b) :
    l.frees t a = true := by
  have ht : l.proc.hasTable t := by
    by_contra hno
    rw [slot_of_noTable hno] at hslot
    cases hslot
  have hget : al.m_allocatorThreadLocal.get l.proc t = .ok (some b) :=
    (getThreadLocalStorage_ok ht hi).trans (congrArg Except.ok hslot)
  simp only [frees, hal, hget]

theorem deleteAllocatorImpl_unmade {s a b : Nat} {self al : AllocatorImpl} {r : Option Nat}
    {st : AllocateStats} (hs : l.s_pAllocator = some s)
    (hself : l.proc.readAllocator s = some self) (hcounts : Counts l.proc t self r)
    (hal : l.proc.readAllocator a = some al) (hi : al.id < kMaxInstanceId)
    (hslot : l.proc.slot t al.id = some b) (hb : l.proc.readStats b = some st) (hr : r ≠ some b)
    (env : CallEnv) :
    ∃ p, l.deleteAllocatorImpl t a env = .ok (l.withProc p) ∧ Unmade l.proc t r a b al.id p := by
  obtain ⟨p, hd, hu⟩ := AllocatorImpl.deleteObject_unmade hcounts hal hi hslot hb hr
  refine ⟨p, ?_, hu⟩
  simp only [deleteAllocatorImpl, getSingleton_of_some hs, bind, Except.bind, hself, hd]
  rfl

/-- Under the mutex of the registry the same happens where that mutex may be locked again. -/
theorem deleteUnderLock_of_relock (hrelock : env.relock = true) (a : Nat) :
    l.deleteUnderLock t a env = l.deleteAllocatorImpl t a env := by
  simp [deleteUnderLock, hrelock]

end Library

end Lldk
