import Lldk.Base.AllocatorApi
import Lldk.Base.AllocatorEffects
import Mathlib.Data.List.Nodup
import Mathlib.Data.List.Pairwise

/-!
Programs of one thread that create and destroy allocators, and nothing else.

* `registryStep t` is one call of thread `t`, with every mutex granted and no allocation failing.
* `Members t p ms` is the memory: the allocators of `ms` are there, each with its id and its
  record, and no other id is used.
* `Registry t l s es` is the library while `s` is the singleton and `es` are registered.
* `registry_step` is the step; `registry_is_map`: the registry is a partial map from names to
  live allocators.
-/

namespace Lldk

open Lib Lib.Trace Process

/-! ## Programs -/

inductive RegistryOp
  | create (pName : Option String) (uMaxSizeMB : UInt64)
  | destroy (pAllocator : Option Nat)
  | getSingleton
  deriving DecidableEq, Repr

def RegistryOp.call (t : Tid) : RegistryOp → ApiOp
  | .create pName uMaxSizeMB => .create t pName uMaxSizeMB { relock := true }
  | .destroy pAllocator => .destroy t pAllocator { relock := true }
  | .getSingleton => .getSingleton t { relock := true }

def registryStep (t : Tid) : Step Api RegistryOp ApiOut ApiFault :=
  fun s op => apiStep s (op.call t)

/-- What a program may destroy: null, the singleton or a registered allocator. -/
def mayCall (s : Api) (op : RegistryOp) : Prop :=
  ∀ a, op = .destroy (some a) → s.lib.knows a

instance (s : Api) (op : RegistryOp) : Decidable (mayCall s op) :=
  match op with
  | .destroy (some a) =>
    decidable_of_iff (s.lib.knows a) ⟨fun h _ he => by cases he; exact h, fun h => h a rfl⟩
  | .destroy none => isTrue fun _ he => by cases he
  | .create .. => isTrue fun _ he => by cases he
  | .getSingleton => isTrue fun _ he => by cases he

/-! ## The allocators in memory -/

/-- An allocator that is alive: its address, its value and the address of its record. -/
structure Member where
  a : Nat
  al : AllocatorImpl
  b : Nat

/-- The allocators of thread `t` are those of `ms`, and theirs are the ids in use. -/
structure Members (t : Tid) (p : Process Object) (ms : List Member) : Prop where
  s_vecpppInstances : p.s_vecpppInstances = [t]
  object : ∀ m ∈ ms, p.readAllocator m.a = some m.al
  id_lt : ∀ m ∈ ms, m.al.id < kMaxInstanceId
  slot : ∀ m ∈ ms, p.slot t m.al.id = some m.b
  record : ∀ m ∈ ms, ∃ s, p.readStats m.b = some s
  marked : ∀ j, p.marked j ↔ ∃ m ∈ ms, m.al.id = j
  distinct : ms.Pairwise fun m n => m.a ≠ n.a ∧ m.b ≠ n.b

namespace Members

variable {t : Tid} {p p' : Process Object} {ms ms' : List Member} {m s : Member}

theorem hasTable (h : Members t p ms) (hm : m ∈ ms) : p.hasTable t := by
  by_contra hno
  have hs := h.slot m hm
  rw [slot_of_noTable hno] at hs
  cases hs

/-- The record of a member counts for it. -/
theorem counts (h : Members t p ms) (hm : m ∈ ms) : Counts p t m.al (some m.b) where
  get := by
    show p.getThreadLocalStorage t m.al.id = _
    rw [getThreadLocalStorage_ok (h.hasTable hm) (h.id_lt m hm), h.slot m hm]
  live := by
    intro b hb
    cases hb
    exact h.record m hm

/-- No record is an allocator. -/
theorem object_ne_record (h : Members t p ms) {n : Member} (hm : m ∈ ms) (hn : n ∈ ms) :
    m.a ≠ n.b := by
  intro he
  obtain ⟨st, hst⟩ := h.record n hn
  have ho := h.object m hm
  rw [he, readAllocator_of_readStats hst] at ho
  cases ho

/-- Members are known by their addresses, and by their records. -/
theorem eq_of_mem (h : Members t p ms) {n : Member} (hm : m ∈ ms) (hn : n ∈ ms)
    (he : m.a = n.a ∨ m.b = n.b) : m = n := by
  by_contra hne
  have : Std.Symm fun x y : Member => x.a ≠ y.a ∧ x.b ≠ y.b :=
    ⟨fun _ _ hxy => ⟨hxy.1.symm, hxy.2.symm⟩⟩
  have hpair := h.distinct.forall hm hn hne
  rcases he with he | he
  · exact hpair.1 he
  · exact hpair.2 he

/-- The next blocks are not taken. -/
theorem lt_next (h : Members t p ms) (hm : m ∈ ms) : m.a < p.heap.next ∧ m.b < p.heap.next := by
  obtain ⟨st, hst⟩ := h.record m hm
  exact ⟨readAllocator_lt (h.object m hm), readStats_lt hst⟩

/-- What touches neither the tables nor an allocator, and of the records only that of `s`. -/
theorem same (h : Members t p ms) (htables : SameTables p p') (hs : s ∈ ms)
    (hrecord : ∃ st, p'.readStats s.b = some st)
    (hcells : ∀ b, b < p.heap.next → some s.b ≠ some b → p'.heap.cells b = p.heap.cells b) :
    Members t p' ms where
  s_vecpppInstances := htables.s_vecpppInstances.trans h.s_vecpppInstances
  object := by
    intro m hm
    have hne : some s.b ≠ some m.a :=
      fun he => h.object_ne_record hm hs (Option.some.inj he).symm
    exact (readAllocator_congr (hcells m.a (h.lt_next hm).1 hne)).trans (h.object m hm)
  id_lt := h.id_lt
  slot := fun m hm => (slot_congr htables.s_ppInstances t _).trans (h.slot m hm)
  record := by
    intro m hm
    by_cases he : s.b = m.b
    · rw [← he]
      exact hrecord
    · obtain ⟨st, hst⟩ := h.record m hm
      have hne : some s.b ≠ some m.b := fun hb => he (Option.some.inj hb)
      exact ⟨st, (readStats_congr (hcells m.b (h.lt_next hm).2 hne)).trans hst⟩
  marked := fun j => (marked_congr htables.s_bitset j).trans (h.marked j)
  distinct := h.distinct

/-- **One allocator more.** -/
theorem made (h : Members t p ms) {al : AllocatorImpl} (hs : s ∈ ms)
    (hmade : Made p t (some s.b) al p') :
    Members t p' (ms ++ [⟨p.heap.next, al, p.heap.next + 1⟩]) := by
  have ht := h.hasTable hs
  have hkept : ∀ m ∈ ms, p'.readAllocator m.a = some m.al ∧ p'.slot t m.al.id = some m.b ∧
      ∃ st, p'.readStats m.b = some st := by
    intro m hm
    have hne : some s.b ≠ some m.a :=
      fun he => h.object_ne_record hm hs (Option.some.inj he).symm
    have hid : m.al.id ≠ al.id := by
      intro he
      exact hmade.free ((h.marked al.id).mpr ⟨m, hm, he⟩)
    refine ⟨(readAllocator_congr (hmade.old m.a (h.lt_next hm).1 hne)).trans (h.object m hm),
      (hmade.others t m.al.id (Or.inr hid)).trans (h.slot m hm), ?_⟩
    obtain ⟨st, hst⟩ := h.record m hm
    by_cases he : some s.b = some m.b
    · exact ⟨_, hmade.record m.b st he hst⟩
    · exact ⟨st, (readStats_congr (hmade.old m.b (h.lt_next hm).2 he)).trans hst⟩
  have hmem : ∀ m, m ∈ ms ++ [⟨p.heap.next, al, p.heap.next + 1⟩] →
      m ∈ ms ∨ m = ⟨p.heap.next, al, p.heap.next + 1⟩ := by
    intro m hm
    rcases List.mem_append.mp hm with hm | hm
    · exact Or.inl hm
    · exact Or.inr (List.mem_singleton.mp hm)
  refine ⟨(hmade.registered ht).trans h.s_vecpppInstances, fun m hm => ?_, fun m hm => ?_,
    fun m hm => ?_, fun m hm => ?_, fun j => ?_, ?_⟩
  · rcases hmem m hm with hm | rfl
    · exact (hkept m hm).1
    · exact hmade.object
  · rcases hmem m hm with hm | rfl
    · exact h.id_lt m hm
    · exact hmade.id_lt
  · rcases hmem m hm with hm | rfl
    · exact (hkept m hm).2.1
    · exact hmade.self
  · rcases hmem m hm with hm | rfl
    · exact (hkept m hm).2.2
    · exact ⟨_, hmade.storage⟩
  · rw [hmade.marked j, h.marked j]
    constructor
    · rintro (⟨m, hm, he⟩ | rfl)
      · exact ⟨m, List.mem_append_left _ hm, he⟩
      · exact ⟨_, List.mem_append_right _ (List.mem_singleton.mpr rfl), rfl⟩
    · rintro ⟨m, hm, he⟩
      rcases hmem m hm with hm | rfl
      · exact Or.inl ⟨m, hm, he⟩
      · exact Or.inr he.symm
  · refine List.pairwise_append.mpr ⟨h.distinct, List.pairwise_singleton _ _, fun m hm n hn => ?_⟩
    rw [List.mem_singleton.mp hn]
    have hlt := h.lt_next hm
    constructor
    · show m.a ≠ p.heap.next
      omega
    · show m.b ≠ p.heap.next + 1
      omega

/-- **One allocator less.** -/
theorem unmade (h : Members t p ms) (hs : s ∈ ms) (hm : m ∈ ms) (hne : s ≠ m)
    (hsub : ms'.Sublist ms) (hrest : ∀ n, n ∈ ms' ↔ n ∈ ms ∧ n ≠ m)
    (hun : Unmade p t (some s.b) m.a m.b m.al.id p') : Members t p' ms' where
  s_vecpppInstances := hun.s_vecpppInstances.trans h.s_vecpppInstances
  object := by
    intro n hn
    obtain ⟨hn, hnm⟩ := (hrest n).mp hn
    have ha : n.a ≠ m.a := fun he => hnm (h.eq_of_mem hn hm (Or.inl he))
    have hb : n.a ≠ m.b := h.object_ne_record hn hm
    have hr : some s.b ≠ some n.a :=
      fun he => h.object_ne_record hn hs (Option.some.inj he).symm
    exact (readAllocator_congr (hun.others n.a ha hb hr)).trans (h.object n hn)
  id_lt := fun n hn => h.id_lt n ((hrest n).mp hn).1
  slot := fun n hn =>
    (slot_congr hun.s_ppInstances t _).trans (h.slot n ((hrest n).mp hn).1)
  record := by
    intro n hn
    obtain ⟨hn, hnm⟩ := (hrest n).mp hn
    obtain ⟨st, hst⟩ := h.record n hn
    by_cases hr : some s.b = some n.b
    · obtain ⟨uSize, hst'⟩ := hun.record n.b st hr hst
      exact ⟨_, hst'⟩
    · have ha : n.b ≠ m.a := (h.object_ne_record hm hn).symm
      have hb : n.b ≠ m.b := fun he => hnm (h.eq_of_mem hn hm (Or.inr he))
      exact ⟨st, (readStats_congr (hun.others n.b ha hb hr)).trans hst⟩
  marked := by
    intro j
    rw [hun.marked j, h.marked j]
    constructor
    · rintro ⟨⟨n, hn, he⟩, hj⟩
      refine ⟨n, (hrest n).mpr ⟨hn, ?_⟩, he⟩
      rintro rfl
      exact hj he.symm
    · rintro ⟨n, hn, he⟩
      obtain ⟨hn, hnm⟩ := (hrest n).mp hn
      refine ⟨⟨n, hn, he⟩, fun hj => hnm (h.eq_of_mem hn hm (Or.inr ?_))⟩
      have hslot := h.slot n hn
      rw [he, hj, h.slot m hm] at hslot
      exact (Option.some.inj hslot).symm
  distinct := h.distinct.sublist hsub

theorem setErrorCode (h : Members t p ms) (e : ErrorCode) :
    Members t (p.lldkSetErrorCode t e) ms :=
  ⟨h.s_vecpppInstances, h.object, h.id_lt, h.slot, h.record, h.marked, h.distinct⟩

end Members

/-! ## The library with its singleton -/

/-- `s` is the singleton and `es` are the registered allocators, each under its own name. The
records count them: the record of `s` the blocks of `es`, that of the process the slot table and
every record. -/
structure Registry (t : Tid) (l : Library) (s : Member) (es : List Member) : Prop where
  members : Members t l.proc (s :: es)
  s_pAllocator : l.s_pAllocator = some s.a
  s_pAllocatorMap : l.s_pAllocatorMap = es.map fun m => (m.al.m_sName, m.a)
  names : (es.map fun m => m.al.m_sName).Nodup
  process : l.proc.s_allocateStats.liveCount = UInt64.ofNat (es.length + 2)
  singleton : ∃ st, l.proc.readStats s.b = some st ∧ st.liveCount = UInt64.ofNat es.length

/-- Before the first call that needs an allocator. -/
structure NoAllocators (t : Tid) (l : Library) : Prop where
  s_pAllocator : l.s_pAllocator = none
  s_pAllocatorMap : l.s_pAllocatorMap = []
  marked : ∀ j, ¬ l.proc.marked j
  hasTable : ¬ l.proc.hasTable t
  s_vecpppInstances : l.proc.s_vecpppInstances = []
  process : l.proc.s_allocateStats.liveCount = 0

/-- Dropping the one element of a key from a list without repeated keys. -/
theorem length_filter_key {α β : Type} [DecidableEq β] (f : α → β) {l : List α} {a : α}
    (hl : (l.map f).Nodup) (ha : a ∈ l) :
    (l.filter fun x => f x ≠ f a).length + 1 = l.length := by
  induction l with
  | nil => cases ha
  | cons x l ih =>
    obtain ⟨hx, hl⟩ := List.nodup_cons.mp hl
    rcases List.mem_cons.mp ha with rfl | ha
    · have hrest : l.filter (fun x => f x ≠ f a) = l := by
        refine List.filter_eq_self.mpr fun y hy => decide_eq_true fun he => hx ?_
        rw [← he]
        exact List.mem_map_of_mem hy
      rw [List.filter_cons_of_neg (by simp), hrest, List.length_cons]
    · have hne : f x ≠ f a := by
        intro he
        rw [he] at hx
        exact hx (List.mem_map_of_mem ha)
      rw [List.filter_cons_of_pos (by simpa using hne), List.length_cons, ih hl ha,
        List.length_cons]

namespace Registry

open Library

variable {t : Tid} {l : Library} {s m : Member} {es : List Member} {n : String}

theorem mem_singleton (_h : Registry t l s es) : s ∈ s :: es := List.mem_cons_self

theorem setErrorCode (h : Registry t l s es) (e : ErrorCode) :
    Registry t (l.lldkSetErrorCode t e) s es :=
  ⟨h.members.setErrorCode e, h.s_pAllocator, h.s_pAllocatorMap, h.names, h.process, h.singleton⟩

theorem keys (h : Registry t l s es) : (l.s_pAllocatorMap.map Prod.fst).Nodup := by
  rw [h.s_pAllocatorMap, List.map_map]
  exact h.names

theorem find_iff (h : Registry t l s es) {a : Nat} :
    l.find n = some a ↔ ∃ m ∈ es, m.al.m_sName = n ∧ m.a = a := by
  rw [find_iff_mem h.keys, h.s_pAllocatorMap, List.mem_map]
  simp only [Prod.mk.injEq]

/-- The entry of a member. -/
theorem find_member (h : Registry t l s es) (hm : m ∈ es) : l.find m.al.getName = some m.a :=
  h.find_iff.mpr ⟨m, hm, rfl, rfl⟩

theorem knows_iff (h : Registry t l s es) {a : Nat} :
    l.knows a ↔ a = s.a ∨ ∃ m ∈ es, m.a = a := by
  unfold knows
  rw [h.s_pAllocator, h.s_pAllocatorMap, List.map_map, List.mem_map, Option.some.injEq]
  exact or_congr eq_comm Iff.rfl

/-- The singleton is not registered, whatever name is. -/
theorem singleton_ne (h : Registry t l s es) (hm : m ∈ es) : s.a ≠ m.a ∧ s.b ≠ m.b :=
  List.rel_of_pairwise_cons h.members.distinct hm

theorem not_find_singleton (h : Registry t l s es) : l.find n ≠ some s.a := by
  intro hf
  obtain ⟨m, hm, -, ha⟩ := h.find_iff.mp hf
  exact (h.singleton_ne hm).1 ha.symm

theorem counts (h : Registry t l s es) : Counts l.proc t s.al (some s.b) :=
  h.members.counts h.mem_singleton

theorem serves (h : Registry t l s es) (env : Env) (hmem : env.storageMem = true)
    (hctor : env.ctorThrows = false) : env.serves l.proc t :=
  ⟨hmem, hctor, Or.inl (h.members.hasTable h.mem_singleton)⟩

/-! ### Calls -/

/-- A name that is registered is refused. -/
theorem create_taken {a : Nat} (hfind : l.find n = some a) (t : Tid) (uMaxSizeMB : UInt64) :
    l.lldkCreateAllocator t (some n) uMaxSizeMB { relock := true } =
      .ok (.ok none, l.lldkSetErrorCode t .kInvalidParam) := by
  simp only [lldkCreateAllocator, createCheck, if_true, hfind]

/-- **A name that is free is registered**, while an id is free. -/
theorem create_registers (h : Registry t l s es) (hfind : l.find n = none)
    (hid : l.proc.hasFreeId) (uMaxSizeMB : UInt64) :
    ∃ al p, l.lldkCreateAllocator t (some n) uMaxSizeMB { relock := true } =
        .ok (.ok (some l.proc.heap.next),
          { l with proc := p, s_pAllocatorMap := l.s_pAllocatorMap ++ [(n, l.proc.heap.next)] }) ∧
      Made l.proc t (some s.b) al p ∧ al.m_sName = n ∧
      Registry t
        { l with proc := p, s_pAllocatorMap := l.s_pAllocatorMap ++ [(n, l.proc.heap.next)] } s
        (es ++ [⟨l.proc.heap.next, al, l.proc.heap.next + 1⟩]) := by
  have hmem : ({ relock := true } : CallEnv).objectMem = true := rfl
  obtain ⟨al, p, hc, hmade, rfl, -⟩ := createObject_made h.s_pAllocator
    (h.members.object s h.mem_singleton) h.counts hmem rfl hid (h.serves {} rfl rfl) n uMaxSizeMB
  have hfind' : (l.withProc p).find al.m_sName = none := hfind
  refine ⟨al, p, ?_, hmade, rfl, ?_, h.s_pAllocator, ?_, ?_, ?_, ?_⟩
  · simp only [lldkCreateAllocator, createCheck, if_true, hfind, hc, createEmplace, hfind', bind,
      Except.bind]
    rfl
  · exact h.members.made h.mem_singleton hmade
  · rw [List.map_append, ← h.s_pAllocatorMap]
    rfl
  · rw [List.map_append]
    refine List.nodup_append.mpr ⟨h.names, List.nodup_singleton _, fun x hx y hy he => ?_⟩
    obtain ⟨m, hm, hx⟩ := List.mem_map.mp hx
    have hy' : y = al.m_sName := List.mem_singleton.mp hy
    have hf := h.find_iff.mpr ⟨m, hm, hx.trans (he.trans hy'), rfl⟩
    rw [hfind] at hf
    cases hf
  · have hstats := hmade.s_allocateStats
    rw [if_pos (h.members.hasTable h.mem_singleton)] at hstats
    show p.s_allocateStats.liveCount = _
    rw [hstats, AllocateStats.liveCount_addAllocated, h.process, List.length_append]
    exact (UInt64.ofNat_add _ 1).symm
  · obtain ⟨st, hst, hlive⟩ := h.singleton
    refine ⟨_, hmade.record s.b st rfl hst, ?_⟩
    rw [AllocateStats.liveCount_addAllocated, hlive, List.length_append]
    exact (UInt64.ofNat_add _ 1).symm

/-- When no id is free the call throws, and leaves everything as it was but what the record of
the singleton has counted twice. -/
theorem create_exhausted (h : Registry t l s es) (hfind : l.find n = none)
    (hid : ¬ l.proc.hasFreeId) (uMaxSizeMB : UInt64) :
    ∃ p, l.lldkCreateAllocator t (some n) uMaxSizeMB { relock := true } =
        .ok (.error "Failed to create instance id", l.withProc p) ∧
      Registry t (l.withProc p) s es := by
  obtain ⟨p, hn, htables, hbooks, hrecord, hold⟩ :=
    AllocatorImpl.newObject_exhausted n { relock := true } h.counts rfl rfl hid
  obtain ⟨st, hst, hlive⟩ := h.singleton
  refine ⟨p, ?_, h.members.same htables h.mem_singleton ⟨_, hrecord s.b st rfl hst⟩ hold,
    h.s_pAllocator, h.s_pAllocatorMap, h.names, ?_, ⟨_, hrecord s.b st rfl hst, ?_⟩⟩
  · simp only [lldkCreateAllocator, createCheck, if_true, hfind, createObject,
      getSingleton_of_some h.s_pAllocator, bind, Except.bind,
      h.members.object s h.mem_singleton, hn]
    rfl
  · show p.s_allocateStats.liveCount = _
    rw [hbooks.s_allocateStats]
    exact h.process
  · rw [AllocateStats.liveCount_addFreed, AllocateStats.liveCount_addAllocated, hlive]
    exact UInt64.add_sub_cancel _ _

theorem destroy_singleton (h : Registry t l s es) :
    l.lldkDestroyAllocator t (some s.a) { relock := true } =
      .ok (.ok (), l.lldkSetErrorCode t .kInvalidParam) := by
  simp only [lldkDestroyAllocator, h.members.object s h.mem_singleton, if_true,
    h.not_find_singleton, if_false]

/-- **A registered allocator is destroyed**, and its entry goes. -/
theorem destroy_registered (h : Registry t l s es) (hm : m ∈ es) :
    ∃ p, l.lldkDestroyAllocator t (some m.a) { relock := true } = .ok (.ok (),
        ((l.erase m.al.getName).withProc p).lldkSetErrorCode t .kInvalidParam) ∧
      Unmade l.proc t (some s.b) m.a m.b m.al.id p ∧
      Registry t (((l.erase m.al.getName).withProc p).lldkSetErrorCode t .kInvalidParam) s
        (es.filter fun e => e.al.m_sName ≠ m.al.m_sName) := by
  have hmem : m ∈ s :: es := List.mem_cons_of_mem s hm
  have hne := h.singleton_ne hm
  obtain ⟨st, hst⟩ := h.members.record m hmem
  have hr : some s.b ≠ some m.b := fun he => hne.2 (Option.some.inj he)
  obtain ⟨p, hd, hun⟩ := deleteAllocatorImpl_unmade (l := l.erase m.al.getName) (a := m.a)
    h.s_pAllocator (h.members.object s h.mem_singleton) h.counts (h.members.object m hmem)
    (h.members.id_lt m hmem) (h.members.slot m hmem) hst hr { relock := true }
  have hlen := length_filter_key (fun e : Member => e.al.m_sName) h.names hm
  have hrest : ∀ e, e ∈ s :: es.filter (fun e => e.al.m_sName ≠ m.al.m_sName) ↔
      e ∈ s :: es ∧ e ≠ m := by
    intro e
    rw [List.mem_cons, List.mem_cons, List.mem_filter, decide_eq_true_eq]
    constructor
    · rintro (rfl | ⟨he, hname⟩)
      · exact ⟨Or.inl rfl, fun he => hne.1 (congrArg Member.a he)⟩
      · exact ⟨Or.inr he, fun hem => hname (congrArg (fun e => e.al.m_sName) hem)⟩
    · rintro ⟨rfl | he, hem⟩
      · exact Or.inl rfl
      · exact Or.inr ⟨he, fun hname => hem (List.inj_on_of_nodup_map h.names he hm hname)⟩
  refine ⟨p, ?_, hun, setErrorCode (l := (l.erase m.al.getName).withProc p)
    ⟨?_, h.s_pAllocator, ?_, ?_, ?_, ?_⟩ .kInvalidParam⟩
  · have hrelock : ({ relock := true } : CallEnv).relock = true := rfl
    simp only [lldkDestroyAllocator, h.members.object m hmem, if_true, h.find_member hm,
      deleteUnderLock_of_relock hrelock, hd, bind, Except.bind]
    rfl
  · have hsne : s ≠ m := fun he => hne.1 (congrArg Member.a he)
    exact h.members.unmade h.mem_singleton hmem hsne (List.filter_sublist.cons_cons s) hrest hun
  · show (l.s_pAllocatorMap.filter fun e => e.1 ≠ m.al.getName) = _
    rw [h.s_pAllocatorMap, List.filter_map]
    rfl
  · exact h.names.sublist (List.filter_sublist.map _)
  · obtain ⟨uSize, hstats⟩ := hun.s_allocateStats
    show p.s_allocateStats.liveCount = _
    have hcount : (l.erase m.al.getName).proc.s_allocateStats.liveCount =
        UInt64.ofNat (es.length + 2) := h.process
    rw [hstats, AllocateStats.liveCount_addFreed, hcount, ← hlen, Nat.add_right_comm,
      UInt64.ofNat_add _ 1]
    exact UInt64.add_sub_cancel _ _
  · obtain ⟨st', hst', hlive⟩ := h.singleton
    obtain ⟨uSize, hrecord⟩ := hun.record s.b st' rfl hst'
    refine ⟨_, hrecord, ?_⟩
    rw [AllocateStats.liveCount_addFreed, hlive, ← hlen, UInt64.ofNat_add _ 1]
    exact UInt64.add_sub_cancel _ _

end Registry

/-! ### The first call that needs an allocator -/

/-- One allocator leaves ids. -/
theorem Members.hasFreeId_of_single {t : Tid} {p : Process Object} {m : Member}
    (h : Members t p [m]) : p.hasFreeId := by
  have hid : ∀ j, p.marked j → m.al.id = j := by
    intro j hj
    obtain ⟨m', hm', he⟩ := (h.marked j).mp hj
    rw [List.mem_singleton.mp hm'] at he
    exact he
  by_cases h0 : p.marked 0
  · refine ⟨1, by decide, fun h1 => ?_⟩
    have he := (hid 0 h0).symm.trans (hid 1 h1)
    omega
  · exact ⟨0, by decide, h0⟩

namespace NoAllocators

open Library

variable {t : Tid} {l : Library} {n : String}

theorem init (t : Tid) : NoAllocators t .init where
  s_pAllocator := rfl
  s_pAllocatorMap := rfl
  marked := by
    intro j hj
    have hb := (marked_iff.mp hj).2
    rw [show (Library.init.proc.s_bitset) = .new from rfl,
      Bitset.LldkBitset.bit_new] at hb
    cases hb
  hasTable := by
    rintro ⟨table, ht⟩
    cases ht
  s_vecpppInstances := rfl
  process := rfl

theorem setErrorCode (h : NoAllocators t l) (e : ErrorCode) :
    NoAllocators t (l.lldkSetErrorCode t e) :=
  ⟨h.s_pAllocator, h.s_pAllocatorMap, h.marked, h.hasTable, h.s_vecpppInstances, h.process⟩

theorem find (h : NoAllocators t l) (n : String) : l.find n = none := by
  unfold Library.find
  rw [h.s_pAllocatorMap]
  rfl

theorem not_knows (h : NoAllocators t l) (a : Nat) : ¬ l.knows a := by
  unfold Library.knows
  rw [h.s_pAllocator, h.s_pAllocatorMap]
  rintro (he | he)
  · cases he
  · cases he

/-- **The singleton is constructed.** -/
theorem getSingleton (h : NoAllocators t l) :
    ∃ al p, l.lldkGetAllocatorSingleton t { relock := true } = .ok (.ok (some l.proc.heap.next),
        { l with proc := p, s_pAllocator := some l.proc.heap.next }) ∧
      Registry t { l with proc := p, s_pAllocator := some l.proc.heap.next }
        ⟨l.proc.heap.next, al, l.proc.heap.next + 1⟩ [] ∧
      l.proc.heap.next < p.heap.next := by
  have hserves : l.servesSingleton t { relock := true } :=
    ⟨rfl, rfl, ⟨0, by decide, h.marked 0⟩, rfl, rfl, Or.inr ⟨rfl, rfl⟩⟩
  obtain ⟨al, p, hs, hmade, -⟩ := getSingleton_made h.s_pAllocator hserves
  have hmem : ∀ m, m ∈ [(⟨l.proc.heap.next, al, l.proc.heap.next + 1⟩ : Member)] →
      m = ⟨l.proc.heap.next, al, l.proc.heap.next + 1⟩ := fun m => List.mem_singleton.mp
  refine ⟨al, p, hs, ⟨⟨?_, fun m hm => ?_, fun m hm => ?_, fun m hm => ?_, fun m hm => ?_,
    fun j => ?_, List.pairwise_singleton _ _⟩, rfl, h.s_pAllocatorMap, List.nodup_nil, ?_, ?_⟩,
    Nat.lt_of_succ_lt hmade.next⟩
  · show p.s_vecpppInstances = [t]
    rw [hmade.first h.hasTable, h.s_vecpppInstances]
    rfl
  · rw [hmem m hm]
    exact hmade.object
  · rw [hmem m hm]
    exact hmade.id_lt
  · rw [hmem m hm]
    exact hmade.self
  · rw [hmem m hm]
    exact ⟨_, hmade.storage⟩
  · show p.marked j ↔ _
    rw [hmade.marked j]
    constructor
    · rintro (hj | rfl)
      · exact absurd hj (h.marked j)
      · exact ⟨_, List.mem_singleton.mpr rfl, rfl⟩
    · rintro ⟨m, hm, he⟩
      rw [hmem m hm] at he
      exact Or.inr he.symm
  · show p.s_allocateStats.liveCount = _
    rw [hmade.s_allocateStats, if_neg h.hasTable, AllocateStats.liveCount_addAllocated,
      AllocateStats.liveCount_addAllocated, h.process]
    rfl
  · exact ⟨_, hmade.storage, rfl⟩

end NoAllocators

/-! ## The registry as a map -/

/-- What a call does to a partial map from names to allocators. -/
inductive MapCall (s_pAllocator : Option Nat) (m : String → Option Nat) :
    RegistryOp → ApiOut → (String → Option Nat) → Prop
  | nullName {uMaxSizeMB : UInt64} : MapCall s_pAllocator m (.create none uMaxSizeMB) (.ptr none) m
  | taken {n : String} {a : Nat} {uMaxSizeMB : UInt64} (h : m n = some a) :
      MapCall s_pAllocator m (.create (some n) uMaxSizeMB) (.ptr none) m
  | registers {n : String} {a : Nat} {uMaxSizeMB : UInt64} (hn : m n = none)
      (ha : ∀ k, m k ≠ some a) :
      MapCall s_pAllocator m (.create (some n) uMaxSizeMB) (.ptr (some a))
        (Function.update m n (some a))
  | destroyNull : MapCall s_pAllocator m (.destroy none) .unit m
  | destroySingleton {a : Nat} (h : s_pAllocator = some a) :
      MapCall s_pAllocator m (.destroy (some a)) .unit m
  | destroys {n : String} {a : Nat} (h : m n = some a) :
      MapCall s_pAllocator m (.destroy (some a)) .unit (Function.update m n none)
  | getSingleton {a : Nat} : MapCall s_pAllocator m .getSingleton (.ptr (some a)) m

/-- A step does to the registry what the call does to a map, whose values are live allocators
under their own names. -/
structure FollowsMap (t : Tid) (s : Api) (op : RegistryOp) (s' : Api) (out : ApiOut) : Prop where
  call : MapCall s.lib.s_pAllocator s.lib.find op out s'.lib.find
  /-- a call that is refused changes the error code only -/
  refused : out = .ptr none ∨ s.rejects (op.call t) →
    s' = { s with lib := s.lib.lldkSetErrorCode t .kInvalidParam }
  /-- a new allocator stands where nothing stood -/
  fresh : ∀ n uMaxSizeMB a, op = .create n uMaxSizeMB → out = .ptr (some a) →
    s.lib.proc.heap.cells a = none
  live : ∀ n a, s'.lib.find n = some a →
    ∃ al, s'.lib.proc.readAllocator a = some al ∧ al.getName = n
  /-- the other entries keep their allocators as they are -/
  kept : ∀ n a, s.lib.find n = some a → s'.lib.find n = some a →
    s'.lib.proc.readAllocator a = s.lib.proc.readAllocator a
  /-- the name of an allocator that was destroyed can be created again -/
  again : ∀ n a uMaxSizeMB, op = .destroy (some a) → s.lib.find n = some a →
    ∃ b s'', registryStep t s' (.create (some n) uMaxSizeMB) = .ok (s'', .ptr (some b))

/-- While the program constructs an allocator, some id is free. -/
def withinIds (s : Api) (op : RegistryOp) : Prop :=
  ∀ n uMaxSizeMB, op = .create (some n) uMaxSizeMB → s.lib.find n = none → s.lib.proc.hasFreeId

instance (s : Api) (op : RegistryOp) : Decidable (withinIds s op) :=
  match op with
  | .create (some n) uMaxSizeMB =>
    decidable_of_iff (s.lib.find n = none → s.lib.proc.hasFreeId)
      ⟨fun h _ _ he => by cases he; exact h, fun h => h n uMaxSizeMB rfl⟩
  | .create none _ => isTrue fun _ _ he => by cases he
  | .destroy _ => isTrue fun _ _ he => by cases he
  | .getSingleton => isTrue fun _ _ he => by cases he

def RegistryInv (t : Tid) (s : Api) : Prop :=
  NoAllocators t s.lib ∨ ∃ m es, Registry t s.lib m es

namespace Registry

open Library

variable {t : Tid} {l l' : Library} {s m : Member} {es es' : List Member} {n : String}

theorem live (h : Registry t l s es) {a : Nat} (hf : l.find n = some a) :
    ∃ al, l.proc.readAllocator a = some al ∧ al.getName = n := by
  obtain ⟨m, hm, hn, rfl⟩ := h.find_iff.mp hf
  exact ⟨m.al, h.members.object m (List.mem_cons_of_mem s hm), hn⟩

theorem registered (h : Registry t l s es) (hm : m ∈ es) : l.registered m.a :=
  ⟨m.al, h.members.object m (List.mem_cons_of_mem s hm), h.find_member hm⟩

/-- Entries that stay refer to the same allocators. -/
theorem kept (h : Registry t l s es) (h' : Registry t l' s es')
    (hes : ∀ m ∈ es', m ∈ es ∨ l.proc.heap.next ≤ m.a) {a : Nat} (hf : l.find n = some a)
    (hf' : l'.find n = some a) : l'.proc.readAllocator a = l.proc.readAllocator a := by
  obtain ⟨m, hm, -, rfl⟩ := h.find_iff.mp hf
  obtain ⟨m', hm', -, ha⟩ := h'.find_iff.mp hf'
  have hmem := List.mem_cons_of_mem s hm
  have hlt := (h.members.lt_next hmem).1
  rcases hes m' hm' with hold | hnew
  · have he := h.members.eq_of_mem (List.mem_cons_of_mem s hold) hmem (Or.inl ha)
    rw [he] at hm'
    rw [h.members.object m hmem, h'.members.object m (List.mem_cons_of_mem s hm')]
  · omega

theorem find_lt (h : Registry t l s es) {a : Nat} (hf : l.find n = some a) :
    a < l.proc.heap.next := by
  obtain ⟨m, hm, -, rfl⟩ := h.find_iff.mp hf
  exact (h.members.lt_next (List.mem_cons_of_mem s hm)).1

end Registry

/-! ### Steps -/

section Steps

variable {t : Tid} {s : Api} {l' : Library} {m : Member} {es : List Member} {n : String}

theorem registryStep_create {pName : Option String} {uMaxSizeMB : UInt64}
    {r : Except String (Option Nat) × Library}
    (h : s.lib.lldkCreateAllocator t pName uMaxSizeMB { relock := true } = .ok r) :
    registryStep t s (.create pName uMaxSizeMB) = .ok (s.returned r) := by
  simp only [registryStep, RegistryOp.call, apiStep, h, ofLibrary]
  rfl

theorem registryStep_getSingleton {r : Except String (Option Nat) × Library}
    (h : s.lib.lldkGetAllocatorSingleton t { relock := true } = .ok r) :
    registryStep t s .getSingleton = .ok (s.returned r) := by
  simp only [registryStep, RegistryOp.call, apiStep, h, ofLibrary]
  rfl

theorem registryStep_destroy {q : Option Nat} (hq : ∀ a ∈ q, s.lib.knows a)
    (h : s.lib.lldkDestroyAllocator t q { relock := true } = .ok (.ok (), l')) :
    registryStep t s (.destroy q) = .ok ({ s with lib := l' }, .unit) := by
  simp only [registryStep, RegistryOp.call, apiStep, if_pos hq, h, ofLibrary]
  rfl

/-- A call that is refused. -/
theorem follows_refused {op : RegistryOp} {out : ApiOut}
    (hlive : ∀ n a, s.lib.find n = some a →
      ∃ al, s.lib.proc.readAllocator a = some al ∧ al.getName = n)
    (hcall : MapCall s.lib.s_pAllocator s.lib.find op out s.lib.find)
    (hout : ∀ a, out ≠ .ptr (some a))
    (hop : ∀ n a, op = .destroy (some a) → s.lib.find n ≠ some a) :
    FollowsMap t s op { s with lib := s.lib.lldkSetErrorCode t .kInvalidParam } out where
  call := hcall
  refused := fun _ => rfl
  fresh := fun _ _ a _ he => absurd he (hout a)
  live := hlive
  kept := fun _ _ _ _ => rfl
  again := fun n a _ he hf => absurd hf (hop n a he)

/-- A name that is registered; `l₁` is the library when it has its singleton. -/
theorem follows_created {l₁ : Library} {al : AllocatorImpl} {uMaxSizeMB : UInt64}
    (h₁ : Registry t l₁ m es) (hsame : l₁.s_pAllocatorMap = s.lib.s_pAllocatorMap)
    (hnext : s.lib.proc.heap.next ≤ l₁.proc.heap.next) (hfind : s.lib.find n = none)
    (hmap : l'.s_pAllocatorMap = l₁.s_pAllocatorMap ++ [(n, l₁.proc.heap.next)])
    (h' : Registry t l' m (es ++ [⟨l₁.proc.heap.next, al, l₁.proc.heap.next + 1⟩]))
    (hkept : ∀ k a, s.lib.find k = some a →
      l₁.proc.readAllocator a = s.lib.proc.readAllocator a) :
    FollowsMap t s (.create (some n) uMaxSizeMB) { s with lib := l' }
      (.ptr (some l₁.proc.heap.next)) where
  call := by
    have hnot : ∀ k, s.lib.find k ≠ some l₁.proc.heap.next := by
      intro k hk
      have hk₁ : l₁.find k = some l₁.proc.heap.next := by
        unfold Library.find
        rw [hsame]
        exact hk
      exact Nat.lt_irrefl _ (h₁.find_lt hk₁)
    have hupdate : l'.find = Function.update s.lib.find n (some l₁.proc.heap.next) := by
      funext k
      have hreg := Library.find_registered s.lib n k l₁.proc.heap.next
      rw [← hsame] at hreg
      have hl' : l'.find k = (s.lib.find k).or (if k = n then some l₁.proc.heap.next else none) :=
        (congrArg (List.lookup k) hmap).trans hreg
      rw [hl']
      by_cases hk : k = n
      · rw [hk, hfind, if_pos rfl, Function.update_self]
        rfl
      · rw [if_neg hk, Function.update_of_ne hk, Option.or_none]
    rw [hupdate]
    exact .registers hfind hnot
  refused := by
    rintro (he | he)
    · cases he
    · exact he.elim
  fresh := by
    intro _ _ a _ he
    cases he
    exact Heap.fresh _ _ hnext
  live := fun _ _ => h'.live
  kept := by
    intro k a hf hf'
    have hf₁ : l₁.find k = some a := by
      unfold Library.find
      rw [hsame]
      exact hf
    rw [← hkept k a hf]
    refine h₁.kept h' (fun e he => ?_) hf₁ hf'
    rcases List.mem_append.mp he with he | he
    · exact Or.inl he
    · rw [List.mem_singleton.mp he]
      exact Or.inr (Nat.le_refl _)
  again := by
    intro _ _ _ he
    cases he

/-- An allocator that is destroyed. -/
theorem follows_destroyed {p : Process Object} {e : Member} (h : Registry t s.lib m es)
    (he : e ∈ es) (hun : Unmade s.lib.proc t (some m.b) e.a e.b e.al.id p)
    (hl' : l' = ((s.lib.erase e.al.getName).withProc p).lldkSetErrorCode t .kInvalidParam)
    (h' : Registry t l' m (es.filter fun e' => e'.al.m_sName ≠ e.al.m_sName)) :
    FollowsMap t s (.destroy (some e.a)) { s with lib := l' } .unit where
  call := by
    have hupdate : l'.find = Function.update s.lib.find e.al.getName none := by
      funext k
      rw [hl']
      refine (Library.find_erase s.lib e.al.getName k).trans ?_
      by_cases hk : k = e.al.getName
      · rw [hk, if_pos rfl, Function.update_self]
      · rw [if_neg hk, Function.update_of_ne hk]
    show MapCall _ _ _ _ l'.find
    rw [hupdate]
    exact .destroys (h.find_member he)
  refused := by
    rintro (hout | hrej)
    · cases hout
    · exact absurd (h.registered he) hrej
  fresh := by
    intro _ _ _ hop
    cases hop
  live := fun _ _ => h'.live
  kept := fun _ _ hf hf' =>
    h.kept h' (fun _ hk => Or.inl (List.mem_of_mem_filter hk)) hf hf'
  again := by
    intro n a uMaxSizeMB hop hf
    cases hop
    obtain ⟨e', he', rfl, ha⟩ := h.find_iff.mp hf
    have hmem := List.mem_cons_of_mem m he
    have heq := h.members.eq_of_mem (List.mem_cons_of_mem m he') hmem (Or.inl ha)
    have hid : l'.proc.hasFreeId := by
      refine ⟨e.al.id, h.members.id_lt e hmem, fun hj => ?_⟩
      rw [hl'] at hj
      exact ((hun.marked e.al.id).mp hj).2 rfl
    have hfind : l'.find e'.al.m_sName = none := by
      rw [hl', heq]
      refine (Library.find_erase s.lib e.al.getName _).trans (if_pos rfl)
    obtain ⟨al, p', hc, -⟩ := h'.create_registers hfind hid uMaxSizeMB
    exact ⟨_, _, registryStep_create (s := { s with lib := l' }) hc⟩

/-- **One call, while the singleton is there.** -/
theorem registry_step (h : Registry t s.lib m es) {op : RegistryOp} (hop : mayCall s op) :
    ∃ s' out es', registryStep t s op = .ok (s', out) ∧ Registry t s'.lib m es' ∧
      (withinIds s op → FollowsMap t s op s' out) := by
  cases op with
  | create pName uMaxSizeMB =>
    cases pName with
    | none =>
      exact ⟨_, _, es, registryStep_create rfl, h.setErrorCode .kInvalidParam, fun _ =>
        follows_refused (fun _ _ => h.live) .nullName (fun a he => by cases he)
          fun _ _ he => by cases he⟩
    | some n =>
      cases hfind : s.lib.find n with
      | some a =>
        exact ⟨_, _, es, registryStep_create (Registry.create_taken hfind t uMaxSizeMB),
          h.setErrorCode .kInvalidParam, fun _ =>
          follows_refused (fun _ _ => h.live) (.taken hfind) (fun a he => by cases he)
            fun _ _ he => by cases he⟩
      | none =>
        by_cases hid : s.lib.proc.hasFreeId
        · obtain ⟨al, p, hc, -, -, h'⟩ := h.create_registers hfind hid uMaxSizeMB
          exact ⟨_, _, _, registryStep_create hc, h', fun _ =>
            follows_created h rfl (Nat.le_refl _) hfind rfl h' fun _ _ _ => rfl⟩
        · obtain ⟨p, hc, h'⟩ := h.create_exhausted hfind hid uMaxSizeMB
          exact ⟨_, _, es, registryStep_create hc, h', fun hids =>
            absurd (hids n uMaxSizeMB rfl hfind) hid⟩
  | destroy pAllocator =>
    cases pAllocator with
    | none =>
      have hq : ∀ a ∈ (none : Option Nat), s.lib.knows a := fun a ha => by cases ha
      exact ⟨_, _, es, registryStep_destroy hq rfl, h.setErrorCode .kInvalidParam, fun _ =>
        follows_refused (fun _ _ => h.live) .destroyNull (fun a he => by cases he)
          fun _ _ he => by cases he⟩
    | some a =>
      have hknows := hop a rfl
      have hq : ∀ b ∈ some a, s.lib.knows b := by
        intro b hb
        cases hb
        exact hknows
      rcases h.knows_iff.mp hknows with rfl | ⟨e, he, rfl⟩
      · refine ⟨_, _, es, registryStep_destroy hq h.destroy_singleton,
          h.setErrorCode .kInvalidParam, fun _ => follows_refused (fun _ _ => h.live)
            (.destroySingleton h.s_pAllocator) (fun a he => by cases he) fun n a he => ?_⟩
        cases he
        exact h.not_find_singleton
      · obtain ⟨p, hd, hun, h'⟩ := h.destroy_registered he
        exact ⟨_, _, _, registryStep_destroy hq hd, h', fun _ =>
          follows_destroyed h he hun rfl h'⟩
  | getSingleton =>
    refine ⟨_, _, es, registryStep_getSingleton
      (Library.getSingleton_of_some h.s_pAllocator t { relock := true }), h, fun _ =>
        ⟨.getSingleton, ?_, ?_, fun _ _ => h.live, fun _ _ _ _ => rfl, ?_⟩⟩
    · rintro (he | he)
      · cases he
      · exact he.elim
    · intro _ _ _ he
      cases he
    · intro _ _ _ he
      cases he

/-- The first calls. -/
theorem first_step (h : NoAllocators t s.lib) {op : RegistryOp} (hop : mayCall s op) :
    ∃ s' out, registryStep t s op = .ok (s', out) ∧ RegistryInv t s' ∧
      FollowsMap t s op s' out := by
  have hlive : ∀ n a, s.lib.find n = some a →
      ∃ al, s.lib.proc.readAllocator a = some al ∧ al.getName = n := by
    intro n a hf
    rw [h.find] at hf
    cases hf
  cases op with
  | create pName uMaxSizeMB =>
    cases pName with
    | none =>
      exact ⟨_, _, registryStep_create rfl, Or.inl (h.setErrorCode .kInvalidParam),
        follows_refused hlive .nullName (fun a he => by cases he) fun _ _ he => by cases he⟩
    | some n =>
      obtain ⟨al, p, hs, h₁, hnext⟩ := h.getSingleton
      have hfind₁ : Library.find { s.lib with
          proc := p, s_pAllocator := some s.lib.proc.heap.next } n = none := h.find n
      obtain ⟨al', p', hc, -, -, h'⟩ :=
        h₁.create_registers hfind₁ h₁.members.hasFreeId_of_single uMaxSizeMB
      rw [← Library.lldkCreateAllocator_of_getSingleton hs rfl rfl (h.find n) hfind₁] at hc
      refine ⟨_, _, registryStep_create hc, Or.inr ⟨_, _, h'⟩,
        follows_created h₁ rfl (Nat.le_of_lt hnext) (h.find n) rfl h' fun k a hf => ?_⟩
      rw [h.find] at hf
      cases hf
  | destroy pAllocator =>
    cases pAllocator with
    | none =>
      have hq : ∀ a ∈ (none : Option Nat), s.lib.knows a := fun a ha => by cases ha
      exact ⟨_, _, registryStep_destroy hq rfl, Or.inl (h.setErrorCode .kInvalidParam),
        follows_refused hlive .destroyNull (fun a he => by cases he) fun _ _ he => by cases he⟩
    | some a => exact absurd (hop a rfl) (h.not_knows a)
  | getSingleton =>
    obtain ⟨al, p, hs, h₁, -⟩ := h.getSingleton
    refine ⟨_, _, registryStep_getSingleton hs, Or.inr ⟨_, _, h₁⟩, .getSingleton, ?_, ?_,
      fun _ _ => h₁.live, fun k a hf => ?_, ?_⟩
    · rintro (he | he)
      · cases he
      · exact he.elim
    · intro _ _ _ he
      cases he
    · rw [h.find] at hf
      cases hf
    · intro _ _ _ he
      cases he

end Steps

/-- **The registry is a partial map from names to live allocators**, in every run of one thread
that creates and destroys allocators while ids are free. -/
theorem registry_is_map (t : Tid) (ops : List RegistryOp)
    (h : EachStep (registryStep t) (fun s op => mayCall s op ∧ withinIds s op) .init ops) :
    EachStep (registryStep t)
      (fun s op => ∃ s' out, registryStep t s op = .ok (s', out) ∧ FollowsMap t s op s' out)
      .init ops := by
  have hstep : ∀ s op, RegistryInv t s → mayCall s op ∧ withinIds s op →
      ∃ s' out, registryStep t s op = .ok (s', out) ∧ RegistryInv t s' ∧
        FollowsMap t s op s' out := by
    rintro s op (h₀ | ⟨m, es, hr⟩) ⟨hop, hids⟩
    · exact first_step h₀ hop
    · obtain ⟨s', out, es', hs, h', hfollows⟩ := registry_step hr hop
      exact ⟨s', out, hs, Or.inr ⟨m, es', h'⟩, hfollows hids⟩
  exact eachStep_of_invariant (RegistryInv t) hstep (Or.inl (NoAllocators.init t)) h

/-- An allocator takes the name of the singleton, the singleton is not destroyed, and a name is
created again. -/
theorem registry_is_map_sample :
    EachStep (registryStep 0)
      (fun s op => ∃ s' out, registryStep 0 s op = .ok (s', out) ∧ FollowsMap 0 s op s' out) .init
      [.create (some "a") 0, .create (some "lldk.global.allocator") 0, .destroy (some 0),
        .create (some "a") 1, .destroy (some 3), .create (some "a") 1] :=
  registry_is_map 0 _ (by decide +kernel)

end Lldk
