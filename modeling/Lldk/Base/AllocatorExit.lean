import Lldk.Base.AllocatorCycles
import Lldk.Base.AllocatorKept

/-!
The end of a process, when the destructor of `s_pAllocatorMap` deletes what is still registered.

* `destroyMap` calls the deleter on every entry, in the order of the table, without the mutex.
* `Leaving` is what stays true between two entries; `deleteEntries_leaving` is the loop.
* `exit_releases`: on the thread that created them, the allocators go and leave the singleton with
  its blocks.
* `exit_without_table`: on a thread that has no slot table the first entry crashes the process.
-/

namespace Lldk

open Lib Lib.Trace Process

/-! ## The destructor -/

namespace Library

/-- The deleter of each entry. -/
def deleteEntries (t : Tid) (env : CallEnv) : List (String × Nat) → Library → Except Fault Library
  | [], l => .ok l
  | e :: es, l => do
    let l ← l.deleteAllocatorImpl t e.2 env
    deleteEntries t env es l

/-- The destructor of `s_pAllocatorMap`, run by thread `t`; `order` is the order of the table. -/
def destroyMap (l : Library) (t : Tid) (order : List (String × Nat)) (env : CallEnv) :
    Except Fault Library := do
  let l ← deleteEntries t env order l
  return { l with s_pAllocatorMap := [] }

end Library

/-! ## Between two entries -/

/-- The allocators `es` are alive besides the singleton `s`, and the records count them. -/
structure Leaving (t : Tid) (p : Process Object) (s : Member) (es : List Member) : Prop where
  members : Members t p (s :: es)
  process : p.s_allocateStats.liveCount = UInt64.ofNat (es.length + 2)
  singleton : ∃ st, p.readStats s.b = some st ∧ st.liveCount = UInt64.ofNat es.length

/-- Members in another order. -/
theorem Members.perm {t : Tid} {p : Process Object} {ms ms' : List Member}
    (h : Members t p ms) (hperm : ms.Perm ms') : Members t p ms' where
  s_vecpppInstances := h.s_vecpppInstances
  object m hm := h.object m (hperm.mem_iff.mpr hm)
  id_lt m hm := h.id_lt m (hperm.mem_iff.mpr hm)
  slot m hm := h.slot m (hperm.mem_iff.mpr hm)
  record m hm := h.record m (hperm.mem_iff.mpr hm)
  marked j := by
    rw [h.marked j]
    simp only [hperm.mem_iff]
  distinct := hperm.pairwise h.distinct fun hd => ⟨hd.1.symm, hd.2.symm⟩

/-- What is gone stays gone when an allocator goes. -/
theorem Unmade.gone {p p' : Process Object} {t : Tid} {r : Option Nat} {a b i c : Nat}
    (h : Unmade p t r a b i p') (hr : r ≠ some c) (hc : p.heap.cells c = none) :
    p'.heap.cells c = none := by
  by_cases ha : c = a
  · rw [ha]
    exact h.object
  · by_cases hb : c = b
    · rw [hb]
      exact h.storage
    · rw [h.others c ha hb hr]
      exact hc

section Leaving

open Library

variable {t : Tid} {l : Library} {p : Process Object} {s m : Member} {es : List Member}

theorem Registry.leaving (h : Registry t l s es) : Leaving t l.proc s es :=
  ⟨h.members, h.process, h.singleton⟩

/-- The entries go in any order. -/
theorem Leaving.perm {es' : List Member} (h : Leaving t p s es) (hperm : es.Perm es') :
    Leaving t p s es' where
  members := h.members.perm (hperm.cons s)
  process := by
    rw [← hperm.length_eq]
    exact h.process
  singleton := by
    rw [← hperm.length_eq]
    exact h.singleton

/-- **The deleter of one entry.** -/
theorem deleteEntry_leaving (h : Leaving t l.proc s (m :: es)) (hs : l.s_pAllocator = some s.a)
    (env : CallEnv) :
    ∃ p, l.deleteAllocatorImpl t m.a env = .ok (l.withProc p) ∧
      Unmade l.proc t (some s.b) m.a m.b m.al.id p ∧ Leaving t p s es := by
  have hmem : m ∈ s :: m :: es := List.mem_cons_of_mem s List.mem_cons_self
  have hself : s ∈ s :: m :: es := List.mem_cons_self
  have hne : s.a ≠ m.a ∧ s.b ≠ m.b :=
    List.rel_of_pairwise_cons h.members.distinct List.mem_cons_self
  have hne' : ∀ e ∈ es, m.a ≠ e.a ∧ m.b ≠ e.b := fun e he =>
    List.rel_of_pairwise_cons (List.pairwise_cons.mp h.members.distinct).2 he
  obtain ⟨st, hst⟩ := h.members.record m hmem
  obtain ⟨p, hd, hun⟩ := deleteAllocatorImpl_unmade hs (h.members.object s hself)
    (h.members.counts hself) (h.members.object m hmem) (h.members.id_lt m hmem)
    (h.members.slot m hmem) hst (fun he => hne.2 (Option.some.inj he)) env
  have hrest : ∀ e, e ∈ s :: es ↔ e ∈ s :: m :: es ∧ e ≠ m := by
    intro e
    simp only [List.mem_cons]
    constructor
    · rintro (rfl | he)
      · exact ⟨Or.inl rfl, fun hem => hne.1 (congrArg Member.a hem)⟩
      · exact ⟨Or.inr (Or.inr he), fun hem => (hne' e he).1 (congrArg Member.a hem.symm)⟩
    · rintro ⟨rfl | rfl | he, hem⟩
      · exact Or.inl rfl
      · exact absurd rfl hem
      · exact Or.inr he
  refine ⟨p, hd, hun, ?_, ?_, ?_⟩
  · exact h.members.unmade hself hmem (fun he => hne.1 (congrArg Member.a he))
      ((List.sublist_cons_self m es).cons_cons s) hrest hun
  · obtain ⟨uSize, hstats⟩ := hun.s_allocateStats
    rw [hstats, AllocateStats.liveCount_addFreed, h.process, List.length_cons, Nat.add_right_comm,
      UInt64.ofNat_add _ 1]
    exact UInt64.add_sub_cancel _ _
  · obtain ⟨st', hst', hlive⟩ := h.singleton
    obtain ⟨uSize, hrecord⟩ := hun.record s.b st' rfl hst'
    refine ⟨_, hrecord, ?_⟩
    rw [AllocateStats.liveCount_addFreed, hlive, List.length_cons, UInt64.ofNat_add _ 1]
    exact UInt64.add_sub_cancel _ _

/-- **The deleters of all entries.** -/
theorem deleteEntries_leaving (h : Leaving t l.proc s es) (hs : l.s_pAllocator = some s.a)
    (env : CallEnv) :
    ∃ p, deleteEntries t env (es.map fun m => (m.al.m_sName, m.a)) l = .ok (l.withProc p) ∧
      Leaving t p s [] ∧
      ∀ c, c ≠ s.b → (l.proc.heap.cells c = none ∨ ∃ m ∈ es, m.a = c ∨ m.b = c) →
        p.heap.cells c = none := by
  induction es generalizing l with
  | nil =>
    refine ⟨l.proc, rfl, h, fun c _ hc => ?_⟩
    rcases hc with hc | ⟨m, hm, -⟩
    · exact hc
    · cases hm
  | cons m es ih =>
    obtain ⟨p₁, hd, hun, h₁⟩ := deleteEntry_leaving h hs env
    obtain ⟨p, hds, h', hgone⟩ := ih (l := l.withProc p₁) h₁ hs
    refine ⟨p, ?_, h', fun c hcs hc => hgone c hcs ?_⟩
    · simp only [List.map_cons, deleteEntries, hd, bind, Except.bind]
      exact hds
    · rcases hc with hc | ⟨e, he, hc⟩
      · exact Or.inl (hun.gone (fun hr => hcs (Option.some.inj hr).symm) hc)
      · rcases List.mem_cons.mp he with rfl | he
        · refine Or.inl ?_
          rcases hc with rfl | rfl
          · exact hun.object
          · exact hun.storage
        · exact Or.inr ⟨e, he, hc⟩

/-- The entries of a registry, in any order. -/
theorem Registry.perm_entries (h : Registry t l s es) {order : List (String × Nat)}
    (horder : order.Perm l.s_pAllocatorMap) :
    ∃ es', es.Perm es' ∧ order = es'.map fun m => (m.al.m_sName, m.a) := by
  rw [h.s_pAllocatorMap] at horder
  have hcomp := congrFun (congrFun
    (List.eq_map_comp_perm fun m : Member => (m.al.m_sName, m.a)) order) es
  obtain ⟨es', he, hperm⟩ := hcomp.mpr horder
  exact ⟨es', hperm.symm, he⟩

end Leaving

/-! ## The end of a run -/

/-- What the process has left when its allocators are gone: the slot table of the thread and the
record of the singleton, if there is one. -/
structure Released (s : Api) (l' : Library) : Prop where
  s_pAllocatorMap : l'.s_pAllocatorMap = []
  s_pAllocator : l'.s_pAllocator = s.lib.s_pAllocator
  gone : ∀ e ∈ s.lib.s_pAllocatorMap, l'.proc.heap.cells e.2 = none
  books : (l'.s_pAllocator = none ∧ l' = s.lib) ∨ Balanced { s with lib := l' }

/-- **The end of a process.** After any run of one thread that creates and destroys
allocators, and in whatever order the table has its entries, the destructor of the registry
returns. The registered allocators are gone with their ids and their blocks, and what is left are
the singleton's own id, the slot table and the singleton's record, which shows no live block. -/
theorem exit_releases (t : Tid) {ops : List RegistryOp} {s : Api} {outs : List ApiOut}
    (hops : EachStep (registryStep t) mayCall .init ops)
    (h : run (registryStep t) .init ops = .ok (s, outs)) {order : List (String × Nat)}
    (horder : order.Perm s.lib.s_pAllocatorMap) (env : CallEnv) :
    ∃ l', s.lib.destroyMap t order env = .ok l' ∧ Released s l' := by
  have hkeeps : ∀ s₁ op s₂ out, RegistryInv t s₁ → mayCall s₁ op →
      registryStep t s₁ op = .ok (s₂, out) → RegistryInv t s₂ := by
    rintro s₁ op s₂ out (h₀ | ⟨m, es, hr⟩) hop hstep
    · obtain ⟨s', out', hs, h', -⟩ := first_step h₀ hop
      rw [hstep] at hs
      cases hs
      exact h'
    · obtain ⟨s', out', es', hs, h', -⟩ := registry_step hr hop
      rw [hstep] at hs
      cases hs
      exact Or.inr ⟨m, es', h'⟩
  have hinv := run_invariant_of_eachStep hkeeps (Or.inl (NoAllocators.init t)) hops h
  rcases hinv with h₀ | ⟨m, es, hr⟩
  · have hnil : order = [] := List.Perm.eq_nil (h₀.s_pAllocatorMap ▸ horder)
    subst hnil
    have hsame : ({ s.lib with s_pAllocatorMap := [] } : Library) = s.lib := by
      rw [← h₀.s_pAllocatorMap]
    refine ⟨s.lib, congrArg Except.ok hsame, h₀.s_pAllocatorMap, rfl, fun e he => ?_,
      Or.inl ⟨h₀.s_pAllocator, rfl⟩⟩
    rw [h₀.s_pAllocatorMap] at he
    cases he
  · obtain ⟨es', hperm, rfl⟩ := hr.perm_entries horder
    have hleaving : Leaving t s.lib.proc m es' := hr.leaving.perm hperm
    obtain ⟨p, hd, h', hgone⟩ := deleteEntries_leaving hleaving hr.s_pAllocator env
    refine ⟨{ s.lib.withProc p with s_pAllocatorMap := [] }, ?_, rfl, rfl, fun e he => ?_,
      Or.inr ?_⟩
    · simp only [Library.destroyMap, hd, bind, Except.bind]
      rfl
    · rw [hr.s_pAllocatorMap] at he
      obtain ⟨n, hn, rfl⟩ := List.mem_map.mp he
      exact hgone n.a
        (hr.members.object_ne_record (List.mem_cons_of_mem m hn) hr.mem_singleton)
        (Or.inr ⟨n, hperm.mem_iff.mp hn, Or.inl rfl⟩)
    · have hregistry : Registry t { s.lib.withProc p with s_pAllocatorMap := [] } m [] :=
        ⟨h'.members, hr.s_pAllocator, rfl, List.nodup_nil, h'.process, h'.singleton⟩
      exact hregistry.balanced

/-- Two allocators are registered when the process ends, and the table has them in the other
order. -/
theorem exit_releases_sample :
    ∃ s outs l', run (registryStep 0) .init
        [.create (some "a") 0, .create (some "b") 0, .create (some "a") 0, .destroy (some 3),
          .create (some "c") 8] = .ok (s, outs) ∧
      s.lib.s_pAllocatorMap = [("b", 5), ("c", 7)] ∧
      s.lib.destroyMap 0 [("c", 7), ("b", 5)] {} = .ok l' ∧ Released s l' := by
  have hops : EachStep (registryStep 0) mayCall .init
      [.create (some "a") 0, .create (some "b") 0, .create (some "a") 0, .destroy (some 3),
        .create (some "c") 8] := by decide +kernel
  have hends : (run (registryStep 0) .init
      [.create (some "a") 0, .create (some "b") 0, .create (some "a") 0, .destroy (some 3),
        .create (some "c") 8]).toOption.any
      (fun r => decide (r.1.lib.s_pAllocatorMap = [("b", 5), ("c", 7)])) = true := by
    decide +kernel
  obtain ⟨⟨s, outs⟩, h, hends⟩ := exists_of_any hends
  have hmap : s.lib.s_pAllocatorMap = [("b", 5), ("c", 7)] := of_decide_eq_true hends
  have horder : [("c", 7), ("b", 5)].Perm s.lib.s_pAllocatorMap := by
    rw [hmap]
    exact List.Perm.swap ..
  obtain ⟨l', hd, hr⟩ := exit_releases 0 hops h horder {}
  exact ⟨s, outs, l', h, hmap, hd, hr⟩

/-! ## A thread without a slot table -/

theorem deleteAllocatorImpl_noTable {l : Library} {t : Tid} {a b : Nat} {al self : AllocatorImpl}
    (hs : l.s_pAllocator = some b) (hself : l.proc.readAllocator b = some self)
    (hal : l.proc.readAllocator a = some al) (ht : ¬ l.proc.hasTable t) (env : CallEnv) :
    l.deleteAllocatorImpl t a env = .error .nullTable := by
  have hdestroy : l.proc.destroyAllocator t a = .error .nullTable := by
    simp only [destroyAllocator, hal, LldkThreadLocal.destruct, getThreadLocalStorage_noTable ht]
    rfl
  simp only [Library.deleteAllocatorImpl, Library.getSingleton_of_some hs, hself,
    AllocatorImpl.deleteObject, hdestroy, bind, Except.bind]

/-- **The process ends on a thread that never stored a pointer.** Whatever calls any threads made
before, failing or not, if an allocator is still registered then the destructor of the registry
reads the slot of its first entry through the null pointer that the thread has for a table. -/
theorem exit_without_table (t : Tid) {ops : List ApiOp} {s : Api} {outs : List ApiOut}
    (h : run apiStep .init ops = .ok (s, outs)) (ht : ¬ s.lib.proc.hasTable t)
    (hne : s.lib.s_pAllocatorMap ≠ []) {order : List (String × Nat)}
    (horder : order.Perm s.lib.s_pAllocatorMap) (env : CallEnv) :
    s.lib.destroyMap t order env = .error .nullTable := by
  obtain ⟨hsound, hnames⟩ := namesOnce_run h
  cases order with
  | nil => exact absurd (List.Perm.nil_eq horder).symm hne
  | cons e es =>
    have hfind : s.lib.find e.1 = some e.2 :=
      (Library.find_iff_mem hnames).mpr (horder.mem_iff.mp List.mem_cons_self)
    obtain ⟨al, hal⟩ := hsound.live (.entry e.1) e.2 hfind
    cases hs : s.lib.s_pAllocator with
    | none =>
      rw [hsound.empty hs] at hfind
      cases hfind
    | some b =>
      obtain ⟨self, hself⟩ := hsound.live .singleton b hs
      simp only [Library.destroyMap, Library.deleteEntries,
        deleteAllocatorImpl_noTable hs hself hal ht env, bind, Except.bind]

/-- Thread 0 leaves an allocator; the process ends on thread 1. -/
theorem exit_without_table_sample :
    ∃ s outs, run apiStep .init [.create 0 (some "a") 0 {}, .allocate 0 3 16 true] =
        .ok (s, outs) ∧ s.lib.s_pAllocatorMap = [("a", 3)] ∧
      s.lib.destroyMap 1 [("a", 3)] {} = .error .nullTable := by
  have hends : (run apiStep .init [.create 0 (some "a") 0 {}, .allocate 0 3 16 true]).toOption.any
      (fun r => decide (r.1.lib.s_pAllocatorMap = [("a", 3)] ∧ ¬ r.1.lib.proc.hasTable 1)) =
      true := by
    decide +kernel
  obtain ⟨⟨s, outs⟩, h, hends⟩ := exists_of_any hends
  obtain ⟨hmap, ht⟩ := of_decide_eq_true hends
  exact ⟨s, outs, h, hmap, exit_without_table 1 h ht (by rw [hmap]; exact List.cons_ne_nil _ _)
    (by rw [hmap]) {}⟩

end Lldk
