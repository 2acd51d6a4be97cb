import Lldk.Base.AllocatorAccounts
import Lldk.Base.AllocatorFailures

/-!
When the calls of a program return.

* `Returns x`: `x` ends with a result or an exception of C++, not with a fault.
* A call that counts needs a slot table of its thread, and under the id of the allocator nothing or
  a record that is there: `count_returns`, and from it `allocate_returns`, `free_returns` and
  `reAllocate_returns`.
* `create_returns_iff`: `lldkCreateAllocator`, over every way that it can fail.
* `returns_iff`: in every state that a program reaches, a call that destroys nothing returns iff it
  is allowed and served.
-/

namespace Lldk

open Lib Lib.Trace Process

/-! ## Computations that return -/

def Returns {ε α : Type} (x : Except ε α) : Prop := ∃ r, x = .ok r

section Returns

variable {ε α γ : Type} {x : Except ε α} {f : α → Except ε γ}

theorem returns_ok (r : α) : Returns (.ok r : Except ε α) := ⟨r, rfl⟩

theorem not_returns_error (e : ε) : ¬ Returns (.error e : Except ε α) := by
  rintro ⟨r, h⟩
  cases h

theorem returns_bind (hf : ∀ a, x = .ok a → Returns (f a)) : Returns (x >>= f) ↔ Returns x := by
  constructor
  · rintro ⟨r, h⟩
    obtain ⟨a, ha, -⟩ := bind_eq_ok.mp h
    exact ⟨a, ha⟩
  · rintro ⟨a, ha⟩
    obtain ⟨r, hr⟩ := hf a ha
    exact ⟨r, bind_eq_ok.mpr ⟨a, ha, hr⟩⟩

theorem returns_ofLibrary {x : Except Fault α} : Returns (ofLibrary x) ↔ Returns x := by
  constructor
  · rintro ⟨r, h⟩
    exact ⟨r, ofLibrary_ok h⟩
  · rintro ⟨r, rfl⟩
    exact returns_ok r

/-- A step that makes one call of the library. -/
theorem returns_call {x : Except Fault α} (f : α → γ) :
    Returns (do
      let r ← ofLibrary x
      pure (f r)) ↔ Returns x :=
  (returns_bind fun r _ => returns_ok (f r)).trans returns_ofLibrary

end Returns

/-! ## Calls that count -/

section Counting

variable {p p' : Process Object} {t : Tid} {self : AllocatorImpl} {uSize : UInt64}

theorem count_returns (f : AllocateStats → AllocateStats) :
    Returns (self.count p t f) ↔ ∃ r, Counts p t self r := by
  constructor
  · rintro ⟨p', h⟩
    obtain ⟨r, hget, hu⟩ := AllocatorImpl.count_ok h
    exact ⟨r, hget, hu.live⟩
  · rintro ⟨r, h⟩
    obtain ⟨p', hc, -⟩ := h.count f
    exact ⟨p', hc⟩

/-- The same tables, with the same records in them. -/
theorem counts_iff (htables : p'.s_ppInstances = p.s_ppInstances)
    (hrecords : ∀ b, p.slot t self.id = some b →
      ((∃ s, p'.readStats b = some s) ↔ ∃ s, p.readStats b = some s)) :
    (∃ r, Counts p' t self r) ↔ ∃ r, Counts p t self r := by
  constructor
  · rintro ⟨r, hget, hlive⟩
    have hget' := (get_congr htables self.m_allocatorThreadLocal t).symm.trans hget
    refine ⟨r, hget', fun b hb => (hrecords b ?_).mp (hlive b hb)⟩
    exact (eq_slot_of_getThreadLocalStorage hget').symm.trans hb
  · rintro ⟨r, hget, hlive⟩
    refine ⟨r, (get_congr htables self.m_allocatorThreadLocal t).trans hget,
      fun b hb => (hrecords b ?_).mpr (hlive b hb)⟩
    exact (eq_slot_of_getThreadLocalStorage hget).symm.trans hb

theorem allocate_returns (hslots : SlotsBelow p) (mem : Bool) :
    Returns (self.allocate p t uSize mem) ↔ (mem = true → ∃ r, Counts p t self r) := by
  cases mem with
  | false => exact iff_of_true (returns_ok _) fun h => by cases h
  | true =>
    have hsame : (∃ r, Counts (AllocatorImpl.withBlock p uSize) t self r) ↔
        ∃ r, Counts p t self r := by
      refine counts_iff rfl fun b hb => ?_
      have hcell : (AllocatorImpl.withBlock p uSize).heap.cells b = p.heap.cells b :=
        Heap.cells_alloc_ne _ (Nat.ne_of_lt (hslots t self.id b hb))
      rw [readStats_congr hcell]
    rw [← hsame, ← count_returns fun s => s.addAllocated uSize]
    simp only [AllocatorImpl.allocate, AllocatorImpl.mallocWithHeader_true, true_implies]
    cases self.count (AllocatorImpl.withBlock p uSize) t fun s => s.addAllocated uSize with
    | error f => exact iff_of_false (not_returns_error _) (not_returns_error _)
    | ok p₁ => exact iff_of_true (returns_ok _) (returns_ok _)

theorem free_returns {a : Nat} {b : Block Object} (hb : p.heap.cells a = some b) :
    Returns (self.free p t (some a)) ↔ ∃ r, Counts p t self r := by
  rw [← count_returns fun s => s.addFreed b.uSize]
  simp only [AllocatorImpl.free, hb]
  cases self.count p t fun s => s.addFreed b.uSize with
  | error f => exact iff_of_false (not_returns_error _) (not_returns_error _)
  | ok p₁ => exact iff_of_true (returns_ok _) (returns_ok _)

/-- The block is resized before it is counted; the record of the thread is another block. -/
theorem reAllocate_returns {a : Nat} {b : Block Object} {mem : Bool} {re : Realloc}
    (hslots : SlotsBelow p) (hb : p.heap.cells a = some b)
    (hun : ∀ t i, p.slot t i ≠ some a) :
    Returns (self.reAllocate p t (some a) uSize mem re) ↔
      (¬ re.returnsNull → ∃ r, Counts p t self r) := by
  simp only [AllocatorImpl.reAllocate, hb]
  rcases hr : AllocatorImpl.resize p a b uSize re with ⟨_ | q, p₁⟩
  · cases re with
    | fails => exact iff_of_true (returns_ok _) fun h => absurd (Or.inl rfl) h
    | inPlace => cases hr
    | moves => cases hr
    | releases => exact iff_of_true (returns_ok _) fun h => absurd (Or.inr rfl) h
  · have hmoved : ¬ re.returnsNull := by
      rintro (rfl | rfl)
      · cases hr
      · cases hr
    obtain ⟨htables, hq, hcells⟩ := AllocatorImpl.resize_some hr
    have hsame : (∃ r, Counts p₁ t self r) ↔ ∃ r, Counts p t self r := by
      refine counts_iff htables.s_ppInstances fun c hc => ?_
      have hca : c ≠ a := by
        rintro rfl
        exact hun t self.id hc
      have hcq : c ≠ q := by
        rcases hq with rfl | rfl
        · exact hca
        · exact Nat.ne_of_lt (hslots t self.id c hc)
      rw [readStats_congr (hcells c hca hcq)]
    rw [← hsame, ← count_returns fun s => (s.addFreed b.uSize).addAllocated uSize]
    simp only [hmoved, not_false_eq_true, true_implies]
    cases self.count p₁ t fun s => (s.addFreed b.uSize).addAllocated uSize with
    | error f => exact iff_of_false (not_returns_error _) (not_returns_error _)
    | ok p₂ => exact iff_of_true (returns_ok _) (returns_ok _)

/-- The records that `getAllocateStats` copies are there. -/
def Process.recordsLive (p : Process Object) (i m : Nat) : Prop :=
  ∀ a ∈ (p.storages i).take m, ∃ s, p.readStats a = some s

theorem visit_collect_returns (m : Nat) (as : List Nat) (k : Nat) (buf : List AllocateStats) :
    Returns (visit (AllocatorImpl.collect p m) (.ok (k, buf)) as).2 ↔
      ∀ a ∈ as.take (m - k), ∃ s, p.readStats a = some s := by
  induction as generalizing k buf with
  | nil => exact iff_of_true (returns_ok _) fun a ha => by rw [List.take_nil] at ha; cases ha
  | cons a as ih =>
    rw [visit_cons]
    by_cases hlt : k < m
    · have htake : (a :: as).take (m - k) = a :: as.take (m - (k + 1)) := by
        rw [show m - k = (m - (k + 1)) + 1 by omega, List.take_succ_cons]
      rw [htake, List.forall_mem_cons]
      cases hr : p.readStats a with
      | none =>
        simp only [AllocatorImpl.collect, hlt, if_true, hr, ne_eq, not_true_eq_false, if_false,
          AllocatorImpl.visit_collect_error]
        refine iff_of_false (not_returns_error _) ?_
        rintro ⟨⟨st, hst⟩, -⟩
        cases hst
      | some r =>
        simp only [AllocatorImpl.collect, hlt, if_true, hr, ne_eq, not_true_eq_false, if_false]
        rw [ih (k + 1) (buf.set k r)]
        exact (and_iff_right ⟨r, rfl⟩).symm
    · have hkm : m - k = 0 := by omega
      simp only [AllocatorImpl.collect, hlt, if_false, ne_eq, not_true_eq_false]
      rw [ih k buf, hkm]
      simp only [List.take_zero]

theorem getAllocateStats_returns (hi : self.id < kMaxInstanceId) (buf : List AllocateStats)
    (m : UInt32) :
    Returns (self.getAllocateStats p t (some buf) (some m)) ↔ p.recordsLive self.id m.toNat := by
  have hid : self.m_allocatorThreadLocal.m_uInstanceId ≠ kInvalidInstanceId := Nat.ne_of_lt hi
  have hforeach : self.m_allocatorThreadLocal.foreach p t
      (some (AllocatorImpl.collect p m.toNat)) (.ok (0, buf)) =
      p.foreach t self.id (some (AllocatorImpl.collect p m.toNat)) (.ok (0, buf)) := by
    simp only [LldkThreadLocal.foreach, ne_eq, hid, not_false_eq_true, if_true]
    rfl
  obtain ⟨rc, p', hf, -⟩ := foreach_spec p t hi (AllocatorImpl.collect p m.toNat) (.ok (0, buf))
  have hvisit := visit_collect_returns (p := p) m.toNat (p.storages self.id) 0 buf
  rw [Nat.sub_zero] at hvisit
  unfold recordsLive
  rw [← hvisit]
  simp only [AllocatorImpl.getAllocateStats, hforeach, hf]
  cases (visit (AllocatorImpl.collect p m.toNat) (.ok (0, buf)) (p.storages self.id)).2 with
  | error f => exact iff_of_false (not_returns_error _) (not_returns_error _)
  | ok r => exact iff_of_true (returns_ok _) (returns_ok _)

end Counting

/-! ## Constructions -/

section Constructing

variable {p p' : Process Object} {t : Tid} {self : AllocatorImpl} {name : String}

theorem construct_returns (p : Process Object) (t : Tid) (name : String) (env : Env) :
    Returns (AllocatorImpl.construct p t name env) := by
  obtain ⟨r, q, hc⟩ := LldkThreadLocal.construct_returns statsType p t env
  cases hname : env.nameMem with
  | false => exact ⟨_, by simp only [AllocatorImpl.construct, hname]; rfl⟩
  | true =>
    cases r with
    | object obj a => exact ⟨_, by simp only [AllocatorImpl.construct, hname, if_true, hc]; rfl⟩
    | threw what => exact ⟨_, by simp only [AllocatorImpl.construct, hname, if_true, hc]; rfl⟩

/-- A constructor that throws leaves the tables and the blocks. -/
theorem construct_error {env : Env} {what : String}
    (h : AllocatorImpl.construct p t name env = .ok (.error what, p')) :
    p'.s_ppInstances = p.s_ppInstances ∧
      ∀ b block, p.heap.cells b = some block → p'.heap.cells b = some block := by
  have hblocks := (AllocatorImpl.constructs h).1.blocks
  refine ⟨?_, hblocks⟩
  unfold AllocatorImpl.construct at h
  split at h
  · split at h
    · cases h
    · rename_i what' q hc
      cases h
      rcases LldkThreadLocal.construct_threw statsType hc with ⟨rfl, -⟩ | ⟨i, -, -, -, ha⟩
      · rfl
      · exact ha.s_ppInstances
    · cases h
  · cases h
    rfl

theorem newAllocator_returns (p : Process Object) (t : Tid) (name : String) (env : CallEnv) :
    Returns (p.newAllocator t name env) := by
  unfold Process.newAllocator
  split
  · refine (returns_bind fun r _ => ?_).mpr (construct_returns _ t name env.toEnv)
    rcases r with ⟨what | al, q⟩
    · exact returns_ok _
    · exact returns_ok _
  · exact returns_ok _

/-- **`newObject`** returns iff the singleton can count the block, if there is one. -/
theorem newObject_returns (hslots : SlotsBelow p) (env : CallEnv) :
    Returns (self.newObject p t name env) ↔
      (env.objectMem = true → ∃ r, Counts p t self r) := by
  have hallocate : Returns (self.allocate p t sizeofAllocatorImpl env.objectMem) ↔
      (env.objectMem = true → ∃ r, Counts p t self r) := allocate_returns hslots env.objectMem
  rw [← hallocate]
  refine returns_bind fun r hr => ?_
  obtain ⟨_ | a, p₁⟩ := r
  · exact returns_ok _
  · have hmem : env.objectMem = true := by
      cases hmem : env.objectMem with
      | false =>
        rw [hmem] at hr
        cases hr
      | true => rfl
    obtain ⟨r, hcounts⟩ := (allocate_returns hslots env.objectMem).mp ⟨_, hr⟩ hmem
    obtain ⟨p₂, hr', hres⟩ := AllocatorImpl.allocate_reserved hcounts sizeofAllocatorImpl
    rw [hmem, hr'] at hr
    cases hr
    refine (returns_bind fun r₁ hc => ?_).mpr (construct_returns p₁ t name env.toEnv)
    obtain ⟨what | al, p₃⟩ := r₁
    · -- the block is given back
      obtain ⟨htables, hblocks⟩ := construct_error hc
      obtain ⟨block, hblock, -⟩ := hres.block
      have hcounts₁ : Counts p₁ t self r := by
        refine ⟨(get_congr hres.tables.s_ppInstances _ t).trans hcounts.get, fun b hb => ?_⟩
        obtain ⟨st, hst⟩ := hcounts.live b hb
        exact ⟨_, hres.record b st hb hst⟩
      have hcounts₃ : Counts p₃ t self r := by
        refine hcounts₁.congr htables fun b hb => ?_
        obtain ⟨st, hst⟩ := hcounts₁.live b hb
        obtain ⟨block', hcell, -⟩ := cells_of_readStats hst
        rw [hcell, hblocks b block' hcell]
      obtain ⟨p₄, hfree⟩ := (free_returns (hblocks _ _ hblock)).mpr ⟨r, hcounts₃⟩
      exact ⟨_, bind_eq_ok.mpr ⟨p₄, hfree, rfl⟩⟩
    · exact returns_ok _

end Constructing

/-! ## The functions of the library -/

namespace Library

variable {l l' : Library} {t : Tid} {env : CallEnv} {n : String} {s : Nat} {self : AllocatorImpl}

theorem getSingleton_returns (l : Library) (t : Tid) (env : CallEnv) :
    Returns (l.lldkGetAllocatorSingleton t env) := by
  cases hs : l.s_pAllocator with
  | some a => exact ⟨_, getSingleton_of_some hs t env⟩
  | none =>
    by_cases hserves : l.servesSingleton t env
    · obtain ⟨al, p, hg, -⟩ := getSingleton_made hs hserves
      exact ⟨_, hg⟩
    · obtain ⟨⟨r, p⟩, hn⟩ := newAllocator_returns l.proc t "lldk.global.allocator" env.forSingleton
      cases r with
      | error what =>
        exact ⟨(.error what, l.withProc p),
          by simp only [lldkGetAllocatorSingleton, hs, hn, bind, Except.bind]; rfl⟩
      | ok a => exact absurd (serves_of_newAllocator hn) hserves

/-- `lldkCreateAllocator` comes to the registration of a new allocator. -/
def builds (l : Library) (t : Tid) (env : CallEnv) : Prop :=
  env.objectMem = true ∧ (∀ s, l.s_pAllocator = some s → l.constructs t env.toEnv) ∧
    (l.s_pAllocator = none → l.servesSingleton t env ∧ l.twoFreeIds ∧ env.nameMem = true ∧
      env.storageMem = true ∧ env.ctorThrows = false)

/-- The singleton can count the block of the allocator, and an allocator that the registry cannot
take can be destroyed. -/
def createDefined (l : Library) (t : Tid) (pName : Option String) (env : CallEnv) : Prop :=
  ∀ n, pName = some n → env.keyMem = true → l.find n = none →
    (env.objectMem = true → ∀ s, l.s_pAllocator = some s → l.countsOn t s) ∧
      (l.builds t env → env.nodeMem = true → env.rehashMem = true ∨ env.relock = true)

theorem createObject_returns (h : l.HasSingleton s self) (hslots : SlotsBelow l.proc) (n : String)
    (uMaxSizeMB : UInt64) :
    Returns (l.createObject t n uMaxSizeMB env) ↔ (env.objectMem = true → l.countsOn t s) := by
  have hnew : Returns (self.newObject l.proc t n env) ↔
      (env.objectMem = true → ∃ r, Counts l.proc t self r) := newObject_returns hslots env
  rw [countsOn_iff h.object h.id_lt, ← hnew]
  unfold createObject
  rw [getSingleton_of_some h.s_pAllocator]
  simp only [bind, Except.bind, h.object]
  constructor
  · rintro ⟨x, hx⟩
    cases hn : self.newObject l.proc t n env with
    | error f => simp [hn] at hx
    | ok r => exact returns_ok r
  · rintro ⟨⟨r, p⟩, hn⟩
    rcases r with what | _ | a
    · simp only [hn]
      exact returns_ok _
    · simp only [hn]
      exact returns_ok _
    · obtain ⟨⟨r, hcounts⟩, hmem, hname, hid, henv⟩ := AllocatorImpl.serves_of_newObject hn
      obtain ⟨al, p', ho, -⟩ := createObject_made h.s_pAllocator h.object hcounts hmem hname hid
        henv n uMaxSizeMB
      unfold createObject at ho
      rw [getSingleton_of_some h.s_pAllocator] at ho
      simp only [bind, Except.bind, h.object] at ho
      exact ⟨_, ho⟩

/-- **With a singleton**, a free name. -/
theorem create_returns_withSingleton (h : l.HasSingleton s self) (hslots : SlotsBelow l.proc)
    (hkey : env.keyMem = true) (hfind : l.find n = none) (uMaxSizeMB : UInt64) :
    Returns (l.lldkCreateAllocator t (some n) uMaxSizeMB env) ↔
      (env.objectMem = true → l.countsOn t s ∧ (l.constructs t env.toEnv →
        env.nodeMem = true → env.rehashMem = true ∨ env.relock = true)) := by
  by_cases hcounts : env.objectMem = true → l.countsOn t s
  · obtain ⟨⟨r, l₁⟩, ho⟩ := (createObject_returns h hslots n uMaxSizeMB).mpr hcounts
    by_cases hbuilt : env.objectMem = true ∧ l.constructs t env.toEnv
    · obtain ⟨hmem, hcon⟩ := hbuilt
      obtain ⟨r, al, p, hr, hmade, hn, hu, ho⟩ :=
        createObject_served h hmem (hcounts hmem) hcon n uMaxSizeMB
      rw [create_eq hkey hfind ho]
      rcases createEmplace_made env h hr hmade hn hu hfind with
        ⟨-, hrehash, l₂, he, -⟩ | ⟨hflags, l₂, he, -⟩ | ⟨hnode, hrehash, hrelock, he⟩
      · rw [he]
        exact iff_of_true (returns_ok _) fun _ => ⟨hcounts hmem, fun _ _ => Or.inl hrehash⟩
      · rw [he]
        exact iff_of_true (returns_ok _)
          fun _ => ⟨hcounts hmem, fun _ hnode => Or.inr (hflags hnode).2⟩
      · rw [he]
        refine iff_of_false (not_returns_error _) fun hdef => ?_
        rcases (hdef hmem).2 hcon hnode with hyes | hyes
        · rw [hrehash] at hyes
          cases hyes
        · rw [hrelock] at hyes
          cases hyes
    · -- the construction ends the call
      refine iff_of_true ?_ fun hmem =>
        ⟨hcounts hmem, fun hcon => absurd ⟨hmem, hcon⟩ hbuilt⟩
      simp only [lldkCreateAllocator, createCheck, hkey, if_true, hfind, ho]
      rcases r with what | _ | a
      · exact returns_ok _
      · exact returns_ok _
      · obtain ⟨-, hmem, hcon⟩ := serves_of_createObject h.s_pAllocator h.object ho
        exact absurd ⟨hmem, hcon⟩ hbuilt
  · refine iff_of_false ?_ fun hdef => hcounts fun hmem => (hdef hmem).1
    rintro ⟨x, hx⟩
    refine hcounts ((createObject_returns h hslots n uMaxSizeMB).mp ?_)
    simp only [lldkCreateAllocator, createCheck, hkey, if_true, hfind] at hx
    obtain ⟨r, ho, -⟩ := bind_eq_ok.mp hx
    exact ⟨r, ho⟩

theorem slotsBelow_made {p p' : Process Object} {r : Option Nat} {al : AllocatorImpl}
    (hslots : SlotsBelow p) (hmade : Made p t r al p') : SlotsBelow p' := by
  have hnext := hmade.next
  intro t' i b hb
  by_cases hself : t' = t ∧ i = al.id
  · obtain ⟨rfl, rfl⟩ := hself
    rw [hmade.self] at hb
    cases hb
    exact hnext
  · rw [hmade.others t' i (not_and_or.mp hself)] at hb
    have hlt := hslots t' i b hb
    omega

/-- **Without one**, a free name: the singleton is constructed first. -/
theorem create_returns_first (hs : l.s_pAllocator = none) (hslots : SlotsBelow l.proc)
    (hkey : env.keyMem = true) (hfind : l.find n = none) (uMaxSizeMB : UInt64) :
    Returns (l.lldkCreateAllocator t (some n) uMaxSizeMB env) ↔
      (l.builds t env → env.nodeMem = true → env.rehashMem = true ∨ env.relock = true) := by
  by_cases hserves : l.servesSingleton t env
  · obtain ⟨al, p, hg, hmade, -⟩ := getSingleton_made hs hserves
    obtain ⟨hsingle, hcounts⟩ := hasSingleton_made hmade
    rw [lldkCreateAllocator_of_getSingleton hg rfl hkey hfind hfind,
      create_returns_withSingleton hsingle (slotsBelow_made hslots hmade) hkey hfind uMaxSizeMB]
    constructor
    · rintro hdef ⟨hmem, -, hfirst⟩
      obtain ⟨-, htwo, hname, hstorage, hctor⟩ := hfirst hs
      exact (hdef hmem).2 ⟨hname, (twoFreeIds_iff hmade).mp htwo, hstorage, hctor,
        Or.inl hmade.hasTable⟩
    · refine fun hdef hmem => ⟨hcounts, fun hcon => hdef ⟨hmem, fun b hb => ?_, fun _ => ?_⟩⟩
      · rw [hs] at hb
        cases hb
      · obtain ⟨hname, hid, hstorage, hctor, -⟩ := hcon
        exact ⟨hserves, (twoFreeIds_iff hmade).mpr hid, hname, hstorage, hctor⟩
  · refine iff_of_true ?_ fun hbuilds => absurd (hbuilds.2.2 hs).1 hserves
    obtain ⟨⟨r, l₁⟩, hg⟩ := getSingleton_returns l t env
    cases r with
    | error what =>
      refine ⟨(.error what, l₁), ?_⟩
      simp only [lldkCreateAllocator, createCheck, hkey, if_true, hfind, createObject, hg]
      rfl
    | ok q => exact absurd (servesSingleton_of_ok hs hg) hserves

/-- **`lldkCreateAllocator`** returns iff it is defined. -/
theorem create_returns_iff (pName : Option String) (uMaxSizeMB : UInt64)
    (hslots : SlotsBelow l.proc)
    (hsingle : ∀ s, l.s_pAllocator = some s → ∃ self, l.HasSingleton s self) :
    Returns (l.lldkCreateAllocator t pName uMaxSizeMB env) ↔ l.createDefined t pName env := by
  cases pName with
  | none => exact iff_of_true (returns_ok _) fun n hn => by cases hn
  | some n =>
    cases hkey : env.keyMem with
    | false =>
      refine iff_of_true ?_ fun m _ hkey' => ?_
      · simp only [lldkCreateAllocator, createCheck, hkey]
        exact returns_ok _
      · rw [hkey] at hkey'
        cases hkey'
    | true =>
      cases hfind : l.find n with
      | some a =>
        refine iff_of_true ?_ fun m hm _ hfind' => ?_
        · simp only [lldkCreateAllocator, createCheck, hkey, if_true, hfind]
          exact returns_ok _
        · cases hm
          rw [hfind] at hfind'
          cases hfind'
      | none =>
        cases hs : l.s_pAllocator with
        | some s =>
          obtain ⟨self, hself⟩ := hsingle s hs
          rw [create_returns_withSingleton hself hslots hkey hfind uMaxSizeMB]
          constructor
          · intro hdef m hm _ _
            cases hm
            refine ⟨fun hmem b hb => ?_, fun hbuilds => ?_⟩
            · rw [hs] at hb
              cases hb
              exact (hdef hmem).1
            · exact (hdef hbuilds.1).2 (hbuilds.2.1 s hs)
          · intro hdef hmem
            obtain ⟨hcounts, hflags⟩ := hdef n rfl hkey hfind
            refine ⟨hcounts hmem s hs, fun hcon => hflags ⟨hmem, fun b _ => hcon, fun hno => ?_⟩⟩
            rw [hs] at hno
            cases hno
        | none =>
          rw [create_returns_first hs hslots hkey hfind uMaxSizeMB]
          constructor
          · intro hdef m hm _ _
            cases hm
            refine ⟨fun _ b hb => ?_, hdef⟩
            rw [hs] at hb
            cases hb
          · exact fun hdef => (hdef n rfl hkey hfind).2

end Library

/-! ## Programs -/

/-- A call that destroys an allocator or another `LldkThreadLocal` object. -/
def ApiOp.destroys : ApiOp → Prop
  | .destroy .. => True
  | .destroyThreadLocal .. => True
  | _ => False

namespace Api

/-- The program passes what it has. -/
def allowed (s : Api) : ApiOp → Prop
  | .allocate _ a _ _ => s.lib.knows a
  | .free _ a pMemory => s.lib.knows a ∧ ∀ b ∈ pMemory, (some a, b) ∈ s.blocks
  | .reAllocate _ a pMemory _ _ _ => s.lib.knows a ∧ ∀ b ∈ pMemory, (some a, b) ∈ s.blocks
  | .getAllocateStats _ a _ _ => s.lib.knows a
  | .lldkFree _ pMemory => ∀ b ∈ pMemory, (none, b) ∈ s.blocks
  | .constructThreadLocal _ o _ _ => s.objs o = none
  | _ => True

/-- What the call itself relies on. -/
def defined (s : Api) : ApiOp → Prop
  | .create t pName _ env => s.lib.createDefined t pName env
  | .allocate t a _ mem => mem = true → s.lib.countsOn t a
  | .free t a (some _) => s.lib.countsOn t a
  | .reAllocate t a none _ mem _ => mem = true → s.lib.countsOn t a
  | .reAllocate t a (some _) _ _ r => ¬ r.returnsNull → s.lib.countsOn t a
  | .getAllocateStats _ a (some _) (some uThreadMaxSize) =>
    ∀ al, s.lib.proc.readAllocator a = some al →
      s.lib.proc.recordsLive al.id uThreadMaxSize.toNat
  | _ => True

section Steps

variable {s : Api} {t : Tid} {a b : Nat} {op : ApiOp}

/-- An allocator that the program may use is there. -/
theorem Sound.known (h : Sound s) (hn : NamesOnce s) (ha : s.lib.knows a) :
    ∃ al, s.lib.proc.readAllocator a = some al ∧ al.id < kMaxInstanceId := by
  obtain ⟨k, hk, -⟩ := exists_keeper hn ha
  obtain ⟨al, hal⟩ := h.live k a hk
  exact ⟨al, hal, (h.marked k al.id (.allocator hk hal)).1⟩

/-- A member function that returns iff `P`. -/
theorem onAllocator_returns (h : Sound s) (hn : NamesOnce s) {P : Prop}
    {f : AllocatorImpl → Except ApiFault (Api × ApiOut)}
    (hf : ∀ al, s.lib.proc.readAllocator a = some al → al.id < kMaxInstanceId →
      (Returns (f al) ↔ P)) : Returns (s.onAllocator a f) ↔ s.lib.knows a ∧ P := by
  unfold onAllocator
  by_cases hknows : s.lib.knows a
  · obtain ⟨al, hal, hid⟩ := h.known hn hknows
    simp only [hknows, if_true, hal, true_and]
    exact hf al hal hid
  · simp only [hknows, if_false, false_and, iff_false]
    exact not_returns_error _

theorem allocate_step (h : Sound s) (hn : NamesOnce s) {uSize : UInt64} {mem : Bool}
    {next : Option Nat × Process Object → Except ApiFault (Api × ApiOut)}
    (hnext : ∀ r, Returns (next r)) :
    Returns (s.onAllocator a fun al =>
        ofLibrary (al.allocate s.lib.proc t uSize mem) >>= next) ↔
      s.lib.knows a ∧ (mem = true → s.lib.countsOn t a) := by
  refine onAllocator_returns h hn fun al hal hid => ?_
  rw [returns_bind fun r _ => hnext r, returns_ofLibrary, allocate_returns h.slots,
    Library.countsOn_iff hal hid]

/-- A block from `__lldkAllocate` is there. -/
theorem Accounts.direct_live (h : Accounts s) (hb : (none, b) ∈ s.blocks) :
    ∃ block, s.lib.proc.heap.cells b = some block :=
  h.live b (List.mem_append_right _
    (List.mem_map_of_mem (f := Prod.snd) (List.mem_filter.mpr ⟨hb, rfl⟩)))

/-- A block that an allocator gave out is there, and no record. -/
theorem Accounts.lent (h : Accounts s) (hb : (some a, b) ∈ s.blocks) :
    (∃ block, s.lib.proc.heap.cells b = some block) ∧ ∀ t i, s.lib.proc.slot t i ≠ some b := by
  have hmem : b ∈ s.aside ++ s.direct := by
    refine List.mem_append_left _ (List.mem_append_right _ ?_)
    exact List.mem_map_of_mem (f := Prod.snd) (List.mem_filter.mpr ⟨hb, rfl⟩)
  exact ⟨h.live b hmem, h.unstored b hmem⟩

/-- **Every call that destroys nothing.** -/
theorem returns_step (h : Sound s) (hn : NamesOnce s) (hacc : Accounts s) (hop : ¬ op.destroys) :
    Returns (apiStep s op) ↔ s.allowed op ∧ s.defined op := by
  cases op with
  | create t pName uMaxSizeMB env =>
    refine Iff.trans ?_ (and_iff_right (a := s.allowed (.create t pName uMaxSizeMB env))
      trivial).symm
    simp only [apiStep]
    rw [returns_call]
    exact Library.create_returns_iff pName uMaxSizeMB h.slots fun b hb => h.hasSingleton hb
  | destroy t pAllocator env => exact absurd trivial hop
  | getSingleton t env =>
    refine iff_of_true ?_ ⟨trivial, trivial⟩
    simp only [apiStep]
    rw [returns_call]
    exact Library.getSingleton_returns s.lib t env
  | allocate t a uSize mem => exact allocate_step h hn fun r => returns_ok _
  | free t a pMemory =>
    cases pMemory with
    | none =>
      refine Iff.trans (onAllocator_returns (P := True) h hn fun al _ _ => ?_) ?_
      · exact iff_of_true (returns_ok _) trivial
      · exact ⟨fun hk => ⟨⟨hk.1, fun b hb => by cases hb⟩, trivial⟩,
          fun hk => ⟨hk.1.1, trivial⟩⟩
    | some b =>
      by_cases hb : (some a, b) ∈ s.blocks
      · obtain ⟨⟨block, hblock⟩, -⟩ := hacc.lent hb
        simp only [apiStep, hb, if_true]
        refine Iff.trans (onAllocator_returns (P := s.lib.countsOn t a) h hn
          fun al hal hid => ?_) ?_
        · rw [returns_call, free_returns hblock,
            Library.countsOn_iff hal hid]
        · refine and_congr_left' ?_
          exact ⟨fun hk => ⟨hk, fun c hc => by cases hc; exact hb⟩, fun hk => hk.1⟩
      · simp only [apiStep, hb, if_false]
        exact iff_of_false (not_returns_error _) fun hk => hb (hk.1.2 b rfl)
  | reAllocate t a pMemory uSize mem r =>
    cases pMemory with
    | none =>
      refine Iff.trans (allocate_step h hn fun r => returns_ok _) (and_congr_left' ?_)
      exact ⟨fun hk => ⟨hk, fun b hb => by cases hb⟩, fun hk => hk.1⟩
    | some b =>
      by_cases hb : (some a, b) ∈ s.blocks
      · obtain ⟨⟨block, hblock⟩, hun⟩ := hacc.lent hb
        simp only [apiStep, hb, if_true]
        refine Iff.trans (onAllocator_returns (P := ¬ r.returnsNull → s.lib.countsOn t a) h hn
          fun al hal hid => ?_) ?_
        · rw [returns_call,
            reAllocate_returns h.slots hblock hun, Library.countsOn_iff hal hid]
        · refine and_congr_left' ?_
          exact ⟨fun hk => ⟨hk, fun c hc => by cases hc; exact hb⟩, fun hk => hk.1⟩
      · simp only [apiStep, hb, if_false]
        exact iff_of_false (not_returns_error _) fun hk => hb (hk.1.2 b rfl)
  | getAllocateStats t a pAllocateStats pThreadCount =>
    refine onAllocator_returns h hn fun al hal hid => ?_
    rw [returns_call]
    cases pAllocateStats with
    | none => exact iff_of_true (returns_ok _) trivial
    | some buf =>
      cases pThreadCount with
      | none => exact iff_of_true (returns_ok _) trivial
      | some uThreadMaxSize =>
        rw [getAllocateStats_returns hid]
        refine ⟨fun hlive al' hal' => ?_, fun hlive => hlive al hal⟩
        rw [hal] at hal'
        cases hal'
        exact hlive
  | lldkAllocate t uSize mem => exact iff_of_true (returns_ok _) ⟨trivial, trivial⟩
  | lldkFree t pMemory =>
    cases pMemory with
    | none => exact iff_of_true (returns_ok _) ⟨fun b hb => (by cases hb), trivial⟩
    | some b =>
      by_cases hb : (none, b) ∈ s.blocks
      · obtain ⟨block, hblock⟩ := hacc.direct_live hb
        simp only [apiStep, hb, if_true]
        rw [returns_call, Process.lldkFree_live hblock]
        exact iff_of_true (returns_ok _) ⟨fun c hc => (by cases hc; exact hb), trivial⟩
      · simp only [apiStep, hb, if_false]
        exact iff_of_false (not_returns_error _) fun hk => hb (hk.1 b rfl)
  | constructThreadLocal t o T env =>
    cases ho : s.objs o with
    | some obj =>
      refine iff_of_false ?_ fun hk => ?_
      · simp only [apiStep, ho]
        exact not_returns_error _
      · have hnone : s.objs o = none := hk.1
        rw [ho] at hnone
        cases hnone
    | none =>
      refine iff_of_true ?_ ⟨ho, trivial⟩
      obtain ⟨r, p, hc⟩ := LldkThreadLocal.construct_returns T s.lib.proc t env
      simp only [apiStep, ho, hc]
      cases r with
      | object obj a => exact returns_ok _
      | threw what => exact returns_ok _
  | destroyThreadLocal t o => exact absurd trivial hop

end Steps

end Api

end Lldk
