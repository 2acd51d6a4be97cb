import Lldk.Base.AllocatorSound

/-!
How `lldkCreateAllocator` and `lldkGetAllocatorSingleton` end when something is missing.

* `createsNormally` is the contract: a new allocator registered under its name, or null with an
  error code and everything as it was.
* `createServed` is when the call meets it. What `newObject` throws leaves the call, and so does
  what the constructor of the singleton throws; a thread without a slot table cannot use a
  singleton that another thread constructed.
* `normally_iff`: in every state a program reaches, the call meets its contract iff it is served.
-/

namespace Lldk

open Lib Lib.Trace Process

namespace Library

/-! ## The contract -/

/-- The call returned null: its thread has an error code, and names, ids and blocks are as they
were. -/
structure Refused (l : Library) (t : Tid) (l' : Library) : Prop where
  code : l'.proc.s_eErrorCode t ∈
    [ErrorCode.kNoMemory, .kInvalidParam, .kInvalidState, .kThrowException]
  s_pAllocatorMap : l'.s_pAllocatorMap = l.s_pAllocatorMap
  marked : ∀ j, l'.proc.marked j ↔ l.proc.marked j
  blocks : ∀ b, (l'.proc.heap.cells b).isSome = (l.proc.heap.cells b).isSome

/-- The call returned a new allocator that is registered under `n`. -/
structure Enrolled (l : Library) (n : String) (uMaxSizeMB : UInt64) (a : Nat) (l' : Library) :
    Prop where
  free : l.find n = none
  s_pAllocatorMap : l'.s_pAllocatorMap = l.s_pAllocatorMap ++ [(n, a)]
  fresh : l.proc.heap.cells a = none
  live : ∃ al, l'.proc.readAllocator a = some al ∧ al.getName = n ∧ al.m_uMaxSizeMB = uMaxSizeMB

def createsNormally (l : Library) (t : Tid) (pName : Option String) (uMaxSizeMB : UInt64)
    (env : CallEnv) : Prop :=
  (∃ l', l.lldkCreateAllocator t pName uMaxSizeMB env = .ok (.ok none, l') ∧ l.Refused t l') ∨
    ∃ n a l', pName = some n ∧
      l.lldkCreateAllocator t pName uMaxSizeMB env = .ok (.ok (some a), l') ∧
      l.Enrolled n uMaxSizeMB a l'

/-- The same for `lldkGetAllocatorSingleton`, which registers nothing. -/
def singletonNormally (l : Library) (t : Tid) (env : CallEnv) : Prop :=
  (∃ l', l.lldkGetAllocatorSingleton t env = .ok (.ok none, l') ∧ l.Refused t l') ∨
    ∃ a l', l.lldkGetAllocatorSingleton t env = .ok (.ok (some a), l') ∧
      l'.s_pAllocator = some a ∧ l'.s_pAllocatorMap = l.s_pAllocatorMap ∧
      ∃ al, l'.proc.readAllocator a = some al

/-! ## When it is met -/

/-- Thread `t` has a slot table, and its record of the allocator at `s`, if it has one, is
there. -/
def countsOn (l : Library) (t : Tid) (s : Nat) : Prop :=
  ∃ al, l.proc.readAllocator s = some al ∧ l.proc.hasTable t ∧
    ∀ b, l.proc.slot t al.id = some b → ∃ st, l.proc.readStats b = some st

/-- The constructor of an allocator gets its id, its name and its record. -/
def constructs (l : Library) (t : Tid) (env : Env) : Prop :=
  env.nameMem = true ∧ l.proc.hasFreeId ∧ env.serves l.proc t

def twoFreeIds (l : Library) : Prop :=
  ∃ i j, i ≠ j ∧ (i < kMaxInstanceId ∧ ¬ l.proc.marked i) ∧
    j < kMaxInstanceId ∧ ¬ l.proc.marked j

/-- With a singleton: there is no memory for the block of the allocator, or the constructor gets
all it needs; and what the registry then cannot take can be destroyed. -/
def servedBy (l : Library) (t : Tid) (s : Nat) (env : CallEnv) : Prop :=
  l.countsOn t s ∧ l.constructs t env.toEnv ∧
    (env.nodeMem = true → env.rehashMem = true ∨ env.relock = true)

/-- Without one: everything succeeds, the construction of the singleton included. -/
def servedFirst (l : Library) (t : Tid) (env : CallEnv) : Prop :=
  l.servesSingleton t env ∧ l.twoFreeIds ∧ env.objectMem = true ∧ env.nameMem = true ∧
    env.storageMem = true ∧ env.ctorThrows = false ∧ env.nodeMem = true ∧ env.rehashMem = true

def createServed (l : Library) (t : Tid) (pName : Option String) (env : CallEnv) : Prop :=
  ∀ n, pName = some n → env.keyMem = true ∧ (l.find n = none →
    (∀ s, l.s_pAllocator = some s → env.objectMem = false ∨ l.servedBy t s env) ∧
    (l.s_pAllocator = none → l.servedFirst t env))

def singletonServed (l : Library) (t : Tid) (env : CallEnv) : Prop :=
  l.s_pAllocator = none → l.servesSingleton t env

variable {l l' : Library} {t : Tid} {env : CallEnv} {n : String} {uMaxSizeMB : UInt64}

/-- The singleton can count for a thread iff `countsOn` holds. -/
theorem countsOn_iff {s : Nat} {self : AllocatorImpl} (hself : l.proc.readAllocator s = some self)
    (hid : self.id < kMaxInstanceId) : l.countsOn t s ↔ ∃ r, Counts l.proc t self r := by
  constructor
  · rintro ⟨al, hal, ht, hlive⟩
    rw [hself] at hal
    cases hal
    exact ⟨_, getThreadLocalStorage_ok ht hid, hlive⟩
  · rintro ⟨r, hget, hlive⟩
    have hr := eq_slot_of_getThreadLocalStorage hget
    have ht : l.proc.hasTable t := by
      by_contra hno
      have hget' : l.proc.getThreadLocalStorage t self.id = .ok r := hget
      rw [getThreadLocalStorage_noTable hno] at hget'
      cases hget'
    exact ⟨self, hself, ht, fun b hb => hlive b (hr.trans hb)⟩

/-! ## With a singleton -/

section WithSingleton

variable {s : Nat} {self : AllocatorImpl}

/-- Without memory for the block nothing was done. -/
theorem create_noMemory (hs : l.s_pAllocator = some s)
    (hself : l.proc.readAllocator s = some self) (hkey : env.keyMem = true)
    (hfind : l.find n = none) (hmem : env.objectMem = false) :
    l.lldkCreateAllocator t (some n) uMaxSizeMB env =
      .ok (.ok none, (l.lldkSetErrorCode t .kNoMemory).lldkSetErrorCode t .kNoMemory) := by
  have hallocate : self.allocate l.proc t sizeofAllocatorImpl env.objectMem =
      .ok (none, l.proc.lldkSetErrorCode t .kNoMemory) := by
    rw [hmem]
    rfl
  simp only [lldkCreateAllocator, createCheck, hkey, if_true, hfind, createObject,
    getSingleton_of_some hs, bind, Except.bind, hself, AllocatorImpl.newObject, hallocate]
  rfl

theorem refused_setErrorCode (l : Library) (t : Tid) {e : ErrorCode}
    (he : e ∈ [ErrorCode.kNoMemory, .kInvalidParam, .kInvalidState, .kThrowException]) :
    l.Refused t (l.lldkSetErrorCode t e) where
  code := by
    have hcode : (l.lldkSetErrorCode t e).proc.s_eErrorCode t = e := Function.update_self ..
    rw [hcode]
    exact he
  s_pAllocatorMap := rfl
  marked := fun _ => Iff.rfl
  blocks := fun _ => rfl

/-- An allocator that was constructed and is destroyed again leaves no id and no block. -/
theorem refused_unmade {p p' : Process Object} {r : Option Nat} {al : AllocatorImpl}
    (ht : l.proc.hasTable t) (hr : ∀ b, r = some b → ∃ st, l.proc.readStats b = some st)
    (hmade : Made l.proc t r al p)
    (hun : Unmade p t r l.proc.heap.next (l.proc.heap.next + 1) al.id p')
    (hcode : l'.proc.s_eErrorCode t ∈
      [ErrorCode.kNoMemory, .kInvalidParam, .kInvalidState, .kThrowException])
    (hbits : l'.proc.s_bitset = p'.s_bitset) (hcells : l'.proc.heap.cells = p'.heap.cells)
    (hmap : l'.s_pAllocatorMap = l.s_pAllocatorMap) : l.Refused t l' where
  code := hcode
  s_pAllocatorMap := hmap
  marked := by
    intro j
    rw [marked_congr hbits, hun.marked j, hmade.marked j]
    constructor
    · rintro ⟨hj | hj, hne⟩
      · exact hj
      · exact absurd hj hne
    · intro hj
      refine ⟨Or.inl hj, ?_⟩
      rintro rfl
      exact hmade.free hj
  blocks := by
    intro b
    rw [hcells]
    by_cases hrb : r = some b
    · obtain ⟨st, hst⟩ := hr b hrb
      obtain ⟨uSize, hst'⟩ := hun.record b _ hrb (hmade.record b st hrb hst)
      obtain ⟨block, hb, -⟩ := cells_of_readStats hst
      obtain ⟨block', hb', -⟩ := cells_of_readStats hst'
      rw [hb, hb']
      rfl
    · rcases Nat.lt_trichotomy b l.proc.heap.next with hlt | rfl | hlt
      · have hne : b ≠ l.proc.heap.next ∧ b ≠ l.proc.heap.next + 1 := by omega
        rw [hun.others b hne.1 hne.2 hrb, hmade.old b hlt hrb]
      · rw [hun.object, Heap.fresh _ _ (Nat.le_refl _)]
      · rw [Heap.fresh l.proc.heap b (Nat.le_of_lt hlt)]
        by_cases hnext : b = l.proc.heap.next + 1
        · rw [hnext, hun.storage]
        · have hne : b ≠ l.proc.heap.next ∧ l.proc.heap.next + 2 ≤ b := by omega
          rw [hun.others b hne.1 hnext hrb, hmade.new ht b hne.2]

/-- The singleton is the allocator `al` at `s`, and keeps its id. -/
structure HasSingleton (l : Library) (s : Nat) (al : AllocatorImpl) : Prop where
  s_pAllocator : l.s_pAllocator = some s
  object : l.proc.readAllocator s = some al
  id_lt : al.id < kMaxInstanceId
  marked : l.proc.marked al.id

/-- The construction, when nothing is missing. -/
theorem createObject_served (h : l.HasSingleton s self) (hmem : env.objectMem = true)
    (hcounts : l.countsOn t s) (hcon : l.constructs t env.toEnv) (n : String)
    (uMaxSizeMB : UInt64) :
    ∃ r al p, Counts l.proc t self r ∧ Made l.proc t r al p ∧ al.m_sName = n ∧
      al.m_uMaxSizeMB = uMaxSizeMB ∧ l.createObject t n uMaxSizeMB env =
        .ok (.ok (some l.proc.heap.next), l.withProc p) := by
  obtain ⟨r, hr⟩ := (countsOn_iff h.object h.id_lt).mp hcounts
  obtain ⟨al, p, hc, hmade, hn, hu⟩ :=
    createObject_made h.s_pAllocator h.object hr hmem hcon.1 hcon.2.1 hcon.2.2 n uMaxSizeMB
  exact ⟨r, al, p, hr, hmade, hn, hu, hc⟩

/-- The singleton still counts for the thread, in the same record, and does so in a new state
that differs in the error codes only. -/
theorem counts_made {r : Option Nat} {al : AllocatorImpl} {p : Process Object}
    (h : l.HasSingleton s self) (hr : Counts l.proc t self r) (hmade : Made l.proc t r al p) :
    Counts p t self r ∧ p.readAllocator s = some self ∧ r ≠ some (l.proc.heap.next + 1) := by
  have hlt : ∀ b, r = some b → b < l.proc.heap.next := by
    intro b hb
    obtain ⟨st, hst⟩ := hr.live b hb
    exact readStats_lt hst
  have hid : self.id ≠ al.id := by
    intro he
    have hm := h.marked
    rw [he] at hm
    exact hmade.free hm
  have hslot : l.proc.slot t self.id = r := (eq_slot_of_getThreadLocalStorage hr.get).symm
  refine ⟨⟨?_, fun b hb => ?_⟩, ?_, fun he => ?_⟩
  · show p.getThreadLocalStorage t self.id = _
    rw [getThreadLocalStorage_ok hmade.hasTable h.id_lt, hmade.others t self.id (Or.inr hid),
      hslot]
  · obtain ⟨st, hst⟩ := hr.live b hb
    exact ⟨_, hmade.record b st hb hst⟩
  · have hne : r ≠ some s := by
      intro hrs
      obtain ⟨st, hst⟩ := hr.live s hrs
      have hobject := h.object
      rw [readAllocator_of_readStats hst] at hobject
      cases hobject
    exact (readAllocator_congr (hmade.old s (readAllocator_lt h.object) hne)).trans h.object
  · have hb := hlt _ he
    omega

/-- The deletion of the allocator that was just constructed, whatever the error codes are. -/
theorem delete_made {r : Option Nat} {al : AllocatorImpl} {p : Process Object}
    (h : l.HasSingleton s self) (hr : Counts l.proc t self r) (hmade : Made l.proc t r al p)
    (env : CallEnv) (codes : Tid → ErrorCode) :
    ∃ p', (l.withProc { p with s_eErrorCode := codes }).deleteAllocatorImpl t l.proc.heap.next
        env = .ok ((l.withProc p).withProc p') ∧
      Unmade p t r l.proc.heap.next (l.proc.heap.next + 1) al.id p' := by
  obtain ⟨hcounts, hself, hne⟩ := counts_made h hr hmade
  have hcounts' : Counts { p with s_eErrorCode := codes } t self r :=
    ⟨hcounts.get, hcounts.live⟩
  obtain ⟨p', hd, hun⟩ := deleteAllocatorImpl_unmade
    (l := l.withProc { p with s_eErrorCode := codes }) h.s_pAllocator hself hcounts'
    hmade.object hmade.id_lt hmade.self hmade.storage hne env
  exact ⟨p', hd, hun.marked, hun.s_ppInstances, hun.s_vecpppInstances, hun.object, hun.storage,
    hun.record, hun.others, hun.next, hun.s_allocateStats, hun.s_eErrorCode⟩

/-- The destructor of the new allocator has a record to free. -/
theorem frees_made {r : Option Nat} {al : AllocatorImpl} {p : Process Object}
    (hmade : Made l.proc t r al p) : (l.withProc p).frees t l.proc.heap.next = true :=
  frees_of_slot hmade.object hmade.id_lt hmade.self

/-- **The registration of a new allocator**, in every way that it can end. -/
theorem createEmplace_made {r : Option Nat} {al : AllocatorImpl} {p : Process Object}
    (env : CallEnv) (h : l.HasSingleton s self) (hr : Counts l.proc t self r)
    (hmade : Made l.proc t r al p) (hn : al.m_sName = n) (hu : al.m_uMaxSizeMB = uMaxSizeMB)
    (hfind : l.find n = none) :
    (env.nodeMem = true ∧ env.rehashMem = true ∧ ∃ l',
      (l.withProc p).createEmplace t n l.proc.heap.next env =
        .ok (some l.proc.heap.next, l') ∧ l.Enrolled n uMaxSizeMB l.proc.heap.next l') ∨
    ((env.nodeMem = true → env.rehashMem = false ∧ env.relock = true) ∧ ∃ l',
      (l.withProc p).createEmplace t n l.proc.heap.next env = .ok (none, l') ∧
      l.Refused t l') ∨
    (env.nodeMem = true ∧ env.rehashMem = false ∧ env.relock = false ∧
      (l.withProc p).createEmplace t n l.proc.heap.next env = .error (.hangs t)) := by
  have ht : l.proc.hasTable t := by
    by_contra hno
    have hget : l.proc.getThreadLocalStorage t self.id = .ok r := hr.get
    rw [getThreadLocalStorage_noTable hno] at hget
    cases hget
  have hfind' : (l.withProc p).find n = none := hfind
  cases hnode : env.nodeMem with
  | false =>
    refine Or.inr (Or.inl ⟨fun he => (by cases he), ?_⟩)
    obtain ⟨p', hd, hun⟩ := delete_made h hr hmade env
      (Function.update p.s_eErrorCode t .kThrowException)
    refine ⟨(l.withProc p).withProc p', ?_, refused_unmade ht hr.live hmade hun ?_ rfl rfl rfl⟩
    · simp only [createEmplace, hnode, Bool.false_eq_true, if_false]
      exact congrArg (fun x => x >>= fun l => .ok (none, l)) hd
    · show p'.s_eErrorCode t ∈ _
      rw [hun.s_eErrorCode]
      decide
  | true =>
    cases hrehash : env.rehashMem with
    | true =>
      refine Or.inl ⟨rfl, rfl, { l.withProc p with
        s_pAllocatorMap := l.s_pAllocatorMap ++ [(n, l.proc.heap.next)] }, ?_,
        hfind, rfl, Heap.fresh _ _ (Nat.le_refl _), al, hmade.object, hn, hu⟩
      simp only [createEmplace, hnode, if_true, hfind', hrehash]
      rfl
    | false =>
      refine Or.inr ?_
      cases hrelock : env.relock with
      | true =>
        refine Or.inl ⟨fun _ => ⟨rfl, rfl⟩, ?_⟩
        obtain ⟨p', hd, hun⟩ := delete_made h hr hmade env p.s_eErrorCode
        rw [← deleteUnderLock_of_relock hrelock] at hd
        refine ⟨((l.withProc p).withProc p').lldkSetErrorCode t .kThrowException, ?_,
          refused_unmade ht hr.live hmade hun ?_ rfl rfl rfl⟩
        · simp only [createEmplace, hnode, if_true, hfind', hrehash, Bool.false_eq_true, if_false,
            hd]
          rfl
        · have hcode : (((l.withProc p).withProc p').lldkSetErrorCode t
              .kThrowException).proc.s_eErrorCode t = .kThrowException := Function.update_self ..
          rw [hcode]
          decide
      | false =>
        refine Or.inr ⟨rfl, rfl, rfl, ?_⟩
        simp [createEmplace, hnode, hfind', hrehash, deleteUnderLock, frees_made hmade, hrelock]

/-- A call with a name that is free is its construction and its registration. -/
theorem create_eq (hkey : env.keyMem = true) (hfind : l.find n = none) {a : Nat}
    (hc : l.createObject t n uMaxSizeMB env = .ok (.ok (some a), l')) :
    l.lldkCreateAllocator t (some n) uMaxSizeMB env =
      (l'.createEmplace t n a env >>= fun r => .ok (.ok r.1, r.2)) := by
  simp only [lldkCreateAllocator, createCheck, hkey, if_true, hfind, hc]
  rfl

/-- With memory for the block, a call that returns has constructed its allocator. -/
theorem createObject_of_create {q : Option Nat} (h : l.HasSingleton s self)
    (hkey : env.keyMem = true) (hfind : l.find n = none) (hmem : env.objectMem = true)
    (hc : l.lldkCreateAllocator t (some n) uMaxSizeMB env = .ok (.ok q, l')) :
    ∃ a l₁, l.createObject t n uMaxSizeMB env = .ok (.ok (some a), l₁) := by
  simp only [lldkCreateAllocator, createCheck, hkey, if_true, hfind] at hc
  obtain ⟨⟨r, l₁⟩, ho, hc⟩ := bind_eq_ok.mp hc
  rcases r with what | _ | a
  · cases hc
  · -- null comes from `allocate` only, which had its memory
    unfold createObject at ho
    rw [getSingleton_of_some h.s_pAllocator] at ho
    obtain ⟨q', hq', ho⟩ := bind_eq_ok.mp ho
    cases hq'
    simp only [h.object] at ho
    obtain ⟨⟨r, p⟩, hnew, ho⟩ := bind_eq_ok.mp ho
    rcases r with what | _ | b
    · cases ho
    · obtain ⟨⟨q'', p₁⟩, halloc, hnew⟩ := bind_eq_ok.mp hnew
      cases q'' with
      | none =>
        rw [hmem] at halloc
        simp only [AllocatorImpl.allocate, AllocatorImpl.mallocWithHeader_true] at halloc
        split at halloc
        · cases halloc
        · cases halloc
      | some c =>
        obtain ⟨⟨r', p₂⟩, -, hnew⟩ := bind_eq_ok.mp hnew
        cases r' with
        | error what =>
          obtain ⟨p₃, -, hnew⟩ := bind_eq_ok.mp hnew
          cases hnew
        | ok al => cases hnew
    · obtain ⟨⟨rc, p₁⟩, hinit, ho⟩ := bind_eq_ok.mp ho
      obtain ⟨rfl, -⟩ := codes_initAllocator hinit
      cases ho
  · exact ⟨a, l₁, ho⟩

/-- **What a call that returns has done**, and what it had. -/
theorem create_returned {q : Option Nat} (h : l.HasSingleton s self) (hkey : env.keyMem = true)
    (hfind : l.find n = none)
    (hc : l.lldkCreateAllocator t (some n) uMaxSizeMB env = .ok (.ok q, l')) :
    (q = none ∧ l.Refused t l' ∧ (env.objectMem = false ∨ l.servedBy t s env)) ∨
      (q = some l.proc.heap.next ∧ l.Enrolled n uMaxSizeMB l.proc.heap.next l' ∧
        l.servedBy t s env ∧ env.objectMem = true ∧ env.nodeMem = true ∧
        env.rehashMem = true) := by
  cases hmem : env.objectMem with
  | false =>
    rw [create_noMemory h.s_pAllocator h.object hkey hfind hmem] at hc
    cases hc
    refine Or.inl ⟨rfl, ⟨?_, rfl, fun _ => Iff.rfl, fun _ => rfl⟩, Or.inl rfl⟩
    exact (refused_setErrorCode (l.lldkSetErrorCode t .kNoMemory) t (by decide)).code
  | true =>
    obtain ⟨a, l₁, ho⟩ := createObject_of_create h hkey hfind hmem hc
    obtain ⟨hcounts, -, hcon⟩ := serves_of_createObject h.s_pAllocator h.object ho
    have hcounts := (countsOn_iff h.object h.id_lt).mpr hcounts
    obtain ⟨r, al, p, hr, hmade, hn, hu, ho'⟩ :=
      createObject_served h hmem hcounts hcon n uMaxSizeMB
    rw [create_eq hkey hfind ho'] at hc
    rcases createEmplace_made env h hr hmade hn hu hfind with
      ⟨hnode, hrehash, l₂, he, henrolled⟩ | ⟨hflags, l₂, he, hrefused⟩ | ⟨hnode, -, -, he⟩
    · rw [he] at hc
      cases hc
      exact Or.inr ⟨rfl, henrolled, ⟨hcounts, hcon, fun _ => Or.inl hrehash⟩, rfl, hnode, hrehash⟩
    · rw [he] at hc
      cases hc
      exact Or.inl ⟨rfl, hrefused, Or.inr ⟨hcounts, hcon, fun hn => Or.inr (hflags hn).2⟩⟩
    · rw [he] at hc
      cases hc

/-- A call that is served returns. -/
theorem create_returns (uMaxSizeMB : UInt64) (h : l.HasSingleton s self) (hkey : env.keyMem = true)
    (hfind : l.find n = none) (hserved : env.objectMem = false ∨ l.servedBy t s env) :
    ∃ q l', l.lldkCreateAllocator t (some n) uMaxSizeMB env = .ok (.ok q, l') := by
  cases hmem : env.objectMem with
  | false => exact ⟨none, _, create_noMemory h.s_pAllocator h.object hkey hfind hmem⟩
  | true =>
    obtain ⟨hcounts, hcon, hflags⟩ := hserved.resolve_left (by rw [hmem]; decide)
    obtain ⟨r, al, p, hr, hmade, hn, hu, ho⟩ :=
      createObject_served h hmem hcounts hcon n uMaxSizeMB
    rw [create_eq hkey hfind ho]
    rcases createEmplace_made env h hr hmade hn hu hfind with
      ⟨-, -, l₂, he, -⟩ | ⟨-, l₂, he, -⟩ | ⟨hnode, hrehash, hrelock, he⟩
    · exact ⟨_, l₂, by rw [he]; rfl⟩
    · exact ⟨_, l₂, by rw [he]; rfl⟩
    · rcases hflags hnode with hflag | hflag
      · rw [hrehash] at hflag
        cases hflag
      · rw [hrelock] at hflag
        cases hflag

/-- **With a singleton**, a free name: the call meets its contract iff it is served. -/
theorem createsNormally_withSingleton (h : l.HasSingleton s self) (hkey : env.keyMem = true)
    (hfind : l.find n = none) :
    l.createsNormally t (some n) uMaxSizeMB env ↔
      (env.objectMem = false ∨ l.servedBy t s env) := by
  constructor
  · rintro (⟨l', hc, -⟩ | ⟨m, a, l', -, hc, -⟩)
    · rcases create_returned h hkey hfind hc with ⟨-, -, hserved⟩ | ⟨he, -⟩
      · exact hserved
      · cases he
    · rcases create_returned h hkey hfind hc with ⟨he, -⟩ | ⟨-, -, hserved, -⟩
      · cases he
      · exact Or.inr hserved
  · intro hserved
    obtain ⟨q, l', hc⟩ := create_returns uMaxSizeMB h hkey hfind hserved
    rcases create_returned h hkey hfind hc with ⟨rfl, hrefused, -⟩ | ⟨rfl, henrolled, -⟩
    · exact Or.inl ⟨l', hc, hrefused⟩
    · exact Or.inr ⟨n, _, l', rfl, hc, henrolled⟩

end WithSingleton

/-! ## Without one -/

/-- After the construction of the singleton its record counts for the thread. -/
theorem hasSingleton_made {al : AllocatorImpl} {p : Process Object}
    (hmade : Made l.proc t none al p) :
    HasSingleton { l with proc := p, s_pAllocator := some l.proc.heap.next } l.proc.heap.next al ∧
      countsOn { l with proc := p, s_pAllocator := some l.proc.heap.next } t l.proc.heap.next := by
  refine ⟨⟨rfl, hmade.object, hmade.id_lt, (hmade.marked _).mpr (Or.inr rfl)⟩, al, hmade.object,
    hmade.hasTable, fun b hb => ?_⟩
  have he := hmade.self.symm.trans hb
  cases he
  exact ⟨_, hmade.storage⟩

/-- The singleton takes one of two ids. -/
theorem twoFreeIds_iff {al : AllocatorImpl} {p : Process Object} {r : Option Nat}
    (hmade : Made l.proc t r al p) : l.twoFreeIds ↔ p.hasFreeId := by
  constructor
  · rintro ⟨i, j, hne, ⟨hi, hfi⟩, hj, hfj⟩
    by_cases he : i = al.id
    · refine ⟨j, hj, fun hm => ?_⟩
      rcases (hmade.marked j).mp hm with hm | hm
      · exact hfj hm
      · exact hne (he.trans hm.symm)
    · refine ⟨i, hi, fun hm => ?_⟩
      rcases (hmade.marked i).mp hm with hm | hm
      · exact hfi hm
      · exact he hm
  · rintro ⟨i, hi, hfree⟩
    have hne : i ≠ al.id := fun he => hfree ((hmade.marked i).mpr (Or.inr he))
    exact ⟨i, al.id, hne, ⟨hi, fun hm => hfree ((hmade.marked i).mpr (Or.inl hm))⟩, hmade.id_lt,
      hmade.free⟩

/-- A call that returns has constructed the singleton that was not there. -/
theorem servesSingleton_of_create {q : Option Nat} (hs : l.s_pAllocator = none)
    (hkey : env.keyMem = true) (hfind : l.find n = none)
    (hc : l.lldkCreateAllocator t (some n) uMaxSizeMB env = .ok (.ok q, l')) :
    l.servesSingleton t env := by
  simp only [lldkCreateAllocator, createCheck, hkey, if_true, hfind] at hc
  obtain ⟨⟨r, l₁⟩, ho, hc⟩ := bind_eq_ok.mp hc
  obtain ⟨⟨r₁, l₂⟩, hg, ho⟩ := bind_eq_ok.mp ho
  cases r₁ with
  | error what =>
    cases ho
    cases hc
  | ok b => exact servesSingleton_of_ok hs hg

/-- **Without a singleton**, a free name: everything has to succeed, or the id of the singleton is
in use after a call that returned null. -/
theorem createsNormally_first (hs : l.s_pAllocator = none) (hkey : env.keyMem = true)
    (hfind : l.find n = none) :
    l.createsNormally t (some n) uMaxSizeMB env ↔ l.servedFirst t env := by
  constructor
  · intro hnormal
    obtain ⟨q, l', hc⟩ : ∃ q l',
        l.lldkCreateAllocator t (some n) uMaxSizeMB env = .ok (.ok q, l') := by
      rcases hnormal with ⟨l', hc, -⟩ | ⟨m, a, l', -, hc, -⟩
      · exact ⟨_, l', hc⟩
      · exact ⟨_, l', hc⟩
    have hserves := servesSingleton_of_create hs hkey hfind hc
    obtain ⟨al, p, hg, hmade, -⟩ := getSingleton_made hs hserves
    obtain ⟨hsingle, -⟩ := hasSingleton_made hmade
    have hc₁ := hc
    rw [lldkCreateAllocator_of_getSingleton hg rfl hkey hfind hfind] at hc₁
    rcases create_returned hsingle hkey hfind hc₁ with
      ⟨rfl, hrefused, -⟩ | ⟨-, -, ⟨-, hcon, -⟩, hmem, hnode, hrehash⟩
    · -- the id of the singleton shows that the call was not undone
      rcases hnormal with ⟨l'', hc', hrefused'⟩ | ⟨m, a, l'', -, hc', -⟩
      · rw [hc] at hc'
        cases hc'
        have hm := (hrefused.marked al.id).mpr ((hmade.marked al.id).mpr (Or.inr rfl))
        exact absurd ((hrefused'.marked al.id).mp hm) hmade.free
      · rw [hc] at hc'
        cases hc'
    · obtain ⟨hname, hid, hstorage, hctor, -⟩ := hcon
      exact ⟨hserves, (twoFreeIds_iff hmade).mpr hid, hmem, hname, hstorage, hctor, hnode, hrehash⟩
  · rintro ⟨hserves, htwo, hmem, hname, hstorage, hctor, hnode, hrehash⟩
    obtain ⟨al, p, hg, hmade, -⟩ := getSingleton_made hs hserves
    obtain ⟨hsingle, hcounts⟩ := hasSingleton_made hmade
    have hcon : constructs { l with proc := p, s_pAllocator := some l.proc.heap.next } t
        env.toEnv :=
      ⟨hname, (twoFreeIds_iff hmade).mp htwo, hstorage, hctor, Or.inl hmade.hasTable⟩
    obtain ⟨r, al', p', hr, hmade', hn, hu, ho⟩ :=
      createObject_served hsingle hmem hcounts hcon n uMaxSizeMB
    have hc₁ := create_eq (l := { l with proc := p, s_pAllocator := some l.proc.heap.next })
      hkey hfind ho
    rcases createEmplace_made env hsingle hr hmade' hn hu hfind with
      ⟨-, -, l₂, he, henrolled⟩ | ⟨hflags, -⟩ | ⟨-, hno, -⟩
    · rw [he] at hc₁
      refine Or.inr ⟨n, _, l₂, rfl, ?_, hfind, henrolled.s_pAllocatorMap, ?_, henrolled.live⟩
      · rw [lldkCreateAllocator_of_getSingleton hg rfl hkey hfind hfind]
        exact hc₁
      · have hnext := hmade.next
        exact Heap.fresh _ _ (by show l.proc.heap.next ≤ p.heap.next; omega)
    · rw [(hflags hnode).1] at hrehash
      cases hrehash
    · rw [hno] at hrehash
      cases hrehash

end Library

/-! ## Every state of a program -/

namespace Api

variable {s : Api}

theorem Sound.hasSingleton (h : Sound s) {b : Nat} (hb : s.lib.s_pAllocator = some b) :
    ∃ al, s.lib.HasSingleton b al := by
  obtain ⟨al, hal⟩ := h.live .singleton b hb
  obtain ⟨hlt, hm⟩ := h.marked .singleton al.id (.allocator hb hal)
  exact ⟨al, hb, hal, hlt, hm⟩

theorem createsNormally_iff (h : Sound s) (t : Tid) (pName : Option String) (uMaxSizeMB : UInt64)
    (env : CallEnv) :
    s.lib.createsNormally t pName uMaxSizeMB env ↔ s.lib.createServed t pName env := by
  cases pName with
  | none =>
    refine ⟨(fun _ n he => by cases he), fun _ => Or.inl ⟨_, rfl, ?_⟩⟩
    exact Library.refused_setErrorCode s.lib t (by decide)
  | some n =>
    cases hkey : env.keyMem with
    | false =>
      constructor
      · rintro (⟨l', hc, -⟩ | ⟨m, a, l', -, hc, -⟩)
        · simp [Library.lldkCreateAllocator, Library.createCheck, hkey] at hc
        · simp [Library.lldkCreateAllocator, Library.createCheck, hkey] at hc
      · intro hserved
        have hkey' := (hserved n rfl).1
        rw [hkey] at hkey'
        cases hkey'
    | true =>
      cases hfind : s.lib.find n with
      | some a =>
        refine ⟨fun _ m he => ?_, fun _ => Or.inl ⟨_, ?_,
          Library.refused_setErrorCode s.lib t (e := .kInvalidParam) (by decide)⟩⟩
        · cases he
          exact ⟨hkey, fun hno => by rw [hfind] at hno; cases hno⟩
        · simp only [Library.lldkCreateAllocator, Library.createCheck, hkey, if_true, hfind]
      | none =>
        cases hs : s.lib.s_pAllocator with
        | some b =>
          obtain ⟨al, hsingle⟩ := h.hasSingleton hs
          rw [Library.createsNormally_withSingleton hsingle hkey hfind]
          constructor
          · intro hserved m he
            cases he
            refine ⟨hkey, fun _ => ⟨fun c hc => ?_, fun hno => ?_⟩⟩
            · rw [hs] at hc
              cases hc
              exact hserved
            · rw [hs] at hno
              cases hno
          · exact fun hserved => ((hserved n rfl).2 hfind).1 b hs
        | none =>
          rw [Library.createsNormally_first hs hkey hfind]
          constructor
          · intro hserved m he
            cases he
            refine ⟨hkey, fun _ => ⟨fun c hc => ?_, fun _ => hserved⟩⟩
            rw [hs] at hc
            cases hc
          · exact fun hserved => ((hserved n rfl).2 hfind).2 hs

theorem singletonNormally_iff (h : Sound s) (t : Tid) (env : CallEnv) :
    s.lib.singletonNormally t env ↔ s.lib.singletonServed t env := by
  cases hs : s.lib.s_pAllocator with
  | some b =>
    refine ⟨fun _ hno => ?_, fun _ => Or.inr ⟨b, s.lib, Library.getSingleton_of_some hs t env, hs,
      rfl, h.live .singleton b hs⟩⟩
    rw [hs] at hno
    cases hno
  | none =>
    constructor
    · rintro (⟨l', hg, -⟩ | ⟨a, l', hg, -⟩) -
      · exact Library.servesSingleton_of_ok hs hg
      · exact Library.servesSingleton_of_ok hs hg
    · intro hserved
      obtain ⟨al, p, hg, hmade, -⟩ := Library.getSingleton_made hs (hserved hs)
      exact Or.inr ⟨_, _, hg, rfl, rfl, al, hmade.object⟩

/-- **In every state that a program reaches**, `lldkCreateAllocator` and
`lldkGetAllocatorSingleton` return normally iff they are served. -/
theorem normally_iff {ops : List ApiOp} {outs : List ApiOut}
    (h : run apiStep .init ops = .ok (s, outs)) :
    (∀ t pName uMaxSizeMB env,
        s.lib.createsNormally t pName uMaxSizeMB env ↔ s.lib.createServed t pName env) ∧
      ∀ t env, s.lib.singletonNormally t env ↔ s.lib.singletonServed t env :=
  ⟨createsNormally_iff (sound_run h), singletonNormally_iff (sound_run h)⟩

/-- With a singleton of another thread, a thread gets it, but creates nothing. -/
theorem normally_iff_sample :
    ∃ s outs, run apiStep .init [.getSingleton 0 {}] = .ok (s, outs) ∧
      s.lib.singletonNormally 1 {} ∧ ¬ s.lib.createsNormally 1 (some "a") 0 {} := by
  have hrun : (run apiStep .init [.getSingleton 0 {}]).toOption.any (fun r =>
      decide (r.1.lib.s_pAllocator = some 0) && decide (r.1.lib.find "a" = none) &&
        !decide (r.1.lib.proc.hasTable 1)) = true := by
    decide +kernel
  obtain ⟨⟨s, outs⟩, hs, hstate⟩ := exists_of_any hrun
  simp only [Bool.and_eq_true, decide_eq_true_eq, Bool.not_eq_true', decide_eq_false_iff_not]
    at hstate
  obtain ⟨⟨hsingle, hfind⟩, htable⟩ := hstate
  refine ⟨s, outs, hs, ((normally_iff hs).2 1 {}).mpr fun hno => ?_, fun hnormal => ?_⟩
  · rw [hsingle] at hno
    cases hno
  · have hserved := ((normally_iff hs).1 1 (some "a") 0 {}).mp hnormal "a" rfl
    rcases (hserved.2 hfind).1 0 hsingle with hno | ⟨⟨al, -, ht, -⟩, -⟩
    · cases hno
    · exact htable ht

/-- A program that constructs `k` objects of its own. -/
def constructing (k : Nat) : List ApiOp :=
  (List.range k).map fun o => .constructThreadLocal 0 o statsType {}

theorem run_constructing {k : Nat} (hk : k ≤ kMaxInstanceId) :
    ∃ s outs, run apiStep .init (constructing k) = .ok (s, outs) ∧
      (∀ j, s.lib.proc.marked j ↔ j < k) ∧ s.lib.s_pAllocator = none ∧
      s.lib.s_pAllocatorMap = [] ∧ ∀ o, k ≤ o → s.objs o = none := by
  induction k with
  | zero =>
    refine ⟨.init, [], rfl, fun j => ⟨fun hj => ?_, fun hj => by omega⟩, rfl, rfl, fun _ _ => rfl⟩
    have hb := (marked_iff.mp hj).2
    rw [show Api.init.lib.proc.s_bitset = .new from rfl, Bitset.LldkBitset.bit_new] at hb
    cases hb
  | succ k ih =>
    obtain ⟨s, outs, hrun, hmarked, hs, hmap, hobjs⟩ := ih (Nat.le_of_succ_le hk)
    have hfree : ¬ s.lib.proc.marked k := fun hm => Nat.lt_irrefl k ((hmarked k).mp hm)
    have henv : ({} : Env).serves s.lib.proc 0 := ⟨rfl, rfl, Or.inr ⟨rfl, rfl⟩⟩
    obtain ⟨p, hc, hb⟩ := LldkThreadLocal.construct_built statsType hk hfree
      (fun j hj => (hmarked j).mpr hj) henv
    have hstep : apiStep s (.constructThreadLocal 0 k statsType {}) =
        .ok (⟨s.lib.withProc p, s.blocks, Function.update s.objs k (some ⟨k⟩)⟩, .unit) := by
      simp only [apiStep, hobjs k (Nat.le_refl k), hc, ofLibrary]
      rfl
    have hone : run apiStep s [.constructThreadLocal 0 k statsType {}] = .ok
        (⟨s.lib.withProc p, s.blocks, Function.update s.objs k (some ⟨k⟩)⟩, [.unit]) := by
      simp only [run, hstep]
    refine ⟨⟨s.lib.withProc p, s.blocks, Function.update s.objs k (some ⟨k⟩)⟩, outs ++ [.unit],
      ?_, fun j => ?_, hs, hmap, fun o ho => ?_⟩
    · rw [constructing, List.range_succ, List.map_append]
      exact run_append hrun hone
    · have hj : p.marked j ↔ j < k ∨ j = k := by rw [hb.marked j, hmarked j]
      rw [Nat.lt_succ_iff_lt_or_eq]
      exact hj
    · exact (Function.update_of_ne (by omega) ..).trans (hobjs o (by omega))

/-- When a program has used all ids, an exception leaves both functions. -/
theorem all_ids_used_throws :
    ∃ s outs, run apiStep .init (constructing kMaxInstanceId) = .ok (s, outs) ∧
      (∃ l', s.lib.lldkCreateAllocator 0 (some "a") 0 {} =
        .ok (.error "Failed to create instance id", l')) ∧
      ¬ s.lib.createsNormally 0 (some "a") 0 {} ∧ ¬ s.lib.singletonNormally 0 {} := by
  obtain ⟨s, outs, hrun, hmarked, hs, hmap, -⟩ := run_constructing (Nat.le_refl kMaxInstanceId)
  have hall : ∀ j, j < kMaxInstanceId → s.lib.proc.marked j := fun j hj => (hmarked j).mpr hj
  have hfind : s.lib.find "a" = none := by
    unfold Library.find
    rw [hmap]
    rfl
  have hid : ¬ s.lib.proc.hasFreeId := by
    rintro ⟨i, hi, hfree⟩
    exact hfree (hall i hi)
  have hnew : ∃ p, s.lib.proc.newAllocator 0 "lldk.global.allocator" (CallEnv.forSingleton {}) =
      .ok (.error "Failed to create instance id", p) := by
    have hc := LldkThreadLocal.construct_exhausted statsType (p := { s.lib.proc with
      heap := (s.lib.proc.heap.alloc ⟨sizeofAllocatorImpl, sizeofAllocatorImpl, none⟩).2 })
      hall 0 {}
    simp only [newAllocator, CallEnv.forSingleton, if_true, AllocatorImpl.construct, hc]
    exact ⟨_, rfl⟩
  obtain ⟨p, hnew⟩ := hnew
  have hget : s.lib.lldkGetAllocatorSingleton 0 {} =
      .ok (.error "Failed to create instance id", s.lib.withProc p) := by
    simp only [Library.lldkGetAllocatorSingleton, hs, hnew]
    rfl
  have hcreate : s.lib.lldkCreateAllocator 0 (some "a") 0 {} =
      .ok (.error "Failed to create instance id", s.lib.withProc p) := by
    simp only [Library.lldkCreateAllocator, Library.createCheck, if_true, hfind,
      Library.createObject, hget]
    rfl
  refine ⟨s, outs, hrun, ⟨_, hcreate⟩, ?_, ?_⟩
  · rintro (⟨l', hc, -⟩ | ⟨m, a, l', -, hc, -⟩)
    · rw [hcreate] at hc
      cases hc
    · rw [hcreate] at hc
      cases hc
  · rintro (⟨l', hg, -⟩ | ⟨a, l', hg, -⟩)
    · rw [hget] at hg
      cases hg
    · rw [hget] at hg
      cases hg

end Api

end Lldk
