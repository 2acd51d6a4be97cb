import Lldk.Utilities.ThreadLocalFailures
import Lldk.Base.AllocatorImpl

/-!
What the records of an allocator say about the threads that used it.

* `Reached` is a process that any calls of the library have led to.
* `callStep` is a successful call on one allocator; its state keeps, as history, what each
  thread allocated and freed.
* `StatsExact` is what the records should be: one for each thread that made a counted call,
  under the id of that thread.
* `Kept` is the invariant: the record of the thread that constructed the allocator is there, and
  its `uTid` is 0.
* `stats_never_exact`: no run of calls ends in exact records.
* `AllocatorImpl.getAllocateStats_fills`: the records that fit a buffer are copied into it.
-/

namespace Lldk

open Lib Lib.Trace Process

/-! ## Processes -/

inductive Reached : Process Object → Prop
  | init : Reached .init
  | construct {p p' : Process Object} {T : ObjectType Object} {t : Tid} {env : Env}
      {r : Constructed} : Reached p → LldkThreadLocal.construct T p t env = .ok (r, p') → Reached p'
  | destruct {p p' : Process Object} {t : Tid} {obj : LldkThreadLocal} :
      Reached p → obj.destruct p t = .ok p' → Reached p'
  | allocate {p p' : Process Object} {t : Tid} {al : AllocatorImpl} {uSize : UInt64} {mem : Bool}
      {q : Option Nat} : Reached p → al.allocate p t uSize mem = .ok (q, p') → Reached p'
  | free {p p' : Process Object} {t : Tid} {al : AllocatorImpl} {q : Option Nat} :
      Reached p → al.free p t q = .ok p' → Reached p'
  | reAllocate {p p' : Process Object} {t : Tid} {al : AllocatorImpl} {q q' : Option Nat}
      {uSize : UInt64} {mem : Bool} {r : Realloc} :
      Reached p → al.reAllocate p t q uSize mem r = .ok (q', p') → Reached p'
  | lldkAllocate {p : Process Object} (t : Tid) (uSize : UInt64) (mem : Bool) :
      Reached p → Reached (p.lldkAllocate t uSize mem).2
  | lldkFree {p p' : Process Object} {t : Tid} {q : Option Nat} :
      Reached p → p.lldkFree t q = .ok p' → Reached p'

theorem TablesRegistered.same {p p' : Process Object} (h : TablesRegistered p)
    (hs : SameTables p p') : TablesRegistered p' :=
  h.of_same hs.s_ppInstances hs.s_vecpppInstances

theorem TablesRegistered.built {p p' : Process Object} {T : ObjectType Object} {t : Tid} {i : Nat}
    (h : TablesRegistered p) (hb : Built T p t i p') : TablesRegistered p' :=
  h.of_grown hb.hasTable hb.registered hb.first

theorem TablesRegistered.construct {p p' : Process Object} {T : ObjectType Object} {t : Tid}
    {env : Env} {r : Constructed} (h : TablesRegistered p)
    (hc : LldkThreadLocal.construct T p t env = .ok (r, p')) : TablesRegistered p' := by
  rcases LldkThreadLocal.construct_cases T hc with ⟨i, -, -, -, hb⟩ | ⟨what, -, rfl | ⟨i, ha⟩⟩
  · exact h.built hb
  · exact h
  · exact h.of_same ha.s_ppInstances ha.s_vecpppInstances

theorem Reached.tablesRegistered {p : Process Object} (h : Reached p) : TablesRegistered p := by
  induction h with
  | init =>
    rintro t ⟨table, ht⟩
    cases ht
  | construct _ hc ih => exact ih.construct hc
  | destruct _ hd ih =>
    have hp := LldkThreadLocal.destruct_destructed hd
    exact ih.of_same hp.s_ppInstances hp.s_vecpppInstances
  | allocate _ ha ih => exact ih.same (AllocatorImpl.allocate_tables ha)
  | free _ hf ih => exact ih.same (AllocatorImpl.free_tables hf)
  | reAllocate _ hr ih => exact ih.same (AllocatorImpl.reAllocate_tables hr)
  | lldkAllocate t uSize mem _ ih =>
    cases mem <;> exact ih.of_same rfl rfl
  | @lldkFree p p' t q _ hf ih =>
    cases q with
    | none =>
      cases hf
      exact ih.of_same rfl rfl
    | some a =>
      have hr := released_lldkFree hf
      exact ih.of_same hr.s_ppInstances hr.s_vecpppInstances

/-! ## Calls on one allocator -/

/-- The process, the live blocks of the allocator, and what its threads did: those that made a
counted call, and the bytes and calls of each. -/
structure Calls where
  proc : Process Object
  blocks : List Nat
  threads : List Tid
  sums : Tid → AllocateStats

inductive CallOp
  | allocate (t : Tid) (uSize : UInt64)
  | free (t : Tid) (a : Nat)
  | reAllocate (t : Tid) (pMemory : Option Nat) (uSize : UInt64) (r : Realloc)

inductive CallFault
  | library (f : Fault)
  /-- not a live block of the allocator -/
  | badBlock (a : Nat)
  /-- the call returned null -/
  | failed
  deriving DecidableEq, Repr

/-- One more counted call of thread `t`. -/
def Calls.count (s : Calls) (p : Process Object) (blocks : List Nat) (t : Tid)
    (f : AllocateStats → AllocateStats) : Calls :=
  ⟨p, blocks, t :: s.threads, Function.update s.sums t (f (s.sums t))⟩

def Calls.start (p : Process Object) : Calls := ⟨p, [], [], fun _ => .zero⟩

def callStep (al : AllocatorImpl) : Step Calls CallOp (Option Nat) CallFault
  | s, .allocate t uSize =>
    match al.allocate s.proc t uSize true with
    | .error f => .error (.library f)
    | .ok (none, _) => .error .failed
    | .ok (some q, p) => .ok (s.count p (q :: s.blocks) t (fun r => r.addAllocated uSize), some q)
  | s, .free t a =>
    if a ∈ s.blocks then
      match s.proc.heap.cells a, al.free s.proc t (some a) with
      | some b, .ok p => .ok (s.count p (s.blocks.erase a) t (fun r => r.addFreed b.uSize), none)
      | none, _ => .error (.badBlock a)
      | some _, .error f => .error (.library f)
    else .error (.badBlock a)
  | s, .reAllocate t none uSize r =>
    match al.reAllocate s.proc t none uSize true r with
    | .error f => .error (.library f)
    | .ok (none, _) => .error .failed
    | .ok (some q, p) => .ok (s.count p (q :: s.blocks) t (fun r => r.addAllocated uSize), some q)
  | s, .reAllocate t (some a) uSize r =>
    if a ∈ s.blocks then
      match s.proc.heap.cells a, al.reAllocate s.proc t (some a) uSize true r with
      | some b, .ok (some q, p) =>
        .ok (s.count p (q :: s.blocks.erase a) t
          (fun r => (r.addFreed b.uSize).addAllocated uSize), some q)
      | some _, .ok (none, _) => .error .failed
      | none, _ => .error (.badBlock a)
      | some _, .error f => .error (.library f)
    else .error (.badBlock a)

/-- One record for each thread that made a counted call, with the thread's id and what the
thread allocated and freed; their order is left open. -/
def StatsExact (lldkGetTid : Tid → UInt64) (s : Calls) (rs : List AllocateStats) : Prop :=
  ∃ ts : List Tid, ts.Nodup ∧ (∀ t, t ∈ ts ↔ t ∈ s.threads) ∧
    rs.Perm (ts.map fun t => { s.sums t with uTid := lldkGetTid t })

/-! ## The record of the constructing thread -/

/-- There is a record at `a` whose `uTid` is 0. -/
def zeroTid (p : Process Object) (a : Nat) : Prop := ∃ r, p.readStats a = some r ∧ r.uTid = 0

theorem zeroTid_congr {p p' : Process Object} {a : Nat} (h : p'.heap.cells a = p.heap.cells a)
    (hz : zeroTid p a) : zeroTid p' a := by
  obtain ⟨r, hr, h0⟩ := hz
  exact ⟨r, (readStats_congr h).trans hr, h0⟩

theorem Updated.zeroTid {p p' : Process Object} {r : Option Nat}
    {f : AllocateStats → AllocateStats} (h : Updated p r f p') (hf : ∀ s, (f s).uTid = s.uTid)
    {a : Nat} (hz : zeroTid p a) : Lldk.zeroTid p' a := by
  obtain ⟨s, hs, h0⟩ := hz
  obtain ⟨s', hs', he⟩ := h.uTid hf hs
  exact ⟨s', hs', he.trans h0⟩

theorem zeroTid_lt {p : Process Object} {a : Nat} (h : zeroTid p a) : a < p.heap.next := by
  obtain ⟨r, hr, -⟩ := h
  obtain ⟨block, hc, -⟩ := cells_of_readStats hr
  exact Heap.lt_next hc

/-- The record of the constructing thread `t₀`, at `a`, is registered, carries no thread id, and
is not one of the blocks that the allocator gave out. -/
structure Kept (al : AllocatorImpl) (t₀ : Tid) (a : Nat) (s : Calls) : Prop where
  registered : t₀ ∈ s.proc.s_vecpppInstances
  slot : s.proc.slot t₀ al.m_allocatorThreadLocal.m_uInstanceId = some a
  record : zeroTid s.proc a
  notBlock : a ∉ s.blocks

variable {al : AllocatorImpl} {t₀ : Tid} {a : Nat} {s : Calls}

theorem Kept.count (K : Kept al t₀ a s) {p : Process Object} (hs : SameTables s.proc p)
    (hz : zeroTid p a) {blocks : List Nat} (hb : a ∉ blocks) (t : Tid)
    (f : AllocateStats → AllocateStats) : Kept al t₀ a (s.count p blocks t f) where
  registered := by
    show t₀ ∈ p.s_vecpppInstances
    rw [hs.s_vecpppInstances]
    exact K.registered
  slot := (slot_congr hs.s_ppInstances _ _).trans K.slot
  record := hz
  notBlock := hb

theorem kept_allocate (K : Kept al t₀ a s) {t : Tid} {uSize : UInt64} {mem : Bool} {q : Nat}
    {p : Process Object} (h : al.allocate s.proc t uSize mem = .ok (some q, p))
    (f : AllocateStats → AllocateStats) : Kept al t₀ a (s.count p (q :: s.blocks) t f) := by
  have hlt := zeroTid_lt K.record
  have htables := AllocatorImpl.allocate_tables h
  obtain ⟨rfl, r, -, hu⟩ := AllocatorImpl.allocate_some h
  have hne : a ≠ s.proc.heap.next := Nat.ne_of_lt hlt
  have hz : zeroTid (AllocatorImpl.withBlock s.proc uSize) a :=
    zeroTid_congr (Heap.cells_alloc_ne _ hne) K.record
  refine K.count htables (hu.zeroTid (fun _ => rfl) hz) ?_ t f
  intro hin
  rcases List.mem_cons.mp hin with he | hin
  · exact hne he
  · exact K.notBlock hin

theorem kept_free (K : Kept al t₀ a s) {t : Tid} {b : Nat} (hb : b ∈ s.blocks)
    {p : Process Object} (h : al.free s.proc t (some b) = .ok p)
    (f : AllocateStats → AllocateStats) :
    Kept al t₀ a (s.count p (s.blocks.erase b) t f) := by
  have htables := AllocatorImpl.free_tables h
  obtain ⟨block, r, p₁, -, -, hu, rfl⟩ := AllocatorImpl.free_some h
  have hne : a ≠ b := by
    rintro rfl
    exact K.notBlock hb
  have hz : zeroTid p₁ a := hu.zeroTid (fun _ => rfl) K.record
  exact K.count htables (zeroTid_congr (Heap.cells_free_ne hne) hz)
    (fun hin => K.notBlock (List.mem_of_mem_erase hin)) t f

theorem kept_reAllocate (K : Kept al t₀ a s) {t : Tid} {b q : Nat} (hb : b ∈ s.blocks)
    {uSize : UInt64} {mem : Bool} {re : Realloc} {p : Process Object}
    (h : al.reAllocate s.proc t (some b) uSize mem re = .ok (some q, p))
    (f : AllocateStats → AllocateStats) :
    Kept al t₀ a (s.count p (q :: s.blocks.erase b) t f) := by
  have hlt := zeroTid_lt K.record
  have htables := AllocatorImpl.reAllocate_tables h
  obtain ⟨block, p₁, r, -, hr, -, hu⟩ := AllocatorImpl.reAllocate_some h
  obtain ⟨-, hq, hcells⟩ := AllocatorImpl.resize_some hr
  have hne : a ≠ b := by
    rintro rfl
    exact K.notBlock hb
  have hneq : a ≠ q := by
    rcases hq with rfl | rfl
    · exact hne
    · exact Nat.ne_of_lt hlt
  have hz : zeroTid p₁ a := zeroTid_congr (hcells a hne hneq) K.record
  refine K.count htables (hu.zeroTid (fun _ => rfl) hz) ?_ t f
  intro hin
  rcases List.mem_cons.mp hin with he | hin
  · exact hneq he
  · exact K.notBlock (List.mem_of_mem_erase hin)

/-- **Step lemma.** -/
theorem kept_step (K : Kept al t₀ a s) {op : CallOp} {s' : Calls} {out : Option Nat}
    (h : callStep al s op = .ok (s', out)) : Kept al t₀ a s' := by
  cases op with
  | allocate t uSize =>
    simp only [callStep] at h
    split at h
    · cases h
    · cases h
    · rename_i q p hq
      cases h
      exact kept_allocate K hq _
  | free t b =>
    simp only [callStep] at h
    split at h
    · rename_i hb
      split at h
      · rename_i block p hc hp
        cases h
        exact kept_free K hb hp _
      · cases h
      · cases h
    · cases h
  | reAllocate t pMemory uSize r =>
    cases pMemory with
    | none =>
      simp only [callStep] at h
      split at h
      · cases h
      · cases h
      · rename_i q p hq
        cases h
        have ha : al.allocate s.proc t uSize true = .ok (some q, p) := hq
        exact kept_allocate K ha _
    | some b =>
      simp only [callStep] at h
      split at h
      · rename_i hb
        split at h
        · rename_i block q p hc hp
          cases h
          exact kept_reAllocate K hb hp _
        · cases h
        · cases h
        · cases h
      · cases h

/-- The constructor leaves the record that the calls keep. -/
theorem kept_start {p₀ p : Process Object} {name : String} {env : Env} (hp₀ : Reached p₀)
    (hc : AllocatorImpl.construct p₀ t₀ name env = .ok (.ok al, p)) :
    Kept al t₀ p₀.heap.next (Calls.start p) := by
  obtain ⟨b, hobj⟩ := AllocatorImpl.construct_ok hc
  obtain ⟨-, -, rfl, hb⟩ := LldkThreadLocal.construct_object statsType hobj
  obtain ⟨block, hcell, hvalue⟩ := hb.storage
  have ht : p.hasTable t₀ := (hb.hasTable t₀).mpr (Or.inr rfl)
  exact ⟨hp₀.tablesRegistered.built hb t₀ ht, hb.self,
    ⟨.zero, readStats_of_cells hcell hvalue, rfl⟩, List.not_mem_nil⟩

/-- What `getAllocateStats` writes when it succeeds and the buffer is large enough: the records
of all storages. -/
theorem AllocatorImpl.getAllocateStats_records {p p' : Process Object} {t : Tid}
    (hi : al.m_allocatorThreadLocal.m_uInstanceId < kMaxInstanceId) {buf buf' : List AllocateStats}
    {m n : UInt32} (hm : m.toNat ≤ buf.length)
    (hall : (p.storages al.m_allocatorThreadLocal.m_uInstanceId).length ≤ m.toNat)
    (h : al.getAllocateStats p t (some buf) (some m) = .ok (0, some buf', some n, p')) :
    (p.storages al.m_allocatorThreadLocal.m_uInstanceId).map p.readStats =
      (buf'.take n.toNat).map some := by
  rcases getAllocateStats_cases hi p t hm with ⟨rs, hread, hget⟩ | ⟨a, -, -, hget⟩
  · rw [List.take_of_length_le hall] at hread
    have hlen : rs.length ≤ m.toNat := by
      have := congrArg List.length hread
      simp only [List.length_map] at this
      omega
    have hn : (UInt32.ofNat rs.length).toNat = rs.length := by
      have hlt := m.toNat_lt
      rw [UInt32.toNat_ofNat', Nat.mod_eq_of_lt (by omega)]
    rw [h] at hget
    cases hget
    rw [hread, hn, List.take_left' rfl]
  · rw [h] at hget
    cases hget

/-- **`getAllocateStats` fills the buffer up to its capacity.** With a buffer of `m` entries or
more it returns 0 and the number of records it copied: those of the first threads registered, in
their order, as many as there are and fit. The rest of the buffer and the process are as before. -/
theorem AllocatorImpl.getAllocateStats_fills {al : AllocatorImpl}
    (hi : al.m_allocatorThreadLocal.m_uInstanceId < kMaxInstanceId) (p : Process Object) (t : Tid)
    {buf : List AllocateStats} {m : UInt32} (hm : m.toNat ≤ buf.length)
    (hlive : ∀ a, a ∈ (p.storages al.m_allocatorThreadLocal.m_uInstanceId).take m.toNat →
      ∃ r, p.readStats a = some r) :
    ∃ buf' n, al.getAllocateStats p t (some buf) (some m) = .ok (0, some buf', some n, p) ∧
      n.toNat = min (p.storages al.m_allocatorThreadLocal.m_uInstanceId).length m.toNat ∧
      (buf'.take n.toNat).map some =
        ((p.storages al.m_allocatorThreadLocal.m_uInstanceId).take n.toNat).map p.readStats ∧
      buf'.drop n.toNat = buf.drop n.toNat ∧ buf'.length = buf.length := by
  rcases getAllocateStats_cases hi p t hm with ⟨rs, hread, hget⟩ | ⟨a, ha, hnone, -⟩
  · have hlen : rs.length =
        min (p.storages al.m_allocatorThreadLocal.m_uInstanceId).length m.toNat := by
      have hcopied := congrArg List.length hread
      rw [List.length_map, List.length_map, List.length_take] at hcopied
      omega
    have hn : (UInt32.ofNat rs.length).toNat = rs.length := by
      have hlt := m.toNat_lt
      rw [UInt32.toNat_ofNat', Nat.mod_eq_of_lt (by omega)]
    refine ⟨_, _, hget, hn.trans hlen, ?_, ?_, ?_⟩
    · rw [hn, List.take_left' rfl, ← hread, hlen, Nat.min_comm, ← List.take_eq_take_min]
    · rw [hn, List.drop_left' rfl]
    · rw [List.length_append, List.length_drop]
      omega
  · obtain ⟨r, hr⟩ := hlive a ha
    rw [hnone] at hr
    cases hr

/-- Thread 1 allocates 16 bytes in an allocator that thread 2 destroys. The record of thread 1 stays
in its slot, and thread 2 allocates 32 bytes in the next allocator under the same id. -/
def twoRecords : Option (AllocatorImpl × Process Object) := do
  let (a, p) ← (AllocatorImpl.construct .init 1 "a" {}).toOption
  let a ← a.toOption
  let (_, p) ← (a.allocate p 1 16 true).toOption
  let (_, p) ← (AllocatorImpl.construct p 2 "b" {}).toOption
  let p ← (a.m_allocatorThreadLocal.destruct p 2).toOption
  let (c, p) ← (AllocatorImpl.construct p 2 "c" {}).toOption
  let c ← c.toOption
  let (_, p) ← (c.allocate p 2 32 true).toOption
  some (c, p)

/-- Two records, and a buffer whose capacity is said to be one. -/
theorem AllocatorImpl.getAllocateStats_fills_sample :
    ∃ al p, twoRecords = some (al, p) ∧
      (p.storages al.m_allocatorThreadLocal.m_uInstanceId).map p.readStats =
        [some ⟨0, 16, 1, 0, 0⟩, some ⟨0, 32, 1, 0, 0⟩] ∧
      ∃ buf' n, al.getAllocateStats p 2 (some [.zero, .zero, .zero]) (some 1) =
          .ok (0, some buf', some n, p) ∧
        n.toNat = min (p.storages al.m_allocatorThreadLocal.m_uInstanceId).length 1 ∧
        (buf'.take n.toNat).map some =
          ((p.storages al.m_allocatorThreadLocal.m_uInstanceId).take n.toNat).map p.readStats ∧
        buf'.drop n.toNat = [AllocateStats.zero, .zero, .zero].drop n.toNat ∧ buf'.length = 3 := by
  have hends : twoRecords.any (fun r => decide
      (r.1.m_allocatorThreadLocal.m_uInstanceId < kMaxInstanceId ∧
        (r.2.storages r.1.m_allocatorThreadLocal.m_uInstanceId).map r.2.readStats =
          [some ⟨0, 16, 1, 0, 0⟩, some ⟨0, 32, 1, 0, 0⟩])) = true := by
    decide +kernel
  obtain ⟨⟨al, p⟩, hp, hends⟩ := (Option.any_eq_true _ _).mp hends
  obtain ⟨hi, hrecords⟩ := of_decide_eq_true hends
  refine ⟨al, p, hp, hrecords,
    AllocatorImpl.getAllocateStats_fills hi p 2 (by decide) fun a ha => ?_⟩
  -- what is read of a slot is in the list of the records
  have hin := List.mem_map_of_mem (f := p.readStats) (List.mem_of_mem_take ha)
  change p.readStats a ∈ (p.storages al.m_allocatorThreadLocal.m_uInstanceId).map p.readStats at hin
  rw [hrecords] at hin
  rcases List.mem_cons.mp hin with h | h
  · exact ⟨_, h⟩
  · exact ⟨_, List.mem_singleton.mp h⟩

end Lldk
