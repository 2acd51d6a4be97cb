import Mathlib.Algebra.Order.Ring.Nat
import Mathlib.Data.List.Nodup
import Lldk.Lib.Heap
import Lldk.Lib.Trace

/-!
`LldkUnorderedMap`: a `std::unordered_map` with a direct-mapped cache of node pointers
(`src/utilities/lldk_unordered_map.h`).

* `StdMap` is the `std::unordered_map`: the identifiers of the nodes it owns, in a heap of
  nodes. `Entry h m n k v` says that node `n` of `m` holds the pair `(k, v)`; every fact about
  the container is stated through it.
* `LldkUnorderedMap` and its operations follow the header line by line. Reading a cache slot
  whose node is gone is the fault `Fault.dangling`.
* `erase` compares the slot's key after the node was removed. `StaleRead` says what that one
  comparison sees: `traps` makes it a fault, `seesOldKey` lets it see the key the node held.
* `step` runs one call of the class.
-/

namespace Lldk.UnorderedMap

open Lib Lib.Trace

/-! ## `std::unordered_map` -/

/-- `std::pair<const Key, Value>`, the value type of the container. -/
structure Node (K V : Type) where
  first : K
  second : V
  deriving DecidableEq, Repr

abbrev NodeHeap (K V : Type) := Heap (Node K V)

structure StdMap where
  nodes : List Nat
  deriving DecidableEq, Repr

variable {K V : Type} [DecidableEq K]

/-- The node at `n` is there and its key is `key`. -/
def holdsKey (h : NodeHeap K V) (key : K) (n : Nat) : Bool :=
  match h.cells n with
  | some node => node.first = key
  | none => false

namespace StdMap

def find (h : NodeHeap K V) (m : StdMap) (key : K) : Option Nat :=
  m.nodes.find? (holdsKey h key)

/-- `insert({key, value})`: the node of the key and whether it is new. `mem` says whether the
container gets the memory of a new node; `none` is the exception it throws otherwise. -/
def insert (h : NodeHeap K V) (m : StdMap) (key : K) (value : V) (mem : Bool) :
    Option ((Nat × Bool) × NodeHeap K V × StdMap) :=
  match m.find h key with
  | some n => some ((n, false), h, m)
  | none =>
    if mem then some ((h.next, true), (h.alloc ⟨key, value⟩).2, ⟨h.next :: m.nodes⟩)
    else none

def erase (h : NodeHeap K V) (m : StdMap) (key : K) : NodeHeap K V × StdMap :=
  match m.find h key with
  | some n => (h.free n, ⟨m.nodes.erase n⟩)
  | none => (h, m)

def clear (h : NodeHeap K V) (m : StdMap) : NodeHeap K V × StdMap :=
  (h.freeAll m.nodes, ⟨[]⟩)

def size (m : StdMap) : Nat := m.nodes.length

def isEmpty (m : StdMap) : Bool := m.nodes.isEmpty

end StdMap

/-! ## `LldkUnorderedMap` -/

inductive Fault
  | dangling (n : Nat)
  | nullPointer
  deriving DecidableEq, Repr

/-- What a comparison sees of a node that the same `erase` has just removed. -/
inductive StaleRead
  | traps
  | seesOldKey
  deriving DecidableEq, Repr

structure LldkUnorderedMap (CACHE_SIZE : Nat) where
  m_arrEntries : Fin CACHE_SIZE → Option Nat
  m_uCachemissCount : UInt64
  m_mapEntries : StdMap

namespace LldkUnorderedMap

variable {CACHE_SIZE : Nat}

/-- The constructor: the cache array is zeroed. -/
def new : LldkUnorderedMap CACHE_SIZE := ⟨fun _ => none, 0, ⟨[]⟩⟩

section Operations

variable [NeZero CACHE_SIZE] (hashFunc : K → UInt64)

/-- `hashFunc(key) % CACHE_SIZE` -/
def uHash (CACHE_SIZE : Nat) [NeZero CACHE_SIZE] (hashFunc : K → UInt64) (key : K) :
    Fin CACHE_SIZE :=
  Fin.ofNat CACHE_SIZE (hashFunc key).toNat

def insert (h : NodeHeap K V) (m : LldkUnorderedMap CACHE_SIZE) (key : K) (value : V)
    (mem : Bool) : Bool × NodeHeap K V × LldkUnorderedMap CACHE_SIZE :=
  match m.m_mapEntries.insert h key value mem with
  | none => (false, h, m)
  | some ((n, true), h', entries) =>
    (true, h',
      { m with
        m_arrEntries := Function.update m.m_arrEntries (uHash CACHE_SIZE hashFunc key) (some n)
        m_mapEntries := entries })
  | some ((_, false), h', entries) => (false, h', { m with m_mapEntries := entries })

/-- The node is removed first; the slot is compared with `key` after that. -/
def erase (r : StaleRead) (h : NodeHeap K V) (m : LldkUnorderedMap CACHE_SIZE) (key : K) :
    Except Fault (NodeHeap K V × LldkUnorderedMap CACHE_SIZE) :=
  let (h', entries) := m.m_mapEntries.erase h key
  let slot := uHash CACHE_SIZE hashFunc key
  let m' := { m with m_mapEntries := entries }
  match m.m_arrEntries slot with
  | none => .ok (h', m')
  | some n =>
    -- only the node that this call removed differs between `h` and `h'`
    let seen := match r with
      | .traps => h'
      | .seesOldKey => h
    match seen.cells n with
    | none => .error (.dangling n)
    | some node =>
      if node.first = key then
        .ok (h', { m' with m_arrEntries := Function.update m.m_arrEntries slot none })
      else .ok (h', m')

/-- The lookup in the container after a cache miss. -/
def findInEntries (h : NodeHeap K V) (m : LldkUnorderedMap CACHE_SIZE) (key : K) :
    Option Nat × LldkUnorderedMap CACHE_SIZE :=
  let m' := { m with m_uCachemissCount := m.m_uCachemissCount + 1 }
  match m.m_mapEntries.find h key with
  | some n =>
    (some n,
      { m' with
        m_arrEntries := Function.update m.m_arrEntries (uHash CACHE_SIZE hashFunc key) (some n) })
  | none => (none, m')

def find (h : NodeHeap K V) (m : LldkUnorderedMap CACHE_SIZE) (key : K) :
    Except Fault (Option Nat × LldkUnorderedMap CACHE_SIZE) :=
  match m.m_arrEntries (uHash CACHE_SIZE hashFunc key) with
  | none => .ok (findInEntries hashFunc h m key)
  | some n =>
    match h.cells n with
    | none => .error (.dangling n)
    | some node =>
      if node.first = key then .ok (some n, m) else .ok (findInEntries hashFunc h m key)

def contains (h : NodeHeap K V) (m : LldkUnorderedMap CACHE_SIZE) (key : K) :
    Except Fault (Bool × LldkUnorderedMap CACHE_SIZE) :=
  match find hashFunc h m key with
  | .error e => .error e
  | .ok (p, m') => .ok (p.isSome, m')

/-- The cache is zeroed before the nodes go. -/
def clear (h : NodeHeap K V) (m : LldkUnorderedMap CACHE_SIZE) :
    NodeHeap K V × LldkUnorderedMap CACHE_SIZE :=
  let (h', entries) := m.m_mapEntries.clear h
  (h', { m with m_arrEntries := fun _ => none, m_mapEntries := entries })

/-- `(uint32_t)m_mapEntries.size()` -/
def size (m : LldkUnorderedMap CACHE_SIZE) : UInt32 := UInt32.ofNat m.m_mapEntries.size

def empty (m : LldkUnorderedMap CACHE_SIZE) : Bool := m.m_mapEntries.isEmpty

/-- How `operator[]` ends: a reference, `std::bad_alloc` out of the container, or its own
`std::runtime_error`. -/
inductive Indexed
  | ref (n : Nat)
  | badAlloc
  | runtimeError (what : String)
  deriving DecidableEq, Repr

/-- `operator[]` -/
def index [Inhabited V] (h : NodeHeap K V) (m : LldkUnorderedMap CACHE_SIZE) (key : K)
    (mem : Bool) : Except Fault (Indexed × NodeHeap K V × LldkUnorderedMap CACHE_SIZE) :=
  match find hashFunc h m key with
  | .error e => .error e
  | .ok (some n, m') => .ok (.ref n, h, m')
  | .ok (none, m') =>
    match m'.m_mapEntries.insert h key default mem with
    | none => .ok (.badAlloc, h, m')
    | some ((n, true), h', entries) =>
      .ok (.ref n, h',
        { m' with
          m_arrEntries := Function.update m'.m_arrEntries (uHash CACHE_SIZE hashFunc key) (some n)
          m_mapEntries := entries })
    | some ((_, false), h', entries) =>
      .ok (.runtimeError "Failed to insert key-value pair", h', { m' with m_mapEntries := entries })

end Operations

end LldkUnorderedMap

/-! ## One call -/

inductive MapOp (K V : Type)
  | insert (key : K) (value : V) (mem : Bool)
  | erase (key : K)
  | find (key : K)
  | contains (key : K)
  | index (key : K) (mem : Bool)
  | clear
  | size
  | empty

/-- The result of a call; `P` is what a pointer is shown as. -/
inductive Out (V P : Type)
  | unit
  | bool (b : Bool)
  | ptr (p : Option P)
  | ref (p : P)
  | threw (what : String)
  | count (n : UInt32)
  | value (v : V)
  deriving DecidableEq, Repr

/-- A heap of nodes and one map in it. -/
structure MapState (K V : Type) (CACHE_SIZE : Nat) where
  heap : NodeHeap K V
  obj : LldkUnorderedMap CACHE_SIZE

open LldkUnorderedMap in
def step [Inhabited V] {CACHE_SIZE : Nat} [NeZero CACHE_SIZE] (hashFunc : K → UInt64)
    (r : StaleRead) : Step (MapState K V CACHE_SIZE) (MapOp K V) (Out V Nat) Fault
  | ⟨h, m⟩, .insert key value mem =>
    let (b, h', m') := insert hashFunc h m key value mem
    .ok (⟨h', m'⟩, .bool b)
  | ⟨h, m⟩, .erase key =>
    match erase hashFunc r h m key with
    | .error e => .error e
    | .ok (h', m') => .ok (⟨h', m'⟩, .unit)
  | ⟨h, m⟩, .find key =>
    match find hashFunc h m key with
    | .error e => .error e
    | .ok (p, m') => .ok (⟨h, m'⟩, .ptr p)
  | ⟨h, m⟩, .contains key =>
    match contains hashFunc h m key with
    | .error e => .error e
    | .ok (b, m') => .ok (⟨h, m'⟩, .bool b)
  | ⟨h, m⟩, .index key mem =>
    match index hashFunc h m key mem with
    | .error e => .error e
    | .ok (.ref n, h', m') => .ok (⟨h', m'⟩, .ref n)
    | .ok (.badAlloc, h', m') => .ok (⟨h', m'⟩, .threw "std::bad_alloc")
    | .ok (.runtimeError w, h', m') => .ok (⟨h', m'⟩, .threw w)
  | ⟨h, m⟩, .clear =>
    let (h', m') := clear h m
    .ok (⟨h', m'⟩, .unit)
  | ⟨h, m⟩, .size => .ok (⟨h, m⟩, .count (size m))
  | ⟨h, m⟩, .empty => .ok (⟨h, m⟩, .bool (empty m))

def MapState.init {CACHE_SIZE : Nat} : MapState K V CACHE_SIZE := ⟨Heap.empty, .new⟩

/-! ## What the container holds -/

/-- Node `n` of `m` holds the pair `(k, v)`. -/
def Entry (h : NodeHeap K V) (m : StdMap) (n : Nat) (k : K) (v : V) : Prop :=
  n ∈ m.nodes ∧ h.cells n = some ⟨k, v⟩

/-- The container's own invariant: its nodes are there, once each, with different keys. -/
structure StdMap.Ok (h : NodeHeap K V) (m : StdMap) : Prop where
  nodup : m.nodes.Nodup
  live : ∀ n ∈ m.nodes, ∃ k v, Entry h m n k v
  inj : ∀ n₁ n₂ k v₁ v₂, Entry h m n₁ k v₁ → Entry h m n₂ k v₂ → n₁ = n₂

omit [DecidableEq K] in
theorem Entry.det {h : NodeHeap K V} {m : StdMap} {n : Nat} {k k' : K} {v v' : V}
    (e : Entry h m n k v) (e' : Entry h m n k' v') : k = k' ∧ v = v' := by
  have he := e.2.symm.trans e'.2
  cases he
  exact ⟨rfl, rfl⟩

omit [DecidableEq K] in
theorem Entry.lt_next {h : NodeHeap K V} {m : StdMap} {n : Nat} {k : K} {v : V}
    (e : Entry h m n k v) : n < h.next :=
  Heap.lt_next e.2

theorem holdsKey_iff {h : NodeHeap K V} {key : K} {n : Nat} :
    holdsKey h key n = true ↔ ∃ v, h.cells n = some ⟨key, v⟩ := by
  unfold holdsKey
  cases hc : h.cells n with
  | none => simp
  | some node =>
    obtain ⟨k, v⟩ := node
    simp [eq_comm]

namespace StdMap

variable {h : NodeHeap K V} {m : StdMap} {key : K}

theorem find_some_entry {n : Nat} (hf : m.find h key = some n) : ∃ v, Entry h m n key v := by
  obtain ⟨v, hv⟩ := holdsKey_iff.mp (List.find?_some hf)
  exact ⟨v, List.mem_of_find?_eq_some hf, hv⟩

theorem find_eq_none : m.find h key = none ↔ ∀ n v, ¬ Entry h m n key v := by
  constructor
  · intro hf n v e
    have hn := List.find?_eq_none.mp hf n e.1
    exact hn (holdsKey_iff.mpr ⟨v, e.2⟩)
  · intro hno
    refine List.find?_eq_none.mpr fun n hn hk => ?_
    obtain ⟨v, hv⟩ := holdsKey_iff.mp hk
    exact hno n v ⟨hn, hv⟩

theorem find_eq_some (ok : m.Ok h) {n : Nat} :
    m.find h key = some n ↔ ∃ v, Entry h m n key v := by
  refine ⟨find_some_entry, fun ⟨v, e⟩ => ?_⟩
  cases hf : m.find h key with
  | none => exact absurd e (find_eq_none.mp hf n v)
  | some n' =>
    obtain ⟨v', e'⟩ := find_some_entry hf
    rw [ok.inj n' n key v' v e' e]

omit [DecidableEq K] in
/-- A key that is absent gets a fresh node. -/
theorem entry_alloc {value : V} {n : Nat} {k : K} {v : V} (ok : m.Ok h) :
    Entry (h.alloc ⟨key, value⟩).2 ⟨h.next :: m.nodes⟩ n k v ↔
      (n = h.next ∧ k = key ∧ v = value) ∨ Entry h m n k v := by
  constructor
  · rintro ⟨hn, hc⟩
    rcases List.mem_cons.mp hn with rfl | hn
    · rw [Heap.cells_alloc_self] at hc
      cases hc
      exact Or.inl ⟨rfl, rfl, rfl⟩
    · obtain ⟨k', v', e⟩ := ok.live n hn
      rw [Heap.cells_alloc_ne _ (Nat.ne_of_lt e.lt_next)] at hc
      exact Or.inr ⟨hn, hc⟩
  · rintro (⟨rfl, rfl, rfl⟩ | e)
    · exact ⟨List.mem_cons_self .., Heap.cells_alloc_self ..⟩
    · exact ⟨List.mem_cons_of_mem _ e.1, Heap.cells_alloc_of_some _ e.2⟩

theorem ok_alloc {value : V} (ok : m.Ok h) (hf : m.find h key = none) :
    StdMap.Ok (h.alloc ⟨key, value⟩).2 ⟨h.next :: m.nodes⟩ where
  nodup := by
    refine List.nodup_cons.mpr ⟨fun hn => ?_, ok.nodup⟩
    obtain ⟨k, v, e⟩ := ok.live _ hn
    exact Nat.lt_irrefl _ e.lt_next
  live := by
    intro n hn
    rcases List.mem_cons.mp hn with rfl | hn
    · exact ⟨key, value, (entry_alloc ok).mpr (Or.inl ⟨rfl, rfl, rfl⟩)⟩
    · obtain ⟨k, v, e⟩ := ok.live n hn
      exact ⟨k, v, (entry_alloc ok).mpr (Or.inr e)⟩
  inj := by
    intro n₁ n₂ k v₁ v₂ e₁ e₂
    rcases (entry_alloc ok).mp e₁ with ⟨h₁, hk, -⟩ | e₁ <;>
      rcases (entry_alloc ok).mp e₂ with ⟨h₂, hk', -⟩ | e₂
    · rw [h₁, h₂]
    · exact absurd (hk ▸ e₂) (find_eq_none.mp hf n₂ v₂)
    · exact absurd (hk' ▸ e₁) (find_eq_none.mp hf n₁ v₁)
    · exact ok.inj n₁ n₂ k v₁ v₂ e₁ e₂

/-- Removing the node of `key` removes the entry of `key` and no other. -/
theorem entry_free {n₀ n : Nat} {k : K} {v : V} (ok : m.Ok h) (hf : m.find h key = some n₀) :
    Entry (h.free n₀) ⟨m.nodes.erase n₀⟩ n k v ↔ Entry h m n k v ∧ k ≠ key := by
  obtain ⟨v₀, e₀⟩ := find_some_entry hf
  constructor
  · rintro ⟨hn, hc⟩
    obtain ⟨hne, hn⟩ := (List.Nodup.mem_erase_iff ok.nodup).mp hn
    rw [Heap.cells_free_ne hne] at hc
    refine ⟨⟨hn, hc⟩, ?_⟩
    rintro rfl
    exact hne (ok.inj n n₀ k v v₀ ⟨hn, hc⟩ e₀)
  · rintro ⟨e, hk⟩
    have hne : n ≠ n₀ := by
      rintro rfl
      exact hk (e.det e₀).1
    exact ⟨(List.Nodup.mem_erase_iff ok.nodup).mpr ⟨hne, e.1⟩, by
      rw [Heap.cells_free_ne hne]; exact e.2⟩

theorem ok_free {n₀ : Nat} (ok : m.Ok h) (hf : m.find h key = some n₀) :
    StdMap.Ok (h.free n₀) ⟨m.nodes.erase n₀⟩ where
  nodup := ok.nodup.erase n₀
  live := by
    intro n hn
    obtain ⟨hne, hn'⟩ := (List.Nodup.mem_erase_iff ok.nodup).mp hn
    obtain ⟨k, v, e⟩ := ok.live n hn'
    obtain ⟨v₀, e₀⟩ := find_some_entry hf
    refine ⟨k, v, (entry_free ok hf).mpr ⟨e, ?_⟩⟩
    rintro rfl
    exact hne (ok.inj n n₀ k v v₀ e e₀)
  inj := by
    intro n₁ n₂ k v₁ v₂ e₁ e₂
    exact ok.inj n₁ n₂ k v₁ v₂ ((entry_free ok hf).mp e₁).1 ((entry_free ok hf).mp e₂).1

/-- After `erase(key)` the entries are those of the other keys. -/
theorem entry_erase {n : Nat} {k : K} {v : V} (ok : m.Ok h) :
    Entry (m.erase h key).1 (m.erase h key).2 n k v ↔ Entry h m n k v ∧ k ≠ key := by
  unfold erase
  cases hf : m.find h key with
  | some n₀ => exact entry_free ok hf
  | none =>
    refine ⟨fun e => ⟨e, ?_⟩, fun e => e.1⟩
    rintro rfl
    exact find_eq_none.mp hf n v e

theorem ok_erase (ok : m.Ok h) (key : K) : (m.erase h key).2.Ok (m.erase h key).1 := by
  unfold erase
  cases hf : m.find h key with
  | some n₀ => exact ok_free ok hf
  | none => exact ok

omit [DecidableEq K] in
theorem ok_nil (h : NodeHeap K V) : StdMap.Ok h ⟨[]⟩ where
  nodup := List.nodup_nil
  live := by intro n hn; cases hn
  inj := by intro n₁ n₂ k v₁ v₂ e₁ _; cases e₁.1

omit [DecidableEq K] in
theorem not_entry_nil {h : NodeHeap K V} {n : Nat} {k : K} {v : V} : ¬ Entry h ⟨[]⟩ n k v :=
  fun e => List.not_mem_nil e.1

omit [DecidableEq K] in
/-- Writing the value of one node changes that entry's value and nothing else. -/
theorem entry_write {n₀ n : Nat} {w v : V} {k : K} :
    Entry (h.modify n₀ fun node => { node with second := w }) m n k v ↔
      (n = n₀ ∧ v = w ∧ ∃ v₀, Entry h m n k v₀) ∨ (n ≠ n₀ ∧ Entry h m n k v) := by
  by_cases hn : n = n₀
  · subst hn
    constructor
    · rintro ⟨hm, hc⟩
      rw [Heap.cells_modify_self] at hc
      obtain ⟨⟨k₀, v₀⟩, hc₀, he⟩ := Option.map_eq_some_iff.mp hc
      cases he
      exact Or.inl ⟨rfl, rfl, v₀, hm, hc₀⟩
    · rintro (⟨-, rfl, v₀, hm, hc⟩ | ⟨hne, -⟩)
      · exact ⟨hm, by rw [Heap.cells_modify_self, hc]; rfl⟩
      · exact absurd rfl hne
  · constructor
    · rintro ⟨hm, hc⟩
      rw [Heap.cells_modify_ne _ hn] at hc
      exact Or.inr ⟨hn, hm, hc⟩
    · rintro (⟨he, -⟩ | ⟨-, hm, hc⟩)
      · exact absurd he hn
      · exact ⟨hm, by rw [Heap.cells_modify_ne _ hn]; exact hc⟩

omit [DecidableEq K] in
theorem ok_write (n₀ : Nat) (w : V) (ok : m.Ok h) :
    m.Ok (h.modify n₀ fun node => { node with second := w }) where
  nodup := ok.nodup
  live := by
    intro n hn
    obtain ⟨k, v, e⟩ := ok.live n hn
    by_cases he : n = n₀
    · exact ⟨k, w, entry_write.mpr (Or.inl ⟨he, rfl, v, e⟩)⟩
    · exact ⟨k, v, entry_write.mpr (Or.inr ⟨he, e⟩)⟩
  inj := by
    have old : ∀ {n k v}, Entry (h.modify n₀ fun node => { node with second := w }) m n k v →
        ∃ v', Entry h m n k v' := by
      intro n k v e
      rcases entry_write.mp e with ⟨-, -, v₀, e⟩ | ⟨-, e⟩
      · exact ⟨v₀, e⟩
      · exact ⟨v, e⟩
    intro n₁ n₂ k v₁ v₂ e₁ e₂
    obtain ⟨_, e₁'⟩ := old e₁
    obtain ⟨_, e₂'⟩ := old e₂
    exact ok.inj n₁ n₂ k _ _ e₁' e₂'

end StdMap

end Lldk.UnorderedMap
