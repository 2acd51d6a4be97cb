import Mathlib.Data.Finmap
import Lldk.Utilities.UnorderedMapInvariant

/-!
`LldkUnorderedMap` behaves as a plain map.

* `Plain` is the specification: a finite map, and for each pointer the client was given the key
  whose cell it points to, until that key is removed. `plainStep` is defined only for clients
  that use a pointer while its key is present, and only when insertion gets its memory.
* `clientStep` is the same client on the modelled class: pointers are node identifiers.
* `Refines` relates the two; `clientStep_simulates` is the step lemma, with the frame that the
  cells of other maps in the heap stay as they are (`Frame`).
* `erasesNoResident` are the steps that read no removed node: what `erase` sees of such a node does
  not matter to them (`clientStep_anyRead`).
* `lldkUnorderedMap_refines_plain`: every run of the specification is matched, result for
  result, by a run of the class that does not fault.
-/

namespace Lldk.UnorderedMap

open Lib Lib.Trace LldkUnorderedMap

/-! ## The specification -/

abbrev PlainMap (K V : Type) := Finmap fun _ : K => V

structure Plain (K V : Type) where
  map : PlainMap K V
  /-- One entry for each pointer handed out: the key whose cell it is, if it still is one. -/
  refs : List (Option K)

inductive ClientOp (K V : Type)
  | call (op : MapOp K V)
  /-- `*p` of the `i`-th pointer -/
  | read (i : Nat)
  /-- `*p = value` through the `i`-th pointer -/
  | write (i : Nat) (value : V)

/-- The specification says nothing about this use. -/
inductive Outside
  | noMemory
  | badPointer
  deriving DecidableEq, Repr

variable {K V : Type} [DecidableEq K]

/-- The pointers that survive the removal of `key`. -/
def dropKey (key : K) (refs : List (Option K)) : List (Option K) :=
  refs.map fun p => if p = some key then none else p

def plainStep [Inhabited V] : Step (Plain K V) (ClientOp K V) (Out V Unit) Outside
  | _, .call (.insert _ _ false) => .error .noMemory
  | s, .call (.insert key value true) =>
    match s.map.lookup key with
    | some _ => .ok (s, .bool false)
    | none => .ok ({ s with map := s.map.insert key value }, .bool true)
  | s, .call (.erase key) => .ok (⟨s.map.erase key, dropKey key s.refs⟩, .unit)
  | s, .call (.find key) =>
    match s.map.lookup key with
    | some _ => .ok ({ s with refs := s.refs ++ [some key] }, .ptr (some ()))
    | none => .ok ({ s with refs := s.refs ++ [none] }, .ptr none)
  | s, .call (.contains key) => .ok (s, .bool (s.map.lookup key).isSome)
  | _, .call (.index _ false) => .error .noMemory
  | s, .call (.index key true) =>
    match s.map.lookup key with
    | some _ => .ok ({ s with refs := s.refs ++ [some key] }, .ref ())
    | none => .ok (⟨s.map.insert key default, s.refs ++ [some key]⟩, .ref ())
  | s, .call .clear => .ok (⟨∅, s.refs.map fun _ => none⟩, .unit)
  | s, .call .size => .ok (s, .count (UInt32.ofNat s.map.keys.card))
  | s, .call .empty => .ok (s, .bool (s.map.keys.card = 0))
  | s, .read i =>
    match s.refs[i]? with
    | some (some key) =>
      match s.map.lookup key with
      | some v => .ok (s, .value v)
      | none => .error .badPointer
    | _ => .error .badPointer
  | s, .write i value =>
    match s.refs[i]? with
    | some (some key) =>
      match s.map.lookup key with
      | some _ => .ok ({ s with map := s.map.insert key value }, .unit)
      | none => .error .badPointer
    | _ => .error .badPointer

def Plain.init : Plain K V := ⟨∅, []⟩

/-! ## The client of the class -/

structure Client (K V : Type) (CACHE_SIZE : Nat) where
  heap : NodeHeap K V
  obj : LldkUnorderedMap CACHE_SIZE
  /-- The pointers returned so far. -/
  ptrs : List (Option Nat)

/-- The pointer that a result hands to the client. -/
def Out.pointers {V P : Type} : Out V P → List (Option P)
  | .ptr p => [p]
  | .ref p => [some p]
  | _ => []

/-- A result with its pointers hidden: only null or not null is seen. -/
def Out.hide {V P : Type} : Out V P → Out V Unit
  | .unit => .unit
  | .bool b => .bool b
  | .ptr p => .ptr (p.map fun _ => ())
  | .ref _ => .ref ()
  | .threw w => .threw w
  | .count n => .count n
  | .value v => .value v

def clientStep [Inhabited V] {CACHE_SIZE : Nat} [NeZero CACHE_SIZE] (hashFunc : K → UInt64)
    (r : StaleRead) : Step (Client K V CACHE_SIZE) (ClientOp K V) (Out V Unit) Fault
  | c, .call op =>
    match step hashFunc r ⟨c.heap, c.obj⟩ op with
    | .error e => .error e
    | .ok (s, out) => .ok (⟨s.heap, s.obj, c.ptrs ++ out.pointers⟩, out.hide)
  | c, .read i =>
    match c.ptrs[i]? with
    | some (some n) =>
      match c.heap.cells n with
      | some node => .ok (c, .value node.second)
      | none => .error (.dangling n)
    | _ => .error .nullPointer
  | c, .write i value =>
    match c.ptrs[i]? with
    | some (some n) =>
      match c.heap.cells n with
      | some _ =>
        .ok ({ c with heap := c.heap.modify n fun node => { node with second := value } }, .unit)
      | none => .error (.dangling n)
    | _ => .error .nullPointer

def Client.init {CACHE_SIZE : Nat} : Client K V CACHE_SIZE := ⟨Heap.empty, .new, []⟩

/-! ## The simulation relation -/

section Simulation

variable {CACHE_SIZE : Nat} [NeZero CACHE_SIZE] {hashFunc : K → UInt64}

structure Refines (hashFunc : K → UInt64) (c : Client K V CACHE_SIZE) (s : Plain K V) : Prop where
  inv : Inv hashFunc c.heap c.obj
  agree : ∀ k v, s.map.lookup k = some v ↔ ∃ n, Entry c.heap c.obj.m_mapEntries n k v
  lengths : c.ptrs.length = s.refs.length
  denotes : ∀ (i : Nat) k, s.refs[i]? = some (some k) →
    ∃ n v, c.ptrs[i]? = some (some n) ∧ Entry c.heap c.obj.m_mapEntries n k v

/-- What an operation on one map leaves alone: the cells that are not its nodes. -/
structure Frame (h : NodeHeap K V) (m : StdMap) (h' : NodeHeap K V) (m' : StdMap) : Prop where
  next : h.next ≤ h'.next
  others : ∀ a, a < h.next → a ∉ m.nodes → h'.cells a = h.cells a
  nodes : ∀ n ∈ m'.nodes, n ∈ m.nodes ∨ h.next ≤ n

omit [DecidableEq K] in
theorem Frame.refl (h : NodeHeap K V) (m : StdMap) : Frame h m h m :=
  ⟨Nat.le_refl _, fun _ _ _ => rfl, fun _ hn => Or.inl hn⟩

omit [DecidableEq K] in
theorem frame_alloc (h : NodeHeap K V) (m : StdMap) (node : Node K V) :
    Frame h m (h.alloc node).2 ⟨h.next :: m.nodes⟩ where
  next := Nat.le_succ _
  others := fun a ha _ => Heap.cells_alloc_ne _ (Nat.ne_of_lt ha)
  nodes := by
    intro n hn
    rcases List.mem_cons.mp hn with rfl | hn
    · exact Or.inr (Nat.le_refl _)
    · exact Or.inl hn

theorem frame_erase (h : NodeHeap K V) (m : StdMap) (key : K) :
    Frame h m (m.erase h key).1 (m.erase h key).2 := by
  unfold StdMap.erase
  cases hf : m.find h key with
  | none => exact Frame.refl h m
  | some n₀ =>
    obtain ⟨v, e⟩ := StdMap.find_some_entry hf
    refine ⟨Nat.le_refl _, fun a _ hna => ?_, fun n hn => Or.inl (List.mem_of_mem_erase hn)⟩
    have hne : a ≠ n₀ := by
      rintro rfl
      exact hna e.1
    exact Heap.cells_free_ne hne

omit [DecidableEq K] in
theorem frame_clear (h : NodeHeap K V) (m : StdMap) : Frame h m (m.clear h).1 (m.clear h).2 where
  next := by simp [StdMap.clear]
  others := fun _ _ hna => Heap.cells_freeAll_of_notMem hna
  nodes := by intro n hn; cases hn

omit [DecidableEq K] in
theorem frame_write {h : NodeHeap K V} {m : StdMap} {n : Nat} (hn : n ∈ m.nodes)
    (f : Node K V → Node K V) : Frame h m (h.modify n f) m where
  next := Nat.le_refl _
  others := by
    intro a _ hna
    have hne : a ≠ n := by
      rintro rfl
      exact hna hn
    exact Heap.cells_modify_ne f hne
  nodes := fun _ hm => Or.inl hm

namespace Refines

variable {c : Client K V CACHE_SIZE} {s : Plain K V}

theorem find_of_lookup (R : Refines hashFunc c s) {key : K} {v : V}
    (hl : s.map.lookup key = some v) :
    ∃ n, c.obj.m_mapEntries.find c.heap key = some n ∧ Entry c.heap c.obj.m_mapEntries n key v := by
  obtain ⟨n, e⟩ := (R.agree key v).mp hl
  exact ⟨n, (StdMap.find_eq_some R.inv.entries).mpr ⟨v, e⟩, e⟩

theorem find_of_lookup_none (R : Refines hashFunc c s) {key : K}
    (hl : s.map.lookup key = none) : c.obj.m_mapEntries.find c.heap key = none := by
  apply StdMap.find_eq_none.mpr
  intro n v e
  rw [(R.agree key v).mpr ⟨n, e⟩] at hl
  cases hl

/-- The container has as many nodes as the map has keys. -/
theorem length_eq_card (R : Refines hashFunc c s) :
    c.obj.m_mapEntries.nodes.length = s.map.keys.card := by
  have hkey : ∀ n ∈ c.obj.m_mapEntries.nodes.toFinset,
      ∃ k v, Entry c.heap c.obj.m_mapEntries n k v :=
    fun n hn => R.inv.entries.live n (List.mem_toFinset.mp hn)
  rw [← List.toFinset_card_of_nodup R.inv.entries.nodup]
  refine Finset.card_bij (fun n hn => (hkey n hn).choose) ?_ ?_ ?_
  · intro n hn
    obtain ⟨v, e⟩ := (hkey n hn).choose_spec
    exact Finmap.mem_keys.mpr (Finmap.mem_of_lookup_eq_some ((R.agree _ v).mpr ⟨n, e⟩))
  · intro n₁ hn₁ n₂ hn₂ he
    obtain ⟨v₁, e₁⟩ := (hkey n₁ hn₁).choose_spec
    obtain ⟨v₂, e₂⟩ := (hkey n₂ hn₂).choose_spec
    rw [he] at e₁
    exact R.inv.entries.inj n₁ n₂ _ v₁ v₂ e₁ e₂
  · intro k hk
    obtain ⟨v, hl⟩ := Finmap.mem_iff.mp (Finmap.mem_keys.mp hk)
    obtain ⟨n, e⟩ := (R.agree k v).mp hl
    have hn : n ∈ c.obj.m_mapEntries.nodes.toFinset := List.mem_toFinset.mpr e.1
    obtain ⟨v', e'⟩ := (hkey n hn).choose_spec
    exact ⟨n, hn, (e'.det e).1⟩

/-- The relation after a call that leaves the container alone and hands out no pointer. -/
theorem of_same (R : Refines hashFunc c s) {m : LldkUnorderedMap CACHE_SIZE}
    (hi : Inv hashFunc c.heap m) (hm : m.m_mapEntries = c.obj.m_mapEntries) :
    Refines hashFunc { c with obj := m } s where
  inv := hi
  agree := by rw [hm]; exact R.agree
  lengths := R.lengths
  denotes := by rw [hm]; exact R.denotes

/-- Handing out a pointer to the cell of a key, or a null pointer. -/
theorem push (R : Refines hashFunc c s) (p : Option Nat) (q : Option K)
    (hpq : ∀ k, q = some k → ∃ n v, p = some n ∧ Entry c.heap c.obj.m_mapEntries n k v) :
    Refines hashFunc { c with ptrs := c.ptrs ++ [p] } { s with refs := s.refs ++ [q] } where
  inv := R.inv
  agree := R.agree
  lengths := by simp [R.lengths]
  denotes := by
    intro i k hk
    by_cases hi : i < s.refs.length
    · rw [List.getElem?_append_left hi] at hk
      obtain ⟨n, v, hp, e⟩ := R.denotes i k hk
      exact ⟨n, v, by rw [List.getElem?_append_left (R.lengths ▸ hi)]; exact hp, e⟩
    · rw [List.getElem?_append_right (by omega)] at hk
      have h0 : i - s.refs.length = 0 := by
        cases hd : i - s.refs.length with
        | zero => rfl
        | succ j => rw [hd] at hk; simp at hk
      rw [h0] at hk
      obtain ⟨n, v, hp, e⟩ := hpq k (by simpa using hk)
      refine ⟨n, v, ?_, e⟩
      rw [List.getElem?_append_right (by rw [R.lengths]; omega), R.lengths, h0, hp]
      rfl

/-- A fresh node for a key that was absent. -/
theorem alloc (R : Refines hashFunc c s) {key : K} (value : V)
    (hf : c.obj.m_mapEntries.find c.heap key = none) :
    Refines hashFunc
      { c with
        heap := (c.heap.alloc ⟨key, value⟩).2
        obj := withNew hashFunc c.heap c.obj key }
      { s with map := s.map.insert key value } where
  inv := R.inv.withNew value hf
  agree := by
    intro k v
    by_cases hk : k = key
    · subst hk
      rw [Finmap.lookup_insert]
      constructor
      · intro hv
        cases hv
        exact ⟨_, (StdMap.entry_alloc R.inv.entries).mpr (Or.inl ⟨rfl, rfl, rfl⟩)⟩
      · rintro ⟨n, e⟩
        rcases (StdMap.entry_alloc R.inv.entries).mp e with ⟨-, -, rfl⟩ | e
        · rfl
        · exact absurd e (StdMap.find_eq_none.mp hf n v)
    · rw [Finmap.lookup_insert_of_ne _ hk, R.agree k v]
      constructor
      · rintro ⟨n, e⟩
        exact ⟨n, (StdMap.entry_alloc R.inv.entries).mpr (Or.inr e)⟩
      · rintro ⟨n, e⟩
        rcases (StdMap.entry_alloc R.inv.entries).mp e with ⟨-, he, -⟩ | e
        · exact absurd he hk
        · exact ⟨n, e⟩
  lengths := R.lengths
  denotes := by
    intro i k hk
    obtain ⟨n, v, hp, e⟩ := R.denotes i k hk
    exact ⟨n, v, hp, (StdMap.entry_alloc R.inv.entries).mpr (Or.inr e)⟩

theorem erase (R : Refines hashFunc c s) (key : K) :
    Refines hashFunc
      { c with
        heap := (c.obj.m_mapEntries.erase c.heap key).1
        obj := withErased hashFunc c.heap c.obj key }
      ⟨s.map.erase key, dropKey key s.refs⟩ where
  inv := R.inv.withErased key
  agree := by
    intro k v
    have he : (∃ n, Entry (c.obj.m_mapEntries.erase c.heap key).1
        (c.obj.m_mapEntries.erase c.heap key).2 n k v) ↔
        (∃ n, Entry c.heap c.obj.m_mapEntries n k v) ∧ k ≠ key := by
      simp only [StdMap.entry_erase R.inv.entries, exists_and_right]
    refine Iff.trans ?_ he.symm
    by_cases hk : k = key
    · subst hk
      simp [Finmap.lookup_erase]
    · rw [Finmap.lookup_erase_ne hk, R.agree k v]
      exact ⟨fun h => ⟨h, hk⟩, fun h => h.1⟩
  lengths := by simp [dropKey, R.lengths]
  denotes := by
    intro i k hk
    obtain ⟨p, hp, hpk⟩ : ∃ p, s.refs[i]? = some p ∧
        (if p = some key then none else p) = some k := by
      simpa [dropKey, List.getElem?_map] using hk
    by_cases hpkey : p = some key
    · rw [if_pos hpkey] at hpk
      cases hpk
    · rw [if_neg hpkey] at hpk
      subst hpk
      obtain ⟨n, v, hn, e⟩ := R.denotes i k hp
      have hne : k ≠ key := fun he => hpkey (by rw [he])
      exact ⟨n, v, hn, (StdMap.entry_erase R.inv.entries).mpr ⟨e, hne⟩⟩

theorem clear (R : Refines hashFunc c s) :
    Refines hashFunc
      { c with
        heap := (LldkUnorderedMap.clear c.heap c.obj).1
        obj := (LldkUnorderedMap.clear c.heap c.obj).2 }
      ⟨∅, s.refs.map fun _ => none⟩ where
  inv := Inv.cleared _ _
  agree := by
    intro k v
    rw [Finmap.lookup_empty]
    constructor
    · intro h; cases h
    · rintro ⟨n, e⟩
      exact absurd e StdMap.not_entry_nil
  lengths := by simp [R.lengths]
  denotes := by
    intro i k hk
    rw [List.getElem?_map] at hk
    cases hr : s.refs[i]? <;> simp [hr] at hk

/-- A write through a pointer to the cell of `key`. -/
theorem write (R : Refines hashFunc c s) {key : K} {n : Nat} {v₀ : V}
    (e₀ : Entry c.heap c.obj.m_mapEntries n key v₀) (value : V) :
    Refines hashFunc
      { c with heap := c.heap.modify n fun node => { node with second := value } }
      { s with map := s.map.insert key value } where
  inv := {
    entries := StdMap.ok_write n value R.inv.entries
    cache := by
      intro i n' hn
      obtain ⟨k, v, e, hk⟩ := R.inv.cache i n' hn
      by_cases hnn : n' = n
      · exact ⟨k, value, StdMap.entry_write.mpr (Or.inl ⟨hnn, rfl, v, e⟩), hk⟩
      · exact ⟨k, v, StdMap.entry_write.mpr (Or.inr ⟨hnn, e⟩), hk⟩ }
  agree := by
    intro k v
    by_cases hk : k = key
    · subst hk
      rw [Finmap.lookup_insert]
      constructor
      · intro hv
        cases hv
        exact ⟨n, StdMap.entry_write.mpr (Or.inl ⟨rfl, rfl, v₀, e₀⟩)⟩
      · rintro ⟨n', e⟩
        rcases StdMap.entry_write.mp e with ⟨-, rfl, -⟩ | ⟨hne, e⟩
        · rfl
        · exact absurd (R.inv.entries.inj _ _ _ _ _ e e₀) hne
    · rw [Finmap.lookup_insert_of_ne _ hk, R.agree k v]
      constructor
      · rintro ⟨n', e⟩
        have hne : n' ≠ n := by
          rintro rfl
          exact hk (e.det e₀).1
        exact ⟨n', StdMap.entry_write.mpr (Or.inr ⟨hne, e⟩)⟩
      · rintro ⟨n', e⟩
        rcases StdMap.entry_write.mp e with ⟨rfl, -, v', e⟩ | ⟨-, e⟩
        · exact absurd (e.det e₀).1 hk
        · exact ⟨n', e⟩
  lengths := R.lengths
  denotes := by
    intro i k hk
    obtain ⟨n', v, hp, e⟩ := R.denotes i k hk
    by_cases hnn : n' = n
    · exact ⟨n', value, hp, StdMap.entry_write.mpr (Or.inl ⟨hnn, rfl, v, e⟩)⟩
    · exact ⟨n', v, hp, StdMap.entry_write.mpr (Or.inr ⟨hnn, e⟩)⟩

end Refines

/-! ## The step lemma -/

variable [Inhabited V]

/-- A call on the class, told from the specification's side. -/
theorem call_simulates {c : Client K V CACHE_SIZE} {s s' : Plain K V} {op : MapOp K V}
    {out : Out V Unit} (R : Refines hashFunc c s) (h : plainStep s (.call op) = .ok (s', out)) :
    ∃ c', clientStep hashFunc .seesOldKey c (.call op) = .ok (c', out) ∧ Refines hashFunc c' s' ∧
      Frame c.heap c.obj.m_mapEntries c'.heap c'.obj.m_mapEntries := by
  obtain ⟨heap, obj, ptrs⟩ := c
  have hi : Inv hashFunc heap obj := R.inv
  -- a lookup changes only the cache and the counter
  have hlook : ∀ key, Refines hashFunc ⟨heap, looked hashFunc heap obj key, ptrs⟩ s :=
    fun key => R.of_same (hi.refill key _) rfl
  cases op with
  | insert key value mem =>
    cases mem with
    | false => cases h
    | true =>
      cases hl : s.map.lookup key with
      | some v =>
        simp only [plainStep, hl] at h
        cases h
        obtain ⟨n, hf, -⟩ := R.find_of_lookup hl
        refine ⟨⟨heap, obj, ptrs⟩, ?_, R, Frame.refl _ _⟩
        simp [clientStep, step_insert_present hf, Out.pointers, Out.hide]
      | none =>
        simp only [plainStep, hl] at h
        cases h
        have hf := R.find_of_lookup_none hl
        refine ⟨_, ?_, R.alloc value hf, frame_alloc _ _ _⟩
        simp [clientStep, step_insert_new hf, Out.pointers, Out.hide]
  | erase key =>
    cases h
    refine ⟨_, ?_, R.erase key, frame_erase _ _ _⟩
    simp [clientStep, step_erase hi, Out.pointers, Out.hide]
  | find key =>
    cases hl : s.map.lookup key with
    | some v =>
      simp only [plainStep, hl] at h
      cases h
      obtain ⟨n, hf, e⟩ := R.find_of_lookup hl
      refine ⟨_, ?_, (hlook key).push (some n) (some key) ?_, Frame.refl _ _⟩
      · simp [clientStep, step_find hi, hf, Out.pointers, Out.hide]
      · rintro k hk
        cases hk
        exact ⟨n, v, rfl, e⟩
    | none =>
      simp only [plainStep, hl] at h
      cases h
      have hf := R.find_of_lookup_none hl
      refine ⟨_, ?_, (hlook key).push none none (by intro k hk; cases hk), Frame.refl _ _⟩
      simp [clientStep, step_find hi, hf, Out.pointers, Out.hide]
  | contains key =>
    cases h
    have hsome : (obj.m_mapEntries.find heap key).isSome = (s.map.lookup key).isSome := by
      cases hl : s.map.lookup key with
      | some v => obtain ⟨n, hf, -⟩ := R.find_of_lookup hl; simp only [hf, Option.isSome_some]
      | none => have hf := R.find_of_lookup_none hl; simp only [hf, Option.isSome_none]
    refine ⟨_, ?_, hlook key, Frame.refl _ _⟩
    simp [clientStep, step_contains hi, hsome, Out.pointers, Out.hide]
  | index key mem =>
    cases mem with
    | false => cases h
    | true =>
      cases hl : s.map.lookup key with
      | some v =>
        simp only [plainStep, hl] at h
        cases h
        obtain ⟨n, hf, e⟩ := R.find_of_lookup hl
        refine ⟨_, ?_, (hlook key).push (some n) (some key) ?_, Frame.refl _ _⟩
        · simp [clientStep, step_index_present hi hf, Out.pointers, Out.hide]
        · rintro k hk
          cases hk
          exact ⟨n, v, rfl, e⟩
      | none =>
        simp only [plainStep, hl] at h
        cases h
        have hf := R.find_of_lookup_none hl
        refine ⟨_, ?_, ((hlook key).alloc default hf).push (some heap.next) (some key) ?_,
          frame_alloc _ _ _⟩
        · simp [clientStep, step_index_new hi hf, Out.pointers, Out.hide]
        · rintro k hk
          cases hk
          exact ⟨_, default, rfl,
            (StdMap.entry_alloc hi.entries).mpr (Or.inl ⟨rfl, rfl, rfl⟩)⟩
  | clear =>
    cases h
    refine ⟨_, ?_, R.clear, frame_clear _ _⟩
    simp [clientStep, step, Out.pointers, Out.hide]
  | size =>
    cases h
    refine ⟨_, ?_, R, Frame.refl _ _⟩
    have hc : obj.m_mapEntries.nodes.length = s.map.keys.card := R.length_eq_card
    simp [clientStep, step, LldkUnorderedMap.size, StdMap.size, hc, Out.pointers, Out.hide]
  | empty =>
    cases h
    refine ⟨_, ?_, R, Frame.refl _ _⟩
    have hc : obj.m_mapEntries.nodes.length = s.map.keys.card := R.length_eq_card
    have he : obj.m_mapEntries.nodes.isEmpty = decide (s.map.keys.card = 0) := by
      rw [← hc]
      cases obj.m_mapEntries.nodes <;> simp
    simp [clientStep, step, LldkUnorderedMap.empty, StdMap.isEmpty, he, Out.pointers, Out.hide]

/-- **Step lemma.** Every step of the specification is matched by one on the class. -/
theorem clientStep_simulates {c : Client K V CACHE_SIZE} {s s' : Plain K V} {op : ClientOp K V}
    {out : Out V Unit} (R : Refines hashFunc c s) (h : plainStep s op = .ok (s', out)) :
    ∃ c', clientStep hashFunc .seesOldKey c op = .ok (c', out) ∧ Refines hashFunc c' s' ∧
      Frame c.heap c.obj.m_mapEntries c'.heap c'.obj.m_mapEntries := by
  cases op with
  | call op => exact call_simulates R h
  | read i =>
    cases hr : s.refs[i]? with
    | none => simp [plainStep, hr] at h
    | some p =>
      cases p with
      | none => simp [plainStep, hr] at h
      | some key =>
        cases hl : s.map.lookup key with
        | none => simp [plainStep, hr, hl] at h
        | some v =>
          simp only [plainStep, hr, hl] at h
          cases h
          obtain ⟨n, v', hp, e⟩ := R.denotes i key hr
          have hv : v' = v := by
            have := (R.agree key v').mpr ⟨n, e⟩
            rw [hl] at this
            cases this
            rfl
          subst hv
          refine ⟨c, ?_, R, Frame.refl _ _⟩
          simp only [clientStep, hp, e.2]
  | write i value =>
    cases hr : s.refs[i]? with
    | none => simp [plainStep, hr] at h
    | some p =>
      cases p with
      | none => simp [plainStep, hr] at h
      | some key =>
        cases hl : s.map.lookup key with
        | none => simp [plainStep, hr, hl] at h
        | some v =>
          simp only [plainStep, hr, hl] at h
          cases h
          obtain ⟨n, v', hp, e⟩ := R.denotes i key hr
          refine ⟨_, ?_, R.write e value, frame_write e.1 _⟩
          simp only [clientStep, hp, e.2]

/-! ## Which steps read a removed node -/

/-- The client's operation erases no key that is resident in its slot. -/
def erasesNoResident (hashFunc : K → UInt64) (c : Client K V CACHE_SIZE) : ClientOp K V → Prop
  | .call op => erasesResident hashFunc ⟨c.heap, c.obj⟩ op = false
  | _ => True

instance (c : Client K V CACHE_SIZE) (op : ClientOp K V) :
    Decidable (erasesNoResident hashFunc c op) := by
  unfold erasesNoResident
  cases op <;> infer_instance

theorem clientStep_anyRead (r : StaleRead) {c : Client K V CACHE_SIZE} {op : ClientOp K V}
    (hi : Inv hashFunc c.heap c.obj) (hr : erasesNoResident hashFunc c op) :
    clientStep hashFunc r c op = clientStep hashFunc .seesOldKey c op := by
  cases r with
  | seesOldKey => rfl
  | traps =>
    cases op with
    | call op => simp only [clientStep, step_traps ⟨c.heap, c.obj⟩ op hi hr]
    | read i => rfl
    | write i value => rfl

theorem clientStep_traps_resident {c : Client K V CACHE_SIZE} {op : ClientOp K V}
    (hi : Inv hashFunc c.heap c.obj) (hr : ¬ erasesNoResident hashFunc c op) :
    ∃ n, clientStep hashFunc .traps c op = .error (.dangling n) := by
  cases op with
  | call op =>
    obtain ⟨n, he⟩ := step_traps_resident ⟨c.heap, c.obj⟩ op hi (Bool.of_not_eq_false hr)
    exact ⟨n, by simp only [clientStep, he]⟩
  | read i => exact absurd trivial hr
  | write i value => exact absurd trivial hr

omit [Inhabited V] in
theorem refines_init :
    Refines hashFunc (Client.init : Client K V CACHE_SIZE) (Plain.init : Plain K V) where
  inv := Inv.new _
  agree := by
    intro k v
    rw [Plain.init, Finmap.lookup_empty]
    constructor
    · intro h; cases h
    · rintro ⟨n, e⟩
      exact absurd e StdMap.not_entry_nil
  lengths := rfl
  denotes := by intro i k hk; simp [Plain.init] at hk

/-- **The class is a plain map.** Whatever calls, reads and writes a client of the plain map
makes, the class returns the same results, without a fault, and holds the same contents. -/
theorem lldkUnorderedMap_refines_plain (hashFunc : K → UInt64) (ops : List (ClientOp K V))
    (s : Plain K V) (outs : List (Out V Unit))
    (h : run plainStep Plain.init ops = .ok (s, outs)) :
    ∃ c : Client K V CACHE_SIZE,
      run (clientStep hashFunc .seesOldKey) Client.init ops = .ok (c, outs) ∧
      ∀ k v, s.map.lookup k = some v ↔ ∃ n, Entry c.heap c.obj.m_mapEntries n k v := by
  have hsim : ∀ (c : Client K V CACHE_SIZE) s op s' out, Refines hashFunc c s →
      plainStep s op = .ok (s', out) →
      ∃ c', clientStep hashFunc .seesOldKey c op = .ok (c', out) ∧ Refines hashFunc c' s' := by
    intro c s op s' out R hs
    obtain ⟨c', hc, R', -⟩ := clientStep_simulates R hs
    exact ⟨c', hc, R'⟩
  obtain ⟨c, hr, R⟩ := run_simulates (Refines hashFunc) hsim refines_init h
  exact ⟨c, hr, R.agree⟩

/-- Keys 1, 3 and 5 share the slot; the pointer to the cell of 1 stays good all along. -/
theorem lldkUnorderedMap_refines_plain_sample :
    ∃ (s : Plain Nat Nat) (c : Client Nat Nat 2),
      run (clientStep (fun key : Nat => key.toUInt64) .seesOldKey) Client.init
          [.call (.insert 1 10 true), .call (.insert 3 30 true), .call (.insert 1 99 true),
            .call (.find 1), .write 0 11, .call (.index 5 true), .call (.erase 3),
            .call (.find 3), .call (.find 1), .read 3, .call .size] =
        .ok (c, [.bool true, .bool true, .bool false, .ptr (some ()), .unit, .ref (), .unit,
          .ptr none, .ptr (some ()), .value 11, .count 2]) ∧
      ∀ k v, s.map.lookup k = some v ↔ ∃ n, Entry c.heap c.obj.m_mapEntries n k v :=
  ⟨_, lldkUnorderedMap_refines_plain _ _ _ _ rfl⟩

end Simulation

end Lldk.UnorderedMap
