import Lldk.Utilities.UnorderedMap

/-!
The cache invariant of `LldkUnorderedMap`.

* `Inv`: the container is well formed and every non-null cache slot points to one of its nodes,
  in the slot its key hashes to.
* One lemma for each operation (`find_spec`, `erase_spec`, `insert_new`, `index_new`, ...) says
  what it returns and which state it leaves; `step_inv` collects that no call faults and that
  every call keeps `Inv`.
* `slots_point_into_map`: the invariant over every run.
* `runs_iff_no_resident_erase`: with the stale read of `erase` trapped, a run goes through iff
  none of its steps erases the resident key of a slot.
-/

namespace Lldk.UnorderedMap

open Lib Lib.Trace LldkUnorderedMap

section

variable {K V : Type} [DecidableEq K] {CACHE_SIZE : Nat} [NeZero CACHE_SIZE]
  (hashFunc : K → UInt64)

structure Inv (h : NodeHeap K V) (m : LldkUnorderedMap CACHE_SIZE) : Prop where
  entries : m.m_mapEntries.Ok h
  cache : ∀ i n, m.m_arrEntries i = some n →
    ∃ k v, Entry h m.m_mapEntries n k v ∧ uHash CACHE_SIZE hashFunc k = i

/-- `key` is the key of the node in its own slot. -/
def resident (h : NodeHeap K V) (m : LldkUnorderedMap CACHE_SIZE) (key : K) : Bool :=
  match m.m_arrEntries (uHash CACHE_SIZE hashFunc key) with
  | some n => holdsKey h key n
  | none => false

/-- The cache after a lookup of `key` that ended with `p`. -/
def refill (m : LldkUnorderedMap CACHE_SIZE) (key : K) (p : Option Nat) :
    Fin CACHE_SIZE → Option Nat :=
  match p with
  | some n => Function.update m.m_arrEntries (uHash CACHE_SIZE hashFunc key) (some n)
  | none => m.m_arrEntries

/-- The miss counter after a lookup of `key`. -/
def missAfter (h : NodeHeap K V) (m : LldkUnorderedMap CACHE_SIZE) (key : K) : UInt64 :=
  if resident hashFunc h m key then m.m_uCachemissCount else m.m_uCachemissCount + 1

variable {hashFunc} {h : NodeHeap K V} {m : LldkUnorderedMap CACHE_SIZE}

/-- A resident key is in the map, under the node that its slot points to. -/
theorem Inv.of_resident (hi : Inv hashFunc h m) {key : K} (hr : resident hashFunc h m key = true) :
    ∃ n, m.m_arrEntries (uHash CACHE_SIZE hashFunc key) = some n ∧
      m.m_mapEntries.find h key = some n := by
  unfold resident at hr
  cases hs : m.m_arrEntries (uHash CACHE_SIZE hashFunc key) with
  | none => rw [hs] at hr; cases hr
  | some n =>
    rw [hs] at hr
    obtain ⟨v, hv⟩ := holdsKey_iff.mp hr
    obtain ⟨k, v', e, -⟩ := hi.cache _ _ hs
    have hn : Entry h m.m_mapEntries n key v := ⟨e.1, hv⟩
    exact ⟨n, rfl, (StdMap.find_eq_some hi.entries).mpr ⟨v, hn⟩⟩

/-! ## Lookup -/

theorem findInEntries_eq (h : NodeHeap K V) (m : LldkUnorderedMap CACHE_SIZE) (key : K) :
    findInEntries hashFunc h m key = (m.m_mapEntries.find h key,
      { m with
        m_arrEntries := refill hashFunc m key (m.m_mapEntries.find h key)
        m_uCachemissCount := m.m_uCachemissCount + 1 }) := by
  unfold findInEntries refill
  cases m.m_mapEntries.find h key <;> rfl

/-- **Lookup.** Cache or no cache, `find` returns the node of the key in the map. -/
theorem find_spec (hi : Inv hashFunc h m) (key : K) :
    find hashFunc h m key = .ok (m.m_mapEntries.find h key,
      { m with
        m_arrEntries := refill hashFunc m key (m.m_mapEntries.find h key)
        m_uCachemissCount := missAfter hashFunc h m key }) := by
  cases hr : resident hashFunc h m key with
  | true =>
    obtain ⟨n, hs, hf⟩ := hi.of_resident hr
    obtain ⟨v, e⟩ := StdMap.find_some_entry hf
    have hsame : refill hashFunc m key (some n) = m.m_arrEntries := by
      simp only [refill]
      rw [← hs, Function.update_eq_self]
    have hmiss : missAfter hashFunc h m key = m.m_uCachemissCount := by simp [missAfter, hr]
    rw [hf, hsame, hmiss]
    simp only [find, hs, e.2, if_true]
  | false =>
    have hmiss : missAfter hashFunc h m key = m.m_uCachemissCount + 1 := by simp [missAfter, hr]
    rw [hmiss, ← findInEntries_eq]
    unfold find
    cases hs : m.m_arrEntries (uHash CACHE_SIZE hashFunc key) with
    | none => rfl
    | some n =>
      obtain ⟨k, v, e, -⟩ := hi.cache _ _ hs
      have hne : k ≠ key := by
        rintro rfl
        simp [resident, hs, holdsKey, e.2] at hr
      simp only [e.2, hne, if_false]

/-- A lookup keeps the invariant: it can only point the key's slot at the key's own node. -/
theorem Inv.refill (hi : Inv hashFunc h m) (key : K) (c : UInt64) :
    Inv hashFunc h
      { m with
        m_arrEntries := refill hashFunc m key (m.m_mapEntries.find h key)
        m_uCachemissCount := c } where
  entries := hi.entries
  cache := by
    intro i n hn
    cases hf : m.m_mapEntries.find h key with
    | none =>
      rw [hf] at hn
      exact hi.cache i n hn
    | some n₀ =>
      rw [hf] at hn
      by_cases hslot : i = uHash CACHE_SIZE hashFunc key
      · subst hslot
        simp only [UnorderedMap.refill, Function.update_self, Option.some.injEq] at hn
        subst hn
        obtain ⟨v, e⟩ := StdMap.find_some_entry hf
        exact ⟨key, v, e, rfl⟩
      · simp only [UnorderedMap.refill, Function.update_of_ne hslot] at hn
        exact hi.cache i n hn

/-! ## Insertion -/

/-- The map after a fresh node for `key` was added and cached. -/
def withNew (hashFunc : K → UInt64) (h : NodeHeap K V) (m : LldkUnorderedMap CACHE_SIZE)
    (key : K) : LldkUnorderedMap CACHE_SIZE :=
  { m with
    m_arrEntries :=
      Function.update m.m_arrEntries (uHash CACHE_SIZE hashFunc key) (some h.next)
    m_mapEntries := ⟨h.next :: m.m_mapEntries.nodes⟩ }

theorem Inv.withNew (hi : Inv hashFunc h m) {key : K} (value : V)
    (hf : m.m_mapEntries.find h key = none) :
    Inv hashFunc (h.alloc ⟨key, value⟩).2 (withNew hashFunc h m key) where
  entries := StdMap.ok_alloc hi.entries hf
  cache := by
    intro i n hn
    by_cases hslot : i = uHash CACHE_SIZE hashFunc key
    · subst hslot
      simp only [UnorderedMap.withNew, Function.update_self, Option.some.injEq] at hn
      subst hn
      exact ⟨key, value, (StdMap.entry_alloc hi.entries).mpr (Or.inl ⟨rfl, rfl, rfl⟩), rfl⟩
    · simp only [UnorderedMap.withNew, Function.update_of_ne hslot] at hn
      obtain ⟨k, v, e, hk⟩ := hi.cache i n hn
      exact ⟨k, v, (StdMap.entry_alloc hi.entries).mpr (Or.inr e), hk⟩

theorem insert_present {key : K} {n : Nat} (hf : m.m_mapEntries.find h key = some n) (value : V)
    (mem : Bool) : insert hashFunc h m key value mem = (false, h, m) := by
  simp [LldkUnorderedMap.insert, StdMap.insert, hf]

theorem insert_new {key : K} (hf : m.m_mapEntries.find h key = none) (value : V) :
    insert hashFunc h m key value true =
      (true, (h.alloc ⟨key, value⟩).2, withNew hashFunc h m key) := by
  simp [LldkUnorderedMap.insert, StdMap.insert, hf, withNew]

theorem insert_noMemory {key : K} (hf : m.m_mapEntries.find h key = none) (value : V) :
    insert hashFunc h m key value false = (false, h, m) := by
  simp [LldkUnorderedMap.insert, StdMap.insert, hf]

/-! ## `operator[]` -/

/-- The map after the lookup that `operator[]` starts with. -/
def looked (hashFunc : K → UInt64) (h : NodeHeap K V) (m : LldkUnorderedMap CACHE_SIZE)
    (key : K) : LldkUnorderedMap CACHE_SIZE :=
  { m with
    m_arrEntries := refill hashFunc m key (m.m_mapEntries.find h key)
    m_uCachemissCount := missAfter hashFunc h m key }

theorem index_present [Inhabited V] (hi : Inv hashFunc h m) {key : K} {n : Nat}
    (hf : m.m_mapEntries.find h key = some n) (mem : Bool) :
    index hashFunc h m key mem = .ok (.ref n, h, looked hashFunc h m key) := by
  simp only [index, find_spec hi, looked, hf]

theorem index_new [Inhabited V] (hi : Inv hashFunc h m) {key : K}
    (hf : m.m_mapEntries.find h key = none) :
    index hashFunc h m key true =
      .ok (.ref h.next, (h.alloc ⟨key, default⟩).2,
        withNew hashFunc h (looked hashFunc h m key) key) := by
  simp [index, find_spec hi, looked, hf, StdMap.insert, withNew, refill]

theorem index_noMemory [Inhabited V] (hi : Inv hashFunc h m) {key : K}
    (hf : m.m_mapEntries.find h key = none) :
    index hashFunc h m key false = .ok (.badAlloc, h, looked hashFunc h m key) := by
  simp [index, find_spec hi, looked, hf, StdMap.insert]

/-! ## Removal -/

/-- The map after `key` was erased: its slot is nulled iff the key was resident there. -/
def withErased (hashFunc : K → UInt64) (h : NodeHeap K V) (m : LldkUnorderedMap CACHE_SIZE)
    (key : K) : LldkUnorderedMap CACHE_SIZE :=
  { m with
    m_arrEntries :=
      if resident hashFunc h m key then
        Function.update m.m_arrEntries (uHash CACHE_SIZE hashFunc key) none
      else m.m_arrEntries
    m_mapEntries := (m.m_mapEntries.erase h key).2 }

/-- The node in a slot whose key is not resident survives the removal of that key. -/
theorem Inv.survives (hi : Inv hashFunc h m) {key : K} {n : Nat}
    (hr : resident hashFunc h m key = false)
    (hs : m.m_arrEntries (uHash CACHE_SIZE hashFunc key) = some n) :
    ∃ k v, h.cells n = some ⟨k, v⟩ ∧ (m.m_mapEntries.erase h key).1.cells n = some ⟨k, v⟩ ∧
      k ≠ key := by
  obtain ⟨k, v, e, -⟩ := hi.cache _ _ hs
  have hne : k ≠ key := by
    rintro rfl
    simp [resident, hs, holdsKey, e.2] at hr
  have e' := (StdMap.entry_erase hi.entries).mpr ⟨e, hne⟩
  exact ⟨k, v, e.2, e'.2, hne⟩

/-- Erasing a key that is not resident reads no stale node. -/
theorem erase_notResident (hi : Inv hashFunc h m) {key : K}
    (hr : resident hashFunc h m key = false) (r : StaleRead) :
    erase hashFunc r h m key =
      .ok ((m.m_mapEntries.erase h key).1, withErased hashFunc h m key) := by
  cases hs : m.m_arrEntries (uHash CACHE_SIZE hashFunc key) with
  | none => simp [erase, hs, withErased, hr]
  | some n =>
    obtain ⟨k, v, hc, hc', hne⟩ := hi.survives hr hs
    cases r <;> simp [erase, hs, hc, hc', hne, withErased, hr]

/-- **Removal.** If the comparison sees the key the node held, `erase` removes the key and nulls
its slot exactly when the key was resident there. -/
theorem erase_spec (hi : Inv hashFunc h m) (key : K) :
    erase hashFunc .seesOldKey h m key =
      .ok ((m.m_mapEntries.erase h key).1, withErased hashFunc h m key) := by
  cases hr : resident hashFunc h m key with
  | true =>
    obtain ⟨n, hs, hf⟩ := hi.of_resident hr
    obtain ⟨v, e⟩ := StdMap.find_some_entry hf
    simp only [erase, hs, e.2, withErased, hr, if_true]
  | false => exact erase_notResident hi hr .seesOldKey

/-- With the stale read trapped, erasing the resident key of a slot faults. -/
theorem erase_traps (hi : Inv hashFunc h m) {key : K} (hr : resident hashFunc h m key = true) :
    ∃ n, erase hashFunc .traps h m key = .error (.dangling n) := by
  obtain ⟨n, hs, hf⟩ := hi.of_resident hr
  refine ⟨n, ?_⟩
  simp only [erase, hs, StdMap.erase, hf, Heap.cells_free_self]

theorem Inv.withErased (hi : Inv hashFunc h m) (key : K) :
    Inv hashFunc (m.m_mapEntries.erase h key).1 (withErased hashFunc h m key) := by
  -- a slot that still points somewhere points to a node whose key is not `key`
  have hother : ∀ i n, (UnorderedMap.withErased hashFunc h m key).m_arrEntries i = some n →
      ∃ k v, Entry h m.m_mapEntries n k v ∧ uHash CACHE_SIZE hashFunc k = i ∧ k ≠ key := by
    intro i n hn
    have hold : m.m_arrEntries i = some n := by
      cases hr : resident hashFunc h m key with
      | false => simpa [UnorderedMap.withErased, hr] using hn
      | true =>
        by_cases hslot : i = uHash CACHE_SIZE hashFunc key
        · simp [UnorderedMap.withErased, hr, hslot] at hn
        · simpa [UnorderedMap.withErased, hr, Function.update_of_ne hslot] using hn
    obtain ⟨k, v, e, hk⟩ := hi.cache i n hold
    refine ⟨k, v, e, hk, ?_⟩
    rintro rfl
    subst hk
    have hr : resident hashFunc h m k = true := by simp [resident, hold, holdsKey, e.2]
    simp [UnorderedMap.withErased, hr] at hn
  refine ⟨StdMap.ok_erase hi.entries key, fun i n hn => ?_⟩
  obtain ⟨k, v, e, hk, hne⟩ := hother i n hn
  exact ⟨k, v, (StdMap.entry_erase hi.entries).mpr ⟨e, hne⟩, hk⟩

omit [DecidableEq K] in
theorem Inv.cleared (h : NodeHeap K V) (m : LldkUnorderedMap CACHE_SIZE) :
    Inv hashFunc (clear h m).1 (clear h m).2 where
  entries := StdMap.ok_nil _
  cache := by intro i n hn; simp [clear] at hn

omit [DecidableEq K] in
theorem Inv.new (h : NodeHeap K V) :
    Inv hashFunc h (LldkUnorderedMap.new : LldkUnorderedMap CACHE_SIZE) where
  entries := StdMap.ok_nil _
  cache := by intro i n hn; simp [LldkUnorderedMap.new] at hn

/-! ## Whole runs -/

variable [Inhabited V]

/-- The operation erases a key that is resident in its slot. -/
def erasesResident (hashFunc : K → UInt64) (s : MapState K V CACHE_SIZE) (op : MapOp K V) : Bool :=
  match op with
  | .erase key => resident hashFunc s.heap s.obj key
  | _ => false

/-! What one call does to a state with the invariant: `r` matters to `erase` alone. -/

section Calls

variable {r : StaleRead} {key : K} {value : V} {n : Nat} {mem : Bool}

theorem step_insert_present (hf : m.m_mapEntries.find h key = some n) :
    step hashFunc r ⟨h, m⟩ (.insert key value mem) = .ok (⟨h, m⟩, .bool false) := by
  simp only [step, insert_present hf]

theorem step_insert_new (hf : m.m_mapEntries.find h key = none) :
    step hashFunc r ⟨h, m⟩ (.insert key value true) =
      .ok (⟨(h.alloc ⟨key, value⟩).2, withNew hashFunc h m key⟩, .bool true) := by
  simp only [step, insert_new hf]

theorem step_insert_noMemory (hf : m.m_mapEntries.find h key = none) :
    step hashFunc r ⟨h, m⟩ (.insert key value false) = .ok (⟨h, m⟩, .bool false) := by
  simp only [step, insert_noMemory hf]

theorem step_erase (hi : Inv hashFunc h m) :
    step hashFunc .seesOldKey (⟨h, m⟩ : MapState K V CACHE_SIZE) (.erase key) =
      .ok (⟨(m.m_mapEntries.erase h key).1, withErased hashFunc h m key⟩, .unit) := by
  simp only [step, erase_spec hi]

theorem step_find (hi : Inv hashFunc h m) :
    step hashFunc r (⟨h, m⟩ : MapState K V CACHE_SIZE) (.find key) =
      .ok (⟨h, looked hashFunc h m key⟩, .ptr (m.m_mapEntries.find h key)) := by
  simp only [step, find_spec hi, looked]

theorem step_contains (hi : Inv hashFunc h m) :
    step hashFunc r (⟨h, m⟩ : MapState K V CACHE_SIZE) (.contains key) =
      .ok (⟨h, looked hashFunc h m key⟩, .bool (m.m_mapEntries.find h key).isSome) := by
  simp only [step, contains, find_spec hi, looked]

theorem step_index_present (hi : Inv hashFunc h m) (hf : m.m_mapEntries.find h key = some n) :
    step hashFunc r (⟨h, m⟩ : MapState K V CACHE_SIZE) (.index key mem) =
      .ok (⟨h, looked hashFunc h m key⟩, .ref n) := by
  simp only [step, index_present hi hf]

theorem step_index_new (hi : Inv hashFunc h m) (hf : m.m_mapEntries.find h key = none) :
    step hashFunc r (⟨h, m⟩ : MapState K V CACHE_SIZE) (.index key true) =
      .ok (⟨(h.alloc ⟨key, default⟩).2, withNew hashFunc h (looked hashFunc h m key) key⟩,
        .ref h.next) := by
  simp only [step, index_new hi hf]

theorem step_index_noMemory (hi : Inv hashFunc h m) (hf : m.m_mapEntries.find h key = none) :
    step hashFunc r (⟨h, m⟩ : MapState K V CACHE_SIZE) (.index key false) =
      .ok (⟨h, looked hashFunc h m key⟩, .threw "std::bad_alloc") := by
  simp only [step, index_noMemory hi hf]

end Calls

/-- **Step lemma.** A call that sees the old key never faults and keeps the invariant. -/
theorem step_inv (s : MapState K V CACHE_SIZE) (op : MapOp K V)
    (hi : Inv hashFunc s.heap s.obj) :
    ∃ s' o, step hashFunc .seesOldKey s op = .ok (s', o) ∧ Inv hashFunc s'.heap s'.obj := by
  obtain ⟨h, m⟩ := s
  change Inv hashFunc h m at hi
  cases op with
  | insert key value mem =>
    cases hf : m.m_mapEntries.find h key with
    | some n => exact ⟨_, _, step_insert_present hf, hi⟩
    | none =>
      cases mem with
      | true => exact ⟨_, _, step_insert_new hf, hi.withNew value hf⟩
      | false => exact ⟨_, _, step_insert_noMemory hf, hi⟩
  | erase key => exact ⟨_, _, step_erase hi, hi.withErased key⟩
  | find key => exact ⟨_, _, step_find hi, hi.refill key _⟩
  | contains key => exact ⟨_, _, step_contains hi, hi.refill key _⟩
  | index key mem =>
    have hl : Inv hashFunc h (looked hashFunc h m key) := hi.refill key _
    cases hf : m.m_mapEntries.find h key with
    | some n => exact ⟨_, _, step_index_present hi hf, hl⟩
    | none =>
      cases mem with
      | true => exact ⟨_, _, step_index_new hi hf, hl.withNew default hf⟩
      | false => exact ⟨_, _, step_index_noMemory hi hf, hl⟩
  | clear => exact ⟨_, _, rfl, Inv.cleared h m⟩
  | size => exact ⟨_, _, rfl, hi⟩
  | empty => exact ⟨_, _, rfl, hi⟩

/-- Only the erasure of a resident key tells the two readings of the stale node apart. -/
theorem step_traps (s : MapState K V CACHE_SIZE) (op : MapOp K V)
    (hi : Inv hashFunc s.heap s.obj) (hr : erasesResident hashFunc s op = false) :
    step hashFunc .traps s op = step hashFunc .seesOldKey s op := by
  obtain ⟨h, m⟩ := s
  cases op with
  | erase key => simp only [step, erase_notResident hi hr]
  | _ => rfl

theorem step_traps_resident (s : MapState K V CACHE_SIZE) (op : MapOp K V)
    (hi : Inv hashFunc s.heap s.obj) (hr : erasesResident hashFunc s op = true) :
    ∃ n, step hashFunc .traps s op = .error (.dangling n) := by
  obtain ⟨h, m⟩ := s
  cases op with
  | erase key =>
    obtain ⟨n, he⟩ := erase_traps hi hr
    exact ⟨n, by simp only [step, he]⟩
  | _ => cases hr

/-- What the cache may look like between two calls. -/
structure CacheOk (hashFunc : K → UInt64) (s : MapState K V CACHE_SIZE) : Prop where
  pointsIntoMap : ∀ i n, s.obj.m_arrEntries i = some n →
    ∃ k v, Entry s.heap s.obj.m_mapEntries n k v ∧ (hashFunc k).toNat % CACHE_SIZE = i
  oneSlotPerKey : ∀ i j n₁ n₂ k v₁ v₂, s.obj.m_arrEntries i = some n₁ →
    s.obj.m_arrEntries j = some n₂ → s.heap.cells n₁ = some ⟨k, v₁⟩ →
    s.heap.cells n₂ = some ⟨k, v₂⟩ → i = j
  oneSlotPerNode : ∀ i j n, s.obj.m_arrEntries i = some n → s.obj.m_arrEntries j = some n → i = j

omit [DecidableEq K] [Inhabited V] in
theorem uHash_val (key : K) :
    (uHash CACHE_SIZE hashFunc key).val = (hashFunc key).toNat % CACHE_SIZE := rfl

omit [DecidableEq K] [Inhabited V] in
theorem Inv.cacheOk {s : MapState K V CACHE_SIZE} (hi : Inv hashFunc s.heap s.obj) :
    CacheOk hashFunc s := by
  have hslot : ∀ i n k v, s.obj.m_arrEntries i = some n → s.heap.cells n = some ⟨k, v⟩ →
      uHash CACHE_SIZE hashFunc k = i := by
    intro i n k v hs hc
    obtain ⟨k', v', e, hk⟩ := hi.cache i n hs
    rw [(e.det ⟨e.1, hc⟩).1] at hk
    exact hk
  refine ⟨fun i n hs => ?_, fun i j n₁ n₂ k v₁ v₂ hs₁ hs₂ hc₁ hc₂ => ?_, fun i j n hs₁ hs₂ => ?_⟩
  · obtain ⟨k, v, e, hk⟩ := hi.cache i n hs
    exact ⟨k, v, e, by rw [← uHash_val, hk]⟩
  · rw [← hslot i n₁ k v₁ hs₁ hc₁, ← hslot j n₂ k v₂ hs₂ hc₂]
  · obtain ⟨k, v, e, hk⟩ := hi.cache i n hs₁
    rw [← hk, ← hslot j n k v hs₂ e.2]

/-- **The cache invariant of every run.** From the empty map no call faults, and after each call
every non-null slot points to a node of the map, in the slot its key hashes to. -/
theorem slots_point_into_map (hashFunc : K → UInt64) (ops : List (MapOp K V)) :
    AllAlong (step hashFunc .seesOldKey) (CacheOk hashFunc)
      (MapState.init : MapState K V CACHE_SIZE) ops := by
  have hall : AllAlong (step hashFunc .seesOldKey) (fun s => Inv hashFunc s.heap s.obj)
      (MapState.init : MapState K V CACHE_SIZE) ops :=
    allAlong_of_eachStep (c := fun _ _ => True) _ (fun s op hi _ => step_inv s op hi) (Inv.new _)
      (eachStep_of_forall (fun _ _ => trivial) MapState.init ops)
  exact hall.mono fun s hi => hi.cacheOk

/-- Two slots, keys 1 and 3 colliding: 3 takes the slot, and erasing 1 leaves it there. -/
theorem slots_point_into_map_collision :
    AllAlong (step (fun key : Nat => key.toUInt64) .seesOldKey)
      (CacheOk fun key : Nat => key.toUInt64) (MapState.init : MapState Nat Nat 2)
      [.insert 1 10 true, .insert 3 30 true, .erase 1, .find 3, .clear] :=
  slots_point_into_map _ _

/-- **When no stale node is read.** With the comparison of `erase` trapped, a run from the empty
map goes through iff no step of it erases a key that is resident in its slot. -/
theorem runs_iff_no_resident_erase (hashFunc : K → UInt64) (ops : List (MapOp K V)) :
    (∃ r, run (step hashFunc .traps) (MapState.init : MapState K V CACHE_SIZE) ops = .ok r) ↔
      EachStep (step hashFunc .traps)
        (fun s op => ∀ key, op = .erase key → resident hashFunc s.heap s.obj key = false)
        (MapState.init : MapState K V CACHE_SIZE) ops := by
  rw [← allAlong_true_iff]
  have hl : EachStep (step hashFunc .traps) (fun _ _ => True)
      (MapState.init : MapState K V CACHE_SIZE) ops :=
    eachStep_of_forall (fun _ _ => trivial) _ _
  refine allAlong_iff_eachStep (fun s => Inv hashFunc s.heap s.obj) (fun _ _ => trivial) ?_ ?_
    (Inv.new _) hl
  · intro s op hi _ hc
    have hr : erasesResident hashFunc s op = false := by
      cases op with
      | erase key => exact hc key rfl
      | _ => rfl
    rw [step_traps s op hi hr]
    exact step_inv s op hi
  · intro s op s' o hi _ hc hs
    have hr : erasesResident hashFunc s op = true := by
      refine Bool.of_not_eq_false fun hr => hc fun key he => ?_
      subst he
      exact hr
    obtain ⟨n, he⟩ := step_traps_resident s op hi hr
    rw [he] at hs
    cases hs

theorem runs_iff_no_resident_erase_collision :
    (∃ r, run (step (fun key : Nat => key.toUInt64) .traps) (MapState.init : MapState Nat Nat 2)
        [.insert 1 10 true, .insert 3 30 true, .erase 1] = .ok r) ↔
      EachStep (step (fun key : Nat => key.toUInt64) .traps)
        (fun s op => ∀ key, op = .erase key →
          resident (fun key : Nat => key.toUInt64) s.heap s.obj key = false)
        (MapState.init : MapState Nat Nat 2)
        [.insert 1 10 true, .insert 3 30 true, .erase 1] :=
  runs_iff_no_resident_erase _ _

/-- A key that was just inserted is resident, so erasing it reads the node it removed. -/
theorem erase_after_insert_reads_removed_node :
    run (step (fun key : Nat => key.toUInt64) .traps) (MapState.init : MapState Nat Nat 64)
      [.insert 1 10 true, .erase 1] = .error (.dangling 0) :=
  rfl

end

end Lldk.UnorderedMap
