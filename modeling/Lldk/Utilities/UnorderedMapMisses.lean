import Mathlib.Data.List.Induction
import Lldk.Utilities.UnorderedMapInvariant

/-!
The miss counter of `LldkUnorderedMap` as a function of the calls and their results.

* `Resident past slot key`: in the history `past`, the latest event on `slot` cached `key`, which
  was not erased since, and the map was not cleared. `residentKey` computes it.
* `misses` counts the lookups of a history whose key was not resident when they came.
* `cachedKey` is the key that a slot of the map points to; `cachedKey_step` and `count_step` say
  what one call does to it and to the counter.
* `cachemiss_counts`: the counter is the number of misses, modulo `2 ^ 64`, after every run.
-/

namespace Lldk.UnorderedMap

open Lib Lib.Trace LldkUnorderedMap

/-- `cachemissCount()` -/
def LldkUnorderedMap.cachemissCount {CACHE_SIZE : Nat} (m : LldkUnorderedMap CACHE_SIZE) : UInt64 :=
  m.m_uCachemissCount

/-! ## Histories -/

variable {K V : Type}

/-- A call and its result. -/
abbrev Event (K V : Type) := MapOp K V × Out V Nat

/-- The key that a call looks up. -/
def MapOp.looksUp : MapOp K V → Option K
  | .find key => some key
  | .contains key => some key
  | .index key _ => some key
  | _ => none

/-- The key that becomes the resident of its slot: of an insertion that succeeded, of a lookup
that found its key, of `operator[]` that found or created it. -/
def caches : Event K V → Option K
  | (.insert key _ _, .bool true) => some key
  | (.find key, .ptr (some _)) => some key
  | (.contains key, .bool true) => some key
  | (.index key _, .ref _) => some key
  | _ => none

/-- After this call `key` is not in the map. -/
def MapOp.drops (key : K) : MapOp K V → Prop
  | .erase key' => key' = key
  | .clear => True
  | _ => False

variable [DecidableEq K] {CACHE_SIZE : Nat} [NeZero CACHE_SIZE] (hashFunc : K → UInt64)

omit [DecidableEq K] in
/-- `key` is the key of the latest event on `slot`, not erased since and not cleared. -/
def Resident (past : List (Event K V)) (slot : Fin CACHE_SIZE) (key : K) : Prop :=
  ∃ pre e post, past = pre ++ e :: post ∧ caches e = some key ∧
    uHash CACHE_SIZE hashFunc key = slot ∧
    ∀ e' ∈ post, (∀ k, caches e' = some k → uHash CACHE_SIZE hashFunc k ≠ slot) ∧
      ¬ e'.1.drops key

/-- What one call makes of the resident of a slot. -/
def remember (slot : Fin CACHE_SIZE) (r : Option K) (e : Event K V) : Option K :=
  match caches e with
  | some k => if uHash CACHE_SIZE hashFunc k = slot then some k else r
  | none =>
    match e.1 with
    | .erase key => if r = some key then none else r
    | .clear => none
    | _ => r

def residentKey (past : List (Event K V)) (slot : Fin CACHE_SIZE) : Option K :=
  past.foldl (remember hashFunc slot) none

theorem residentKey_append (past : List (Event K V)) (e : Event K V) (slot : Fin CACHE_SIZE) :
    residentKey hashFunc (past ++ [e]) slot =
      remember hashFunc slot (residentKey hashFunc past slot) e := by
  rw [residentKey, List.foldl_append]
  rfl

omit [DecidableEq K] in
/-- A history with one more event. -/
theorem resident_append (past : List (Event K V)) (e : Event K V) (slot : Fin CACHE_SIZE)
    (key : K) : Resident hashFunc (past ++ [e]) slot key ↔
      (caches e = some key ∧ uHash CACHE_SIZE hashFunc key = slot) ∨
        (Resident hashFunc past slot key ∧
          (∀ k, caches e = some k → uHash CACHE_SIZE hashFunc k ≠ slot) ∧ ¬ e.1.drops key) := by
  constructor
  · rintro ⟨pre, e₀, post, he, hc, hslot, hpost⟩
    rcases List.eq_nil_or_concat post with rfl | ⟨post, last, rfl⟩
    · obtain ⟨-, hlast⟩ := List.append_inj' he rfl
      cases hlast
      exact Or.inl ⟨hc, hslot⟩
    · have hsplit : past ++ [e] = (pre ++ e₀ :: post) ++ [last] := by
        rw [he, List.concat_eq_append, List.append_assoc, List.cons_append]
      obtain ⟨rfl, hlast⟩ := List.append_inj' hsplit rfl
      cases hlast
      refine Or.inr ⟨⟨pre, e₀, post, rfl, hc, hslot, fun e' h' => hpost e' ?_⟩, hpost e ?_⟩
      · rw [List.concat_eq_append]
        exact List.mem_append_left _ h'
      · rw [List.concat_eq_append]
        exact List.mem_append_right _ (List.mem_singleton.mpr rfl)
  · rintro (⟨hc, hslot⟩ | ⟨⟨pre, e₀, post, rfl, hc, hslot, hpost⟩, hlast⟩)
    · exact ⟨past, e, [], rfl, hc, hslot, fun e' h' => by cases h'⟩
    · refine ⟨pre, e₀, post ++ [e], by simp, hc, hslot, fun e' h' => ?_⟩
      rcases List.mem_append.mp h' with h' | h'
      · exact hpost e' h'
      · rw [List.mem_singleton.mp h']
        exact hlast

omit [DecidableEq K] in
/-- A call that caches a key drops none. -/
theorem not_drops_of_caches {e : Event K V} {k : K} (h : caches e = some k) (key : K) :
    ¬ e.1.drops key := by
  intro hd
  obtain ⟨op, out⟩ := e
  cases op <;> first | exact hd | cases h

/-- `residentKey` computes the resident, which lies in its own slot. -/
theorem residentKey_eq_some (past : List (Event K V)) (slot : Fin CACHE_SIZE) (key : K) :
    residentKey hashFunc past slot = some key ↔ Resident hashFunc past slot key := by
  induction past using List.reverseRecOn generalizing key with
  | nil =>
    constructor
    · intro h
      cases h
    · rintro ⟨pre, e, post, he, -⟩
      cases pre <;> cases he
  | append_singleton past e ih =>
    rw [residentKey_append, resident_append, ← ih key]
    unfold remember
    cases hc : caches e with
    | some k =>
      have hd := not_drops_of_caches hc key
      by_cases hk : uHash CACHE_SIZE hashFunc k = slot
      · simp only [hk, if_true, Option.some.injEq, forall_eq', ne_eq, not_true_eq_false, false_and,
          and_false, or_false]
        constructor
        · rintro rfl
          exact ⟨rfl, hk⟩
        · exact fun h => h.1
      · simp only [hk, if_false, Option.some.injEq, forall_eq', ne_eq, not_false_eq_true, hd,
          and_true]
        constructor
        · exact Or.inr
        · rintro (⟨rfl, h⟩ | h)
          · exact absurd h hk
          · exact h
    | none =>
      obtain ⟨op, out⟩ := e
      cases op with
      | erase key' =>
        by_cases hr : residentKey hashFunc past slot = some key'
        · simp [hr, MapOp.drops]
        · simp only [hr, if_false, MapOp.drops]
          constructor
          · intro h
            refine Or.inr ⟨h, fun k hk => ?_, ?_⟩
            · cases hk
            · rintro rfl
              exact hr h
          · rintro (⟨h, -⟩ | ⟨h, -⟩)
            · cases h
            · exact h
      | _ => simp [MapOp.drops]

instance (past : List (Event K V)) (slot : Fin CACHE_SIZE) (key : K) :
    Decidable (Resident hashFunc past slot key) :=
  decidable_of_iff _ (residentKey_eq_some hashFunc past slot key)

/-- Whether a call after `past` looks up a key that is not resident. -/
def missed (CACHE_SIZE : Nat) [NeZero CACHE_SIZE] (hashFunc : K → UInt64)
    (past : List (Event K V)) (op : MapOp K V) : Bool :=
  match op.looksUp with
  | some key => !decide (Resident hashFunc past (uHash CACHE_SIZE hashFunc key) key)
  | none => false

/-- The lookups of `rest`, which follow `past`, whose key was not resident when they came. -/
def misses (CACHE_SIZE : Nat) [NeZero CACHE_SIZE] (hashFunc : K → UInt64) :
    List (Event K V) → List (Event K V) → Nat
  | _, [] => 0
  | past, e :: rest =>
    (missed CACHE_SIZE hashFunc past e.1).toNat + misses CACHE_SIZE hashFunc (past ++ [e]) rest

/-! ## One call -/

variable {hashFunc} {h : NodeHeap K V} {m : LldkUnorderedMap CACHE_SIZE}

omit [DecidableEq K] [NeZero CACHE_SIZE] in
/-- The key of the node that a slot points to. -/
def cachedKey (s : MapState K V CACHE_SIZE) (slot : Fin CACHE_SIZE) : Option K :=
  (s.obj.m_arrEntries slot).bind fun n => (s.heap.cells n).map Node.first

omit [DecidableEq K] [NeZero CACHE_SIZE] in
theorem cachedKey_eq_some {slot : Fin CACHE_SIZE} {key : K} :
    cachedKey ⟨h, m⟩ slot = some key ↔
      ∃ n v, m.m_arrEntries slot = some n ∧ h.cells n = some ⟨key, v⟩ := by
  simp only [cachedKey, Option.bind_eq_some_iff, Option.map_eq_some_iff]
  constructor
  · rintro ⟨n, hs, ⟨k, v⟩, hc, rfl⟩
    exact ⟨n, v, hs, hc⟩
  · rintro ⟨n, v, hs, hc⟩
    exact ⟨n, hs, _, hc, rfl⟩

/-- The residents of the model are the keys cached in their own slots. -/
theorem resident_iff {key : K} : resident hashFunc h m key = true ↔
    cachedKey ⟨h, m⟩ (uHash CACHE_SIZE hashFunc key) = some key := by
  rw [cachedKey_eq_some]
  unfold resident
  cases hs : m.m_arrEntries (uHash CACHE_SIZE hashFunc key) with
  | none => simp
  | some n =>
    rw [holdsKey_iff]
    constructor
    · rintro ⟨v, hc⟩
      exact ⟨n, v, rfl, hc⟩
    · rintro ⟨n', v, he, hc⟩
      cases he
      exact ⟨v, hc⟩

omit [DecidableEq K] in
/-- A node that a slot points to is in the map. -/
theorem Inv.slot_live (hi : Inv hashFunc h m) {slot : Fin CACHE_SIZE} {n : Nat}
    (hs : m.m_arrEntries slot = some n) :
    ∃ k v, h.cells n = some ⟨k, v⟩ ∧ n < h.next ∧ uHash CACHE_SIZE hashFunc k = slot := by
  obtain ⟨k, v, e, hk⟩ := hi.cache slot n hs
  exact ⟨k, v, e.2, e.lt_next, hk⟩

omit [DecidableEq K] in
/-- A new node takes the slot of its key. -/
theorem cachedKey_withNew (hi : Inv hashFunc h m) (key : K) (value : V) (slot : Fin CACHE_SIZE) :
    cachedKey ⟨(h.alloc ⟨key, value⟩).2, withNew hashFunc h m key⟩ slot =
      if uHash CACHE_SIZE hashFunc key = slot then some key else cachedKey ⟨h, m⟩ slot := by
  by_cases hslot : uHash CACHE_SIZE hashFunc key = slot
  · subst hslot
    rw [if_pos rfl]
    exact cachedKey_eq_some.mpr ⟨h.next, value, Function.update_self .., Heap.cells_alloc_self ..⟩
  · have hold : (withNew hashFunc h m key).m_arrEntries slot = m.m_arrEntries slot :=
      Function.update_of_ne (Ne.symm hslot) ..
    rw [if_neg hslot]
    simp only [cachedKey, hold]
    cases hs : m.m_arrEntries slot with
    | none => rfl
    | some n =>
      obtain ⟨k, v, -, hlt, -⟩ := hi.slot_live hs
      simp only [Option.bind_some, Heap.cells_alloc_ne _ (Nat.ne_of_lt hlt)]

/-- A lookup puts the node it finds into the slot of its key. -/
theorem cachedKey_looked (h : NodeHeap K V) (m : LldkUnorderedMap CACHE_SIZE) (key : K)
    (slot : Fin CACHE_SIZE) :
    cachedKey ⟨h, looked hashFunc h m key⟩ slot =
      if (m.m_mapEntries.find h key).isSome ∧ uHash CACHE_SIZE hashFunc key = slot then some key
      else cachedKey ⟨h, m⟩ slot := by
  cases hf : m.m_mapEntries.find h key with
  | none =>
    rw [if_neg (by simp)]
    simp only [cachedKey, looked, refill, hf]
  | some n =>
    obtain ⟨v, e⟩ := StdMap.find_some_entry hf
    by_cases hslot : uHash CACHE_SIZE hashFunc key = slot
    · subst hslot
      rw [if_pos ⟨rfl, rfl⟩]
      refine cachedKey_eq_some.mpr ⟨n, v, ?_, e.2⟩
      simp only [looked, refill, hf, Function.update_self]
    · rw [if_neg fun h => hslot h.2]
      simp only [cachedKey, looked, refill, hf, Function.update_of_ne (Ne.symm hslot)]

/-- An erased key leaves its slot, and no other key leaves its own. -/
theorem cachedKey_withErased (hi : Inv hashFunc h m) (key : K) (slot : Fin CACHE_SIZE) :
    cachedKey ⟨(m.m_mapEntries.erase h key).1, withErased hashFunc h m key⟩ slot =
      if cachedKey ⟨h, m⟩ slot = some key then none else cachedKey ⟨h, m⟩ slot := by
  cases hs : m.m_arrEntries slot with
  | none =>
    have hnone : (withErased hashFunc h m key).m_arrEntries slot = none := by
      simp only [withErased]
      split
      · by_cases he : slot = uHash CACHE_SIZE hashFunc key
        · rw [he, Function.update_self]
        · rw [Function.update_of_ne he, hs]
      · exact hs
    simp only [cachedKey, hnone, hs, Option.bind_none]
    simp
  | some n =>
    obtain ⟨k, v, hc, -, hk⟩ := hi.slot_live hs
    have hold : cachedKey ⟨h, m⟩ slot = some k := cachedKey_eq_some.mpr ⟨n, v, hs, hc⟩
    by_cases hkey : k = key
    · subst hkey
      have hr : resident hashFunc h m k = true := resident_iff.mpr (by rw [hk]; exact hold)
      rw [if_pos hold]
      simp only [cachedKey, withErased, hr, if_true, ← hk, Function.update_self, Option.bind_none]
    · rw [hold, if_neg fun he => hkey (Option.some.inj he)]
      obtain ⟨k', v', e, hk'⟩ := hi.cache slot n hs
      obtain ⟨rfl, rfl⟩ : k = k' ∧ v = v' := by
        have he := hc.symm.trans e.2
        cases he
        exact ⟨rfl, rfl⟩
      refine cachedKey_eq_some.mpr ⟨n, v, ?_, ((StdMap.entry_erase hi.entries).mpr ⟨e, hkey⟩).2⟩
      simp only [withErased]
      split
      · rename_i hr
        by_cases he : slot = uHash CACHE_SIZE hashFunc key
        · rw [resident_iff, ← he, hold] at hr
          exact absurd (Option.some.inj hr) hkey
        · rw [Function.update_of_ne he, hs]
      · exact hs

/-- Whether a call looks up a key that its slot does not hold. -/
def looksPast (hashFunc : K → UInt64) (s : MapState K V CACHE_SIZE) (op : MapOp K V) : Bool :=
  match op.looksUp with
  | some key => !decide (cachedKey s (uHash CACHE_SIZE hashFunc key) = some key)
  | none => false

/-- What one call does to the keys in the slots and to the counter. -/
structure Effect (hashFunc : K → UInt64) (s : MapState K V CACHE_SIZE) (op : MapOp K V)
    (s' : MapState K V CACHE_SIZE) (out : Out V Nat) : Prop where
  inv : Inv hashFunc s'.heap s'.obj
  cached : ∀ slot, cachedKey s' slot = remember hashFunc slot (cachedKey s slot) (op, out)
  counter : s'.obj.cachemissCount =
    s.obj.cachemissCount + UInt64.ofNat (looksPast hashFunc s op).toNat
  failed : ∀ key, op.looksUp = some key → caches (op, out) = none → looksPast hashFunc s op = true

theorem missAfter_eq (hashFunc : K → UInt64) (h : NodeHeap K V) (m : LldkUnorderedMap CACHE_SIZE)
    (key : K) {op : MapOp K V} (hop : op.looksUp = some key) :
    missAfter hashFunc h m key =
      m.cachemissCount + UInt64.ofNat (looksPast hashFunc ⟨h, m⟩ op).toNat := by
  simp only [missAfter, looksPast, hop, cachemissCount]
  by_cases hr : resident hashFunc h m key = true
  · rw [if_pos hr, decide_eq_true (resident_iff.mp hr)]
    exact (UInt64.add_zero _).symm
  · rw [if_neg hr, decide_eq_false fun hc => hr (resident_iff.mpr hc)]
    rfl

/-- A key that is not in the map is resident nowhere. -/
theorem looksPast_of_absent (hi : Inv hashFunc h m) {key : K} {op : MapOp K V}
    (hop : op.looksUp = some key) (hf : m.m_mapEntries.find h key = none) :
    looksPast hashFunc ⟨h, m⟩ op = true := by
  have hno : ¬ cachedKey ⟨h, m⟩ (uHash CACHE_SIZE hashFunc key) = some key := by
    intro hc
    obtain ⟨n, -, hn⟩ := hi.of_resident (resident_iff.mpr hc)
    rw [hf] at hn
    cases hn
  simp only [looksPast, hop, hno, decide_false, Bool.not_false]

/-- A call that looks nothing up and leaves the map as it is. -/
theorem effect_same (hi : Inv hashFunc h m) {op : MapOp K V} {out : Out V Nat}
    (hop : op.looksUp = none)
    (hcached : ∀ (slot : Fin CACHE_SIZE) r, remember hashFunc slot r (op, out) = r) :
    Effect hashFunc ⟨h, m⟩ op ⟨h, m⟩ out where
  inv := hi
  cached := fun slot => (hcached slot _).symm
  counter := by simp [looksPast, hop]
  failed := by
    intro key hkey
    rw [hop] at hkey
    cases hkey

/-- A lookup that found its key. -/
theorem effect_found (hi : Inv hashFunc h m) {key : K} {op : MapOp K V} {out : Out V Nat}
    (hop : op.looksUp = some key) (hc : caches (op, out) = some key)
    (hf : (m.m_mapEntries.find h key).isSome) :
    Effect hashFunc ⟨h, m⟩ op ⟨h, looked hashFunc h m key⟩ out where
  inv := hi.refill key _
  cached := by
    intro slot
    rw [cachedKey_looked]
    simp only [hf, true_and, remember, hc]
  counter := missAfter_eq hashFunc h m key hop
  failed := by
    intro _ _ hnone
    rw [hc] at hnone
    cases hnone

/-- A lookup that did not, when nothing is created. -/
theorem effect_absent (hi : Inv hashFunc h m) {key : K} {op : MapOp K V} {out : Out V Nat}
    (hop : op.looksUp = some key) (hc : caches (op, out) = none)
    (hf : m.m_mapEntries.find h key = none) :
    Effect hashFunc ⟨h, m⟩ op ⟨h, looked hashFunc h m key⟩ out where
  inv := hi.refill key _
  cached := by
    intro slot
    rw [cachedKey_looked, hf, if_neg (by simp)]
    simp only [remember, hc]
    cases op <;> first | rfl | cases hop
  counter := missAfter_eq hashFunc h m key hop
  failed := fun _ _ _ => looksPast_of_absent hi hop hf

variable [Inhabited V]

/-- **Step lemma.** -/
theorem effect_step {s s' : MapState K V CACHE_SIZE} {op : MapOp K V} {out : Out V Nat}
    (hi : Inv hashFunc s.heap s.obj)
    (hs : step hashFunc .seesOldKey s op = .ok (s', out)) : Effect hashFunc s op s' out := by
  obtain ⟨h, m⟩ := s
  change Inv hashFunc h m at hi
  cases op with
  | insert key value mem =>
    cases hf : m.m_mapEntries.find h key with
    | some n =>
      rw [step_insert_present hf] at hs
      cases hs
      exact effect_same hi rfl fun _ _ => rfl
    | none =>
      cases mem with
      | true =>
        rw [step_insert_new hf] at hs
        cases hs
        exact ⟨hi.withNew value hf, fun slot => cachedKey_withNew hi key value slot,
          (UInt64.add_zero _).symm, fun _ hop => by cases hop⟩
      | false =>
        rw [step_insert_noMemory hf] at hs
        cases hs
        exact effect_same hi rfl fun _ _ => rfl
  | erase key =>
    rw [step_erase hi] at hs
    cases hs
    exact ⟨hi.withErased key, fun slot => cachedKey_withErased hi key slot,
      (UInt64.add_zero _).symm, fun _ hop => by cases hop⟩
  | find key =>
    rw [step_find hi] at hs
    cases hs
    cases hf : m.m_mapEntries.find h key with
    | some n => exact effect_found hi rfl rfl (by rw [hf]; rfl)
    | none => exact effect_absent hi rfl rfl hf
  | contains key =>
    rw [step_contains hi] at hs
    cases hs
    cases hf : m.m_mapEntries.find h key with
    | some n => exact effect_found hi rfl rfl (by rw [hf]; rfl)
    | none => exact effect_absent hi rfl rfl hf
  | index key mem =>
    cases hf : m.m_mapEntries.find h key with
    | some n =>
      rw [step_index_present hi hf] at hs
      cases hs
      exact effect_found hi rfl rfl (by rw [hf]; rfl)
    | none =>
      cases mem with
      | true =>
        rw [step_index_new hi hf] at hs
        cases hs
        have hl : Inv hashFunc h (looked hashFunc h m key) := hi.refill key _
        refine ⟨hl.withNew default hf, fun slot => ?_, missAfter_eq hashFunc h m key rfl,
          fun _ _ hno => by cases hno⟩
        rw [cachedKey_withNew hl, cachedKey_looked, hf]
        rfl
      | false =>
        rw [step_index_noMemory hi hf] at hs
        cases hs
        exact effect_absent hi rfl rfl hf
  | clear =>
    cases hs
    exact ⟨Inv.cleared h m, fun _ => rfl, (UInt64.add_zero _).symm, fun _ hop => by cases hop⟩
  | size =>
    cases hs
    exact effect_same hi rfl fun _ _ => rfl
  | empty =>
    cases hs
    exact effect_same hi rfl fun _ _ => rfl

/-- A call that does not fault does the same with either reading of the stale node. -/
theorem step_seesOldKey {r : StaleRead} {s s' : MapState K V CACHE_SIZE} {op : MapOp K V}
    {out : Out V Nat} (hi : Inv hashFunc s.heap s.obj)
    (hs : step hashFunc r s op = .ok (s', out)) :
    step hashFunc .seesOldKey s op = .ok (s', out) := by
  cases r with
  | seesOldKey => exact hs
  | traps =>
    cases hr : erasesResident hashFunc s op with
    | false => rw [← step_traps s op hi hr, hs]
    | true =>
      obtain ⟨n, he⟩ := step_traps_resident s op hi hr
      rw [he] at hs
      cases hs

/-! ## Runs -/

/-- The slots hold the residents of the history. -/
def Tracks (hashFunc : K → UInt64) (past : List (Event K V)) (s : MapState K V CACHE_SIZE) : Prop :=
  Inv hashFunc s.heap s.obj ∧ ∀ slot, cachedKey s slot = residentKey hashFunc past slot

theorem tracks_step {r : StaleRead} {past : List (Event K V)} {s s' : MapState K V CACHE_SIZE}
    {op : MapOp K V} {out : Out V Nat} (ht : Tracks hashFunc past s)
    (hs : step hashFunc r s op = .ok (s', out)) :
    Tracks hashFunc (past ++ [(op, out)]) s' ∧ s'.obj.cachemissCount =
      s.obj.cachemissCount + UInt64.ofNat (missed CACHE_SIZE hashFunc past op).toNat := by
  have he := effect_step ht.1 (step_seesOldKey ht.1 hs)
  refine ⟨⟨he.inv, fun slot => ?_⟩, ?_⟩
  · rw [he.cached slot, ht.2 slot, residentKey_append]
  · rw [he.counter]
    have hlook : looksPast hashFunc s op = missed CACHE_SIZE hashFunc past op := by
      unfold looksPast missed
      cases op.looksUp with
      | none => rfl
      | some key => simp only [ht.2, residentKey_eq_some]
    rw [hlook]

/-- **Run lemma.** -/
theorem tracks_run {r : StaleRead} {past : List (Event K V)} {s s' : MapState K V CACHE_SIZE}
    {ops : List (MapOp K V)} {outs : List (Out V Nat)} (ht : Tracks hashFunc past s)
    (hr : run (step hashFunc r) s ops = .ok (s', outs)) :
    Tracks hashFunc (past ++ ops.zip outs) s' ∧ s'.obj.cachemissCount =
      s.obj.cachemissCount + UInt64.ofNat (misses CACHE_SIZE hashFunc past (ops.zip outs)) := by
  induction ops generalizing past s outs with
  | nil =>
    cases hr
    rw [List.zip_nil_left, List.append_nil]
    exact ⟨ht, (UInt64.add_zero _).symm⟩
  | cons op ops ih =>
    obtain ⟨s₁, out, outs, hs, hrest, rfl⟩ := run_cons_eq_ok.mp hr
    obtain ⟨ht₁, hc₁⟩ := tracks_step ht hs
    obtain ⟨ht', hc'⟩ := ih ht₁ hrest
    rw [List.zip_cons_cons]
    rw [List.append_assoc] at ht'
    refine ⟨ht', ?_⟩
    rw [hc', hc₁, misses, UInt64.ofNat_add, UInt64.add_assoc]

omit [Inhabited V] in
theorem tracks_init : Tracks hashFunc [] (MapState.init : MapState K V CACHE_SIZE) :=
  ⟨Inv.new _, fun _ => rfl⟩

omit [DecidableEq K] [NeZero CACHE_SIZE] [Inhabited V] in
/-- What a call that looks nothing up, a lookup that fails, a duplicate insertion and the erasure
of another key do to the counter and to the slots. -/
structure Counts (s : MapState K V CACHE_SIZE) (op : MapOp K V) (s' : MapState K V CACHE_SIZE)
    (out : Out V Nat) : Prop where
  noLookup : op.looksUp = none → s'.obj.cachemissCount = s.obj.cachemissCount
  failedLookup : ∀ key, op.looksUp = some key → caches (op, out) = none →
    s'.obj.cachemissCount = s.obj.cachemissCount + 1 ∧
      ∀ slot, cachedKey s' slot = cachedKey s slot
  duplicate : ∀ key value mem, op = .insert key value mem → out = .bool false →
    ∀ slot, cachedKey s' slot = cachedKey s slot
  otherErase : ∀ key, op = .erase key → ∀ slot, cachedKey s slot ≠ some key →
    cachedKey s' slot = cachedKey s slot

omit [Inhabited V] in
theorem Effect.counts {s s' : MapState K V CACHE_SIZE} {op : MapOp K V} {out : Out V Nat}
    (he : Effect hashFunc s op s' out) : Counts s op s' out where
  noLookup := by
    intro hop
    rw [he.counter, looksPast, hop]
    exact UInt64.add_zero _
  failedLookup := by
    intro key hop hc
    refine ⟨?_, fun slot => ?_⟩
    · rw [he.counter, he.failed key hop hc]
      rfl
    · rw [he.cached slot]
      simp only [remember, hc]
      cases op <;> first | rfl | cases hop
  duplicate := by
    rintro key value mem rfl rfl slot
    exact he.cached slot
  otherErase := by
    rintro key rfl slot hne
    rw [he.cached slot]
    exact if_neg hne

/-- **The miss counter.** After every run it is the number of lookups, one for each `operator[]`,
whose key was not resident when they came, modulo `2 ^ 64`, and the slots hold the residents.
A call that looks nothing up leaves the counter, a lookup that fails adds one and leaves the
residents, as a duplicate insertion and the erasure of another key do. -/
theorem cachemiss_counts (hashFunc : K → UInt64) (ops : List (MapOp K V)) :
    (∃ q, run (step hashFunc .seesOldKey) (MapState.init : MapState K V CACHE_SIZE) ops = .ok q) ∧
      ∀ r s outs,
        run (step hashFunc r) (MapState.init : MapState K V CACHE_SIZE) ops = .ok (s, outs) →
          s.obj.cachemissCount = UInt64.ofNat (misses CACHE_SIZE hashFunc [] (ops.zip outs)) ∧
          (∀ slot key, cachedKey s slot = some key ↔ Resident hashFunc (ops.zip outs) slot key) ∧
          ∀ op s' out, step hashFunc r s op = .ok (s', out) → Counts s op s' out := by
  have hall : AllAlong (step hashFunc .seesOldKey) (fun s => Inv hashFunc s.heap s.obj)
      (MapState.init : MapState K V CACHE_SIZE) ops :=
    allAlong_of_eachStep (c := fun _ _ => True) _ (fun s op hi _ => step_inv s op hi) (Inv.new _)
      (eachStep_of_forall (fun _ _ => trivial) MapState.init ops)
  refine ⟨allAlong_true_iff.mp (hall.mono fun _ _ => trivial), fun r s outs hr => ?_⟩
  obtain ⟨ht, hc⟩ := tracks_run tracks_init hr
  refine ⟨?_, fun slot key => ?_, fun op s' out hs => ?_⟩
  · rw [hc]
    exact UInt64.zero_add _
  · rw [ht.2 slot, residentKey_eq_some]
    rfl
  · exact (effect_step ht.1 (step_seesOldKey ht.1 hs)).counts

/-- Two slots, keys 1, 3 and 5 in one of them: the first lookup hits, the four after 3 was inserted
miss. -/
theorem cachemiss_counts_collision :
    (∃ q, run (step (fun key : Nat => key.toUInt64) .seesOldKey)
        (MapState.init : MapState Nat Nat 2)
        [.insert 1 10 true, .find 1, .insert 3 30 true, .find 1, .index 3 true, .erase 3,
          .contains 3, .find 5] = .ok q) ∧
      ∀ r s outs,
        run (step (fun key : Nat => key.toUInt64) r) (MapState.init : MapState Nat Nat 2)
          [.insert 1 10 true, .find 1, .insert 3 30 true, .find 1, .index 3 true, .erase 3,
            .contains 3, .find 5] = .ok (s, outs) →
          s.obj.cachemissCount = UInt64.ofNat (misses 2 (fun key : Nat => key.toUInt64) []
            (List.zip [.insert 1 10 true, .find 1, .insert 3 30 true, .find 1, .index 3 true,
              .erase 3, .contains 3, .find 5] outs)) ∧
          (∀ slot key, cachedKey s slot = some key ↔
            Resident (fun key : Nat => key.toUInt64)
              (List.zip [.insert 1 10 true, .find 1, .insert 3 30 true, .find 1, .index 3 true,
                .erase 3, .contains 3, .find 5] outs) slot key) ∧
          ∀ op s' out, step (fun key : Nat => key.toUInt64) r s op = .ok (s', out) →
            Counts s op s' out :=
  cachemiss_counts _ _

/-- A lookup that fails is a miss. -/
theorem failed_lookup_misses :
    ∃ s, step (fun key : Nat => key.toUInt64) .seesOldKey (MapState.init : MapState Nat Nat 64)
        (.find 1) = .ok (s, .ptr none) ∧
      (MapState.init : MapState Nat Nat 64).obj.cachemissCount = 0 ∧ s.obj.cachemissCount = 1 :=
  ⟨_, rfl, rfl, rfl⟩

end Lldk.UnorderedMap
