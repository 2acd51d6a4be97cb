import Mathlib.Algebra.GroupWithZero.Nat
import Mathlib.Data.List.Pairwise
import Mathlib.Logic.Function.Basic

/-!
Memory as bytes, and an allocator that hands out regions of it.

* `bytesOf` and `ofBytes` are numbers as bytes, the lowest first. `store` and `load` put bytes into
  a memory and read them (`load_store`, `store_of_lt`, `store_of_ge`, `load_congr`).
* `Region top` is a block below `top`: what was asked for and what was obtained. The live regions
  of a `Memory` stay apart, as a field of it.
* `malloc`, `realloc` and `free` take the answer of the allocator, and are `none` for an answer that
  breaks its contract (`MallocMay`, `ReallocMay`). They may write anything outside the live regions
  (`scribble`).
* `malloc_cases`, `realloc_cases`, `free_keeps`: what they leave. `Keeps m m' r`: region `r` is live
  still, with the bytes it had.
-/

namespace Lib.ByteMemory

/-! ## Numbers as bytes -/

/-- The `k` lowest bytes of `v`. -/
def bytesOf : Nat → Nat → List UInt8
  | 0, _ => []
  | k + 1, v => UInt8.ofNat v :: bytesOf k (v / 256)

def ofBytes : List UInt8 → Nat
  | [] => 0
  | b :: bs => b.toNat + 256 * ofBytes bs

@[simp] theorem length_bytesOf (k v : Nat) : (bytesOf k v).length = k := by
  induction k generalizing v with
  | zero => rfl
  | succ k ih => rw [bytesOf, List.length_cons, ih]

theorem ofBytes_bytesOf (k v : Nat) : ofBytes (bytesOf k v) = v % 256 ^ k := by
  induction k generalizing v with
  | zero => rw [bytesOf, ofBytes, Nat.pow_zero, Nat.mod_one]
  | succ k ih =>
    calc ofBytes (bytesOf (k + 1) v)
        = v % 256 + 256 * (v / 256 % 256 ^ k) := by rw [bytesOf, ofBytes, ih, UInt8.toNat_ofNat']
      _ = v % (256 * 256 ^ k) := Nat.mod_mul.symm
      _ = v % 256 ^ (k + 1) := by rw [Nat.pow_succ']

/-! ## Loads and stores -/

abbrev Bytes := Nat → UInt8

def store (m : Bytes) (a : Nat) : List UInt8 → Bytes
  | [] => m
  | b :: bs => store (Function.update m a b) (a + 1) bs

def load (m : Bytes) (a : Nat) : Nat → List UInt8
  | 0 => []
  | k + 1 => m a :: load m (a + 1) k

theorem store_of_lt {m : Bytes} {a x : Nat} (h : x < a) (bs : List UInt8) :
    store m a bs x = m x := by
  induction bs generalizing m a with
  | nil => rfl
  | cons b bs ih => rw [store, ih (by omega), Function.update_of_ne (by omega)]

theorem store_of_ge {m : Bytes} {a x : Nat} {bs : List UInt8} (h : a + bs.length ≤ x) :
    store m a bs x = m x := by
  induction bs generalizing m a with
  | nil => rfl
  | cons b bs ih =>
    rw [List.length_cons] at h
    rw [store, ih (by omega), Function.update_of_ne (by omega)]

theorem load_congr {m m' : Bytes} {a k : Nat} (h : ∀ x, a ≤ x → x < a + k → m' x = m x) :
    load m' a k = load m a k := by
  induction k generalizing a with
  | zero => rfl
  | succ k ih =>
    rw [load, load, h a (Nat.le_refl a) (by omega), ih fun x hx hx' => h x (by omega) (by omega)]

/-- What was stored is read back. -/
theorem load_store (m : Bytes) (a : Nat) (bs : List UInt8) :
    load (store m a bs) a bs.length = bs := by
  induction bs generalizing m a with
  | nil => rfl
  | cons b bs ih =>
    have hfirst : store (Function.update m a b) (a + 1) bs a = b := by
      rw [store_of_lt (Nat.lt_succ_self a), Function.update_self]
    rw [List.length_cons, load, store, hfirst, ih]

/-! ## Regions -/

/-- A block of `size` bytes from `base`, obtained for `asked` bytes. -/
structure Region (top : Nat) where
  base : Nat
  size : Nat
  asked : Nat
  asked_le : asked ≤ size
  base_pos : 0 < base
  top_le : base + size ≤ top

variable {top : Nat}

namespace Region

def Mem (a : Nat) (r : Region top) : Prop := r.base ≤ a ∧ a < r.base + r.size

/-- The regions share no byte, and can be told apart by their addresses. -/
def Apart (r r' : Region top) : Prop :=
  r.base ≠ r'.base ∧ (r.base + r.size ≤ r'.base ∨ r'.base + r'.size ≤ r.base)

instance (a : Nat) (r : Region top) : Decidable (r.Mem a) :=
  inferInstanceAs (Decidable (_ ∧ _))

instance (r r' : Region top) : Decidable (r.Apart r') :=
  inferInstanceAs (Decidable (_ ∧ _))

theorem Apart.symm {r r' : Region top} (h : r.Apart r') : r'.Apart r := ⟨h.1.symm, h.2.symm⟩

instance : Std.Symm (@Apart top) := ⟨fun _ _ h => h.symm⟩

theorem Apart.notMem {r r' : Region top} (h : r.Apart r') {a : Nat} (ha : r.Mem a) :
    ¬ r'.Mem a := by
  obtain ⟨hlo, hhi⟩ := ha
  rintro ⟨hlo', hhi'⟩
  rcases h.2 with hle | hle
  · omega
  · omega

/-- The bytes that were asked for. -/
theorem mem_of_lt_asked {r : Region top} {i : Nat} (h : i < r.asked) : r.Mem (r.base + i) :=
  ⟨Nat.le_add_right .., Nat.add_lt_add_left (Nat.lt_of_lt_of_le h r.asked_le) _⟩

end Region

/-! ## Memory -/

structure Memory (top : Nat) where
  bytes : Bytes
  live : List (Region top)
  apart : live.Pairwise Region.Apart

namespace Memory

def Owned (m : Memory top) (a : Nat) : Prop := ∃ r, r ∈ m.live ∧ r.Mem a

instance (m : Memory top) (a : Nat) : Decidable (m.Owned a) :=
  inferInstanceAs (Decidable (∃ r, r ∈ m.live ∧ r.Mem a))

/-- Any bytes outside the live regions. -/
def scribble (m : Memory top) (junk : Bytes) : Memory top :=
  { m with bytes := fun a => if m.Owned a then m.bytes a else junk a }

def add (m : Memory top) (r : Region top) (h : ∀ r', r' ∈ m.live → r.Apart r') : Memory top :=
  { m with
    live := r :: m.live
    apart := List.pairwise_cons.mpr ⟨h, m.apart⟩ }

def remove (m : Memory top) (base : Nat) : Memory top :=
  { m with
    live := m.live.filter fun r => r.base ≠ base
    apart := m.apart.filter _ }

/-- The live region at `base`. -/
def find (m : Memory top) (base : Nat) : Option (Region top) :=
  m.live.find? fun r => r.base = base

end Memory

/-- What the allocator answers: null, null after it released the block that was to be resized, or a
region; and what it left outside the live regions. -/
inductive Answer (top : Nat)
  | null (junk : Bytes)
  | released (junk : Bytes)
  | block (r : Region top) (junk : Bytes)

namespace Memory

/-- The contract of `malloc(n)`: null, or `n` bytes apart from every live region. -/
def MallocMay (m : Memory top) (n : Nat) : Answer top → Prop
  | .null _ => True
  | .released _ => False
  | .block r _ => r.asked = n ∧ ∀ r', r' ∈ m.live → r.Apart r'

/-- The contract of `realloc(old, n)`: only for `n = 0` may it release the block and answer null. -/
def ReallocMay (m : Memory top) (old : Region top) (n : Nat) : Answer top → Prop
  | .null _ => True
  | .released _ => n = 0
  | .block r _ => r.asked = n ∧ ∀ r', r' ∈ (m.remove old.base).live → r.Apart r'

instance (m : Memory top) (n : Nat) (ans : Answer top) : Decidable (m.MallocMay n ans) :=
  match ans with
  | .null _ => inferInstanceAs (Decidable True)
  | .released _ => inferInstanceAs (Decidable False)
  | .block _ _ => inferInstanceAs (Decidable (_ ∧ _))

instance (m : Memory top) (old : Region top) (n : Nat) (ans : Answer top) :
    Decidable (m.ReallocMay old n ans) :=
  match ans with
  | .null _ => inferInstanceAs (Decidable True)
  | .released _ => inferInstanceAs (Decidable (_ = _))
  | .block _ _ => inferInstanceAs (Decidable (_ ∧ _))

/-- `malloc(n)` -/
def malloc (m : Memory top) (n : Nat) : Answer top → Option (Option Nat × Memory top)
  | .null junk => some (none, m.scribble junk)
  | .released _ => none
  | .block r junk =>
    if h : m.MallocMay n (.block r junk) then some (some r.base, (m.scribble junk).add r h.2)
    else none

/-- The bytes after the region `old` has become `r`: it has the bytes of `old`, as many as were
asked for both times. -/
def moved (m : Memory top) (old r : Region top) (junk : Bytes) : Memory top :=
  { m with
    bytes := fun a =>
      if m.Owned a then m.bytes a
      else if r.base ≤ a ∧ a < r.base + min old.asked r.asked then
        m.bytes (old.base + (a - r.base))
      else junk a }

/-- `realloc(old, n)` -/
def realloc (m : Memory top) (old : Region top) (n : Nat) :
    Answer top → Option (Option Nat × Memory top)
  | .null junk => some (none, m.scribble junk)
  | .released junk => if n = 0 then some (none, (m.remove old.base).scribble junk) else none
  | .block r junk =>
    if h : m.ReallocMay old n (.block r junk) then
      some (some r.base, ((m.remove old.base).moved old r junk).add r h.2)
    else none

def free (m : Memory top) (base : Nat) (junk : Bytes) : Memory top := (m.remove base).scribble junk

/-! ## Live regions -/

theorem mem_remove {m : Memory top} {base : Nat} {r : Region top} :
    r ∈ (m.remove base).live ↔ r ∈ m.live ∧ r.base ≠ base := by
  simp only [remove, List.mem_filter, decide_eq_true_eq]

theorem find_eq_some {m : Memory top} {base : Nat} {r : Region top} (h : m.find base = some r) :
    r ∈ m.live ∧ r.base = base := by
  unfold find at h
  have hbase := List.find?_some h
  exact ⟨List.mem_of_find?_eq_some h, of_decide_eq_true hbase⟩

theorem exists_find {m : Memory top} {r : Region top} (h : r ∈ m.live) :
    ∃ r', m.find r.base = some r' := by
  cases hf : m.find r.base with
  | some r' => exact ⟨r', rfl⟩
  | none => exact absurd (decide_eq_true rfl) (List.find?_eq_none.mp hf r h)

/-- Two live regions are the same or apart. -/
theorem eq_or_apart {m : Memory top} {r r' : Region top} (hr : r ∈ m.live) (hr' : r' ∈ m.live) :
    r = r' ∨ r.Apart r' := by
  rcases Classical.em (r = r') with he | hne
  · exact Or.inl he
  · exact Or.inr (m.apart.forall hr hr' hne)

theorem eq_of_base {m : Memory top} {r r' : Region top} (hr : r ∈ m.live) (hr' : r' ∈ m.live)
    (h : r.base = r'.base) : r = r' :=
  (eq_or_apart hr hr').resolve_right fun hap => hap.1 h

theorem apart_of_live {m : Memory top} {r r' : Region top} {rs : List (Region top)}
    (h : m.live = r :: rs) (hr' : r' ∈ rs) : r.Apart r' :=
  (List.pairwise_cons.mp (h ▸ m.apart)).1 r' hr'

/-! ## What the allocator leaves -/

/-- Region `r` is live still, with the bytes it had. -/
def Keeps (m m' : Memory top) (r : Region top) : Prop :=
  r ∈ m'.live ∧ ∀ a, r.Mem a → m'.bytes a = m.bytes a

theorem Keeps.trans {m m' m'' : Memory top} {r : Region top} (h : Keeps m m' r)
    (h' : Keeps m' m'' r) : Keeps m m'' r :=
  ⟨h'.1, fun a ha => (h'.2 a ha).trans (h.2 a ha)⟩

theorem scribble_of_owned {m : Memory top} {a : Nat} (h : m.Owned a) (junk : Bytes) :
    (m.scribble junk).bytes a = m.bytes a := if_pos h

theorem exists_malloc {m : Memory top} {n : Nat} {ans : Answer top} (h : m.MallocMay n ans) :
    ∃ r, m.malloc n ans = some r := by
  cases ans with
  | null junk => exact ⟨_, rfl⟩
  | released junk => exact h.elim
  | block r junk => exact ⟨_, dif_pos h⟩

theorem exists_realloc {m : Memory top} {old : Region top} {n : Nat} {ans : Answer top}
    (h : m.ReallocMay old n ans) : ∃ r, m.realloc old n ans = some r := by
  cases ans with
  | null junk => exact ⟨_, rfl⟩
  | released junk => exact ⟨_, if_pos h⟩
  | block r junk => exact ⟨_, dif_pos h⟩

/-- **`malloc`** answers null or a new region, and keeps every live one. -/
theorem malloc_cases {m m' : Memory top} {n : Nat} {ans : Answer top} {q : Option Nat}
    (h : m.malloc n ans = some (q, m')) :
    (∀ r, r ∈ m.live → Keeps m m' r) ∧
      ((q = none ∧ (∃ junk, ans = .null junk) ∧ m'.live = m.live) ∨
        ∃ r, q = some r.base ∧ (∃ junk, ans = .block r junk) ∧ r.asked = n ∧
          m'.live = r :: m.live) := by
  cases ans with
  | null junk =>
    cases h
    exact ⟨fun r hr => ⟨hr, fun a ha => scribble_of_owned ⟨r, hr, ha⟩ junk⟩,
      Or.inl ⟨rfl, ⟨junk, rfl⟩, rfl⟩⟩
  | released junk => cases h
  | block r junk =>
    simp only [malloc] at h
    split at h
    · rename_i hr
      cases h
      exact ⟨fun r' hr' => ⟨List.mem_cons_of_mem _ hr',
        fun a ha => scribble_of_owned ⟨r', hr', ha⟩ junk⟩, Or.inr ⟨r, rfl, ⟨junk, rfl⟩, hr.1, rfl⟩⟩
    · cases h

/-- `free` keeps every other region. -/
theorem free_keeps {m : Memory top} {base : Nat} {r : Region top} (hr : r ∈ m.live)
    (hne : r.base ≠ base) (junk : Bytes) : Keeps m (m.free base junk) r :=
  ⟨mem_remove.mpr ⟨hr, hne⟩,
    fun _ ha => scribble_of_owned ⟨r, mem_remove.mpr ⟨hr, hne⟩, ha⟩ junk⟩

/-- **`realloc`** answers null and keeps its block, or, for no bytes, answers null and has
released it; or it answers a region with the bytes of the block. It keeps every other region. -/
theorem realloc_cases {m m' : Memory top} {old : Region top} {n : Nat} {ans : Answer top}
    {q : Option Nat} (h : m.realloc old n ans = some (q, m')) :
    (∀ r, r ∈ m.live → r.base ≠ old.base → Keeps m m' r) ∧
      ((q = none ∧ (∃ junk, ans = .null junk) ∧ m'.live = m.live ∧
          ∀ r, r ∈ m.live → Keeps m m' r) ∨
        (q = none ∧ (∃ junk, ans = .released junk) ∧ n = 0 ∧
          m'.live = (m.remove old.base).live) ∨
        ∃ r, q = some r.base ∧ (∃ junk, ans = .block r junk) ∧ r.asked = n ∧
          m'.live = r :: (m.remove old.base).live ∧
          ∀ i, i < min old.asked n → m'.bytes (r.base + i) = m.bytes (old.base + i)) := by
  cases ans with
  | null junk =>
    cases h
    have hall : ∀ r, r ∈ m.live → Keeps m (m.scribble junk) r :=
      fun r hr => ⟨hr, fun a ha => scribble_of_owned ⟨r, hr, ha⟩ junk⟩
    exact ⟨fun r hr _ => hall r hr, Or.inl ⟨rfl, ⟨junk, rfl⟩, rfl, hall⟩⟩
  | released junk =>
    simp only [realloc] at h
    split at h
    · rename_i hn
      cases h
      exact ⟨fun r hr hne => free_keeps hr hne junk, Or.inr (Or.inl ⟨rfl, ⟨junk, rfl⟩, hn, rfl⟩)⟩
    · cases h
  | block r junk =>
    simp only [realloc] at h
    split at h
    · rename_i hr
      cases h
      refine ⟨fun r' hr' hne => ?_,
        Or.inr (Or.inr ⟨r, rfl, ⟨junk, rfl⟩, hr.1, rfl, fun i hi => ?_⟩)⟩
      · have hin : r' ∈ (m.remove old.base).live := mem_remove.mpr ⟨hr', hne⟩
        exact ⟨List.mem_cons_of_mem _ hin, fun a ha => if_pos ⟨r', hin, ha⟩⟩
      · rw [← hr.1] at hi
        have hmem : r.Mem (r.base + i) :=
          Region.mem_of_lt_asked (Nat.lt_of_lt_of_le hi (Nat.min_le_right ..))
        have hfree : ¬ (m.remove old.base).Owned (r.base + i) := by
          rintro ⟨r', hr', ha⟩
          exact (hr.2 r' hr').notMem hmem ha
        have hfront : r.base ≤ r.base + i ∧ r.base + i < r.base + min old.asked r.asked :=
          ⟨Nat.le_add_right .., Nat.add_lt_add_left hi _⟩
        calc (((m.remove old.base).moved old r junk).add r hr.2).bytes (r.base + i)
            = m.bytes (old.base + (r.base + i - r.base)) := by
              simp only [add, moved, hfree, if_false, hfront, and_self, if_true]
              rfl
          _ = m.bytes (old.base + i) := by rw [Nat.add_sub_cancel_left]
    · cases h

/-! ## Writes -/

def write (m : Memory top) (a : Nat) (bs : List UInt8) : Memory top :=
  { m with bytes := store m.bytes a bs }

/-- A write inside a live region keeps every other. -/
theorem write_keeps {m : Memory top} {r r' : Region top} (hr : r ∈ m.live) (hr' : r' ∈ m.live)
    (hne : r' ≠ r) {a : Nat} {bs : List UInt8} (hlo : r.base ≤ a)
    (hhi : a + bs.length ≤ r.base + r.size) : Keeps m (m.write a bs) r' := by
  refine ⟨hr', fun x hx => ?_⟩
  have hap : r'.Apart r := (eq_or_apart hr' hr).resolve_left hne
  obtain ⟨hxlo, hxhi⟩ := hx
  rcases hap.2 with hle | hle
  · exact store_of_lt (by omega) bs
  · exact store_of_ge (by omega)

end Memory

end Lib.ByteMemory
