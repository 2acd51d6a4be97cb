import Lldk.Lib.Trace
import Lldk.Lib.ByteMemory
import Lldk.Base.Process

/-!
The allocation functions of `allocator_impl.cpp` on a memory of bytes.

* `mallocWithHeader`, `reAllocate` and `freeWithHeader` follow the source: the sum of size and
  header in 64 bits, the eight bytes of the header, and the pointer behind it. The counters and the
  error codes of these functions are in `AllocatorImpl` and `Process`.
* `Allocations` is a memory and what its callers know: for each live pointer the size requested
  last. `memStep` is one call, or one byte written to a payload.
* `Contained`: headers and payloads are inside the blocks that `malloc` and `realloc` gave out, and
  do not overlap. `contained_iff`: a run has it all along iff no size was too large.
-/

namespace Lldk.AllocatorMemory

open Lib Lib.ByteMemory Lib.Trace

/-- One past the last address. -/
def addressSpace : Nat := 2 ^ 64

abbrev Mem := Memory addressSpace

/-- `*((uint64_t *)p)` -/
def loadSize (m : Mem) (p : Nat) : UInt64 := UInt64.ofNat (ofBytes (load m.bytes p 8))

/-- `*((uint64_t *)p) = uSize` -/
def storeSize (m : Mem) (p : Nat) (uSize : UInt64) : Mem := m.write p (bytesOf 8 uSize.toNat)

/-- What `malloc` and `realloc` are asked for: `uSize + sizeof(uint64_t)`. -/
def askedSize (uSize : UInt64) : Nat := (uSize + headerSize).toNat

/-- `malloc` and the header. -/
def mallocWithHeader (m : Mem) (uSize : UInt64) (ans : Answer addressSpace) :
    Option (Option Nat × Mem) :=
  match m.malloc (askedSize uSize) ans with
  | none => none
  | some (none, m) => some (none, m)
  | some (some pData, m) => some (some (pData + 8), storeSize m pData uSize)

/-- `AllocatorImpl::allocate` -/
def allocate : Mem → UInt64 → Answer addressSpace → Option (Option Nat × Mem) := mallocWithHeader

/-- `__lldkAllocate` -/
def lldkAllocate : Mem → UInt64 → Answer addressSpace → Option (Option Nat × Mem) :=
  mallocWithHeader

/-- The header is read, and the block released. The result has the size that is counted. -/
def freeWithHeader (m : Mem) (pMemory : Option Nat) (junk : Bytes) :
    Option (Option UInt64 × Mem) :=
  match pMemory with
  | none => some (none, m)
  | some p =>
    match m.find (p - 8) with
    | none => none
    | some pOriginalMemory =>
      some (some (loadSize m pOriginalMemory.base), m.free pOriginalMemory.base junk)

/-- `AllocatorImpl::free` -/
def free : Mem → Option Nat → Bytes → Option (Option UInt64 × Mem) := freeWithHeader

/-- `__lldkFree` -/
def lldkFree : Mem → Option Nat → Bytes → Option (Option UInt64 × Mem) := freeWithHeader

/-- `AllocatorImpl::reAllocate`. The result has the size that is counted as freed. -/
def reAllocate (m : Mem) (pMemory : Option Nat) (uSize : UInt64) (ans : Answer addressSpace) :
    Option (Option Nat × Option UInt64 × Mem) :=
  match pMemory with
  | none => (allocate m uSize ans).map fun r => (r.1, none, r.2)
  | some p =>
    match m.find (p - 8) with
    | none => none
    | some pOriginalMemory =>
      -- the old size is read before the block may move
      let uOldSize := loadSize m pOriginalMemory.base
      match m.realloc pOriginalMemory (askedSize uSize) ans with
      | none => none
      | some (none, m) => some (none, none, m)
      | some (some pNewMemory, m) =>
        some (some (pNewMemory + 8), some uOldSize, storeSize m pNewMemory uSize)

/-! ## Calls -/

structure Allocations where
  memory : Mem
  /-- the size requested last, of the pointers that were returned and not given back -/
  requested : Nat → Option UInt64

inductive MemOp
  | allocate (uSize : UInt64) (ans : Answer addressSpace)
  | lldkAllocate (uSize : UInt64) (ans : Answer addressSpace)
  | reAllocate (pMemory : Option Nat) (uSize : UInt64) (ans : Answer addressSpace)
  | free (pMemory : Option Nat) (junk : Bytes)
  | lldkFree (pMemory : Option Nat) (junk : Bytes)
  /-- byte `i` of a payload -/
  | write (p i : Nat) (b : UInt8)

inductive MemFault
  /-- not an answer of `malloc` or `realloc` -/
  | contract
  | notLive (p : Nat)
  | outside (p i : Nat)
  deriving DecidableEq, Repr

/-- The pointer that was returned and the size that was read from a header. -/
structure MemOut where
  returned : Option Nat
  read : Option UInt64
  deriving DecidableEq, Repr

namespace Allocations

/-- Before the first call, with whatever else lives in the memory. -/
def start (m : Mem) : Allocations := ⟨m, fun _ => none⟩

/-- A block of `uSize` bytes was returned at `q`, or null. -/
def returns (s : Allocations) (q : Option Nat) (uSize : UInt64) (m : Mem) : Allocations :=
  match q with
  | none => ⟨m, s.requested⟩
  | some q => ⟨m, Function.update s.requested q (some uSize)⟩

/-- The block of `p` is not the caller's any more. -/
def givesUp (s : Allocations) (p : Nat) (m : Mem) : Allocations :=
  ⟨m, Function.update s.requested p none⟩

end Allocations

theorem requested_returns (s : Allocations) (q : Nat) (uSize : UInt64) (m : Mem) :
    (s.returns (some q) uSize m).requested q = some uSize := Function.update_self ..

theorem requested_returns_ne {s : Allocations} {m : Mem} {q q' : Nat} (h : q' ≠ q)
    (uSize : UInt64) : (s.returns (some q) uSize m).requested q' = s.requested q' :=
  Function.update_of_ne h ..

theorem requested_givesUp_self (s : Allocations) (p : Nat) (m : Mem) :
    (s.givesUp p m).requested p = none := Function.update_self ..

theorem requested_givesUp_ne {s : Allocations} {m : Mem} {p q : Nat} (h : q ≠ p) :
    (s.givesUp p m).requested q = s.requested q := Function.update_of_ne h ..

/-- A block that is live after another one was given up. -/
theorem requested_givesUp {s : Allocations} {p q : Nat} {m : Mem} {uSize : UInt64}
    (h : (s.givesUp p m).requested q = some uSize) : q ≠ p ∧ s.requested q = some uSize := by
  by_cases he : q = p
  · subst he
    rw [requested_givesUp_self] at h
    cases h
  · exact ⟨he, (requested_givesUp_ne he).symm.trans h⟩

/-- After `allocate` or `__lldkAllocate`. -/
def afterAllocate (s : Allocations) (uSize : UInt64) :
    Option (Option Nat × Mem) → Except MemFault (Allocations × MemOut)
  | none => .error .contract
  | some (q, m) => .ok (s.returns q uSize m, ⟨q, none⟩)

/-- After `free` or `__lldkFree`, which a caller may do with null and with live pointers. -/
def afterFree (s : Allocations) (pMemory : Option Nat) (r : Option (Option UInt64 × Mem)) :
    Except MemFault (Allocations × MemOut) :=
  match pMemory, r with
  | none, none => .error .contract
  | none, some (uSize, m) => .ok (⟨m, s.requested⟩, ⟨none, uSize⟩)
  | some p, r =>
    match s.requested p, r with
    | some _, some (uSize, m) => .ok (s.givesUp p m, ⟨none, uSize⟩)
    | _, _ => .error (.notLive p)

def memStep : Step Allocations MemOp MemOut MemFault
  | s, .allocate uSize ans => afterAllocate s uSize (allocate s.memory uSize ans)
  | s, .lldkAllocate uSize ans => afterAllocate s uSize (lldkAllocate s.memory uSize ans)
  | s, .reAllocate none uSize ans =>
    match reAllocate s.memory none uSize ans with
    | none => .error .contract
    | some (q, uOldSize, m) => .ok (s.returns q uSize m, ⟨q, uOldSize⟩)
  | s, .reAllocate (some p) uSize ans =>
    match s.requested p, reAllocate s.memory (some p) uSize ans with
    | none, _ => .error (.notLive p)
    | some _, none => .error .contract
    -- null says that nothing has happened: to its caller the block is live as before
    | some _, some (none, uOldSize, m) => .ok (⟨m, s.requested⟩, ⟨none, uOldSize⟩)
    | some _, some (some q, uOldSize, m) =>
      .ok ((s.givesUp p m).returns (some q) uSize m, ⟨some q, uOldSize⟩)
  | s, .free pMemory junk => afterFree s pMemory (free s.memory pMemory junk)
  | s, .lldkFree pMemory junk => afterFree s pMemory (lldkFree s.memory pMemory junk)
  | s, .write p i b =>
    match s.requested p with
    | none => .error (.notLive p)
    | some uSize =>
      if i < uSize.toNat then .ok (⟨s.memory.write (p + i) [b], s.requested⟩, ⟨none, none⟩)
      else .error (.outside p i)

/-- The caller uses what it has, and `malloc` and `realloc` keep their contracts. -/
def MemOp.legal (s : Allocations) : MemOp → Prop
  | .allocate uSize ans => s.memory.MallocMay (askedSize uSize) ans
  | .lldkAllocate uSize ans => s.memory.MallocMay (askedSize uSize) ans
  | .reAllocate none uSize ans => s.memory.MallocMay (askedSize uSize) ans
  | .reAllocate (some p) uSize ans => (s.requested p).isSome ∧
      ∀ old, old ∈ s.memory.live → p = old.base + 8 →
        s.memory.ReallocMay old (askedSize uSize) ans
  | .free none _ => True
  | .free (some p) _ => (s.requested p).isSome
  | .lldkFree none _ => True
  | .lldkFree (some p) _ => (s.requested p).isSome
  | .write p i _ => ∃ uSize, uSize ∈ s.requested p ∧ i < uSize.toNat

instance (s : Allocations) (op : MemOp) : Decidable (op.legal s) :=
  match op with
  | .allocate _ _ => inferInstanceAs (Decidable (s.memory.MallocMay _ _))
  | .lldkAllocate _ _ => inferInstanceAs (Decidable (s.memory.MallocMay _ _))
  | .reAllocate none _ _ => inferInstanceAs (Decidable (s.memory.MallocMay _ _))
  | .reAllocate (some _) _ _ => inferInstanceAs (Decidable (_ ∧ _))
  | .free none _ => inferInstanceAs (Decidable True)
  | .free (some _) _ => inferInstanceAs (Decidable (_ = _))
  | .lldkFree none _ => inferInstanceAs (Decidable True)
  | .lldkFree (some _) _ => inferInstanceAs (Decidable (_ = _))
  | .write _ _ _ => inferInstanceAs (Decidable (∃ uSize, uSize ∈ s.requested _ ∧ _))

/-- With null, `reAllocate` is `allocate`. -/
theorem memStep_reAllocate_null (s : Allocations) (uSize : UInt64) (ans : Answer addressSpace) :
    memStep s (.reAllocate none uSize ans) = memStep s (.allocate uSize ans) := by
  simp only [memStep, reAllocate]
  cases allocate s.memory uSize ans <;> rfl

/-! ## Headers -/

theorem loadSize_storeSize (m : Mem) (p : Nat) (uSize : UInt64) :
    loadSize (storeSize m p uSize) p = uSize := by
  have hload : load (store m.bytes p (bytesOf 8 uSize.toNat)) p 8 = bytesOf 8 uSize.toNat := by
    have h := load_store m.bytes p (bytesOf 8 uSize.toNat)
    rwa [length_bytesOf] at h
  have hlt : uSize.toNat < 256 ^ 8 := uSize.toNat_lt
  show UInt64.ofNat (ofBytes (load (store m.bytes p (bytesOf 8 uSize.toNat)) p 8)) = uSize
  rw [hload, ofBytes_bytesOf, Nat.mod_eq_of_lt hlt, UInt64.ofNat_toNat]

theorem loadSize_congr {m m' : Mem} {p : Nat}
    (h : ∀ x, p ≤ x → x < p + 8 → m'.bytes x = m.bytes x) : loadSize m' p = loadSize m p := by
  unfold loadSize
  rw [load_congr h]

/-- The header of a region that has room for it keeps every other region. -/
theorem storeSize_keeps {m : Mem} {r r' : Region addressSpace} (hr : r ∈ m.live) (hr' : r' ∈ m.live)
    (hne : r' ≠ r) (hsize : 8 ≤ r.size) (uSize : UInt64) :
    (Memory.Keeps m (storeSize m r.base uSize) r') := by
  refine Memory.write_keeps hr hr' hne (Nat.le_refl _) ?_
  rw [length_bytesOf]
  exact Nat.add_le_add_left hsize _

/-- With its header, a size of up to `2 ^ 64 - 9` is asked for as it is. -/
theorem askedSize_eq {uSize : UInt64} (h : uSize.toNat + 8 < 2 ^ 64) :
    askedSize uSize = uSize.toNat + 8 := by
  unfold askedSize
  rw [UInt64.toNat_add]
  exact Nat.mod_eq_of_lt h

/-! ## What the functions leave -/

/-- Region `r` was obtained for a block of `uSize` bytes, besides the regions `rs`. -/
structure Obtained (rs : List (Region addressSpace)) (r : Region addressSpace) (uSize : UInt64)
    (m : Mem) : Prop where
  asked : r.asked = askedSize uSize
  live : m.live = r :: rs
  header : loadSize m r.base = uSize

/-- The header is written into a region that was just obtained. -/
theorem obtained_storeSize {m : Mem} {r : Region addressSpace} {rs : List (Region addressSpace)}
    {uSize : UInt64} (hasked : r.asked = askedSize uSize) (hlive : m.live = r :: rs) :
    Obtained rs r uSize (storeSize m r.base uSize) ∧
      (8 ≤ r.size → ∀ r', r' ∈ rs → Memory.Keeps m (storeSize m r.base uSize) r') := by
  refine ⟨⟨hasked, hlive, loadSize_storeSize m r.base uSize⟩, fun hsize r' hr' => ?_⟩
  have hr : r ∈ m.live := hlive ▸ List.mem_cons_self ..
  have hin : r' ∈ m.live := hlive ▸ List.mem_cons_of_mem _ hr'
  have hne : r' ≠ r := by
    rintro rfl
    exact (Memory.apart_of_live hlive hr').1 rfl
  exact storeSize_keeps hr hin hne hsize uSize

/-- **An allocation** gets null, or a region of its own with the header in it. -/
theorem mallocWithHeader_cases {m m' : Mem} {uSize : UInt64} {ans : Answer addressSpace}
    {q : Option Nat} (h : mallocWithHeader m uSize ans = some (q, m')) :
    (q = none ∧ (∃ junk, ans = .null junk) ∧ m'.live = m.live ∧
        ∀ r, r ∈ m.live → Memory.Keeps m m' r) ∨
      ∃ r, q = some (r.base + 8) ∧ (∃ junk, ans = .block r junk) ∧ Obtained m.live r uSize m' ∧
        (8 ≤ r.size → ∀ r', r' ∈ m.live → Memory.Keeps m m' r') := by
  unfold mallocWithHeader at h
  split at h
  · cases h
  · rename_i m₁ hm
    cases h
    obtain ⟨hkeeps, ⟨-, hnull, hlive⟩ | ⟨r, hq, -⟩⟩ := Memory.malloc_cases hm
    · exact Or.inl ⟨rfl, hnull, hlive, hkeeps⟩
    · cases hq
  · rename_i pData m₁ hm
    cases h
    obtain ⟨hkeeps, ⟨hq, -⟩ | ⟨r, hq, hans, hasked, hlive⟩⟩ := Memory.malloc_cases hm
    · cases hq
    · cases hq
      obtain ⟨hob, hwrites⟩ := obtained_storeSize hasked hlive
      exact Or.inr ⟨r, rfl, hans, hob,
        fun hsize r' hr' => (hkeeps r' hr').trans (hwrites hsize r' hr')⟩

/-- **A reallocation** of a block gets null and leaves the block; or it gets null and has lost the
block, which takes a size that was not asked for as it is; or it gets a region with the payload of
the block, as far as it goes, and the header in it. -/
theorem reAllocate_cases {m m' : Mem} {p : Nat} {uSize : UInt64} {ans : Answer addressSpace}
    {q : Option Nat} {uOldSize : Option UInt64}
    (h : reAllocate m (some p) uSize ans = some (q, uOldSize, m')) :
    ∃ old, old ∈ m.live ∧ old.base = p - 8 ∧
      ((q = none ∧ (∃ junk, ans = .null junk) ∧ m'.live = m.live ∧
          ∀ r, r ∈ m.live → Memory.Keeps m m' r) ∨
        (q = none ∧ (∃ junk, ans = .released junk) ∧ askedSize uSize = 0 ∧
          m'.live = (m.remove old.base).live) ∨
        ∃ r, q = some (r.base + 8) ∧ (∃ junk, ans = .block r junk) ∧
          uOldSize = some (loadSize m old.base) ∧
          Obtained (m.remove old.base).live r uSize m' ∧
          (8 ≤ r.size → ∀ r', r' ∈ m.live → r'.base ≠ old.base → Memory.Keeps m m' r') ∧
          ∀ i, 8 ≤ i → i < min old.asked (askedSize uSize) →
            m'.bytes (r.base + i) = m.bytes (old.base + i)) := by
  simp only [reAllocate] at h
  split at h
  · cases h
  · rename_i old hfind
    obtain ⟨hold, hbase⟩ := Memory.find_eq_some hfind
    refine ⟨old, hold, hbase, ?_⟩
    split at h
    · cases h
    · rename_i m₁ hm
      cases h
      obtain ⟨-, ⟨-, hnull, hlive, hall⟩ | ⟨-, hans, hn, hlive⟩ | ⟨r, hq, -⟩⟩ :=
        Memory.realloc_cases hm
      · exact Or.inl ⟨rfl, hnull, hlive, hall⟩
      · exact Or.inr (Or.inl ⟨rfl, hans, hn, hlive⟩)
      · cases hq
    · rename_i pNewMemory m₁ hm
      cases h
      obtain ⟨hkeeps, ⟨hq, -⟩ | ⟨hq, -⟩ | ⟨r, hq, hans, hasked, hlive, hbytes⟩⟩ :=
        Memory.realloc_cases hm
      · cases hq
      · cases hq
      · cases hq
        obtain ⟨hob, hwrites⟩ := obtained_storeSize hasked hlive
        refine Or.inr (Or.inr ⟨r, rfl, hans, rfl, hob, fun hsize r' hr' hne => ?_,
          fun i hi hlt => ?_⟩)
        · exact (hkeeps r' hr' hne).trans (hwrites hsize r' (Memory.mem_remove.mpr ⟨hr', hne⟩))
        · rw [← hbytes i hlt]
          refine store_of_ge ?_
          rw [length_bytesOf]
          exact Nat.add_le_add_left hi _

/-- **A release** reads the size in the header and keeps every other region. -/
theorem freeWithHeader_cases {m m' : Mem} {p : Nat} {junk : Bytes} {uSize : Option UInt64}
    (h : freeWithHeader m (some p) junk = some (uSize, m')) :
    ∃ old, old ∈ m.live ∧ old.base = p - 8 ∧ uSize = some (loadSize m old.base) ∧
      m'.live = (m.remove old.base).live ∧
      ∀ r, r ∈ m.live → r.base ≠ old.base → Memory.Keeps m m' r := by
  simp only [freeWithHeader] at h
  split at h
  · cases h
  · rename_i old hfind
    cases h
    obtain ⟨hold, hbase⟩ := Memory.find_eq_some hfind
    exact ⟨old, hold, hbase, rfl, rfl, fun r hr hne => Memory.free_keeps hr hne junk⟩

/-! ## Containment -/

/-- The header before `q` and the `uSize` bytes from `q` are inside one live region. -/
def Inside (m : Mem) (q : Nat) (uSize : UInt64) : Prop :=
  ∃ r, r ∈ m.live ∧ q = r.base + 8 ∧ q + uSize.toNat ≤ r.base + r.size

/-- Headers and payloads are inside the regions that were obtained, and do not overlap. -/
structure Contained (s : Allocations) : Prop where
  inside : ∀ q uSize, s.requested q = some uSize → Inside s.memory q uSize
  apart : ∀ q uSize q' uSize', s.requested q = some uSize → s.requested q' = some uSize' →
    q ≠ q' → q + uSize.toNat ≤ q' - 8 ∨ q' + uSize'.toNat ≤ q - 8

/-- Blocks inside their regions do not overlap. -/
theorem contained_of_inside {s : Allocations}
    (h : ∀ q uSize, s.requested q = some uSize → Inside s.memory q uSize) : Contained s where
  inside := h
  apart := by
    intro q uSize q' uSize' hq hq' hne
    obtain ⟨r, hr, rfl, hle⟩ := h q uSize hq
    obtain ⟨r', hr', rfl, hle'⟩ := h q' uSize' hq'
    have hne' : r ≠ r' := by
      rintro rfl
      exact hne rfl
    rcases ((Memory.eq_or_apart hr hr').resolve_left hne').2 with hap | hap
    · exact Or.inl (by omega)
    · exact Or.inr (by omega)

/-- No block that is inside its region has a size that wraps around. -/
theorem Inside.lt {m : Mem} {q : Nat} {uSize : UInt64} (h : Inside m q uSize) :
    uSize.toNat + 8 < 2 ^ 64 := by
  obtain ⟨r, -, rfl, hle⟩ := h
  have hpos := r.base_pos
  have htop : r.base + r.size ≤ 2 ^ 64 := r.top_le
  omega

theorem Inside.mono {m m' : Mem} {q : Nat} {uSize : UInt64} (h : Inside m q uSize)
    (hlive : ∀ r, r ∈ m.live → q = r.base + 8 → r ∈ m'.live) : Inside m' q uSize := by
  obtain ⟨r, hr, hq, hle⟩ := h
  exact ⟨r, hlive r hr hq, hq, hle⟩

/-- A region that was obtained for a size that does not wrap around. -/
theorem Obtained.inside {rs : List (Region addressSpace)} {r : Region addressSpace}
    {uSize : UInt64} {m : Mem} (h : Obtained rs r uSize m) (hfits : uSize.toNat + 8 < 2 ^ 64) :
    Inside m (r.base + 8) uSize := by
  have hasked := h.asked
  have hle := r.asked_le
  rw [askedSize_eq hfits] at hasked
  exact ⟨r, h.live ▸ List.mem_cons_self .., rfl, by omega⟩

/-- The size does not wrap around, or was refused. -/
def SizeFits (uSize : UInt64) (ans : Answer addressSpace) : Prop :=
  (∃ junk, ans = .null junk) ∨ uSize.toNat + 8 < 2 ^ 64

theorem SizeFits.lt_of_block {uSize : UInt64} {ans : Answer addressSpace}
    (h : SizeFits uSize ans) {r : Region addressSpace} (hans : ∃ junk, ans = .block r junk) :
    uSize.toNat + 8 < 2 ^ 64 := by
  obtain ⟨junk, rfl⟩ := hans
  rcases h with ⟨junk', he⟩ | hlt
  · cases he
  · exact hlt

def MemOp.fits : MemOp → Prop
  | .allocate uSize ans => SizeFits uSize ans
  | .lldkAllocate uSize ans => SizeFits uSize ans
  | .reAllocate _ uSize ans => SizeFits uSize ans
  | _ => True

/-- What is left of the other blocks when the one of `p` moves to `r`, or goes. -/
theorem inside_of_remove {s : Allocations} (C : Contained s) {m : Mem} {p : Nat}
    {old : Region addressSpace} (hp : p = old.base + 8)
    (hlive : ∀ r, r ∈ (s.memory.remove old.base).live → r ∈ m.live) {q : Nat} (hne : q ≠ p)
    {uSize : UInt64} (hq : s.requested q = some uSize) : Inside m q uSize := by
  refine (C.inside q uSize hq).mono fun r hr he => hlive r (Memory.mem_remove.mpr ⟨hr, ?_⟩)
  intro hbase
  exact hne (by rw [he, hp, hbase])

theorem contained_returns {s : Allocations} {m : Mem} {q : Nat} {uSize : UInt64}
    (hnew : Inside m q uSize) (hold : ∀ q' n, s.requested q' = some n → Inside m q' n) :
    Contained (s.returns (some q) uSize m) := by
  refine contained_of_inside fun q' n hq' => ?_
  by_cases he : q' = q
  · subst he
    rw [requested_returns] at hq'
    cases hq'
    exact hnew
  · rw [requested_returns_ne he] at hq'
    exact hold q' n hq'

theorem contained_allocated {s : Allocations} (C : Contained s) {m : Mem} {uSize : UInt64}
    {ans : Answer addressSpace} {q : Option Nat}
    (h : mallocWithHeader s.memory uSize ans = some (q, m)) (hfits : SizeFits uSize ans) :
    Contained (s.returns q uSize m) := by
  rcases mallocWithHeader_cases h with ⟨rfl, -, hlive, -⟩ | ⟨r, rfl, hans, hob, -⟩
  · refine contained_of_inside fun q' n hq' => (C.inside q' n hq').mono fun r hr _ => ?_
    exact hlive ▸ hr
  · refine contained_returns (hob.inside (hfits.lt_of_block hans)) fun q' n hq' =>
      (C.inside q' n hq').mono fun r' hr' _ => ?_
    exact hob.live ▸ List.mem_cons_of_mem _ hr'

/-- The region of a live block. -/
theorem Contained.base_eq {s : Allocations} (C : Contained s) {p : Nat} {n : UInt64}
    (hp : s.requested p = some n) {old : Region addressSpace} (hbase : old.base = p - 8) :
    p = old.base + 8 := by
  obtain ⟨r, -, hr, -⟩ := C.inside p n hp
  omega

theorem contained_reallocated {s : Allocations} (C : Contained s) {m : Mem} {p : Nat}
    {n uSize : UInt64} (hp : s.requested p = some n) {ans : Answer addressSpace} {q : Nat}
    {uOldSize : Option UInt64}
    (h : reAllocate s.memory (some p) uSize ans = some (some q, uOldSize, m))
    (hfits : SizeFits uSize ans) : Contained ((s.givesUp p m).returns (some q) uSize m) := by
  obtain ⟨old, -, hbase, hcases⟩ := reAllocate_cases h
  have hpold := C.base_eq hp hbase
  rcases hcases with ⟨hq, -⟩ | ⟨hq, -⟩ | ⟨r, hq, hans, -, hob, -⟩
  · cases hq
  · cases hq
  · cases hq
    refine contained_returns (hob.inside (hfits.lt_of_block hans)) fun q' k hq' => ?_
    obtain ⟨hne, hq'⟩ := requested_givesUp hq'
    exact inside_of_remove C hpold (fun r' hr' => hob.live ▸ List.mem_cons_of_mem _ hr') hne hq'

/-- A reallocation that was refused. -/
theorem contained_refused {s : Allocations} (C : Contained s) {m : Mem} {p : Nat}
    {uSize : UInt64} {ans : Answer addressSpace} {uOldSize : Option UInt64}
    (h : reAllocate s.memory (some p) uSize ans = some (none, uOldSize, m))
    (hfits : SizeFits uSize ans) : Contained ⟨m, s.requested⟩ := by
  obtain ⟨old, -, -, hcases⟩ := reAllocate_cases h
  rcases hcases with ⟨-, -, hlive, -⟩ | ⟨-, ⟨junk, hans⟩, hzero, -⟩ | ⟨r, hq, -⟩
  · refine contained_of_inside fun q n hq => (C.inside q n hq).mono fun r hr _ => ?_
    exact hlive ▸ hr
  · -- nothing is asked for only if the size wraps around
    rcases hfits with ⟨junk', he⟩ | hlt
    · rw [hans] at he
      cases he
    · rw [askedSize_eq hlt] at hzero
      cases hzero
  · cases hq

theorem contained_freed {s : Allocations} (C : Contained s) {m : Mem} {p : Nat} {n : UInt64}
    (hp : s.requested p = some n) {junk : Bytes} {uSize : Option UInt64}
    (h : freeWithHeader s.memory (some p) junk = some (uSize, m)) : Contained (s.givesUp p m) := by
  obtain ⟨old, -, hbase, -, hlive, -⟩ := freeWithHeader_cases h
  have hpold := C.base_eq hp hbase
  refine contained_of_inside fun q k hq => ?_
  obtain ⟨hne, hq⟩ := requested_givesUp hq
  exact inside_of_remove C hpold (fun r hr => hlive ▸ hr) hne hq

theorem afterAllocate_ok {s s' : Allocations} {uSize : UInt64} {r : Option (Option Nat × Mem)}
    {out : MemOut} (h : afterAllocate s uSize r = .ok (s', out)) :
    ∃ q m, r = some (q, m) ∧ s' = s.returns q uSize m ∧ out = ⟨q, none⟩ := by
  cases r with
  | none => cases h
  | some r =>
    cases h
    exact ⟨r.1, r.2, rfl, rfl, rfl⟩

theorem contained_afterAllocate {s s' : Allocations} (C : Contained s) {uSize : UInt64}
    {ans : Answer addressSpace} {out : MemOut} (hfits : SizeFits uSize ans)
    (h : afterAllocate s uSize (mallocWithHeader s.memory uSize ans) = .ok (s', out)) :
    Contained s' := by
  obtain ⟨q, m, hm, rfl, -⟩ := afterAllocate_ok h
  exact contained_allocated C hm hfits

theorem contained_afterFree {s s' : Allocations} (C : Contained s) {pMemory : Option Nat}
    {junk : Bytes} {out : MemOut}
    (h : afterFree s pMemory (freeWithHeader s.memory pMemory junk) = .ok (s', out)) :
    Contained s' := by
  cases pMemory with
  | none =>
    cases h
    exact C
  | some p =>
    simp only [afterFree] at h
    split at h
    · rename_i hp hm
      cases h
      exact contained_freed C hp hm
    · cases h

/-- **Step lemma.** -/
theorem contained_step {s s' : Allocations} (C : Contained s) {op : MemOp} {out : MemOut}
    (hfits : op.fits) (h : memStep s op = .ok (s', out)) : Contained s' := by
  cases op with
  | allocate uSize ans => exact contained_afterAllocate C hfits h
  | lldkAllocate uSize ans => exact contained_afterAllocate C hfits h
  | reAllocate pMemory uSize ans =>
    cases pMemory with
    | none =>
      rw [memStep_reAllocate_null] at h
      exact contained_afterAllocate C hfits h
    | some p =>
      simp only [memStep] at h
      split at h
      · cases h
      · cases h
      · rename_i hp hm
        cases h
        exact contained_refused C hm hfits
      · rename_i hp hm
        cases h
        exact contained_reallocated C hp hm hfits
  | free pMemory junk => exact contained_afterFree C h
  | lldkFree pMemory junk => exact contained_afterFree C h
  | write p i b =>
    simp only [memStep] at h
    split at h
    · cases h
    · split at h
      · cases h
        exact contained_of_inside C.inside
      · cases h

theorem not_contained_afterAllocate {s s' : Allocations} {uSize : UInt64}
    {ans : Answer addressSpace} {out : MemOut} (hwraps : ¬ SizeFits uSize ans)
    (h : afterAllocate s uSize (mallocWithHeader s.memory uSize ans) = .ok (s', out)) :
    ¬ Contained s' := by
  intro C'
  obtain ⟨q, m, hm, rfl, -⟩ := afterAllocate_ok h
  rcases mallocWithHeader_cases hm with ⟨-, hnull, -⟩ | ⟨r, hq, -⟩
  · exact hwraps (Or.inl hnull)
  · rw [hq] at C'
    exact hwraps (Or.inr (C'.inside _ _ (requested_returns ..)).lt)

/-- A size that wraps around is seen at once: its block is not inside the region that was
obtained, or the block that was to be resized has gone. -/
theorem not_contained_step {s s' : Allocations} {op : MemOp} {out : MemOut} (hwraps : ¬ op.fits)
    (h : memStep s op = .ok (s', out)) : ¬ Contained s' := by
  cases op with
  | allocate uSize ans => exact not_contained_afterAllocate hwraps h
  | lldkAllocate uSize ans => exact not_contained_afterAllocate hwraps h
  | reAllocate pMemory uSize ans =>
    cases pMemory with
    | none =>
      rw [memStep_reAllocate_null] at h
      exact not_contained_afterAllocate hwraps h
    | some p =>
      intro C'
      simp only [memStep] at h
      split at h
      · cases h
      · cases h
      · rename_i n uOldSize m hp hm
        cases h
        obtain ⟨old, -, hbase, ⟨-, hnull, -⟩ | ⟨-, -, -, hlive⟩ | ⟨r, hq, -⟩⟩ := reAllocate_cases hm
        · exact hwraps (Or.inl hnull)
        · obtain ⟨r, hr, hpr, -⟩ := C'.inside p n hp
          have hr' : r ∈ (s.memory.remove old.base).live := hlive ▸ hr
          exact (Memory.mem_remove.mp hr').2 (by omega)
        · cases hq
      · cases h
        exact hwraps (Or.inr (C'.inside _ _ (requested_returns ..)).lt)
  | free pMemory junk => exact absurd trivial hwraps
  | lldkFree pMemory junk => exact absurd trivial hwraps
  | write p i b => exact absurd trivial hwraps

/-- The region of a live block is found. -/
theorem Contained.find {s : Allocations} (C : Contained s) {p : Nat} {n : UInt64}
    (hp : s.requested p = some n) :
    ∃ old, s.memory.find (p - 8) = some old ∧ old ∈ s.memory.live ∧ p = old.base + 8 := by
  obtain ⟨r, hr, rfl, -⟩ := C.inside p n hp
  obtain ⟨old, hfind⟩ := Memory.exists_find hr
  obtain ⟨hold, hbase⟩ := Memory.find_eq_some hfind
  exact ⟨old, hfind, hold, by rw [hbase]⟩

theorem exists_mallocWithHeader {m : Mem} {uSize : UInt64} {ans : Answer addressSpace}
    (h : m.MallocMay (askedSize uSize) ans) : ∃ r, mallocWithHeader m uSize ans = some r := by
  obtain ⟨⟨q, m'⟩, hm⟩ := Memory.exists_malloc h
  cases q with
  | none => exact ⟨_, by simp only [mallocWithHeader, hm]; rfl⟩
  | some q => exact ⟨_, by simp only [mallocWithHeader, hm]; rfl⟩

theorem exists_reAllocate {s : Allocations} (C : Contained s) {p : Nat} {n uSize : UInt64}
    (hp : s.requested p = some n) {ans : Answer addressSpace}
    (h : ∀ old, old ∈ s.memory.live → p = old.base + 8 →
      s.memory.ReallocMay old (askedSize uSize) ans) :
    ∃ r, reAllocate s.memory (some p) uSize ans = some r := by
  obtain ⟨old, hfind, hold, hpold⟩ := C.find hp
  obtain ⟨⟨q, m'⟩, hm⟩ := Memory.exists_realloc (h old hold hpold)
  cases q with
  | none => exact ⟨_, by simp only [reAllocate, hfind, hm]; rfl⟩
  | some q => exact ⟨_, by simp only [reAllocate, hfind, hm]; rfl⟩

theorem exists_afterFree {s : Allocations} (C : Contained s) {p : Nat}
    (hlive : (s.requested p).isSome = true) (junk : Bytes) :
    ∃ r, afterFree s (some p) (freeWithHeader s.memory (some p) junk) = .ok r := by
  obtain ⟨n, hp⟩ := Option.isSome_iff_exists.mp hlive
  obtain ⟨old, hfind, -, -⟩ := C.find hp
  exact ⟨_, by simp only [afterFree, hp, freeWithHeader, hfind]; rfl⟩

/-- From a contained state a legal call returns. -/
theorem memStep_ok {s : Allocations} (C : Contained s) {op : MemOp} (h : op.legal s) :
    ∃ s' out, memStep s op = .ok (s', out) := by
  cases op with
  | allocate uSize ans =>
    obtain ⟨r, hr⟩ := exists_mallocWithHeader h
    exact ⟨_, _, by simp only [memStep, allocate, hr]; rfl⟩
  | lldkAllocate uSize ans =>
    obtain ⟨r, hr⟩ := exists_mallocWithHeader h
    exact ⟨_, _, by simp only [memStep, lldkAllocate, hr]; rfl⟩
  | reAllocate pMemory uSize ans =>
    cases pMemory with
    | none =>
      obtain ⟨r, hr⟩ := exists_mallocWithHeader h
      exact ⟨_, _, by rw [memStep_reAllocate_null]; simp only [memStep, allocate, hr]; rfl⟩
    | some p =>
      obtain ⟨hlive, hmay⟩ := h
      obtain ⟨n, hp⟩ := Option.isSome_iff_exists.mp hlive
      obtain ⟨⟨q, uOldSize, m'⟩, hr⟩ := exists_reAllocate C hp hmay
      cases q with
      | none => exact ⟨_, _, by simp only [memStep, hp, hr]; rfl⟩
      | some q => exact ⟨_, _, by simp only [memStep, hp, hr]; rfl⟩
  | free pMemory junk =>
    cases pMemory with
    | none => exact ⟨_, _, rfl⟩
    | some p =>
      obtain ⟨⟨s', out⟩, hr⟩ := exists_afterFree C h junk
      exact ⟨s', out, hr⟩
  | lldkFree pMemory junk =>
    cases pMemory with
    | none => exact ⟨_, _, rfl⟩
    | some p =>
      obtain ⟨⟨s', out⟩, hr⟩ := exists_afterFree C h junk
      exact ⟨s', out, hr⟩
  | write p i b =>
    obtain ⟨n, hp, hi⟩ := h
    have hreq : s.requested p = some n := hp
    exact ⟨_, _, by simp only [memStep, hreq, hi, if_true]; rfl⟩

theorem contained_start (m : Mem) : Contained (.start m) :=
  contained_of_inside fun _ _ h => (nomatch h)

/-- **Blocks inside what was obtained for them, exactly.** Take a run of the allocation functions
and of writes to payloads, with any contents and other blocks in memory at its start and any answers
that `malloc` and `realloc` may give. Its calls return, and headers and payloads stay inside their
regions and apart from each other, iff every size but those that were refused is below
`2 ^ 64 - 8`. -/
theorem contained_iff {m : Mem} {ops : List MemOp}
    (hlegal : EachStep memStep MemOp.legal (.start m) ops) :
    AllAlong memStep Contained (.start m) ops ↔
      EachStep memStep (fun _ op => op.fits) (.start m) ops := by
  refine allAlong_iff_eachStep Contained (fun _ C => C) (fun s op C hop hfits => ?_)
    (fun s op s' out _ _ hwraps h => not_contained_step hwraps h) (contained_start m) hlegal
  obtain ⟨s', out, h⟩ := memStep_ok C hop
  exact ⟨s', out, h, contained_step C hfits h⟩

/-- A block is allocated beside another one, and resized. -/
theorem contained_iff_sample :
    AllAlong memStep Contained (.start ⟨fun _ => 0, [⟨64, 32, 16, by decide, by decide, by decide⟩],
        by decide⟩)
      [.allocate 16 (.block ⟨32, 24, 24, by decide, by decide, by decide⟩ fun _ => 1),
        .reAllocate (some 40) 32 (.block ⟨96, 40, 40, by decide, by decide, by decide⟩ fun _ => 3)] ↔
    EachStep memStep (fun _ op => op.fits)
      (.start ⟨fun _ => 0, [⟨64, 32, 16, by decide, by decide, by decide⟩], by decide⟩)
      [.allocate 16 (.block ⟨32, 24, 24, by decide, by decide, by decide⟩ fun _ => 1),
        .reAllocate (some 40) 32
          (.block ⟨96, 40, 40, by decide, by decide, by decide⟩ fun _ => 3)] :=
  contained_iff (by decide +kernel)

/-- The largest size is asked for as 7 bytes, which is less than the header takes. -/
theorem allocate_max_outside :
    ∃ s, run memStep (.start ⟨fun _ => 0, [], .nil⟩)
        [.allocate 18446744073709551615
          (.block ⟨16, 7, 7, by decide, by decide, by decide⟩ fun _ => 0)] =
        .ok (s, [⟨some 24, none⟩]) ∧
      s.requested 24 = some 18446744073709551615 ∧ ¬ Contained s := by
  have hends : (run memStep (.start ⟨fun _ => 0, [], .nil⟩)
      [.allocate 18446744073709551615
        (.block ⟨16, 7, 7, by decide, by decide, by decide⟩ fun _ => 0)]).toOption.any (fun r =>
      decide (r.2 = [⟨some 24, none⟩] ∧ r.1.requested 24 = some 18446744073709551615)) = true := by
    decide +kernel
  obtain ⟨⟨s, outs⟩, hrun, hs⟩ := exists_of_any hends
  obtain ⟨rfl, hreq⟩ := of_decide_eq_true hs
  refine ⟨s, hrun, hreq, fun C => ?_⟩
  exact absurd (C.inside 24 _ hreq).lt (by decide)

end Lldk.AllocatorMemory
