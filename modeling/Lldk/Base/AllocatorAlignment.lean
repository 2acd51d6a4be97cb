import Mathlib.Algebra.Order.Group.Nat
import Mathlib.Algebra.Ring.Nat
import Lldk.Base.AllocatorMemory

/-!
The addresses at which objects are constructed in memory of the allocators.

* `Layout` is what the compiler knows of a type `T`. `newObject` and `threadLocal` are the callers
  of the allocation functions that construct a `T`; any other caller constructs one where it likes.
* `address_of_placed`: an object stands 8 bytes behind what `malloc` or `realloc` returned.
* `placed_aligned_iff`: with what these return on x86_64, it is aligned iff `alignof(T)` is at
  most 8.
-/

namespace Lldk.AllocatorMemory

open Lib Lib.ByteMemory Lib.Trace

/-- `sizeof(T)` and `alignof(T)` -/
structure Layout where
  sizeofT : UInt64
  alignofT : Nat
  power : ∃ k, alignofT = 2 ^ k
  /-- the next element of an array of `T` is aligned too -/
  divides : alignofT ∣ sizeofT.toNat
  deriving DecidableEq

/-- The pointer that a call returned, and the object that it constructed, with its address. -/
structure PlaceOut where
  returned : Option Nat
  placed : Option (Layout × Nat)
  deriving DecidableEq

/-- `newObject<T>`; `throws` says whether the constructor does. -/
def newObject (s : Allocations) (T : Layout) (throws : Bool) (ans : Answer addressSpace)
    (junk : Bytes) : Except MemFault (Allocations × PlaceOut) := do
  let (s, out) ← memStep s (.allocate T.sizeofT ans)
  match out.returned with
  | none => return (s, ⟨none, none⟩)
  | some pMemory =>
    if throws then
      let (s, _) ← memStep s (.free (some pMemory) junk)
      return (s, ⟨none, some (T, pMemory)⟩)
    else return (s, ⟨some pMemory, some (T, pMemory)⟩)

/-- `LldkThreadLocal<T>::LldkThreadLocal`; `id` and `stored` say whether there was an id and whether
the slot was set. The result is the storage of the object that was constructed. -/
def threadLocal (s : Allocations) (T : Layout) (id throws stored : Bool)
    (ans : Answer addressSpace) (junk : Bytes) : Except MemFault (Allocations × PlaceOut) :=
  if id then do
    let (s, out) ← memStep s (.lldkAllocate T.sizeofT ans)
    match out.returned with
    | none => return (s, ⟨none, none⟩)
    | some pStorage =>
      -- what `T()` throws leaves the storage where it is
      if throws then return (s, ⟨none, some (T, pStorage)⟩)
      else if stored then return (s, ⟨some pStorage, some (T, pStorage)⟩)
      else
        let (s, _) ← memStep s (.lldkFree (some pStorage) junk)
        return (s, ⟨none, some (T, pStorage)⟩)
  else .ok (s, ⟨none, none⟩)

inductive PlaceOp
  /-- a caller constructs a `T` at the address that is returned -/
  | call (op : MemOp) (T : Layout)
  | newObject (T : Layout) (throws : Bool) (ans : Answer addressSpace) (junk : Bytes)
  | threadLocal (T : Layout) (id throws stored : Bool) (ans : Answer addressSpace) (junk : Bytes)

def placeStep : Step Allocations PlaceOp PlaceOut MemFault
  | s, .call op T => do
    let (s, out) ← memStep s op
    return (s, ⟨out.returned, out.returned.map fun a => (T, a)⟩)
  | s, .newObject T throws ans junk => newObject s T throws ans junk
  | s, .threadLocal T id throws stored ans junk => threadLocal s T id throws stored ans junk

/-! ## What the platform returns -/

/-- `alignof(max_align_t)` on x86_64. -/
def maxAlign : Nat := 16

def MemOp.answer : MemOp → Option (Answer addressSpace)
  | .allocate _ ans => some ans
  | .lldkAllocate _ ans => some ans
  | .reAllocate _ _ ans => some ans
  | _ => none

def PlaceOp.answer : PlaceOp → Option (Answer addressSpace)
  | .call op _ => op.answer
  | .newObject _ _ ans _ => some ans
  | .threadLocal _ _ _ _ ans _ => some ans

/-- `malloc` and `realloc` return multiples of `alignof(max_align_t)`. -/
def MaxAligned : Answer addressSpace → Prop
  | .block r _ => maxAlign ∣ r.base
  | _ => True

instance (ans : Answer addressSpace) : Decidable (MaxAligned ans) :=
  match ans with
  | .block _ _ => inferInstanceAs (Decidable (_ ∣ _))
  | .null _ => isTrue trivial
  | .released _ => isTrue trivial

def PlaceOp.onPlatform (op : PlaceOp) : Prop := ∀ ans ∈ op.answer, MaxAligned ans

instance (op : PlaceOp) : Decidable op.onPlatform :=
  inferInstanceAs (Decidable (∀ ans ∈ op.answer, MaxAligned ans))

/-! ## Addresses -/

/-- `a` is 8 bytes behind the block of the answer. -/
def BehindHeader (ans : Option (Answer addressSpace)) (a : Nat) : Prop :=
  ∃ r junk, ans = some (.block r junk) ∧ a = r.base + 8

theorem address_of_mallocWithHeader {s s' : Allocations} {uSize : UInt64}
    {ans : Answer addressSpace} {out : MemOut} {a : Nat}
    (h : afterAllocate s uSize (mallocWithHeader s.memory uSize ans) = .ok (s', out))
    (ha : out.returned = some a) : BehindHeader (some ans) a := by
  obtain ⟨q, m, hm, -, rfl⟩ := afterAllocate_ok h
  rcases mallocWithHeader_cases hm with ⟨rfl, -⟩ | ⟨r, rfl, ⟨junk, rfl⟩, -⟩
  · cases ha
  · cases ha
    exact ⟨r, junk, rfl, rfl⟩

theorem address_of_reAllocate {m m' : Mem} {p q : Nat} {uSize : UInt64}
    {ans : Answer addressSpace} {uOldSize : Option UInt64}
    (h : reAllocate m (some p) uSize ans = some (some q, uOldSize, m')) :
    BehindHeader (some ans) q := by
  obtain ⟨old, -, -, ⟨hq, -⟩ | ⟨hq, -⟩ | ⟨r, hq, ⟨junk, rfl⟩, -⟩⟩ := reAllocate_cases h
  · cases hq
  · cases hq
  · cases hq
    exact ⟨r, junk, rfl, rfl⟩

/-- What is given back returns nothing. -/
theorem returned_afterFree {s s' : Allocations} {pMemory : Option Nat}
    {r : Option (Option UInt64 × Mem)} {out : MemOut}
    (h : afterFree s pMemory r = .ok (s', out)) : out.returned = none := by
  unfold afterFree at h
  split at h
  · cases h
  · cases h
    rfl
  · split at h
    · cases h
      rfl
    · cases h

/-- **The functions return** the address behind the header. -/
theorem address_of_returned {s s' : Allocations} {op : MemOp} {out : MemOut} {a : Nat}
    (h : memStep s op = .ok (s', out)) (ha : out.returned = some a) :
    BehindHeader op.answer a := by
  cases op with
  | allocate uSize ans => exact address_of_mallocWithHeader h ha
  | lldkAllocate uSize ans => exact address_of_mallocWithHeader h ha
  | reAllocate pMemory uSize ans =>
    cases pMemory with
    | none =>
      rw [memStep_reAllocate_null] at h
      exact address_of_mallocWithHeader h ha
    | some p =>
      simp only [memStep] at h
      split at h
      · cases h
      · cases h
      · cases h
        cases ha
      · rename_i hre
        cases h
        cases ha
        exact address_of_reAllocate hre
  | free pMemory junk =>
    rw [returned_afterFree h] at ha
    cases ha
  | lldkFree pMemory junk =>
    rw [returned_afterFree h] at ha
    cases ha
  | write p i b =>
    simp only [memStep] at h
    split at h
    · cases h
    · split at h
      · cases h
        cases ha
      · cases h

/-- **Objects are placed** at the address behind the header. -/
theorem address_of_placed {s s' : Allocations} {op : PlaceOp} {out : PlaceOut} {T : Layout}
    {a : Nat} (h : placeStep s op = .ok (s', out)) (ha : out.placed = some (T, a)) :
    BehindHeader op.answer a := by
  cases op with
  | call op T' =>
    obtain ⟨⟨s₁, out₁⟩, hmem, h⟩ := bind_eq_ok.mp h
    cases h
    obtain ⟨a', hret, he⟩ := Option.map_eq_some_iff.mp ha
    cases he
    exact address_of_returned hmem hret
  | newObject T' throws ans junk =>
    obtain ⟨⟨s₁, out₁⟩, hmem, h⟩ := bind_eq_ok.mp h
    dsimp only at h
    split at h
    · cases h
      cases ha
    · rename_i pMemory hret
      refine address_of_returned hmem ?_
      split at h
      · obtain ⟨r, -, h⟩ := bind_eq_ok.mp h
        cases h
        cases ha
        exact hret
      · cases h
        cases ha
        exact hret
  | threadLocal T' id throws stored ans junk =>
    simp only [placeStep, threadLocal] at h
    split at h
    · obtain ⟨⟨s₁, out₁⟩, hmem, h⟩ := bind_eq_ok.mp h
      dsimp only at h
      split at h
      · cases h
        cases ha
      · rename_i pStorage hret
        refine address_of_returned hmem ?_
        split at h
        · cases h
          cases ha
          exact hret
        · split at h
          · cases h
            cases ha
            exact hret
          · obtain ⟨r, -, h⟩ := bind_eq_ok.mp h
            cases h
            cases ha
            exact hret
    · cases h
      cases ha

/-- In every run each object is placed by one of the calls. -/
theorem placed_of_run {s s' : Allocations} {ops : List PlaceOp} {outs : List PlaceOut}
    (h : run placeStep s ops = .ok (s', outs)) {out : PlaceOut} (hout : out ∈ outs) {T : Layout}
    {a : Nat} (ha : out.placed = some (T, a)) : ∃ op ∈ ops, BehindHeader op.answer a := by
  induction ops generalizing s outs with
  | nil =>
    cases h
    cases hout
  | cons op ops ih =>
    obtain ⟨s₁, out₁, outs₁, hstep, hrun, rfl⟩ := run_cons_eq_ok.mp h
    rcases List.mem_cons.mp hout with rfl | hout
    · exact ⟨op, List.mem_cons_self, address_of_placed hstep ha⟩
    · obtain ⟨op', hop', hb⟩ := ih hrun hout
      exact ⟨op', List.mem_cons_of_mem _ hop', hb⟩

/-- The header keeps the alignments up to 8, and no other. -/
theorem pow_dvd_behind_iff {base : Nat} (h : maxAlign ∣ base) (k : Nat) :
    2 ^ k ∣ base + 8 ↔ 2 ^ k ≤ 8 := by
  constructor
  · intro hdvd
    by_contra hlarge
    have hk : 4 ≤ k := by
      by_contra hk
      exact hlarge (Nat.pow_le_pow_right (by decide) (by omega : k ≤ 3))
    -- 16 would divide the header
    have h16 : maxAlign ∣ base + 8 := (Nat.pow_dvd_pow 2 hk).trans hdvd
    have h8 : maxAlign ∣ 8 := (Nat.dvd_add_right h).mp h16
    exact absurd h8 (by decide)
  · intro hle
    have hk : k ≤ 3 := by
      by_contra hk
      have : 2 ^ 4 ≤ 2 ^ k := Nat.pow_le_pow_right (by decide) (by omega)
      omega
    have h8 : 2 ^ k ∣ 8 := Nat.pow_dvd_pow 2 hk
    exact Nat.dvd_add ((h8.trans (by decide)).trans h) h8

/-- **Which objects are aligned.** In every run of calls and constructions, with any sizes and any
memory at its start, where `malloc` and `realloc` return multiples of 16: an object of a type `T` is
aligned iff `alignof(T)` is at most 8. -/
theorem placed_aligned_iff {s s' : Allocations} {ops : List PlaceOp} {outs : List PlaceOut}
    (hplatform : ∀ op ∈ ops, op.onPlatform) (h : run placeStep s ops = .ok (s', outs))
    {out : PlaceOut} (hout : out ∈ outs) {T : Layout} {a : Nat} (ha : out.placed = some (T, a)) :
    T.alignofT ∣ a ↔ T.alignofT ≤ 8 := by
  obtain ⟨op, hop, r, junk, hans, rfl⟩ := placed_of_run h hout ha
  have haligned : maxAlign ∣ r.base := hplatform op hop _ hans
  obtain ⟨k, hk⟩ := T.power
  rw [hk]
  exact pow_dvd_behind_iff haligned k

/-- `double` and `long double` on x86_64. -/
def double : Layout := ⟨8, 8, ⟨3, rfl⟩, by decide⟩

def longDouble : Layout := ⟨16, 16, ⟨4, rfl⟩, by decide⟩

/-- A `double` is constructed, and its block resized for a `long double`. -/
def resized : List PlaceOp :=
  [.newObject double false (.block ⟨16, 16, 16, by decide, by decide, by decide⟩ fun _ => 0)
      fun _ => 0,
    .call (.reAllocate (some 24) 16
      (.block ⟨64, 24, 24, by decide, by decide, by decide⟩ fun _ => 0)) longDouble]

theorem placed_aligned_iff_sample :
    ∃ s outs, run placeStep (.start ⟨fun _ => 0, [], .nil⟩) resized = .ok (s, outs) ∧
      outs.map PlaceOut.placed = [some (double, 24), some (longDouble, 72)] ∧
      ∀ out ∈ outs, ∀ T a, out.placed = some (T, a) → (T.alignofT ∣ a ↔ T.alignofT ≤ 8) := by
  obtain ⟨⟨s, outs⟩, h, hends⟩ := exists_of_any
    (x := run placeStep (.start ⟨fun _ => 0, [], .nil⟩) resized)
    (P := fun r => decide
      (r.2.map PlaceOut.placed = [some (double, 24), some (longDouble, 72)]))
    (by decide +kernel)
  exact ⟨s, outs, h, of_decide_eq_true hends,
    fun out hout T a ha => placed_aligned_iff (by decide) h hout ha⟩

/-- Blocks at multiples of 16, for a `long double` of `newObject` and one of `LldkThreadLocal`. -/
def longDoubles : List PlaceOp :=
  [.newObject longDouble false (.block ⟨16, 24, 24, by decide, by decide, by decide⟩ fun _ => 0)
      fun _ => 0,
    .threadLocal longDouble true false true
      (.block ⟨48, 24, 24, by decide, by decide, by decide⟩ fun _ => 0) fun _ => 0]

theorem longDoubles_misaligned :
    (∀ op ∈ longDoubles, op.onPlatform) ∧ longDouble.alignofT ≤ 16 ∧
      ∃ s outs, run placeStep (.start ⟨fun _ => 0, [], .nil⟩) longDoubles = .ok (s, outs) ∧
        outs.map PlaceOut.placed = [some (longDouble, 24), some (longDouble, 56)] ∧
        ¬ longDouble.alignofT ∣ 24 ∧ ¬ longDouble.alignofT ∣ 56 := by
  obtain ⟨⟨s, outs⟩, h, hends⟩ := exists_of_any
    (x := run placeStep (.start ⟨fun _ => 0, [], .nil⟩) longDoubles)
    (P := fun r => decide
      (r.2.map PlaceOut.placed = [some (longDouble, 24), some (longDouble, 56)]))
    (by decide +kernel)
  exact ⟨by decide, by decide, s, outs, h, of_decide_eq_true hends, by decide, by decide⟩

end Lldk.AllocatorMemory
