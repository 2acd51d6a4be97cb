import Lldk.Base.AllocatorMemory

/-!
Recorded sizes and payloads, for sizes that do not wrap around.

* `Recorded` is the invariant: every live block has its region, which was asked for its size and the
  header, and the size requested last in that header.
* `Kept s s' q`: block `q` is live still, with its recorded size and its payload. `Resized` is what
  a reallocation does. `KeepsPayloads` says it for every call.
* `recorded_step` is the step lemma, `sizes_and_payloads` the result about runs.
  `read_eq_requested`: the size that is counted when a block goes is the one requested for it.
-/

namespace Lldk.AllocatorMemory

open Lib Lib.ByteMemory Lib.Trace

/-! ## Blocks -/

/-- The block of `n` bytes at `q` has a region of its own and its size in the header. -/
def RecordedAt (m : Mem) (q : Nat) (n : UInt64) : Prop :=
  ∃ r, r ∈ m.live ∧ q = r.base + 8 ∧ r.asked = n.toNat + 8 ∧ loadSize m r.base = n

def Recorded (s : Allocations) : Prop :=
  ∀ q n, s.requested q = some n → RecordedAt s.memory q n

theorem RecordedAt.inside {m : Mem} {q : Nat} {n : UInt64} (h : RecordedAt m q n) :
    Inside m q n := by
  obtain ⟨r, hr, rfl, hasked, -⟩ := h
  have hle := r.asked_le
  exact ⟨r, hr, rfl, by omega⟩

theorem Recorded.contained {s : Allocations} (R : Recorded s) : Contained s :=
  contained_of_inside fun q n hq => (R q n hq).inside

/-- The recorded size and the payload of a block of `n` bytes are the same. -/
def SameBlock (m m' : Mem) (q : Nat) (n : UInt64) : Prop :=
  loadSize m' (q - 8) = loadSize m (q - 8) ∧
    ∀ i, i < n.toNat → m'.bytes (q + i) = m.bytes (q + i)

/-- A block whose region is kept. -/
theorem RecordedAt.keeps {m m' : Mem} {q : Nat} {n : UInt64} (h : RecordedAt m q n)
    (hkeeps : ∀ r, r ∈ m.live → q = r.base + 8 → Memory.Keeps m m' r) :
    RecordedAt m' q n ∧ SameBlock m m' q n := by
  obtain ⟨r, hr, rfl, hasked, hheader⟩ := h
  obtain ⟨hr', hbytes⟩ := hkeeps r hr rfl
  have hmem : ∀ j, j < n.toNat + 8 → m'.bytes (r.base + j) = m.bytes (r.base + j) :=
    fun j hj => hbytes _ (Region.mem_of_lt_asked (hasked ▸ hj))
  have hload : loadSize m' r.base = loadSize m r.base := by
    refine loadSize_congr fun x hlo hhi => ?_
    obtain ⟨j, rfl⟩ := Nat.exists_eq_add_of_le hlo
    exact hmem j (by omega)
  refine ⟨⟨r, hr', rfl, hasked, hload.trans hheader⟩, ?_, fun i hi => ?_⟩
  · rw [Nat.add_sub_cancel]
    exact hload
  · rw [Nat.add_assoc]
    exact hmem (8 + i) (by omega)

/-- A region that was obtained just now is of none of the blocks before. -/
theorem Obtained.ne_of_recorded {rs : List (Region addressSpace)} {r : Region addressSpace}
    {uSize : UInt64} {m' : Mem} (hob : Obtained rs r uSize m') {r' : Region addressSpace}
    (hr' : r' ∈ rs) : r'.base + 8 ≠ r.base + 8 := by
  intro he
  exact (Memory.apart_of_live hob.live hr').1 (by omega)

theorem Obtained.recordedAt {rs : List (Region addressSpace)} {r : Region addressSpace}
    {uSize : UInt64} {m' : Mem} (hob : Obtained rs r uSize m')
    (hsmall : uSize.toNat + 8 < 2 ^ 64) : RecordedAt m' (r.base + 8) uSize :=
  ⟨r, hob.live ▸ List.mem_cons_self .., rfl, hob.asked.trans (askedSize_eq hsmall), hob.header⟩

theorem Obtained.header_fits {rs : List (Region addressSpace)} {r : Region addressSpace}
    {uSize : UInt64} {m' : Mem} (hob : Obtained rs r uSize m')
    (hsmall : uSize.toNat + 8 < 2 ^ 64) : 8 ≤ r.size := by
  have hasked := hob.asked.trans (askedSize_eq hsmall)
  have hle := r.asked_le
  omega

/-! ## What a call keeps -/

/-- Block `q`, if it is one, is live still, with its recorded size and its payload. -/
def Kept (s s' : Allocations) (q : Nat) : Prop :=
  ∀ n, s.requested q = some n → s'.requested q = some n ∧ SameBlock s.memory s'.memory q n

/-- The block at `p` has become one of `uSize` bytes at `q`. -/
structure Resized (s s' : Allocations) (p q : Nat) (uSize : UInt64) : Prop where
  requested : s'.requested q = some uSize
  payload : ∀ n, s.requested p = some n → ∀ i, i < min n.toNat uSize.toNat →
    s'.memory.bytes (q + i) = s.memory.bytes (p + i)
  others : ∀ q', q' ≠ p → Kept s s' q'

def KeepsPayloads (s : Allocations) : MemOp → Allocations → MemOut → Prop
  | .allocate _ _, s', _ => ∀ q, Kept s s' q
  | .lldkAllocate _ _, s', _ => ∀ q, Kept s s' q
  | .reAllocate none _ _, s', _ => ∀ q, Kept s s' q
  | .reAllocate (some _) _ _, s', ⟨none, _⟩ => ∀ q, Kept s s' q
  | .reAllocate (some p) uSize _, s', ⟨some q, _⟩ => Resized s s' p q uSize
  | .free none _, s', _ => ∀ q, Kept s s' q
  | .free (some p) _, s', _ => ∀ q, q ≠ p → Kept s s' q
  | .lldkFree none _, s', _ => ∀ q, Kept s s' q
  | .lldkFree (some p) _, s', _ => ∀ q, q ≠ p → Kept s s' q
  | .write p i b, s', _ => (∀ q, q ≠ p → Kept s s' q) ∧ s'.requested p = s.requested p ∧
      s'.memory.bytes = Function.update s.memory.bytes (p + i) b

/-- The size does not wrap around. -/
def MemOp.small : MemOp → Prop
  | .allocate uSize _ => uSize.toNat + 8 < 2 ^ 64
  | .lldkAllocate uSize _ => uSize.toNat + 8 < 2 ^ 64
  | .reAllocate _ uSize _ => uSize.toNat + 8 < 2 ^ 64
  | _ => True

instance (op : MemOp) : Decidable op.small :=
  match op with
  | .allocate _ _ => inferInstanceAs (Decidable (_ < _))
  | .lldkAllocate _ _ => inferInstanceAs (Decidable (_ < _))
  | .reAllocate _ _ _ => inferInstanceAs (Decidable (_ < _))
  | .free _ _ => inferInstanceAs (Decidable True)
  | .lldkFree _ _ => inferInstanceAs (Decidable True)
  | .write _ _ _ => inferInstanceAs (Decidable True)

variable {s : Allocations} {m : Mem}

/-- Nothing happened to the blocks. -/
theorem recorded_same (R : Recorded s)
    (hkeeps : ∀ r, r ∈ s.memory.live → Memory.Keeps s.memory m r) :
    Recorded ⟨m, s.requested⟩ ∧ ∀ q, Kept s ⟨m, s.requested⟩ q :=
  ⟨fun q n hq => ((R q n hq).keeps fun r hr _ => hkeeps r hr).1,
    fun q n hq => ⟨hq, ((R q n hq).keeps fun r hr _ => hkeeps r hr).2⟩⟩

/-- A block was returned, and the others are recorded still. -/
theorem recorded_returns {q : Nat} {uSize : UInt64} (hnew : RecordedAt m q uSize)
    (hold : ∀ q' n, s.requested q' = some n → RecordedAt m q' n) :
    Recorded (s.returns (some q) uSize m) := by
  intro q' n hq'
  by_cases he : q' = q
  · subst he
    rw [requested_returns] at hq'
    cases hq'
    exact hnew
  · rw [requested_returns_ne he] at hq'
    exact hold q' n hq'

theorem recorded_allocated (R : Recorded s) {uSize : UInt64} {ans : Answer addressSpace}
    {q : Option Nat} (h : mallocWithHeader s.memory uSize ans = some (q, m))
    (hsmall : uSize.toNat + 8 < 2 ^ 64) :
    Recorded (s.returns q uSize m) ∧ ∀ q', Kept s (s.returns q uSize m) q' := by
  rcases mallocWithHeader_cases h with ⟨rfl, -, -, hkeeps⟩ | ⟨r, rfl, -, hob, hkeeps⟩
  · exact recorded_same R hkeeps
  · have hold : ∀ q' n, s.requested q' = some n →
        q' ≠ r.base + 8 ∧ RecordedAt m q' n ∧ SameBlock s.memory m q' n := by
      intro q' n hq'
      refine ⟨?_, (R q' n hq').keeps fun r' hr' _ => hkeeps (hob.header_fits hsmall) r' hr'⟩
      obtain ⟨r', hr', rfl, -⟩ := R q' n hq'
      exact hob.ne_of_recorded hr'
    refine ⟨recorded_returns (hob.recordedAt hsmall) fun q' n hq' => (hold q' n hq').2.1,
      fun q' n hq' => ?_⟩
    obtain ⟨hne, -, hsame⟩ := hold q' n hq'
    exact ⟨(requested_returns_ne hne _).trans hq', hsame⟩

/-- The region that is found for a live block is its own. -/
theorem recordedAt_of_base {q : Nat} {n : UInt64} (h : RecordedAt m q n)
    {old : Region addressSpace} (hold : old ∈ m.live) (hbase : old.base = q - 8) :
    q = old.base + 8 ∧ old.asked = n.toNat + 8 ∧ loadSize m old.base = n := by
  obtain ⟨r, hr, rfl, hasked, hheader⟩ := h
  have he : old = r := Memory.eq_of_base hold hr (by omega)
  exact ⟨by rw [he], by rw [he, hasked], by rw [he, hheader]⟩

/-- The blocks besides the one that is moved or released. -/
theorem kept_others (R : Recorded s) {p : Nat} {old : Region addressSpace}
    (hpold : p = old.base + 8)
    (hkeeps : ∀ r, r ∈ s.memory.live → r.base ≠ old.base → Memory.Keeps s.memory m r) {q : Nat}
    (hne : q ≠ p) {n : UInt64} (hq : s.requested q = some n) :
    RecordedAt m q n ∧ SameBlock s.memory m q n :=
  (R q n hq).keeps fun r hr he => hkeeps r hr fun hbase => hne (by rw [he, hpold, hbase])

theorem recorded_reallocated (R : Recorded s) {p : Nat} {n uSize : UInt64}
    (hp : s.requested p = some n) {ans : Answer addressSpace} {q : Nat} {uOldSize : Option UInt64}
    (h : reAllocate s.memory (some p) uSize ans = some (some q, uOldSize, m))
    (hsmall : uSize.toNat + 8 < 2 ^ 64) :
    Recorded ((s.givesUp p m).returns (some q) uSize m) ∧
      Resized s ((s.givesUp p m).returns (some q) uSize m) p q uSize := by
  obtain ⟨old, hold, hbase, hcases⟩ := reAllocate_cases h
  obtain ⟨hpold, hasked, -⟩ := recordedAt_of_base (R p n hp) hold hbase
  rcases hcases with ⟨hq, -⟩ | ⟨hq, -⟩ | ⟨r, hq, -, -, hob, hkeeps, hbytes⟩
  · cases hq
  · cases hq
  · cases hq
    have hothers : ∀ q' k, q' ≠ p → s.requested q' = some k →
        q' ≠ r.base + 8 ∧ RecordedAt m q' k ∧ SameBlock s.memory m q' k := by
      intro q' k hne hq'
      refine ⟨?_, kept_others R hpold (hkeeps (hob.header_fits hsmall)) hne hq'⟩
      obtain ⟨r', hr', rfl, -⟩ := R q' k hq'
      have hin : r' ∈ (s.memory.remove old.base).live :=
        Memory.mem_remove.mpr ⟨hr', fun he => hne (by rw [he, hpold])⟩
      exact hob.ne_of_recorded hin
    refine ⟨recorded_returns (hob.recordedAt hsmall) fun q' k hq' => ?_, requested_returns ..,
      fun k hk i hi => ?_, fun q' hne k hq' => ?_⟩
    · obtain ⟨hne, hq'⟩ := requested_givesUp hq'
      exact (hothers q' k hne hq').2.1
    · rw [hp] at hk
      cases hk
      have hmoved := hbytes (8 + i) (by omega) (by rw [hasked, askedSize_eq hsmall]; omega)
      rw [hpold, Nat.add_assoc, Nat.add_assoc]
      exact hmoved
    · obtain ⟨hneq, -, hsame⟩ := hothers q' k hne hq'
      exact ⟨((requested_returns_ne hneq _).trans (requested_givesUp_ne hne)).trans hq', hsame⟩

/-- A reallocation that was refused has left everything. -/
theorem recorded_refused (R : Recorded s) {p : Nat} {uSize : UInt64} {ans : Answer addressSpace}
    {uOldSize : Option UInt64}
    (h : reAllocate s.memory (some p) uSize ans = some (none, uOldSize, m))
    (hsmall : uSize.toNat + 8 < 2 ^ 64) :
    Recorded ⟨m, s.requested⟩ ∧ ∀ q, Kept s ⟨m, s.requested⟩ q := by
  obtain ⟨old, -, -, ⟨-, -, -, hkeeps⟩ | ⟨-, -, hzero, -⟩ | ⟨r, hq, -⟩⟩ := reAllocate_cases h
  · exact recorded_same R hkeeps
  · rw [askedSize_eq hsmall] at hzero
    cases hzero
  · cases hq

theorem recorded_freed (R : Recorded s) {p : Nat} {n : UInt64} (hp : s.requested p = some n)
    {junk : Bytes} {uSize : Option UInt64}
    (h : freeWithHeader s.memory (some p) junk = some (uSize, m)) :
    (Recorded (s.givesUp p m) ∧ ∀ q, q ≠ p → Kept s (s.givesUp p m) q) ∧ uSize = some n := by
  obtain ⟨old, hold, hbase, hsize, -, hkeeps⟩ := freeWithHeader_cases h
  obtain ⟨hpold, -, hheader⟩ := recordedAt_of_base (R p n hp) hold hbase
  refine ⟨⟨fun q k hq => ?_, fun q hne k hq => ?_⟩, by rw [hsize, hheader]⟩
  · obtain ⟨hne, hq⟩ := requested_givesUp hq
    exact (kept_others R hpold hkeeps hne hq).1
  · exact ⟨(requested_givesUp_ne hne).trans hq, (kept_others R hpold hkeeps hne hq).2⟩

/-- A byte is written into a payload, up to its last. -/
theorem recorded_written (R : Recorded s) {p i : Nat} {n : UInt64} (hp : s.requested p = some n)
    (hi : i < n.toNat) (b : UInt8) :
    Recorded ⟨s.memory.write (p + i) [b], s.requested⟩ ∧
      ∀ q, q ≠ p → Kept s ⟨s.memory.write (p + i) [b], s.requested⟩ q := by
  obtain ⟨r, hr, hpr, hasked, hheader⟩ := R p n hp
  have hle := r.asked_le
  have hothers : ∀ q k, q ≠ p → s.requested q = some k →
      RecordedAt (s.memory.write (p + i) [b]) q k ∧
        SameBlock s.memory (s.memory.write (p + i) [b]) q k := by
    intro q k hne hq
    refine (R q k hq).keeps fun r' hr' he => Memory.write_keeps hr hr' ?_ (by omega) ?_
    · rintro rfl
      exact hne (by rw [he, hpr])
    · rw [List.length_singleton]
      omega
  refine ⟨fun q k hq => ?_, fun q hne k hq => ⟨hq, (hothers q k hne hq).2⟩⟩
  by_cases hqp : q = p
  · -- the header lies before every byte of the payload
    subst hqp
    have hk : k = n := Option.some.inj (hq.symm.trans hp)
    subst hk
    refine ⟨r, hr, hpr, hasked, (loadSize_congr fun x _ hx => ?_).trans hheader⟩
    exact store_of_lt (by omega) [b]
  · exact (hothers q k hqp hq).1

/-! ## Runs -/

theorem recorded_afterAllocate {s' : Allocations} (R : Recorded s) {uSize : UInt64}
    {ans : Answer addressSpace} {out : MemOut} (hsmall : uSize.toNat + 8 < 2 ^ 64)
    (h : afterAllocate s uSize (mallocWithHeader s.memory uSize ans) = .ok (s', out)) :
    Recorded s' ∧ ∀ q, Kept s s' q := by
  obtain ⟨q, m, hm, rfl, -⟩ := afterAllocate_ok h
  exact recorded_allocated R hm hsmall

theorem recorded_afterFree_null {s' : Allocations} (R : Recorded s) (junk : Bytes) {out : MemOut}
    (h : afterFree s none (freeWithHeader s.memory none junk) = .ok (s', out)) :
    Recorded s' ∧ ∀ q, Kept s s' q := by
  cases h
  exact ⟨R, fun q n hq => ⟨hq, rfl, fun _ _ => rfl⟩⟩

theorem recorded_afterFree {s' : Allocations} (R : Recorded s) {p : Nat} {junk : Bytes}
    {out : MemOut}
    (h : afterFree s (some p) (freeWithHeader s.memory (some p) junk) = .ok (s', out)) :
    (Recorded s' ∧ ∀ q, q ≠ p → Kept s s' q) ∧ out.read = s.requested p := by
  simp only [afterFree] at h
  split at h
  · rename_i hp hm
    cases h
    rw [hp]
    exact recorded_freed R hp hm
  · cases h

/-- **Step lemma.** -/
theorem recorded_step {s' : Allocations} (R : Recorded s) {op : MemOp} {out : MemOut}
    (hsmall : op.small) (h : memStep s op = .ok (s', out)) :
    Recorded s' ∧ KeepsPayloads s op s' out := by
  cases op with
  | allocate uSize ans => exact recorded_afterAllocate R hsmall h
  | lldkAllocate uSize ans => exact recorded_afterAllocate R hsmall h
  | reAllocate pMemory uSize ans =>
    cases pMemory with
    | none =>
      rw [memStep_reAllocate_null] at h
      exact recorded_afterAllocate R hsmall h
    | some p =>
      simp only [memStep] at h
      split at h
      · cases h
      · cases h
      · rename_i hm
        cases h
        exact recorded_refused R hm hsmall
      · rename_i hp hm
        cases h
        exact recorded_reallocated R hp hm hsmall
  | free pMemory junk =>
    cases pMemory with
    | none => exact recorded_afterFree_null R junk h
    | some p => exact (recorded_afterFree R h).1
  | lldkFree pMemory junk =>
    cases pMemory with
    | none => exact recorded_afterFree_null R junk h
    | some p => exact (recorded_afterFree R h).1
  | write p i b =>
    simp only [memStep] at h
    split at h
    · cases h
    · rename_i n hp
      split at h
      · rename_i hi
        cases h
        obtain ⟨hrec, hkept⟩ := recorded_written R hp hi b
        exact ⟨hrec, hkept, rfl, rfl⟩
      · cases h

/-- The size that is counted when a block is released is the one requested for it last. -/
theorem read_eq_requested {s' : Allocations} (R : Recorded s) {p : Nat} {junk : Bytes}
    {out : MemOut} (h : memStep s (.free (some p) junk) = .ok (s', out)) :
    out.read = s.requested p :=
  (recorded_afterFree R h).2

theorem recorded_start (m : Mem) : Recorded (.start m) := fun _ _ h => (nomatch h)

/-- **Recorded sizes and payloads.** Take a run of the allocation functions and of writes to
payloads, with any contents and other blocks in memory at its start, any answers that `malloc` and
`realloc` may give, and sizes that do not wrap around. In every state the header before a live block
has the size requested for it last. A reallocation that succeeds keeps the payload as far as both
sizes go, and every other block; one that returns null keeps every block, the one it was given
included. -/
theorem sizes_and_payloads {m : Mem} {ops : List MemOp}
    (hlegal : EachStep memStep MemOp.legal (.start m) ops) (hsmall : ∀ op, op ∈ ops → op.small) :
    AllAlong memStep (fun s => ∀ q n, s.requested q = some n → loadSize s.memory (q - 8) = n)
        (.start m) ops ∧
      EachStep memStep
        (fun s op => ∃ s' out, memStep s op = .ok (s', out) ∧ KeepsPayloads s op s' out)
        (.start m) ops := by
  have hsteps : EachStep memStep (fun s op => op.legal s ∧ op.small) (.start m) ops :=
    hlegal.and (eachStep_of_forall_mem hsmall _)
  have hstep : ∀ s op, Recorded s → op.legal s ∧ op.small →
      ∃ s' out, memStep s op = .ok (s', out) ∧ Recorded s' ∧ KeepsPayloads s op s' out := by
    rintro s op R ⟨hop, hsize⟩
    obtain ⟨s', out, h⟩ := memStep_ok R.contained hop
    exact ⟨s', out, h, recorded_step R hsize h⟩
  constructor
  · have hall : AllAlong memStep Recorded (.start m) ops :=
      allAlong_of_eachStep Recorded (fun s op R hop => by
        obtain ⟨s', out, h, hrec, -⟩ := hstep s op R hop
        exact ⟨s', out, h, hrec⟩) (recorded_start m) hsteps
    refine hall.mono fun s R q n hq => ?_
    obtain ⟨r, -, rfl, -, hheader⟩ := R q n hq
    rw [Nat.add_sub_cancel]
    exact hheader
  · exact eachStep_of_invariant Recorded hstep (recorded_start m) hsteps

/-- A block beside another one is written up to its last byte, resized, and kept by a reallocation
that is refused. -/
theorem sizes_and_payloads_sample :
    ∃ ops : List MemOp, ops =
        [.allocate 16 (.block ⟨32, 24, 24, by decide, by decide, by decide⟩ fun _ => 1),
          .write 40 15 9,
          .reAllocate (some 40) 32
            (.block ⟨96, 40, 40, by decide, by decide, by decide⟩ fun _ => 3),
          .reAllocate (some 104) 64 (.null fun _ => 5)] ∧
      AllAlong memStep (fun s => ∀ q n, s.requested q = some n → loadSize s.memory (q - 8) = n)
        (.start ⟨fun _ => 0, [⟨64, 32, 16, by decide, by decide, by decide⟩], by decide⟩) ops ∧
      EachStep memStep
        (fun s op => ∃ s' out, memStep s op = .ok (s', out) ∧ KeepsPayloads s op s' out)
        (.start ⟨fun _ => 0, [⟨64, 32, 16, by decide, by decide, by decide⟩], by decide⟩) ops :=
  ⟨_, rfl, sizes_and_payloads (by decide +kernel) (by decide)⟩

end Lldk.AllocatorMemory
