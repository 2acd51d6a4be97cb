import Lldk.Base.AllocatorLoans

/-!
The limit that an allocator is created with.

`init` stores `uMaxSizeMB`, and no function reads it.

* `within` and `keepsLimit` are the contract: the blocks stay within the limit, a call that would
  exceed it gets null and changes nothing, and without a limit no call is refused for it.
* `limit_iff`: a run meets the contract iff `malloc` or `realloc` fails in every call that would
  exceed the limit.
-/

namespace Lldk

open Lib Lib.Trace Process

/-! ## The allocator that is created -/

section Created

variable {l l' : Library} {t : Tid} {env : CallEnv} {a : Nat} {uMaxSizeMB : UInt64}

theorem initAllocator_limit {p p' : Process Object} {rc : Int}
    (h : p.initAllocator a uMaxSizeMB = .ok (rc, p')) :
    ∃ al, p'.readAllocator a = some al ∧ al.m_uMaxSizeMB = uMaxSizeMB := by
  unfold initAllocator at h
  cases hal : p.readAllocator a with
  | none =>
    simp only [hal] at h
    cases h
  | some al =>
    simp only [hal] at h
    cases h
    obtain ⟨block, hb, -⟩ := cells_of_readAllocator hal
    refine ⟨(al.init uMaxSizeMB).2, ?_, rfl⟩
    have hcell : (p.heap.modify a fun b =>
        { b with object := some (.allocator (al.init uMaxSizeMB).2) }).cells a =
        some { block with object := some (.allocator (al.init uMaxSizeMB).2) } := by
      rw [Heap.cells_modify_self, hb]
      rfl
    exact readAllocator_of_cells hcell rfl

theorem getSingleton_map {r : Except String (Option Nat)}
    (h : l.lldkGetAllocatorSingleton t env = .ok (r, l')) :
    l'.s_pAllocatorMap = l.s_pAllocatorMap := by
  unfold Library.lldkGetAllocatorSingleton at h
  cases hs : l.s_pAllocator with
  | some s =>
    simp only [hs] at h
    cases h
    rfl
  | none =>
    simp only [hs] at h
    obtain ⟨⟨r', p⟩, -, h⟩ := bind_eq_ok.mp h
    cases r' with
    | error what =>
      cases h
      rfl
    | ok s =>
      obtain ⟨⟨rc, q⟩, -, h⟩ := bind_eq_ok.mp h
      split at h
      · obtain ⟨q', -, h⟩ := bind_eq_ok.mp h
        cases h
        rfl
      · cases h
        rfl

theorem createObject_limit {n : String}
    (h : l.createObject t n uMaxSizeMB env = .ok (.ok (some a), l')) :
    (∃ al, l'.proc.readAllocator a = some al ∧ al.m_uMaxSizeMB = uMaxSizeMB) ∧
      l'.s_pAllocatorMap = l.s_pAllocatorMap := by
  unfold Library.createObject at h
  obtain ⟨⟨r, l₁⟩, hs, h⟩ := bind_eq_ok.mp h
  have hmap := getSingleton_map hs
  rcases r with what | _ | s
  · cases h
  · cases h
  · cases hself : l₁.proc.readAllocator s with
    | none =>
      simp only [hself] at h
      cases h
    | some self =>
      simp only [hself] at h
      obtain ⟨⟨r, p⟩, -, h⟩ := bind_eq_ok.mp h
      rcases r with what | _ | b
      · cases h
      · cases h
      · obtain ⟨⟨rc, q⟩, hi, h⟩ := bind_eq_ok.mp h
        split at h
        · obtain ⟨l₂, -, h⟩ := bind_eq_ok.mp h
          cases h
        · cases h
          exact ⟨initAllocator_limit hi, hmap⟩

/-- A created allocator has the limit it was created with. -/
theorem lldkCreateAllocator_limit {pName : Option String}
    (h : l.lldkCreateAllocator t pName uMaxSizeMB env = .ok (.ok (some a), l')) :
    ∃ al, l'.proc.readAllocator a = some al ∧ al.m_uMaxSizeMB = uMaxSizeMB := by
  cases Library.lldkCreateAllocator_moves h with
  | stopped hkey hfind ho hr => exact absurd rfl (hr a)
  | @made n b q l₁ l' hkey hfind ho hemplace =>
    obtain ⟨hal, hmap⟩ := createObject_limit ho
    have hfree : l₁.find n = none := by
      unfold Library.find
      rw [hmap]
      exact hfind
    cases hemplace with
    | there hnode hthere hd =>
      rw [hfree] at hthere
      cases hthere
    | added hnode hfind hrehash => exact hal

end Created

/-! ## The contract -/

/-- `uMaxSizeMB` in bytes. -/
def limitBytes (uMaxSizeMB : UInt64) : Nat := uMaxSizeMB.toNat * 2 ^ 20

namespace Loans

/-- If there is a limit, the blocks are within it. -/
def within (uMaxSizeMB : UInt64) (s : Loans) : Prop :=
  uMaxSizeMB ≠ 0 → s.bytes ≤ limitBytes uMaxSizeMB

/-- The call asks for more than the limit allows. -/
def exceeds (uMaxSizeMB : UInt64) (s : Loans) (op : LoanOp) : Prop :=
  op.requests = true ∧ uMaxSizeMB ≠ 0 ∧ limitBytes uMaxSizeMB < s.asked UInt64.toNat op

instance (uMaxSizeMB : UInt64) (s : Loans) (op : LoanOp) :
    Decidable (s.exceeds uMaxSizeMB op) :=
  inferInstanceAs (Decidable (op.requests = true ∧ uMaxSizeMB ≠ 0 ∧
    limitBytes uMaxSizeMB < s.asked UInt64.toNat op))

/-- A call that would exceed the limit gets null and changes nothing; without a limit, null means
that `malloc` or `realloc` failed, or that `realloc` released the block. -/
def keepsLimit (al : AllocatorImpl) (uMaxSizeMB : UInt64) (s : Loans) (op : LoanOp) : Prop :=
  ∀ s' out, loanStep al s op = .ok (s', out) →
    (s.exceeds uMaxSizeMB op → out = none ∧ s.unchanged s') ∧
      (uMaxSizeMB = 0 → op.requests = true → out = none → op.fails ∨ op.drops ≠ none)

end Loans

section Limit

variable {al : AllocatorImpl} {s s' : Loans} {uMaxSizeMB : UInt64} {op : LoanOp}
  {out : Option Nat}

/-- A call meets the contract if it fails whenever it would exceed the limit. -/
theorem keepsLimit_of_fails (hop : s.exceeds uMaxSizeMB op → op.fails) :
    s.keepsLimit al uMaxSizeMB op := by
  intro s' out h
  have hmove := loanStep_moves h
  refine ⟨fun hexceeds => ⟨?_, hmove.unchanged (hop hexceeds)⟩,
    fun _ hreq => (hmove.null_iff hreq).mp⟩
  exact (hmove.null_iff hexceeds.1).mpr (Or.inl (hop hexceeds))

/-- A call that returns and meets the contract fails if it would exceed the limit. -/
theorem fails_of_keepsLimit (h : loanStep al s op = .ok (s', out))
    (hop : s.keepsLimit al uMaxSizeMB op) (hexceeds : s.exceeds uMaxSizeMB op) : op.fails := by
  have hmove := loanStep_moves h
  obtain ⟨hnull, hsame⟩ := (hop s' out h).1 hexceeds
  rcases (hmove.null_iff hexceeds.1).mp hnull with hfails | hdrops
  · exact hfails
  · -- a block that `realloc` releases is gone, which is a change
    obtain ⟨a, ha⟩ := Option.ne_none_iff_exists'.mp hdrops
    exact absurd hsame (hmove.changes_of_drops ha)

/-- **Step lemma.** -/
theorem within_step (hs : s.below) (hin : s.within uMaxSizeMB)
    (hop : s.exceeds uMaxSizeMB op → op.fails) (h : loanStep al s op = .ok (s', out)) :
    s'.within uMaxSizeMB := by
  intro hlimit
  have htotal : s'.bytes = s.after UInt64.toNat op := (loanStep_moves h).total UInt64.toNat hs
  rw [htotal]
  by_cases hfails : op.fails
  · rw [after_of_fails _ s hfails]
    exact hin hlimit
  · cases hdrops : op.drops with
    | some a =>
      rw [after_of_drops _ s hdrops]
      exact Nat.le_trans (total_without_le _ s a) (hin hlimit)
    | none =>
      rw [after_of_granted _ s hfails hdrops]
      cases hreq : op.requests with
      | false => exact Nat.le_trans (asked_le UInt64.toNat s hreq) (hin hlimit)
      | true =>
        by_contra hgt
        exact hfails (hop ⟨hreq, hlimit, Nat.lt_of_not_le hgt⟩)

/-- **When the limit is kept.** For every allocator that `lldkCreateAllocator` returns and every run
of calls on it, its blocks stay within the limit and each call meets the contract iff `malloc` or
`realloc` fails in each call that would exceed the limit. -/
theorem limit_iff {l l' : Library} {t : Tid} {pName : Option String} {env : CallEnv} {a : Nat}
    (hc : l.lldkCreateAllocator t pName uMaxSizeMB env = .ok (.ok (some a), l'))
    (hal : l'.proc.readAllocator a = some al) {ops : List LoanOp} {outs : List (Option Nat)}
    (hr : run (loanStep al) (.start l'.proc) ops = .ok (s, outs)) :
    al.m_uMaxSizeMB = uMaxSizeMB ∧
      ((AllAlong (loanStep al) (Loans.within uMaxSizeMB) (.start l'.proc) ops ∧
          EachStep (loanStep al) (Loans.keepsLimit al uMaxSizeMB) (.start l'.proc) ops) ↔
        EachStep (loanStep al) (fun s op => s.exceeds uMaxSizeMB op → op.fails)
          (.start l'.proc) ops) := by
  have hlimit : al.m_uMaxSizeMB = uMaxSizeMB := by
    obtain ⟨al', hal', he⟩ := lldkCreateAllocator_limit hc
    rw [hal] at hal'
    cases hal'
    exact he
  have hsteps := eachStep_of_run hr
  refine ⟨hlimit, ⟨fun ⟨_, hkeeps⟩ => ?_, fun hfails => ⟨?_, ?_⟩⟩⟩
  · refine (hsteps.and hkeeps).mono ?_
    rintro s op ⟨⟨⟨s', out⟩, h⟩, hop⟩ hexceeds
    exact fails_of_keepsLimit h hop hexceeds
  · have hinv : AllAlong (loanStep al) (fun s => s.below ∧ s.within uMaxSizeMB) (.start l'.proc)
        ops := by
      refine allAlong_of_eachStep _ ?_ ⟨Loans.below_start _, fun _ => Nat.zero_le _⟩
        (hsteps.and hfails)
      rintro s op ⟨hs, hin⟩ ⟨⟨⟨s', out⟩, h⟩, hop⟩
      exact ⟨s', out, h, (loanStep_moves h).below hs, within_step hs hin hop h⟩
    exact hinv.mono fun s h => h.2
  · exact hfails.mono fun s op hop => keepsLimit_of_fails hop

/-- An allocator of one megabyte refuses two when there is no memory for them. -/
theorem limit_iff_sample :
    ∃ l a al s outs, Library.init.lldkCreateAllocator 0 (some "a") 1 {} = .ok (.ok (some a), l) ∧
      l.proc.readAllocator a = some al ∧
      run (loanStep al) (.start l.proc) [.allocate 0 16 true, .allocate 0 2097152 false] =
        .ok (s, outs) ∧
      AllAlong (loanStep al) (Loans.within 1) (.start l.proc)
        [.allocate 0 16 true, .allocate 0 2097152 false] := by
  have hends : (Library.init.lldkCreateAllocator 0 (some "a") 1 {}).toOption.any (fun r =>
      r.1.toOption.any fun q => q.any fun a => (r.2.proc.readAllocator a).any fun al =>
        (run (loanStep al) (.start r.2.proc)
          [.allocate 0 16 true, .allocate 0 2097152 false]).toOption.any fun _ =>
        decide (EachStep (loanStep al) (fun s op => s.exceeds 1 op → op.fails)
          (.start r.2.proc) [.allocate 0 16 true, .allocate 0 2097152 false])) = true := by
    decide +kernel
  obtain ⟨⟨r, l⟩, hc, hends⟩ := exists_of_any hends
  obtain ⟨q, rfl, hends⟩ := exists_of_any hends
  obtain ⟨a, rfl, hends⟩ := (Option.any_eq_true ..).mp hends
  obtain ⟨al, hal, hends⟩ := (Option.any_eq_true ..).mp hends
  obtain ⟨⟨s, outs⟩, hr, hends⟩ := exists_of_any hends
  exact ⟨l, a, al, s, outs, hc, hal, hr, ((limit_iff hc hal hr).2.mpr (of_decide_eq_true hends)).1⟩

/-- An allocator of one megabyte gives out two. -/
theorem allocates_above_limit :
    ∃ l a al s outs, Library.init.lldkCreateAllocator 0 (some "a") 1 {} = .ok (.ok (some a), l) ∧
      l.proc.readAllocator a = some al ∧
      run (loanStep al) (.start l.proc) [.allocate 0 2097152 true] = .ok (s, outs) ∧
      s.bytes = 2 * 2 ^ 20 ∧ ¬ s.within 1 := by
  have hends : (Library.init.lldkCreateAllocator 0 (some "a") 1 {}).toOption.any (fun r =>
      r.1.toOption.any fun q => q.any fun a => (r.2.proc.readAllocator a).any fun al =>
        (run (loanStep al) (.start r.2.proc) [.allocate 0 2097152 true]).toOption.any fun e =>
        decide (e.1.bytes = 2 * 2 ^ 20)) = true := by
    decide +kernel
  obtain ⟨⟨r, l⟩, hc, hends⟩ := exists_of_any hends
  obtain ⟨q, rfl, hends⟩ := exists_of_any hends
  obtain ⟨a, rfl, hends⟩ := (Option.any_eq_true ..).mp hends
  obtain ⟨al, hal, hends⟩ := (Option.any_eq_true ..).mp hends
  obtain ⟨⟨s, outs⟩, hr, hends⟩ := exists_of_any hends
  have hbytes : s.bytes = 2 * 2 ^ 20 := of_decide_eq_true hends
  refine ⟨l, a, al, s, outs, hc, hal, hr, hbytes, fun hin => ?_⟩
  have hle := hin (by decide)
  rw [hbytes] at hle
  exact absurd hle (by decide)

end Limit

end Lldk
