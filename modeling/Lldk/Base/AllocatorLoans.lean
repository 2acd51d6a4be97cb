import Lldk.Base.Allocator
import Lldk.Base.AllocatorStats
import Lldk.Lib.Ledger

/-!
The blocks that an allocator has given out.

* `IAllocator.newObject` and `IAllocator.deleteObject` are the templates of `allocator.h`, for any
  `T`; `AllocatorImpl.newObject` is the one for `AllocatorImpl`.
* `loanStep` is one call on an allocator, by any thread, whatever `malloc` and `realloc` do. Its
  state keeps, as history, the blocks that are given out and the size each was last asked for.
* `newObject` is two steps, so that other calls may come between: those of its constructor, and
  those of other threads (`newObject_steps`).
* `LoanMove` says once what a step can do (`loanStep_moves`).
-/

namespace Lldk

open Lib Lib.Trace Process

/-! ## Objects of any type -/

namespace IAllocator

/-- `newObject<T>(args)`, with what the constructor of `T` does in the block it is given. -/
def newObject (p : Process Object) (t : Tid) (self : AllocatorImpl) (sizeofT : UInt64) (mem : Bool)
    (construct : Nat → Process Object → Except Fault (Except String Unit × Process Object)) :
    Except Fault (Except String (Option Nat) × Process Object) := do
  match ← self.allocate p t sizeofT mem with
  | (none, p) => return (.ok none, p)
  | (some pMemory, p) =>
    match ← construct pMemory p with
    | (.error what, p) =>
      let p ← self.free p t (some pMemory)
      return (.error what, p)
    | (.ok (), p) => return (.ok (some pMemory), p)

/-- `deleteObject<T>(pObject)`, with what the destructor of `T` does. -/
def deleteObject (p : Process Object) (t : Tid) (self : AllocatorImpl)
    (destroy : Nat → Process Object → Except Fault (Process Object)) (pObject : Nat) :
    Except Fault (Process Object) := do
  let p ← destroy pObject p
  self.free p t (some pObject)

end IAllocator

/-- The constructor of `AllocatorImpl`, in the block at `a`. -/
def AllocatorImpl.constructAt (t : Tid) (pName : String) (env : Env) (a : Nat)
    (p : Process Object) : Except Fault (Except String Unit × Process Object) := do
  match ← AllocatorImpl.construct p t pName env with
  | (.error what, p) => return (.error what, p)
  | (.ok al, p) => return (.ok (), p.placeObject a (.allocator al))

theorem AllocatorImpl.newObject_eq (self : AllocatorImpl) (p : Process Object) (t : Tid)
    (pName : String) (env : CallEnv) :
    self.newObject p t pName env = IAllocator.newObject p t self sizeofAllocatorImpl env.objectMem
      (AllocatorImpl.constructAt t pName env.toEnv) := by
  unfold newObject IAllocator.newObject
  cases self.allocate p t sizeofAllocatorImpl env.objectMem with
  | error f => rfl
  | ok r =>
    obtain ⟨q, p₁⟩ := r
    cases q with
    | none => rfl
    | some a =>
      simp only [bind, Except.bind, constructAt]
      cases construct p₁ t pName env.toEnv with
      | error f => rfl
      | ok r' =>
        obtain ⟨al, p₂⟩ := r'
        cases al with
        | error what => rfl
        | ok al => rfl

theorem AllocatorImpl.deleteObject_eq (self : AllocatorImpl) (p : Process Object) (t : Tid)
    (a : Nat) : self.deleteObject p t a =
      IAllocator.deleteObject p t self (fun a p => p.destroyAllocator t a) a := rfl

/-! ## Calls on one allocator -/

/-- A block that is given out: the size that was last asked for, and the thread whose `newObject`
is constructing an object in it. -/
structure Loan where
  uSize : UInt64
  constructing : Option Tid
  deriving DecidableEq, Repr

structure Loans where
  proc : Process Object
  blocks : Ledger Nat Loan

namespace Loans

def start (p : Process Object) : Loans := ⟨p, ∅⟩

/-- The sum of a weight over the sizes of the blocks. -/
def total (w : UInt64 → Nat) (s : Loans) : Nat := s.blocks.total fun l => w l.uSize

/-- The total size of the blocks. -/
def bytes (s : Loans) : Nat := s.total UInt64.toNat

/-- Their number. -/
def count (s : Loans) : Nat := s.total fun _ => 1

theorem count_eq (s : Loans) : s.count = s.blocks.entries.length := Ledger.total_one _

/-- Error codes apart, nothing changed. -/
def unchanged (s s' : Loans) : Prop :=
  ∃ codes, s' = { s with proc := { s.proc with s_eErrorCode := codes } }

def without (s : Loans) (a : Nat) : Loans := { s with blocks := s.blocks.erase a }

/-- What `allocate` returns is given out. -/
def lend (s : Loans) (uSize : UInt64) (constructing : Option Tid) :
    Option Nat × Process Object → Loans × Option Nat
  | (none, p) => ({ s with proc := p }, none)
  | (some a, p) => (⟨p, s.blocks.insert a ⟨uSize, constructing⟩⟩, some a)

end Loans

inductive LoanOp
  | allocate (t : Tid) (uSize : UInt64) (mem : Bool)
  | reAllocate (t : Tid) (pMemory : Option Nat) (uSize : UInt64) (mem : Bool) (r : Realloc)
  | free (t : Tid) (pMemory : Option Nat)
  /-- `newObject`, up to the call of the constructor -/
  | newObject (t : Tid) (sizeofT : UInt64) (mem : Bool)
  /-- the constructor returned, and `newObject` returns the object -/
  | constructed (t : Tid) (pMemory : Nat)
  /-- the constructor threw: the rest of `newObject` -/
  | threw (t : Tid) (pMemory : Nat)
  /-- `deleteObject`, after the destructor -/
  | deleteObject (t : Tid) (pObject : Nat)

/-- A fault of the library is the fault of the call. -/
def ofFault {α : Type} : Except Fault α → Except CallFault α
  | .error f => .error (.library f)
  | .ok x => .ok x

/-- One call. The caller may pass the blocks that were given out, the constructor's own excepted. -/
def loanStep (al : AllocatorImpl) : Step Loans LoanOp (Option Nat) CallFault
  | s, .allocate t uSize mem => do
    let r ← ofFault (al.allocate s.proc t uSize mem)
    return s.lend uSize none r
  | s, .reAllocate t none uSize mem re => do
    let r ← ofFault (al.reAllocate s.proc t none uSize mem re)
    return s.lend uSize none r
  | s, .reAllocate t (some a) uSize mem re =>
    match s.blocks.lookup a with
    | some ⟨_, none⟩ => do
      match ← ofFault (al.reAllocate s.proc t (some a) uSize mem re) with
      | (none, p) =>
        return (⟨p, if re.drops uSize then s.blocks.erase a else s.blocks⟩, none)
      | (some q, p) => return (⟨p, (s.blocks.erase a).insert q ⟨uSize, none⟩⟩, some q)
    | _ => .error (.badBlock a)
  | s, .free t none => do
    let p ← ofFault (al.free s.proc t none)
    return ({ s with proc := p }, none)
  | s, .free t (some a) =>
    match s.blocks.lookup a with
    | some ⟨_, none⟩ => do
      let p ← ofFault (al.free s.proc t (some a))
      return (⟨p, s.blocks.erase a⟩, none)
    | _ => .error (.badBlock a)
  | s, .newObject t sizeofT mem => do
    let r ← ofFault (al.allocate s.proc t sizeofT mem)
    return s.lend sizeofT (some t) r
  | s, .constructed t a =>
    match s.blocks.lookup a with
    | some ⟨uSize, some t'⟩ =>
      if t' = t then .ok ({ s with blocks := s.blocks.insert a ⟨uSize, none⟩ }, some a)
      else .error (.badBlock a)
    | _ => .error (.badBlock a)
  | s, .threw t a =>
    match s.blocks.lookup a with
    | some ⟨_, some t'⟩ =>
      if t' = t then do
        let p ← ofFault (al.free s.proc t (some a))
        return (⟨p, s.blocks.erase a⟩, none)
      else .error (.badBlock a)
    | _ => .error (.badBlock a)
  | s, .deleteObject t a =>
    match s.blocks.lookup a with
    | some ⟨_, none⟩ => do
      let p ← ofFault (al.free s.proc t (some a))
      return (⟨p, s.blocks.erase a⟩, none)
    | _ => .error (.badBlock a)

namespace LoanOp

/-- The calls that ask for a new block: the thread, the size, and the thread that will construct
an object in it. -/
def asks : LoanOp → Option (Tid × UInt64 × Option Tid)
  | allocate t uSize _ => some (t, uSize, none)
  | reAllocate t none uSize _ _ => some (t, uSize, none)
  | newObject t sizeofT _ => some (t, sizeofT, some t)
  | _ => none

/-- The calls that give a block back. -/
def returns : LoanOp → Option (Tid × Nat)
  | free t (some a) => some (t, a)
  | threw t a => some (t, a)
  | deleteObject t a => some (t, a)
  | _ => none

theorem asks_cases {op : LoanOp} {t : Tid} {uSize : UInt64} {c : Option Tid}
    (h : op.asks = some (t, uSize, c)) :
    (∃ mem, op = allocate t uSize mem) ∨ (∃ mem r, op = reAllocate t none uSize mem r) ∨
      ∃ mem, op = newObject t uSize mem := by
  cases op with
  | allocate t uSize mem =>
    cases h
    exact Or.inl ⟨mem, rfl⟩
  | newObject t sizeofT mem =>
    cases h
    exact Or.inr (Or.inr ⟨mem, rfl⟩)
  | reAllocate t pMemory uSize mem r =>
    cases pMemory with
    | none =>
      cases h
      exact Or.inr (Or.inl ⟨mem, r, rfl⟩)
    | some a => cases h
  | free t pMemory => cases h
  | constructed t a => cases h
  | threw t a => cases h
  | deleteObject t a => cases h

theorem returns_cases {op : LoanOp} {t : Tid} {a : Nat} (h : op.returns = some (t, a)) :
    op = free t (some a) ∨ op = threw t a ∨ op = deleteObject t a := by
  cases op with
  | allocate t uSize mem => cases h
  | newObject t sizeofT mem => cases h
  | reAllocate t pMemory uSize mem r => cases h
  | free t pMemory =>
    cases pMemory with
    | none => cases h
    | some a =>
      cases h
      exact Or.inl rfl
  | constructed t a => cases h
  | threw t a =>
    cases h
    exact Or.inr (Or.inl rfl)
  | deleteObject t a =>
    cases h
    exact Or.inr (Or.inr rfl)

/-- `malloc` or `realloc` fails in the call, and `realloc` leaves its block. -/
def fails : LoanOp → Prop
  | allocate _ _ mem => mem = false
  | reAllocate _ none _ mem _ => mem = false
  | reAllocate _ (some _) uSize _ r => r.refuses uSize
  | newObject _ _ mem => mem = false
  | _ => False

instance : DecidablePred fails := fun op =>
  match op with
  | allocate _ _ mem => inferInstanceAs (Decidable (mem = false))
  | reAllocate _ none _ mem _ => inferInstanceAs (Decidable (mem = false))
  | reAllocate _ (some _) uSize _ r => inferInstanceAs (Decidable (r.refuses uSize))
  | newObject _ _ mem => inferInstanceAs (Decidable (mem = false))
  | free _ _ => .isFalse id
  | constructed _ _ => .isFalse id
  | threw _ _ => .isFalse id
  | deleteObject _ _ => .isFalse id

/-- The block that `realloc` releases in the call, and returns null for. -/
def drops : LoanOp → Option Nat
  | reAllocate _ (some a) uSize _ r => if r.drops uSize then some a else none
  | _ => none

/-- The calls that may return null. -/
def requests : LoanOp → Bool
  | allocate _ _ _ => true
  | reAllocate _ _ _ _ _ => true
  | newObject _ _ _ => true
  | _ => false

end LoanOp

/-- The total that a call asks for. -/
def Loans.asked (w : UInt64 → Nat) (s : Loans) : LoanOp → Nat
  | .allocate _ uSize _ => w uSize + s.total w
  | .reAllocate _ none uSize _ _ => w uSize + s.total w
  | .reAllocate _ (some a) uSize _ _ => w uSize + (s.without a).total w
  | .free _ none => s.total w
  | .free _ (some a) => (s.without a).total w
  | .newObject _ sizeofT _ => w sizeofT + s.total w
  | .constructed _ _ => s.total w
  | .threw _ a => (s.without a).total w
  | .deleteObject _ a => (s.without a).total w

/-- The total after a call. -/
def Loans.after (w : UInt64 → Nat) (s : Loans) (op : LoanOp) : Nat :=
  if op.fails then s.total w
  else
    match op.drops with
    | some a => (s.without a).total w
    | none => s.asked w op

/-- **What a step can do.** -/
inductive LoanMove (al : AllocatorImpl) (s : Loans) : LoanOp → Option Nat → Loans → Prop
  | refused {op : LoanOp} (t : Tid) (hfails : op.fails) :
      LoanMove al s op none { s with proc := s.proc.lldkSetErrorCode t .kNoMemory }
  | dropped {t : Tid} {a : Nat} {old uSize : UInt64} {mem : Bool} {r : Realloc}
      (hold : s.blocks.lookup a = some ⟨old, none⟩) (hdrops : r.drops uSize) :
      LoanMove al s (.reAllocate t (some a) uSize mem r) none
        ⟨(s.proc.freeBlock a).lldkSetErrorCode t .kNoMemory, s.blocks.erase a⟩
  | freedNull (t : Tid) :
      LoanMove al s (.free t none) none { s with proc := s.proc.lldkSetErrorCode t .kInvalidParam }
  | lent {op : LoanOp} {t : Tid} {uSize : UInt64} {c : Option Tid} {q : Nat} {p : Process Object}
      (hop : op.asks = some (t, uSize, c)) (hmem : ¬ op.fails)
      (h : al.allocate s.proc t uSize true = .ok (some q, p)) :
      LoanMove al s op (some q) ⟨p, s.blocks.insert q ⟨uSize, c⟩⟩
  | resized {t : Tid} {a q : Nat} {old uSize : UInt64} {mem : Bool} {r : Realloc}
      {p : Process Object} (hold : s.blocks.lookup a = some ⟨old, none⟩)
      (h : al.reAllocate s.proc t (some a) uSize mem r = .ok (some q, p)) :
      LoanMove al s (.reAllocate t (some a) uSize mem r) (some q)
        ⟨p, (s.blocks.erase a).insert q ⟨uSize, none⟩⟩
  | returned {op : LoanOp} {t : Tid} {a : Nat} {l : Loan} {p : Process Object}
      (hop : op.returns = some (t, a)) (hold : s.blocks.lookup a = some l)
      (h : al.free s.proc t (some a) = .ok p) : LoanMove al s op none ⟨p, s.blocks.erase a⟩
  | constructed {t : Tid} {a : Nat} {uSize : UInt64}
      (hold : s.blocks.lookup a = some ⟨uSize, some t⟩) :
      LoanMove al s (.constructed t a) (some a)
        { s with blocks := s.blocks.insert a ⟨uSize, none⟩ }

section Steps

variable {al : AllocatorImpl} {s s' : Loans}

theorem ofFault_ok {α : Type} {x : Except Fault α} {y : α} (h : ofFault x = .ok y) : x = .ok y := by
  cases x with
  | error f => cases h
  | ok z => exact congrArg Except.ok (Except.ok.inj h)

/-- Null means that `malloc` failed. -/
theorem AllocatorImpl.allocate_fails {p p' : Process Object} {t : Tid} {uSize : UInt64} {mem : Bool}
    (h : al.allocate p t uSize mem = .ok (none, p')) : mem = false := by
  cases mem with
  | false => rfl
  | true =>
    simp only [allocate, mallocWithHeader_true] at h
    cases hc : al.count (withBlock p uSize) t (fun r => r.addAllocated uSize) with
    | error f => simp [hc] at h
    | ok q => simp [hc] at h

/-- The block after a resize carries the new size. -/
theorem AllocatorImpl.resize_block {p p₁ : Process Object} {a q : Nat} {b : Block Object}
    {uSize : UInt64} {r : Realloc} (hb : p.heap.cells a = some b)
    (h : resize p a b uSize r = (some q, p₁)) :
    ∃ b', p₁.heap.cells q = some b' ∧ b'.uSize = uSize := by
  cases r with
  | fails => cases h
  | inPlace =>
    cases h
    exact ⟨{ b with uMalloced := uSize + headerSize, uSize := uSize },
      by rw [Heap.cells_modify_self, hb]; rfl, rfl⟩
  | moves =>
    cases h
    refine ⟨⟨uSize + headerSize, uSize, b.object⟩, ?_, rfl⟩
    have hne : p.heap.next ≠ a := Nat.ne_of_gt (Heap.lt_next hb)
    show ((p.heap.alloc _).2.free a).cells p.heap.next = _
    rw [Heap.cells_free_ne hne, Heap.cells_alloc_self]
  | releases => cases h

/-- A call of `allocate` is refused, or gives a block out. -/
theorem lend_moves {op : LoanOp} {t : Tid} {uSize : UInt64} {c : Option Tid} {mem : Bool}
    {r : Option Nat × Process Object} {out : Option Nat} (hop : op.asks = some (t, uSize, c))
    (hfails : op.fails ↔ mem = false) (hr : al.allocate s.proc t uSize mem = .ok r)
    (h : s.lend uSize c r = (s', out)) : LoanMove al s op out s' := by
  obtain ⟨q, p⟩ := r
  cases q with
  | none =>
    cases h
    rw [AllocatorImpl.allocate_none hr]
    exact .refused t (hfails.mpr (AllocatorImpl.allocate_fails hr))
  | some a =>
    cases h
    cases mem with
    | false => cases hr
    | true => exact .lent hop (fun hf => by cases hfails.mp hf) hr

/-- **Step lemma.** -/
theorem loanStep_moves {op : LoanOp} {out : Option Nat} (h : loanStep al s op = .ok (s', out)) :
    LoanMove al s op out s' := by
  cases op with
  | allocate t uSize mem =>
    obtain ⟨r, hr, h⟩ := bind_eq_ok.mp h
    exact lend_moves rfl Iff.rfl (ofFault_ok hr) (Except.ok.inj h)
  | newObject t sizeofT mem =>
    obtain ⟨r, hr, h⟩ := bind_eq_ok.mp h
    exact lend_moves rfl Iff.rfl (ofFault_ok hr) (Except.ok.inj h)
  | reAllocate t pMemory uSize mem r =>
    cases pMemory with
    | none =>
      obtain ⟨q, hq, h⟩ := bind_eq_ok.mp h
      exact lend_moves rfl Iff.rfl (ofFault_ok hq) (Except.ok.inj h)
    | some a =>
      simp only [loanStep] at h
      split at h
      · rename_i old hold
        obtain ⟨⟨q, p⟩, hq, h⟩ := bind_eq_ok.mp h
        have hq := ofFault_ok hq
        cases q with
        | none =>
          cases h
          rcases AllocatorImpl.reAllocate_none hq with ⟨hrefuses, rfl⟩ | ⟨hdrops, rfl⟩
          · rw [if_neg (Realloc.not_drops_of_refuses hrefuses)]
            exact .refused t hrefuses
          · rw [if_pos hdrops]
            exact .dropped hold hdrops
        | some q =>
          cases h
          exact .resized hold hq
      · cases h
  | free t pMemory =>
    cases pMemory with
    | none =>
      cases h
      exact .freedNull t
    | some a =>
      simp only [loanStep] at h
      split at h
      · rename_i old hold
        obtain ⟨p, hp, h⟩ := bind_eq_ok.mp h
        cases h
        exact .returned rfl hold (ofFault_ok hp)
      · cases h
  | constructed t a =>
    simp only [loanStep] at h
    split at h
    · rename_i uSize t' hold
      split at h
      · rename_i ht
        subst ht
        cases h
        exact .constructed hold
      · cases h
    · cases h
  | threw t a =>
    simp only [loanStep] at h
    split at h
    · rename_i old t' hold
      split at h
      · obtain ⟨p, hp, h⟩ := bind_eq_ok.mp h
        cases h
        exact .returned rfl hold (ofFault_ok hp)
      · cases h
    · cases h
  | deleteObject t a =>
    simp only [loanStep] at h
    split at h
    · rename_i old hold
      obtain ⟨p, hp, h⟩ := bind_eq_ok.mp h
      cases h
      exact .returned rfl hold (ofFault_ok hp)
    · cases h

/-! ## Calls that get null -/

theorem requests_of_fails {op : LoanOp} (h : op.fails) : op.requests = true := by
  cases op with
  | allocate t uSize mem => rfl
  | reAllocate t pMemory uSize mem r => rfl
  | newObject t sizeofT mem => rfl
  | free t pMemory => cases h
  | constructed t a => cases h
  | threw t a => cases h
  | deleteObject t a => cases h

theorem not_requests_of_returns {op : LoanOp} {t : Tid} {a : Nat} (h : op.returns = some (t, a)) :
    op.requests = false := by
  rcases LoanOp.returns_cases h with rfl | rfl | rfl
  · rfl
  · rfl
  · rfl

theorem drops_reAllocate {t : Tid} {a : Nat} {uSize : UInt64} {mem : Bool} {r : Realloc}
    (h : r.drops uSize) : (LoanOp.reAllocate t (some a) uSize mem r).drops = some a := if_pos h

theorem stays_reAllocate {t : Tid} {a : Nat} {uSize : UInt64} {mem : Bool} {r : Realloc}
    (h : ¬ r.drops uSize) : (LoanOp.reAllocate t (some a) uSize mem r).drops = none := if_neg h

theorem not_fails_of_drops {op : LoanOp} {a : Nat} (h : op.drops = some a) : ¬ op.fails := by
  cases op with
  | reAllocate t pMemory uSize mem r =>
    cases pMemory with
    | none => cases h
    | some b =>
      intro hf
      rw [stays_reAllocate (Realloc.not_drops_of_refuses hf)] at h
      cases h
  | allocate t uSize mem => cases h
  | newObject t sizeofT mem => cases h
  | free t pMemory => cases h
  | constructed t a => cases h
  | threw t a => cases h
  | deleteObject t a => cases h

theorem drops_of_asks {op : LoanOp} {t : Tid} {uSize : UInt64} {c : Option Tid}
    (h : op.asks = some (t, uSize, c)) : op.drops = none := by
  rcases LoanOp.asks_cases h with ⟨mem, rfl⟩ | ⟨mem, r, rfl⟩ | ⟨mem, rfl⟩
  · rfl
  · rfl
  · rfl

theorem drops_of_returns {op : LoanOp} {t : Tid} {a : Nat} (h : op.returns = some (t, a)) :
    op.drops = none := by
  rcases LoanOp.returns_cases h with rfl | rfl | rfl
  · rfl
  · rfl
  · rfl

/-- A request gets null iff `malloc` or `realloc` fails, or `realloc` releases the block. -/
theorem LoanMove.null_iff {op : LoanOp} {out : Option Nat} (h : LoanMove al s op out s')
    (hop : op.requests = true) : out = none ↔ op.fails ∨ op.drops ≠ none := by
  cases h with
  | refused t hfails => exact ⟨fun _ => Or.inl hfails, fun _ => rfl⟩
  | dropped hold hdrops =>
    rw [drops_reAllocate hdrops]
    exact ⟨fun _ => Or.inr (Option.some_ne_none _), fun _ => rfl⟩
  | freedNull t => cases hop
  | lent hasks hmem h =>
    refine ⟨nofun, fun hf => ?_⟩
    rcases hf with hf | hf
    · exact absurd hf hmem
    · exact absurd (drops_of_asks hasks) hf
  | resized hold h =>
    obtain ⟨hkeeps, hstays⟩ := AllocatorImpl.reAllocate_moves h
    refine ⟨nofun, fun hf => ?_⟩
    rcases hf with hf | hf
    · exact absurd hf hkeeps
    · exact absurd (stays_reAllocate hstays) hf
  | returned hreturns hold h =>
    rw [not_requests_of_returns hreturns] at hop
    cases hop
  | constructed hold => cases hop

/-- A call that fails changes the error codes only. -/
theorem LoanMove.unchanged {op : LoanOp} {out : Option Nat} (h : LoanMove al s op out s')
    (hfails : op.fails) : s.unchanged s' := by
  cases h with
  | refused t hfails => exact ⟨_, rfl⟩
  | dropped hold hdrops => exact absurd hdrops (Realloc.not_drops_of_refuses hfails)
  | freedNull t => exact ⟨_, rfl⟩
  | lent hop hmem h => exact absurd hfails hmem
  | resized hold h => exact absurd hfails (AllocatorImpl.reAllocate_moves h).1
  | returned hop hold h =>
    have hreq := requests_of_fails hfails
    rw [not_requests_of_returns hop] at hreq
    cases hreq
  | constructed hold => exact absurd hfails not_false

/-- The step of a call whose `realloc` releases a block. -/
theorem LoanMove.dropped_of_drops {op : LoanOp} {out : Option Nat} {a : Nat}
    (h : LoanMove al s op out s') (hdrops : op.drops = some a) :
    ∃ t old, s.blocks.lookup a = some ⟨old, none⟩ ∧
      s' = ⟨(s.proc.freeBlock a).lldkSetErrorCode t .kNoMemory, s.blocks.erase a⟩ := by
  cases h with
  | refused t hfails => exact absurd hfails (not_fails_of_drops hdrops)
  | @dropped t b old uSize mem r hold hd =>
    rw [drops_reAllocate hd] at hdrops
    cases hdrops
    exact ⟨t, old, hold, rfl⟩
  | freedNull t => cases hdrops
  | lent hop hmem h =>
    rw [drops_of_asks hop] at hdrops
    cases hdrops
  | resized hold h =>
    rw [stays_reAllocate (AllocatorImpl.reAllocate_moves h).2] at hdrops
    cases hdrops
  | returned hop hold h =>
    rw [drops_of_returns hop] at hdrops
    cases hdrops
  | constructed hold => cases hdrops

/-- A block that `realloc` releases was given out, and is not any more. -/
theorem LoanMove.changes_of_drops {op : LoanOp} {out : Option Nat} {a : Nat}
    (h : LoanMove al s op out s') (hdrops : op.drops = some a) : ¬ s.unchanged s' := by
  obtain ⟨t, old, hold, rfl⟩ := h.dropped_of_drops hdrops
  rintro ⟨codes, he⟩
  have hmem : a ∈ s.blocks.erase a := by
    rw [show s.blocks.erase a = s.blocks from congrArg Loans.blocks he]
    exact AList.lookup_isSome.mp (by rw [hold]; rfl)
  exact (AList.mem_erase.mp hmem).1 rfl

/-! ## What every step keeps -/

/-- No block is new again. -/
def Loans.below (s : Loans) : Prop := ∀ a, a ∈ s.blocks → a < s.proc.heap.next

theorem Loans.below_start (p : Process Object) : (Loans.start p).below := by
  intro a ha
  cases ha

theorem Loans.below_insert {p : Process Object} {blocks : Ledger Nat Loan} {q : Nat} {l : Loan}
    (hq : q < p.heap.next) (hblocks : ∀ a, a ∈ blocks → a < p.heap.next) :
    Loans.below ⟨p, blocks.insert q l⟩ := by
  intro a ha
  rcases (AList.mem_insert _).mp ha with rfl | ha
  · exact hq
  · exact hblocks a ha

theorem LoanMove.below {op : LoanOp} {out : Option Nat} (h : LoanMove al s op out s')
    (hs : s.below) : s'.below := by
  cases h with
  | refused t hfails => exact hs
  | dropped hold hdrops => exact fun b hb => hs b (AList.mem_erase.mp hb).2
  | freedNull t => exact hs
  | lent hop hmem h =>
    have hnext := (AllocatorImpl.allocate_tables h).next
    obtain ⟨rfl, r, -, hu⟩ := AllocatorImpl.allocate_some h
    refine Loans.below_insert ?_ fun a ha => Nat.lt_of_lt_of_le (hs a ha) hnext
    rw [hu.next]
    exact Nat.lt_succ_self _
  | resized hold h =>
    have hnext := (AllocatorImpl.reAllocate_tables h).next
    obtain ⟨b, p₁, r, hb, hr, -, hu⟩ := AllocatorImpl.reAllocate_some h
    obtain ⟨b', hb', -⟩ := AllocatorImpl.resize_block hb hr
    refine Loans.below_insert ?_ fun c hc => ?_
    · rw [hu.next]
      exact Heap.lt_next hb'
    · exact Nat.lt_of_lt_of_le (hs c (AList.mem_erase.mp hc).2) hnext
  | returned hop hold h =>
    have hnext := (AllocatorImpl.free_tables h).next
    intro a ha
    exact Nat.lt_of_lt_of_le (hs a (AList.mem_erase.mp ha).2) hnext
  | constructed hold =>
    exact Loans.below_insert (hs _ (AList.lookup_isSome.mp (by rw [hold]; rfl))) hs

/-- A block that a call gives out was not given out before. -/
theorem LoanMove.fresh {t : Tid} {uSize : UInt64} {mem : Bool} {q : Nat} {p : Process Object}
    (hs : s.below) (h : al.allocate s.proc t uSize mem = .ok (some q, p)) : q ∉ s.blocks := by
  obtain ⟨rfl, -⟩ := AllocatorImpl.allocate_some h
  exact fun hq => Nat.lt_irrefl _ (hs _ hq)

/-- A block that was resized is the old one, or a new one. -/
theorem LoanMove.fresh_erase {t : Tid} {a q : Nat} {uSize : UInt64} {mem : Bool} {r : Realloc}
    {p : Process Object} (hs : s.below)
    (h : al.reAllocate s.proc t (some a) uSize mem r = .ok (some q, p)) :
    q ∉ s.blocks.erase a := by
  obtain ⟨b, p₁, -, -, hr, -⟩ := AllocatorImpl.reAllocate_some h
  intro hq
  obtain ⟨hne, hq⟩ := AList.mem_erase.mp hq
  rcases (AllocatorImpl.resize_some hr).2.1 with rfl | rfl
  · exact hne rfl
  · exact Nat.lt_irrefl _ (hs _ hq)

theorem asked_of_asks (w : UInt64 → Nat) {op : LoanOp} {t : Tid} {uSize : UInt64} {c : Option Tid}
    (h : op.asks = some (t, uSize, c)) : s.asked w op = w uSize + s.total w := by
  rcases LoanOp.asks_cases h with ⟨mem, rfl⟩ | ⟨mem, r, rfl⟩ | ⟨mem, rfl⟩
  · rfl
  · rfl
  · rfl

theorem asked_of_returns (w : UInt64 → Nat) {op : LoanOp} {t : Tid} {a : Nat}
    (h : op.returns = some (t, a)) : s.asked w op = (s.without a).total w := by
  rcases LoanOp.returns_cases h with rfl | rfl | rfl
  · rfl
  · rfl
  · rfl

theorem total_without_le (w : UInt64 → Nat) (s : Loans) (a : Nat) :
    (s.without a).total w ≤ s.total w := Ledger.total_erase_le _ _ a

/-- What is not a request adds nothing. -/
theorem asked_le (w : UInt64 → Nat) (s : Loans) {op : LoanOp} (h : op.requests = false) :
    s.asked w op ≤ s.total w := by
  cases op with
  | allocate t uSize mem => cases h
  | reAllocate t pMemory uSize mem r => cases h
  | newObject t sizeofT mem => cases h
  | free t pMemory =>
    cases pMemory with
    | none => exact Nat.le_refl _
    | some a => exact total_without_le w s a
  | constructed t a => exact Nat.le_refl _
  | threw t a => exact total_without_le w s a
  | deleteObject t a => exact total_without_le w s a

theorem after_of_fails (w : UInt64 → Nat) (s : Loans) {op : LoanOp} (h : op.fails) :
    s.after w op = s.total w := if_pos h

theorem after_of_drops (w : UInt64 → Nat) (s : Loans) {op : LoanOp} {a : Nat}
    (h : op.drops = some a) : s.after w op = (s.without a).total w := by
  simp only [Loans.after, if_neg (not_fails_of_drops h), h]

theorem after_of_granted (w : UInt64 → Nat) (s : Loans) {op : LoanOp} (hfails : ¬ op.fails)
    (hdrops : op.drops = none) : s.after w op = s.asked w op := by
  simp only [Loans.after, if_neg hfails, hdrops]

/-- **The total after a step.** -/
theorem LoanMove.total (w : UInt64 → Nat) {op : LoanOp} {out : Option Nat}
    (h : LoanMove al s op out s') (hs : s.below) : s'.total w = s.after w op := by
  cases h with
  | refused t hfails => exact (after_of_fails w s hfails).symm
  | dropped hold hdrops => exact (after_of_drops w s (drops_reAllocate hdrops)).symm
  | freedNull t => rfl
  | lent hop hmem h =>
    rw [after_of_granted w s hmem (drops_of_asks hop), asked_of_asks w hop]
    exact Ledger.total_insert_of_notMem _ (LoanMove.fresh hs h) _
  | @resized t a q old uSize mem r p hold h =>
    obtain ⟨hkeeps, hstays⟩ := AllocatorImpl.reAllocate_moves h
    have hgranted : ¬ (LoanOp.reAllocate t (some a) uSize mem r).fails := hkeeps
    rw [after_of_granted w s hgranted (stays_reAllocate hstays)]
    exact Ledger.total_insert_of_notMem _ (LoanMove.fresh_erase hs h) _
  | @returned op t a l p hop hold h =>
    have hkeeps : ¬ op.fails := fun hf => by
      have hreq := requests_of_fails hf
      rw [not_requests_of_returns hop] at hreq
      cases hreq
    rw [after_of_granted w s hkeeps (drops_of_returns hop), asked_of_returns w hop]
    rfl
  | @constructed t a uSize hold =>
    have hnew := Ledger.total_insert (fun l : Loan => w l.uSize) s.blocks a ⟨uSize, none⟩
    have hs := Ledger.total_erase (fun l : Loan => w l.uSize) hold
    have hgranted : ¬ (LoanOp.constructed t a).fails := not_false
    rw [after_of_granted w s hgranted rfl]
    exact hnew.trans hs.symm

end Steps

/-! ## `newObject` -/

section NewObject

variable {al : AllocatorImpl} {s s₁ s₂ s₃ : Loans} {t : Tid} {sizeofT : UInt64} {a : Nat}
  {construct : Nat → Process Object → Except Fault (Except String Unit × Process Object)}

/-- **`newObject` is its steps.** Its constructor takes the process on from where the first step
left it; then the second step is the end of the call. -/
theorem newObject_steps (h₁ : loanStep al s (.newObject t sizeofT true) = .ok (s₁, some a)) :
    (construct a s₁.proc = .ok (.ok (), s₂.proc) →
      loanStep al s₂ (.constructed t a) = .ok (s₃, some a) →
      IAllocator.newObject s.proc t al sizeofT true construct = .ok (.ok (some a), s₃.proc)) ∧
    ∀ what, construct a s₁.proc = .ok (.error what, s₂.proc) →
      loanStep al s₂ (.threw t a) = .ok (s₃, none) →
      IAllocator.newObject s.proc t al sizeofT true construct = .ok (.error what, s₃.proc) := by
  obtain ⟨⟨q, p⟩, hq, h₁⟩ := bind_eq_ok.mp h₁
  have hq := ofFault_ok hq
  cases q with
  | none => cases h₁
  | some a' =>
    cases h₁
    constructor
    · intro hc h₃
      have hproc : s₃.proc = s₂.proc := by
        cases loanStep_moves h₃ with
        | constructed hold => rfl
        | lent hop => cases hop
      simp only [IAllocator.newObject, hq, hc, bind, Except.bind]
      rw [hproc]
      rfl
    · intro what hc h₃
      have hfree : al.free s₂.proc t (some a) = .ok s₃.proc := by
        cases loanStep_moves h₃ with
        | returned hop hold h =>
          cases hop
          exact h
        | refused t hfails => exact hfails.elim
      simp only [IAllocator.newObject, hq, hc, hfree, bind, Except.bind]
      rfl

end NewObject

end Lldk
