import Lldk.Base.Allocator

/-!
Programs that use the allocators, and the error code of their threads.

* `Api` is the library, the blocks that the program holds and its other `LldkThreadLocal`
  objects; `apiStep` runs one call on any thread. What the program may not pass (a block it does
  not hold, an allocator that is not registered) is a fault of the program.
* `ApiMove` says once what a call can do (`apiStep_moves`).
* `failed`: the call returned null or -1, was given a pointer that it rejects, or threw.
* `keepsErrorCode_of_not_destroys`: the one call that succeeds and still sets the error code of its
  thread is `lldkDestroyAllocator`; `error_codes_iff` is the run.
-/

namespace Lldk

open Lib Lib.Trace Process

/-! ## Programs -/

structure Api where
  lib : Library
  /-- The blocks the program holds, with the allocator they came from, or none for
  `__lldkAllocate`. -/
  blocks : List (Option Nat × Nat)
  objs : Nat → Option LldkThreadLocal

inductive ApiOp
  | create (t : Tid) (pName : Option String) (uMaxSizeMB : UInt64) (env : CallEnv)
  | destroy (t : Tid) (pAllocator : Option Nat) (env : CallEnv)
  | getSingleton (t : Tid) (env : CallEnv)
  | allocate (t : Tid) (a : Nat) (uSize : UInt64) (mem : Bool)
  | free (t : Tid) (a : Nat) (pMemory : Option Nat)
  | reAllocate (t : Tid) (a : Nat) (pMemory : Option Nat) (uSize : UInt64) (mem : Bool)
      (r : Realloc)
  | getAllocateStats (t : Tid) (a : Nat) (pAllocateStats : Option (List AllocateStats))
      (pThreadCount : Option UInt32)
  | lldkAllocate (t : Tid) (uSize : UInt64) (mem : Bool)
  | lldkFree (t : Tid) (pMemory : Option Nat)
  /-- another `LldkThreadLocal` object of the program, called `o` -/
  | constructThreadLocal (t : Tid) (o : Nat) (T : ObjectType Object) (env : Env)
  | destroyThreadLocal (t : Tid) (o : Nat)

inductive ApiOut
  | unit
  | ptr (q : Option Nat)
  | stats (rc : Int) (buf : Option (List AllocateStats)) (uThreadCount : Option UInt32)
  | threw (what : String)
  deriving DecidableEq, Repr

inductive ApiFault
  | library (f : Fault)
  /-- neither the singleton nor a registered allocator -/
  | badAllocator (a : Nat)
  /-- not a block that the program holds -/
  | badBlock (a : Nat)
  | badObject (o : Nat)
  deriving DecidableEq, Repr

/-- `a` is the singleton or a registered allocator. -/
def Library.knows (l : Library) (a : Nat) : Prop :=
  l.s_pAllocator = some a ∨ a ∈ l.s_pAllocatorMap.map Prod.snd

instance (l : Library) (a : Nat) : Decidable (l.knows a) :=
  inferInstanceAs (Decidable (_ ∨ _))

namespace Api

def init : Api := ⟨.init, [], fun _ => none⟩

/-- The result of a call of `lldkCreateAllocator` or `lldkGetAllocatorSingleton`. -/
def returned (s : Api) (r : Except String (Option Nat) × Library) : Api × ApiOut :=
  match r with
  | (.ok q, l) => ({ s with lib := l }, .ptr q)
  | (.error what, l) => ({ s with lib := l }, .threw what)

/-- The program holds the block that a call returned, if there is one. -/
def holding (s : Api) (p : Process Object) (owner q : Option Nat)
    (blocks : List (Option Nat × Nat)) : Api × ApiOut :=
  match q with
  | some a => ({ s with lib := s.lib.withProc p, blocks := (owner, a) :: blocks }, .ptr q)
  | none => ({ s with lib := s.lib.withProc p }, .ptr none)

/-- The program gave the block back. -/
def gaveBack (s : Api) (p : Process Object) (e : Option Nat × Nat) : Api × ApiOut :=
  ({ s with lib := s.lib.withProc p, blocks := s.blocks.erase e }, .unit)

/-- A block that `realloc` released on its way to null is no longer the program's. -/
def afterRealloc (s : Api) (e : Option Nat × Nat) (uSize : UInt64) (r : Realloc) : Api :=
  if r.drops uSize then { s with blocks := s.blocks.erase e } else s

/-- A member function of the allocator at `a`. -/
def onAllocator (s : Api) (a : Nat) (f : AllocatorImpl → Except ApiFault (Api × ApiOut)) :
    Except ApiFault (Api × ApiOut) :=
  if s.lib.knows a then
    match s.lib.proc.readAllocator a with
    | some al => f al
    | none => .error (.library (.deadObject a))
  else .error (.badAllocator a)

end Api

/-- A fault of the library. -/
def ofLibrary {α : Type} : Except Fault α → Except ApiFault α
  | .ok r => .ok r
  | .error f => .error (.library f)

def apiStep : Step Api ApiOp ApiOut ApiFault
  | s, .create t pName uMaxSizeMB env => do
    let r ← ofLibrary (s.lib.lldkCreateAllocator t pName uMaxSizeMB env)
    return s.returned r
  | s, .destroy t pAllocator env =>
    if ∀ a ∈ pAllocator, s.lib.knows a then do
      match ← ofLibrary (s.lib.lldkDestroyAllocator t pAllocator env) with
      | (.ok (), l) => return ({ s with lib := l }, .unit)
      | (.error what, l) => return ({ s with lib := l }, .threw what)
    else .error (.badAllocator (pAllocator.getD 0))
  | s, .getSingleton t env => do
    let r ← ofLibrary (s.lib.lldkGetAllocatorSingleton t env)
    return s.returned r
  | s, .allocate t a uSize mem =>
    s.onAllocator a fun al => do
      let (q, p) ← ofLibrary (al.allocate s.lib.proc t uSize mem)
      return s.holding p (some a) q s.blocks
  | s, .free t a none =>
    s.onAllocator a fun al => do
      let p ← ofLibrary (al.free s.lib.proc t none)
      return ({ s with lib := s.lib.withProc p }, .unit)
  | s, .free t a (some b) =>
    if (some a, b) ∈ s.blocks then
      s.onAllocator a fun al => do
        let p ← ofLibrary (al.free s.lib.proc t (some b))
        return s.gaveBack p (some a, b)
    else .error (.badBlock b)
  | s, .reAllocate t a none uSize mem r =>
    s.onAllocator a fun al => do
      let (q, p) ← ofLibrary (al.reAllocate s.lib.proc t none uSize mem r)
      return s.holding p (some a) q s.blocks
  | s, .reAllocate t a (some b) uSize mem r =>
    if (some a, b) ∈ s.blocks then
      s.onAllocator a fun al => do
        let (q, p) ← ofLibrary (al.reAllocate s.lib.proc t (some b) uSize mem r)
        return (s.afterRealloc (some a, b) uSize r).holding p (some a) q
          (s.blocks.erase (some a, b))
    else .error (.badBlock b)
  | s, .getAllocateStats t a pAllocateStats pThreadCount =>
    s.onAllocator a fun al => do
      let (rc, buf, n, p) ←
        ofLibrary (al.getAllocateStats s.lib.proc t pAllocateStats pThreadCount)
      return ({ s with lib := s.lib.withProc p }, .stats rc buf n)
  | s, .lldkAllocate t uSize mem =>
    let (q, p) := s.lib.proc.lldkAllocate t uSize mem
    .ok (s.holding p none q s.blocks)
  | s, .lldkFree t none => do
    let p ← ofLibrary (s.lib.proc.lldkFree t none)
    return ({ s with lib := s.lib.withProc p }, .unit)
  | s, .lldkFree t (some b) =>
    if (none, b) ∈ s.blocks then do
      let p ← ofLibrary (s.lib.proc.lldkFree t (some b))
      return s.gaveBack p (none, b)
    else .error (.badBlock b)
  | s, .constructThreadLocal t o T env =>
    match s.objs o with
    | some _ => .error (.badObject o)
    | none => do
      match ← ofLibrary (LldkThreadLocal.construct T s.lib.proc t env) with
      | (.object obj _, p) =>
        return ({ s with lib := s.lib.withProc p, objs := Function.update s.objs o (some obj) },
          .unit)
      | (.threw what, p) => return ({ s with lib := s.lib.withProc p }, .threw what)
  | s, .destroyThreadLocal t o =>
    match s.objs o with
    | none => .error (.badObject o)
    | some obj => do
      let p ← ofLibrary (obj.destruct s.lib.proc t)
      return ({ s with lib := s.lib.withProc p, objs := Function.update s.objs o none }, .unit)

/-! ## Calls that fail -/

namespace ApiOp

/-- The calling thread. -/
def tid : ApiOp → Tid
  | create t .. => t
  | destroy t .. => t
  | getSingleton t .. => t
  | allocate t .. => t
  | free t .. => t
  | reAllocate t .. => t
  | getAllocateStats t .. => t
  | lldkAllocate t .. => t
  | lldkFree t .. => t
  | constructThreadLocal t .. => t
  | destroyThreadLocal t .. => t

/-- A call of the allocator API. -/
def ofAllocators : ApiOp → Prop
  | constructThreadLocal .. => False
  | destroyThreadLocal .. => False
  | _ => True

end ApiOp

/-- The registry holds `a` under the name of `a`. -/
def Library.registered (l : Library) (a : Nat) : Prop :=
  ∃ al, l.proc.readAllocator a = some al ∧ l.find al.getName = some a

instance (l : Library) (a : Nat) : Decidable (l.registered a) :=
  decidable_of_iff ((l.proc.readAllocator a).any fun al => l.find al.getName = some a) (by
    unfold Library.registered
    cases l.proc.readAllocator a <;> simp)

namespace Api

def errorCode (s : Api) (t : Tid) : ErrorCode := s.lib.proc.s_eErrorCode t

/-- The call is given a pointer that it rejects. -/
def rejects (s : Api) : ApiOp → Prop
  | .destroy _ none _ => True
  | .destroy _ (some a) _ => ¬ s.lib.registered a
  | .free _ _ none => True
  | .lldkFree _ none => True
  | _ => False

/-- The call fails, or throws. -/
def failed (s : Api) (op : ApiOp) (out : ApiOut) : Prop :=
  out = .ptr none ∨ (∃ what, out = .threw what) ∨ (∃ buf n, out = .stats (-1) buf n) ∨
    s.rejects op

/-- A call that does not fail leaves the error code of its thread. -/
def keepsErrorCode (s : Api) (op : ApiOp) : Prop :=
  op.ofAllocators → ∀ s' out, apiStep s op = .ok (s', out) → ¬ s.failed op out →
    s'.errorCode op.tid = s.errorCode op.tid

/-- The call destroys an allocator. -/
def destroysRegistered (s : Api) : ApiOp → Prop
  | .destroy _ (some a) env => env.keyMem = true ∧ s.lib.registered a
  | _ => False

instance (s : Api) (op : ApiOp) : Decidable (s.destroysRegistered op) :=
  match op with
  | .destroy _ (some _) env => inferInstanceAs (Decidable (env.keyMem = true ∧ _))
  | .destroy _ none _ => isFalse id
  | .create .. => isFalse id
  | .getSingleton .. => isFalse id
  | .allocate .. => isFalse id
  | .free .. => isFalse id
  | .reAllocate .. => isFalse id
  | .getAllocateStats .. => isFalse id
  | .lldkAllocate .. => isFalse id
  | .lldkFree .. => isFalse id
  | .constructThreadLocal .. => isFalse id
  | .destroyThreadLocal .. => isFalse id

/-- A thread that destroys an allocator has the error code already that the call sets. -/
def destroysOnInvalidParam (s : Api) (op : ApiOp) : Prop :=
  s.destroysRegistered op → s.errorCode op.tid = .kInvalidParam

instance (s : Api) (op : ApiOp) : Decidable (s.destroysOnInvalidParam op) :=
  inferInstanceAs (Decidable (_ → _))

end Api

/-! ## The error codes of the parts -/

namespace Process

theorem codes_newAllocator {p p' : Process Object} {t : Tid} {name : String} {env : CallEnv}
    {a : Nat} (h : p.newAllocator t name env = .ok (.ok a, p')) :
    p'.s_eErrorCode = p.s_eErrorCode := by
  cases hmem : env.objectMem with
  | false => simp [newAllocator, hmem] at h
  | true =>
    simp only [newAllocator, hmem, if_true] at h
    obtain ⟨⟨r, p₁⟩, hc, h⟩ := bind_eq_ok.mp h
    cases r with
    | error what => cases h
    | ok al =>
      cases h
      obtain ⟨b, hc⟩ := AllocatorImpl.construct_ok hc
      exact (LldkThreadLocal.construct_booked statsType hc).s_eErrorCode

/-- `init` has no way to fail. -/
theorem codes_initAllocator {p p' : Process Object} {a : Nat} {uMaxSizeMB : UInt64} {rc : Int}
    (h : p.initAllocator a uMaxSizeMB = .ok (rc, p')) :
    rc = 0 ∧ p'.s_eErrorCode = p.s_eErrorCode := by
  cases hal : p.readAllocator a with
  | none => simp [initAllocator, hal] at h
  | some al =>
    simp only [initAllocator, hal] at h
    cases h
    exact ⟨rfl, rfl⟩

/-- A callback that always returns 0 is called to the end. -/
theorem foreachLoop_quiet {σ : Type} {tables : Tid → Option SlotTable} {i : Nat}
    {func : σ → Nat → σ × Int} (hfunc : ∀ s a, (func s a).2 = 0) {s : σ} {ts : List Tid}
    {r : Bool × σ} (h : foreachLoop tables i func s ts = .ok r) : r.1 = true := by
  induction ts generalizing s with
  | nil =>
    cases h
    rfl
  | cons t ts ih =>
    cases ht : tables t with
    | none =>
      simp only [foreachLoop, ht] at h
      exact ih h
    | some table =>
      simp only [foreachLoop, ht] at h
      split at h
      · cases hs : table.slots i with
        | none =>
          simp only [hs] at h
          exact ih h
        | some a =>
          simp only [hs, hfunc s a, ne_eq, not_true_eq_false, if_false] at h
          exact ih h
      · cases h

end Process

namespace AllocatorImpl

theorem codes_newObject {p p' : Process Object} {t : Tid} {self : AllocatorImpl} {name : String}
    {env : CallEnv} {a : Nat} (h : self.newObject p t name env = .ok (.ok (some a), p')) :
    p'.s_eErrorCode = p.s_eErrorCode := by
  obtain ⟨⟨q, p₁⟩, hq, h⟩ := bind_eq_ok.mp h
  cases q with
  | none => cases h
  | some b =>
    obtain ⟨⟨r, p₂⟩, hc, h⟩ := bind_eq_ok.mp h
    cases r with
    | error what =>
      obtain ⟨p₃, -, h⟩ := bind_eq_ok.mp h
      cases h
    | ok al =>
      cases h
      obtain ⟨c, hc⟩ := construct_ok hc
      exact (LldkThreadLocal.construct_booked statsType hc).s_eErrorCode.trans
        (sameBooks_allocate hq).s_eErrorCode

theorem collect_zero (p : Process Object) (m : Nat) (s : Except Fault (Nat × List AllocateStats))
    (a : Nat) : (collect p m s a).2 = 0 := by
  unfold collect
  split
  · rfl
  · split
    · split <;> rfl
    · rfl

/-- `getAllocateStats` reads only, or returns -1 and sets the error code. -/
theorem getAllocateStats_ok {p p' : Process Object} {t : Tid} {self : AllocatorImpl}
    {buf buf' : Option (List AllocateStats)} {n n' : Option UInt32} {rc : Int}
    (h : self.getAllocateStats p t buf n = .ok (rc, buf', n', p')) :
    p' = p ∨ rc = -1 ∧ p' = p.lldkSetErrorCode t .kInvalidParam := by
  unfold getAllocateStats at h
  split at h
  · rename_i b m
    refine Or.inl ?_
    have hquiet : ∀ {r s'} {q : Process Object}, self.m_allocatorThreadLocal.foreach p t
        (some (collect p m.toNat)) (.ok (0, b)) = .ok (r, s', q) → q = p := by
      intro r s' q hf
      by_cases hid : self.m_allocatorThreadLocal.m_uInstanceId = kInvalidInstanceId
      · simp only [LldkThreadLocal.foreach, hid, ne_eq, not_true_eq_false, if_false] at hf
        cases hf
        rfl
      · simp only [LldkThreadLocal.foreach, ne_eq, hid, not_false_eq_true, if_true,
          Process.foreach] at hf
        rcases hl : foreachLoop p.s_ppInstances self.m_allocatorThreadLocal.m_uInstanceId
          (collect p m.toNat) (.ok (0, b)) p.s_vecpppInstances with f | ⟨e, s₁⟩
        · simp [hl] at hf
        · have he : e = true := foreachLoop_quiet (collect_zero p m.toNat) hl
          subst he
          simp only [hl] at hf
          cases hf
          rfl
    split at h
    · cases h
    · cases h
    · rename_i hf
      cases h
      exact hquiet hf
  · cases h
    exact Or.inr ⟨rfl, rfl⟩

end AllocatorImpl

namespace Library

variable {l l' : Library} {t : Tid} {env : CallEnv}

theorem codes_getSingleton {q : Option Nat}
    (h : l.lldkGetAllocatorSingleton t env = .ok (.ok q, l')) :
    l'.proc.s_eErrorCode = l.proc.s_eErrorCode ∧ l'.s_pAllocatorMap = l.s_pAllocatorMap ∧
      ∃ s, q = some s := by
  unfold lldkGetAllocatorSingleton at h
  cases hs : l.s_pAllocator with
  | some s =>
    simp only [hs] at h
    cases h
    exact ⟨rfl, rfl, s, rfl⟩
  | none =>
    simp only [hs] at h
    obtain ⟨⟨r, p⟩, hn, h⟩ := bind_eq_ok.mp h
    cases r with
    | error what => cases h
    | ok a =>
      obtain ⟨⟨rc, p₁⟩, hi, h⟩ := bind_eq_ok.mp h
      obtain ⟨rfl, hcodes⟩ := codes_initAllocator hi
      cases h
      exact ⟨hcodes.trans (codes_newAllocator hn), rfl, a, rfl⟩

theorem codes_createObject {pName : String} {uMaxSizeMB : UInt64} {a : Nat}
    (h : l.createObject t pName uMaxSizeMB env = .ok (.ok (some a), l')) :
    l'.proc.s_eErrorCode = l.proc.s_eErrorCode ∧ l'.s_pAllocatorMap = l.s_pAllocatorMap := by
  obtain ⟨⟨r, l₁⟩, hs, h⟩ := bind_eq_ok.mp h
  cases r with
  | error what => cases h
  | ok q =>
    obtain ⟨hcodes, hmap, s, rfl⟩ := codes_getSingleton hs
    cases hal : l₁.proc.readAllocator s with
    | none => simp [hal] at h
    | some al =>
      simp only [hal] at h
      obtain ⟨⟨r, p⟩, hn, h⟩ := bind_eq_ok.mp h
      cases r with
      | error what => cases h
      | ok q =>
        cases q with
        | none => cases h
        | some b =>
          obtain ⟨⟨rc, p₁⟩, hi, h⟩ := bind_eq_ok.mp h
          obtain ⟨rfl, hcodes₁⟩ := codes_initAllocator hi
          cases h
          exact ⟨hcodes₁.trans ((AllocatorImpl.codes_newObject hn).trans hcodes), hmap⟩

/-- A call of `lldkCreateAllocator` that returns an allocator: the name is still free when the
second critical section looks for it. -/
theorem codes_create {pName : Option String} {uMaxSizeMB : UInt64} {a : Nat}
    (h : l.lldkCreateAllocator t pName uMaxSizeMB env = .ok (.ok (some a), l')) :
    l'.proc.s_eErrorCode = l.proc.s_eErrorCode := by
  cases lldkCreateAllocator_moves h with
  | stopped hkey hfind ho hr => exact absurd rfl (hr a)
  | @made n b q l₁ l' hkey hfind ho hemplace =>
    obtain ⟨hcodes, hmap⟩ := codes_createObject ho
    have hfree : l₁.find n = none := by
      unfold find
      rw [hmap]
      exact hfind
    cases hemplace with
    | there hnode hthere hd =>
      rw [hfree] at hthere
      cases hthere
    | added hnode hfind hrehash => exact hcodes

/-- `lldkDestroyAllocator` of a registered allocator sets the error code all the same. -/
theorem codes_destroy {a : Nat} {r : Except String Unit}
    (h : l.lldkDestroyAllocator t (some a) env = .ok (r, l')) (hkey : env.keyMem = true) :
    l'.proc.s_eErrorCode t = .kInvalidParam := by
  cases lldkDestroyAllocator_moves h with
  | refused hno => exact Function.update_self ..
  | noKey hno =>
    rw [hkey] at hno
    cases hno
  | deleted hkey hal hfind hd => exact Function.update_self ..

end Library

/-! ## What a call does -/

theorem ofLibrary_ok {α : Type} {x : Except Fault α} {r : α} (h : ofLibrary x = .ok r) :
    x = .ok r := by
  cases x with
  | error f => cases h
  | ok q =>
    cases h
    rfl

namespace ApiOp

/-- The calls that may change the registry or construct the singleton. -/
def ofRegistry : ApiOp → Prop
  | .create .. => True
  | .destroy .. => True
  | .getSingleton .. => True
  | _ => False

/-- The thread and the allocator that are asked for a new block, its size, and whether there is
memory. -/
def asks : ApiOp → Option (Tid × Nat × UInt64 × Bool)
  | allocate t a uSize mem => some (t, a, uSize, mem)
  | reAllocate t a none uSize mem _ => some (t, a, uSize, mem)
  | _ => none

end ApiOp

namespace Api

/-- What a call can do that leaves the registry. -/
inductive CallMove (s : Api) : ApiOp → ApiOut → Api → Prop
  | refused {op : ApiOp} {out : ApiOut} (t : Tid) (e : ErrorCode) (hfails : s.failed op out) :
      CallMove s op out { s with lib := s.lib.lldkSetErrorCode t e }
  | looked {t : Tid} {a : Nat} {pAllocateStats : Option (List AllocateStats)}
      {pThreadCount : Option UInt32} (out : ApiOut) :
      CallMove s (.getAllocateStats t a pAllocateStats pThreadCount) out s
  | allocated {op : ApiOp} {t : Tid} {a b : Nat} {uSize : UInt64} {mem : Bool}
      {al : AllocatorImpl} {p : Process Object} (hop : op.asks = some (t, a, uSize, mem))
      (hal : s.lib.proc.readAllocator a = some al)
      (h : al.allocate s.lib.proc t uSize mem = .ok (some b, p)) :
      CallMove s op (.ptr (some b))
        { s with lib := s.lib.withProc p, blocks := (some a, b) :: s.blocks }
  | resized {t : Tid} {a b q : Nat} {uSize : UInt64} {mem : Bool} {r : Realloc}
      {al : AllocatorImpl} {p : Process Object} (hb : (some a, b) ∈ s.blocks)
      (hal : s.lib.proc.readAllocator a = some al)
      (h : al.reAllocate s.lib.proc t (some b) uSize mem r = .ok (some q, p)) :
      CallMove s (.reAllocate t a (some b) uSize mem r) (.ptr (some q))
        { s with
          lib := s.lib.withProc p
          blocks := (some a, q) :: s.blocks.erase (some a, b) }
  | dropped {t : Tid} {a b : Nat} {uSize : UInt64} {mem : Bool} {r : Realloc}
      (hb : (some a, b) ∈ s.blocks) (hdrops : r.drops uSize) :
      CallMove s (.reAllocate t a (some b) uSize mem r) (.ptr none)
        { s with
          lib := s.lib.withProc ((s.lib.proc.freeBlock b).lldkSetErrorCode t .kNoMemory)
          blocks := s.blocks.erase (some a, b) }
  | freed {t : Tid} {a b : Nat} {al : AllocatorImpl} {p : Process Object}
      (hb : (some a, b) ∈ s.blocks) (hal : s.lib.proc.readAllocator a = some al)
      (h : al.free s.lib.proc t (some b) = .ok p) :
      CallMove s (.free t a (some b)) .unit
        { s with lib := s.lib.withProc p, blocks := s.blocks.erase (some a, b) }
  | lldkAllocated {t : Tid} {uSize : UInt64} :
      CallMove s (.lldkAllocate t uSize true) (.ptr (some s.lib.proc.heap.next))
        { s with
          lib := s.lib.withProc (s.lib.proc.lldkAllocate t uSize true).2
          blocks := (none, s.lib.proc.heap.next) :: s.blocks }
  | lldkFreed {t : Tid} {b : Nat} {p : Process Object} (hb : (none, b) ∈ s.blocks)
      (h : s.lib.proc.lldkFree t (some b) = .ok p) :
      CallMove s (.lldkFree t (some b)) .unit
        { s with lib := s.lib.withProc p, blocks := s.blocks.erase (none, b) }
  | constructed {t : Tid} {o a : Nat} {T : ObjectType Object} {env : Env} {obj : LldkThreadLocal}
      {p : Process Object} (ho : s.objs o = none)
      (h : LldkThreadLocal.construct T s.lib.proc t env = .ok (.object obj a, p)) :
      CallMove s (.constructThreadLocal t o T env) .unit
        { s with lib := s.lib.withProc p, objs := Function.update s.objs o (some obj) }
  | threw {t : Tid} {o : Nat} {T : ObjectType Object} {env : Env} {what : String}
      {p : Process Object} (ho : s.objs o = none)
      (h : LldkThreadLocal.construct T s.lib.proc t env = .ok (.threw what, p)) :
      CallMove s (.constructThreadLocal t o T env) (.threw what)
        { s with lib := s.lib.withProc p }
  | destructed {t : Tid} {o : Nat} {obj : LldkThreadLocal} {p : Process Object}
      (ho : s.objs o = some obj) (h : obj.destruct s.lib.proc t = .ok p) :
      CallMove s (.destroyThreadLocal t o) .unit
        { s with lib := s.lib.withProc p, objs := Function.update s.objs o none }

/-- **What a call can do.** -/
inductive ApiMove (s : Api) : ApiOp → ApiOut → Api → Prop
  | created {t : Tid} {pName : Option String} {uMaxSizeMB : UInt64} {env : CallEnv}
      {r : Except String (Option Nat)} {l : Library}
      (h : s.lib.lldkCreateAllocator t pName uMaxSizeMB env = .ok (r, l)) :
      ApiMove s (.create t pName uMaxSizeMB env) (s.returned (r, l)).2 { s with lib := l }
  | gotSingleton {t : Tid} {env : CallEnv} {r : Except String (Option Nat)} {l : Library}
      (h : s.lib.lldkGetAllocatorSingleton t env = .ok (r, l)) :
      ApiMove s (.getSingleton t env) (s.returned (r, l)).2 { s with lib := l }
  | destroyed {t : Tid} {q : Option Nat} {env : CallEnv} {l : Library}
      (h : s.lib.lldkDestroyAllocator t q env = .ok (.ok (), l)) :
      ApiMove s (.destroy t q env) .unit { s with lib := l }
  | destroyThrew {t : Tid} {q : Option Nat} {env : CallEnv} {what : String} {l : Library}
      (h : s.lib.lldkDestroyAllocator t q env = .ok (.error what, l)) :
      ApiMove s (.destroy t q env) (.threw what) { s with lib := l }
  | call {op : ApiOp} {out : ApiOut} {s' : Api} (hop : ¬ op.ofRegistry)
      (h : CallMove s op out s') : ApiMove s op out s'

variable {s s' : Api} {t : Tid} {out : ApiOut}

theorem onAllocator_ok {a : Nat} {f : AllocatorImpl → Except ApiFault (Api × ApiOut)}
    {r : Api × ApiOut} (h : s.onAllocator a f = .ok r) :
    ∃ al, s.lib.proc.readAllocator a = some al ∧ f al = .ok r := by
  unfold onAllocator at h
  split at h
  · cases hal : s.lib.proc.readAllocator a with
    | none => simp [hal] at h
    | some al =>
      simp only [hal] at h
      exact ⟨al, rfl, h⟩
  · cases h

theorem returned_eq (s : Api) (r : Except String (Option Nat)) (l : Library) :
    s.returned (r, l) = ({ s with lib := l }, (s.returned (r, l)).2) := by
  cases r <;> rfl

theorem allocate_moves {op : ApiOp} {a : Nat} {uSize : UInt64} {mem : Bool} {al : AllocatorImpl}
    {q : Option Nat} {p : Process Object} (hop : op.asks = some (t, a, uSize, mem))
    (hal : s.lib.proc.readAllocator a = some al)
    (hq : al.allocate s.lib.proc t uSize mem = .ok (q, p))
    (h : s.holding p (some a) q s.blocks = (s', out)) : CallMove s op out s' := by
  cases q with
  | none =>
    rw [AllocatorImpl.allocate_none hq] at h
    cases h
    exact .refused t .kNoMemory (Or.inl rfl)
  | some b =>
    cases h
    exact .allocated hop hal hq

theorem reAllocate_moves {a b : Nat} {uSize : UInt64} {mem : Bool} {r : Realloc}
    {al : AllocatorImpl} {q : Option Nat} {p : Process Object} (hb : (some a, b) ∈ s.blocks)
    (hal : s.lib.proc.readAllocator a = some al)
    (hq : al.reAllocate s.lib.proc t (some b) uSize mem r = .ok (q, p))
    (h : (s.afterRealloc (some a, b) uSize r).holding p (some a) q
      (s.blocks.erase (some a, b)) = (s', out)) :
    CallMove s (.reAllocate t a (some b) uSize mem r) out s' := by
  cases q with
  | none =>
    rcases AllocatorImpl.reAllocate_none hq with ⟨hrefuses, rfl⟩ | ⟨hdrops, rfl⟩
    · rw [afterRealloc, if_neg (Realloc.not_drops_of_refuses hrefuses)] at h
      cases h
      exact .refused t .kNoMemory (Or.inl rfl)
    · rw [afterRealloc, if_pos hdrops] at h
      cases h
      exact .dropped hb hdrops
  | some q =>
    rw [afterRealloc, if_neg (AllocatorImpl.reAllocate_moves hq).2] at h
    cases h
    exact .resized hb hal hq

theorem getAllocateStats_moves {a : Nat} {pAllocateStats : Option (List AllocateStats)}
    {pThreadCount : Option UInt32} {al : AllocatorImpl} {rc : Int}
    {buf : Option (List AllocateStats)} {n : Option UInt32} {p : Process Object}
    (hq : al.getAllocateStats s.lib.proc t pAllocateStats pThreadCount = .ok (rc, buf, n, p)) :
    CallMove s (.getAllocateStats t a pAllocateStats pThreadCount) (.stats rc buf n)
      { s with lib := s.lib.withProc p } := by
  rcases AllocatorImpl.getAllocateStats_ok hq with rfl | ⟨rfl, rfl⟩
  · exact .looked _
  · exact .refused t .kInvalidParam (Or.inr (Or.inr (Or.inl ⟨buf, n, rfl⟩)))

theorem constructThreadLocal_moves {o : Nat} {T : ObjectType Object} {env : Env}
    (h : apiStep s (.constructThreadLocal t o T env) = .ok (s', out)) :
    CallMove s (.constructThreadLocal t o T env) out s' := by
  simp only [apiStep] at h
  split at h
  · cases h
  · rename_i ho
    obtain ⟨⟨r, p⟩, hc, h⟩ := bind_eq_ok.mp h
    cases r with
    | object obj a =>
      cases h
      exact .constructed ho (ofLibrary_ok hc)
    | threw what =>
      cases h
      exact .threw ho (ofLibrary_ok hc)

theorem apiStep_moves {op : ApiOp} (h : apiStep s op = .ok (s', out)) : ApiMove s op out s' := by
  have hrejects : ∀ {op : ApiOp} (t : Tid), s.rejects op →
      CallMove s op .unit { s with lib := s.lib.lldkSetErrorCode t .kInvalidParam } :=
    fun t hr => .refused t .kInvalidParam (Or.inr (Or.inr (Or.inr hr)))
  cases op with
  | create t pName uMaxSizeMB env =>
    obtain ⟨⟨r, l⟩, hr, h⟩ := bind_eq_ok.mp h
    cases (returned_eq s r l).symm.trans (Except.ok.inj h)
    exact .created (ofLibrary_ok hr)
  | destroy t pAllocator env =>
    simp only [apiStep] at h
    split at h
    · obtain ⟨⟨r, l⟩, hr, h⟩ := bind_eq_ok.mp h
      cases r with
      | error what =>
        cases h
        exact .destroyThrew (ofLibrary_ok hr)
      | ok u =>
        cases h
        exact .destroyed (ofLibrary_ok hr)
    · cases h
  | getSingleton t env =>
    obtain ⟨⟨r, l⟩, hr, h⟩ := bind_eq_ok.mp h
    cases (returned_eq s r l).symm.trans (Except.ok.inj h)
    exact .gotSingleton (ofLibrary_ok hr)
  | allocate t a uSize mem =>
    obtain ⟨al, hal, h⟩ := onAllocator_ok h
    obtain ⟨⟨q, p⟩, hq, h⟩ := bind_eq_ok.mp h
    exact .call id (allocate_moves rfl hal (ofLibrary_ok hq) (Except.ok.inj h))
  | free t a pMemory =>
    cases pMemory with
    | none =>
      obtain ⟨al, -, h⟩ := onAllocator_ok h
      cases h
      exact .call id (hrejects t trivial)
    | some b =>
      simp only [apiStep] at h
      split at h
      · rename_i hb
        obtain ⟨al, hal, h⟩ := onAllocator_ok h
        obtain ⟨p, hp, h⟩ := bind_eq_ok.mp h
        cases h
        exact .call id (.freed hb hal (ofLibrary_ok hp))
      · cases h
  | reAllocate t a pMemory uSize mem r =>
    cases pMemory with
    | none =>
      obtain ⟨al, hal, h⟩ := onAllocator_ok h
      obtain ⟨⟨q, p⟩, hq, h⟩ := bind_eq_ok.mp h
      exact .call id (allocate_moves rfl hal (ofLibrary_ok hq) (Except.ok.inj h))
    | some b =>
      simp only [apiStep] at h
      split at h
      · rename_i hb
        obtain ⟨al, hal, h⟩ := onAllocator_ok h
        obtain ⟨⟨q, p⟩, hq, h⟩ := bind_eq_ok.mp h
        exact .call id (reAllocate_moves hb hal (ofLibrary_ok hq) (Except.ok.inj h))
      · cases h
  | getAllocateStats t a pAllocateStats pThreadCount =>
    obtain ⟨al, -, h⟩ := onAllocator_ok h
    obtain ⟨⟨rc, buf, n, p⟩, hq, h⟩ := bind_eq_ok.mp h
    cases h
    exact .call id (getAllocateStats_moves (ofLibrary_ok hq))
  | lldkAllocate t uSize mem =>
    cases mem with
    | false =>
      cases h
      exact .call id (.refused t .kNoMemory (Or.inl rfl))
    | true =>
      cases h
      exact .call id .lldkAllocated
  | lldkFree t pMemory =>
    cases pMemory with
    | none =>
      cases h
      exact .call id (hrejects t trivial)
    | some b =>
      simp only [apiStep] at h
      split at h
      · rename_i hb
        obtain ⟨p, hp, h⟩ := bind_eq_ok.mp h
        cases h
        exact .call id (.lldkFreed hb (ofLibrary_ok hp))
      · cases h
  | constructThreadLocal t o T env => exact .call id (constructThreadLocal_moves h)
  | destroyThreadLocal t o =>
    simp only [apiStep] at h
    split at h
    · cases h
    · rename_i obj ho
      obtain ⟨p, hd, h⟩ := bind_eq_ok.mp h
      cases h
      exact .call id (.destructed ho (ofLibrary_ok hd))

/-! ## The error code of a thread -/

/-- What holds of a call that returned an address holds of its step, or the step failed. -/
theorem returned_codes {op : ApiOp} {r : Except String (Option Nat)} {l : Library}
    (hr : ∀ a, r = .ok (some a) → l.proc.s_eErrorCode = s.lib.proc.s_eErrorCode)
    (hok : ¬ s.failed op (s.returned (r, l)).2) :
    l.proc.s_eErrorCode t = s.errorCode t := by
  rcases r with what | _ | a
  · exact absurd (Or.inr (Or.inl ⟨what, rfl⟩)) hok
  · exact absurd (Or.inl rfl) hok
  · exact congrFun (hr a rfl) t

theorem CallMove.codes {op : ApiOp} (hapi : op.ofAllocators) (h : CallMove s op out s')
    (hok : ¬ s.failed op out) : s'.errorCode t = s.errorCode t := by
  cases h with
  | refused t e hfails => exact absurd hfails hok
  | looked => rfl
  | allocated hop hal h => exact congrFun (AllocatorImpl.sameBooks_allocate h).s_eErrorCode t
  | resized hb hal h => exact congrFun (AllocatorImpl.sameBooks_reAllocate h).s_eErrorCode t
  | dropped hb hdrops => exact absurd (Or.inl rfl) hok
  | freed hb hal h => exact congrFun (AllocatorImpl.sameBooks_free h).s_eErrorCode t
  | lldkAllocated => rfl
  | lldkFreed hb h =>
    obtain ⟨block, -, rfl⟩ := lldkFree_ok h
    rfl
  | constructed ho h => exact hapi.elim
  | threw ho h => exact hapi.elim
  | destructed ho h => exact hapi.elim

/-- **Every call but one.** -/
theorem keepsErrorCode_of_not_destroys {op : ApiOp} (hop : ¬ s.destroysRegistered op) :
    s.keepsErrorCode op := by
  intro hapi s' out h hok
  cases apiStep_moves h with
  | created hc =>
    refine returned_codes (fun a he => ?_) hok
    subst he
    exact Library.codes_create hc
  | gotSingleton hg =>
    refine returned_codes (fun a he => ?_) hok
    subst he
    exact (Library.codes_getSingleton hg).1
  | @destroyed t q env l hd =>
    cases Library.lldkDestroyAllocator_moves hd with
    | refused hno =>
      refine absurd (Or.inr (Or.inr (Or.inr ?_))) hok
      cases q with
      | none => trivial
      | some a =>
        rintro ⟨al, hal, hfind⟩
        obtain ⟨-, al', hal', hne⟩ := hno a rfl
        rw [hal] at hal'
        cases hal'
        exact hne hfind
    | deleted hkey hal hfind hdel => exact absurd ⟨hkey, _, hal, hfind⟩ hop
  | destroyThrew hd => exact absurd (Or.inr (Or.inl ⟨_, rfl⟩)) hok
  | call hcall h => exact h.codes hapi hok

/-- A step that destroys an allocator returns, and sets the error code of its thread. -/
theorem destroysRegistered_ok {op : ApiOp} (hop : s.destroysRegistered op)
    (h : apiStep s op = .ok (s', out)) :
    op.ofAllocators ∧ ¬ s.failed op out ∧ s'.errorCode op.tid = .kInvalidParam := by
  cases apiStep_moves h with
  | created hc => exact hop.elim
  | gotSingleton hg => exact hop.elim
  | @destroyed t q env l hd =>
    cases q with
    | none => exact hop.elim
    | some a =>
      refine ⟨trivial, ?_, Library.codes_destroy hd hop.1⟩
      rintro (he | ⟨what, he⟩ | ⟨buf, n, he⟩ | hrej)
      · cases he
      · cases he
      · cases he
      · exact hrej hop.2
  | destroyThrew hd =>
    cases Library.lldkDestroyAllocator_moves hd with
    | noKey hkey =>
      have hno := hop.1
      rw [hkey] at hno
      cases hno
  | call hcall h =>
    cases op with
    | destroy t q env => exact absurd trivial hcall
    | _ => exact hop.elim

/-- A step that destroys no allocator, or on a thread whose code is the one that this sets, keeps
the code when it succeeds. -/
theorem keepsErrorCode_of_condition {op : ApiOp} (hc : s.destroysOnInvalidParam op) :
    s.keepsErrorCode op := by
  by_cases hop : s.destroysRegistered op
  · intro _ s' out h _
    rw [(destroysRegistered_ok hop h).2.2, hc hop]
  · exact keepsErrorCode_of_not_destroys hop

theorem condition_of_keepsErrorCode {op : ApiOp} (h : apiStep s op = .ok (s', out))
    (hk : s.keepsErrorCode op) : s.destroysOnInvalidParam op := by
  intro hop
  obtain ⟨hapi, hok, hcode⟩ := destroysRegistered_ok hop h
  rw [← hk hapi s' out h hok, hcode]

/-- **The error code over runs.** If whoever destroys an allocator has the code `kInvalidParam`
already, then no call that succeeds changes the code of its thread; and in a run that does not
fault, this is the only way. -/
theorem error_codes_iff (s : Api) (ops : List ApiOp) :
    (EachStep apiStep destroysOnInvalidParam s ops → EachStep apiStep keepsErrorCode s ops) ∧
      ∀ r, run apiStep s ops = .ok r → EachStep apiStep keepsErrorCode s ops →
        EachStep apiStep destroysOnInvalidParam s ops := by
  constructor
  · exact EachStep.mono fun s op hc => keepsErrorCode_of_condition hc
  · intro r hr hk
    refine ((eachStep_of_run hr).and hk).mono fun s op h => ?_
    obtain ⟨⟨⟨s', out⟩, hstep⟩, hkeeps⟩ := h
    exact condition_of_keepsErrorCode hstep hkeeps

/-- Thread 0 creates an allocator, and thread 2 has an object of its own. -/
def createdElsewhere : List ApiOp :=
  [.create 0 (some "a") 0 {}, .constructThreadLocal 2 0 statsType {}]

/-- A thread whose first destruction is refused has the code that the second one sets. -/
theorem error_codes_sample :
    EachStep apiStep keepsErrorCode .init
        (createdElsewhere ++ [.destroy 2 none {}, .destroy 2 (some 3) {}]) ∧
      EachStep apiStep destroysOnInvalidParam .init
        (createdElsewhere ++ [.destroy 2 none {}, .destroy 2 (some 3) {}]) := by
  have hrun : (run apiStep .init
      (createdElsewhere ++ [.destroy 2 none {}, .destroy 2 (some 3) {}])).isOk = true := by
    decide +kernel
  obtain ⟨r, hr⟩ := exists_of_isOk hrun
  have hk := (error_codes_iff .init
    (createdElsewhere ++ [.destroy 2 none {}, .destroy 2 (some 3) {}])).1 (by decide +kernel)
  exact ⟨hk, (error_codes_iff .init _).2 r hr hk⟩

/-- A thread without a storage of the allocator destroys it: no mutex is asked for twice, and the
code `kSuccess` gives way to another. -/
theorem destroying_sets_code :
    ¬ EachStep apiStep keepsErrorCode .init (createdElsewhere ++ [.destroy 2 (some 3) {}]) := by
  intro h
  have hcreated : (run apiStep .init createdElsewhere).toOption.any (fun r =>
      decide (r.1.destroysRegistered (.destroy 2 (some 3) {})) &&
        r.1.errorCode 2 = .kSuccess && (apiStep r.1 (.destroy 2 (some 3) {})).isOk) = true := by
    decide +kernel
  obtain ⟨⟨s, outs⟩, hrun, hs⟩ := exists_of_any hcreated
  simp only [Bool.and_eq_true, decide_eq_true_eq] at hs
  obtain ⟨⟨hdestroys, hcode⟩, hdestroy⟩ := hs
  obtain ⟨⟨s', out'⟩, hdestroy⟩ := exists_of_isOk hdestroy
  have hkeeps : s.keepsErrorCode (.destroy 2 (some 3) {}) := (h.after hrun).1
  have hinvalid : s.errorCode 2 = .kInvalidParam :=
    condition_of_keepsErrorCode hdestroy hkeeps hdestroys
  rw [hcode] at hinvalid
  cases hinvalid

end Api

end Lldk
