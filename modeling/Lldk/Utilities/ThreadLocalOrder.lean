import Mathlib.Data.List.Induction
import Lldk.Utilities.ThreadLocalForeach

/-!
`foreach` after any interleaving of stores.

* `storeMove`: `setThreadLocalStorage` of any number of threads, in the moves between which other
  threads run. `setThreadLocalStorage_moves`: a call whose moves follow one another is the function.
* `TablesOwned`: every table is in a block of its own, and that block is there.
* `Coherent` is the invariant: tables are registered once, each before its thread has stored
  anything, and slots hold what was stored last. `coherent_step` and `coherent_run` keep it.
* `stores_never_fault`: no interleaving reads or writes outside a table, or frees one twice.
* `foreach_in_registration_order`: the pointers a traversal passes to its callback.
-/

namespace Lldk

open Lib Lib.Trace Process

variable {β σ : Type}

/-! ## Stores of several threads -/

/-- Where a thread stands in `setThreadLocalStorage`. -/
inductive StorePhase
  | idle
  /-- its new table is there and not registered -/
  | created (uInstanceId a : Nat)
  /-- about to write its slot -/
  | ready (uInstanceId a : Nat)
  deriving DecidableEq, Repr

inductive StoreEvent
  | registered (t : Tid)
  | stored (t : Tid) (uInstanceId a : Nat)
  | failed (t : Tid)
  deriving DecidableEq, Repr

/-- The process, where its threads stand, and as history what their calls did. -/
structure Stores (β : Type) where
  proc : Process β
  phase : Tid → StorePhase
  history : List StoreEvent

/-- What one thread does without another thread in between: the call up to the new table, the
registration under `s_mutex`, and the write to its own slot. -/
inductive StoreMove
  | enter (t : Tid) (uInstanceId : Nat) (pStorage : Option Nat) (tableMem : Bool)
  | register (t : Tid) (pushMem : Bool)
  | write (t : Tid)
  deriving DecidableEq, Repr

inductive MoveFault
  | library (f : Fault)
  /-- the thread does not stand there -/
  | notThere (t : Tid)
  deriving DecidableEq, Repr

namespace Stores

/-- Before the first call. -/
def init : Stores β := ⟨.init, fun _ => .idle, []⟩

def goes (s : Stores β) (t : Tid) (phase : StorePhase) (p : Process β) : Stores β :=
  { s with proc := p, phase := Function.update s.phase t phase }

def note (s : Stores β) (e : StoreEvent) : Stores β := { s with history := s.history ++ [e] }

/-- The call of `t` returns -1. -/
def fails (s : Stores β) (t : Tid) (p : Process β) : Stores β :=
  (s.goes t .idle p).note (.failed t)

end Stores

/-- `s_vecpppInstances.push_back(s_ppInstances)` -/
def Process.pushTable (p : Process β) (t : Tid) : Process β :=
  { p with s_vecpppInstances := p.s_vecpppInstances ++ [t] }

/-- The `catch`: the table is released, and the thread has none again. -/
def Process.dropTable (p : Process β) (t : Tid) : Except Fault (Process β) :=
  match p.lldkFree t ((p.s_ppInstances t).map SlotTable.addr) with
  | .error f => .error f
  | .ok p =>
    .ok ({ p with s_ppInstances := Function.update p.s_ppInstances t none }.lldkSetErrorCode t
      .kThrowException)

/-- One move, and what the call returns if it ends with it. -/
def storeMove : Step (Stores β) StoreMove (Option Int) MoveFault
  | s, .enter t i pStorage tableMem =>
    match s.phase t, pStorage with
    | .idle, none => .ok (s.fails t (s.proc.lldkSetErrorCode t .kInvalidParam), some (-1))
    | .idle, some a =>
      if i = kInvalidInstanceId then
        .ok (s.fails t (s.proc.lldkSetErrorCode t .kInvalidParam), some (-1))
      else
        match s.proc.s_ppInstances t with
        | some _ => .ok (s.goes t (.ready i a) s.proc, none)
        | none =>
          match s.proc.lldkAllocate t tableSize tableMem with
          | (none, p) => .ok (s.fails t (p.lldkSetErrorCode t .kNoMemory), some (-1))
          | (some b, p) => .ok (s.goes t (.created i a) (p.withTable t ⟨b, fun _ => none⟩), none)
    | _, _ => .error (.notThere t)
  | s, .register t pushMem =>
    match s.phase t with
    | .created i a =>
      if pushMem then .ok ((s.goes t (.ready i a) (s.proc.pushTable t)).note (.registered t), none)
      else
        match s.proc.dropTable t with
        | .error f => .error (.library f)
        | .ok p => .ok (s.fails t p, some (-1))
    | _ => .error (.notThere t)
  | s, .write t =>
    match s.phase t with
    | .ready i a =>
      match s.proc.storeSlot t i a with
      | .error f => .error (.library f)
      | .ok p => .ok ((s.goes t .idle p).note (.stored t i a), some 0)
    | _ => .error (.notThere t)

def StoreMove.thread : StoreMove → Tid
  | .enter t _ _ _ => t
  | .register t _ => t
  | .write t => t

@[simp] theorem Stores.goes_proc (s : Stores β) (t : Tid) (ph : StorePhase) (p : Process β) :
    (s.goes t ph p).proc = p := rfl

@[simp] theorem Stores.goes_phase_self (s : Stores β) (t : Tid) (ph : StorePhase) (p : Process β) :
    (s.goes t ph p).phase t = ph := Function.update_self ..

@[simp] theorem Stores.note_proc (s : Stores β) (e : StoreEvent) : (s.note e).proc = s.proc := rfl

@[simp] theorem Stores.note_phase (s : Stores β) (e : StoreEvent) :
    (s.note e).phase = s.phase := rfl

/-- A thread that is back where it was. -/
theorem Stores.goes_goes_idle {s : Stores β} {t : Tid} (ht : s.phase t = .idle) (ph : StorePhase)
    (p q : Process β) : (s.goes t ph q).goes t .idle p = ⟨p, s.phase, s.history⟩ := by
  simp only [Stores.goes, Function.update_idem]
  rw [← ht, Function.update_eq_self]

theorem Stores.goes_idle {s : Stores β} {t : Tid} (ht : s.phase t = .idle) (p : Process β) :
    s.goes t .idle p = ⟨p, s.phase, s.history⟩ := by
  simp only [Stores.goes]
  rw [← ht, Function.update_eq_self]

/-- The drop of a table whose block is there. -/
theorem dropTable_live {p : Process β} {t : Tid} {table : SlotTable} {block : Block β}
    (ht : p.s_ppInstances t = some table) (hc : p.heap.cells table.addr = some block) :
    p.dropTable t = .ok ({ p.released table.addr block.uSize with
      s_ppInstances := Function.update p.s_ppInstances t none }.lldkSetErrorCode t
        .kThrowException) := by
  simp only [dropTable, ht, Option.map_some, lldkFree_live hc]
  rfl

/-- A table that could not be registered is gone without a trace in the tables. -/
theorem dropTable_next {p : Process β} {t : Tid} (ht : p.s_ppInstances t = none)
    (slots : Nat → Option Nat) :
    ((p.lldkAllocate t tableSize true).2.withTable t ⟨p.heap.next, slots⟩).dropTable t =
      .ok (((p.lldkAllocate t tableSize true).2.released p.heap.next tableSize).lldkSetErrorCode t
        .kThrowException) := by
  have htables : Function.update p.s_ppInstances t none = p.s_ppInstances := by
    rw [← ht, Function.update_eq_self]
  have hcell : ((p.lldkAllocate t tableSize true).2.withTable t
      ⟨p.heap.next, slots⟩).heap.cells p.heap.next =
        some ⟨tableSize + headerSize, tableSize, none⟩ := Heap.cells_alloc_self ..
  rw [dropTable_live (Function.update_self ..) hcell]
  simp only [withTable, Function.update_idem, lldkAllocate, mallocWithHeader, if_true, htables,
    released, freeBlock, Process.note]

/-- `moves` of thread `t` lead from `s` to where a call that returned `rc` and left `p'` is over:
the last of them returns `rc`, and the pointer is noted as stored iff it succeeded. -/
def Moves (s : Stores β) (t : Tid) (i : Nat) (pStorage : Option Nat) (rc : Int) (p' : Process β)
    (moves : List StoreMove) : Prop :=
  (∀ m, m ∈ moves → m.thread = t) ∧
    ∃ outs es, run storeMove s moves = .ok (⟨p', s.phase, s.history ++ es⟩, outs ++ [some rc]) ∧
      (∀ out ∈ outs, out = none) ∧ (rc = 0 ↔ ∃ a, pStorage = some a ∧ .stored t i a ∈ es)

/-- The first store of a thread. -/
theorem firstStore_moves {s : Stores β} {t : Tid} (ht : s.phase t = .idle)
    (htable : s.proc.s_ppInstances t = none) {i a : Nat} (hi : i ≠ kInvalidInstanceId) {env : Env}
    {rc : Int} {p' : Process β}
    (h : s.proc.setThreadLocalStorage t i (some a) env = .ok (rc, p')) :
    ∃ moves, Moves s t i (some a) rc p' moves := by
  cases hm : env.tableMem with
  | false =>
    simp only [setThreadLocalStorage, hi, if_false, htable, createInstances, lldkAllocate,
      mallocWithHeader, hm, Bool.false_eq_true] at h
    cases h
    refine ⟨[.enter t i (some a) false], by simp [StoreMove.thread], [], [.failed t], ?_, by simp,
      by simp⟩
    simp only [run, storeMove, ht, hi, if_false, htable, lldkAllocate, mallocWithHeader,
      Bool.false_eq_true, Stores.fails, Stores.goes_idle ht, Stores.note, List.nil_append]
  | true =>
    -- the table before its registration
    have henter : storeMove s (.enter t i (some a) true) = .ok (s.goes t (.created i a)
        ((s.proc.lldkAllocate t tableSize true).2.withTable t
          ⟨s.proc.heap.next, fun _ => none⟩), none) := by
      simp only [storeMove, ht, hi, if_false, htable, lldkAllocate, mallocWithHeader, if_true]
    cases hp : env.pushMem with
    | false =>
      have hdrop := dropTable_next htable fun _ => none
      have hcreate : s.proc.createInstances t env = .ok (false,
          ((s.proc.lldkAllocate t tableSize true).2.released s.proc.heap.next
            tableSize).lldkSetErrorCode t .kThrowException) := by
        rw [createInstances, hm, hp]
        show (match (s.proc.lldkAllocate t tableSize true).2.lldkFree t
            (some s.proc.heap.next) with
          | .error f => Except.error f
          | .ok p => .ok (false, p.lldkSetErrorCode t .kThrowException)) = _
        rw [lldkFree_next]
      simp only [setThreadLocalStorage, hi, if_false, htable, hcreate] at h
      cases h
      refine ⟨[.enter t i (some a) true, .register t false], by simp [StoreMove.thread], [none],
        [.failed t], ?_, by simp, by simp⟩
      rw [run_cons_ok henter]
      simp only [run, storeMove, Stores.goes_phase_self, Bool.false_eq_true, if_false,
        Stores.goes_proc, Stores.fails, hdrop, Stores.goes_goes_idle ht, Stores.note,
        List.singleton_append]
    | true =>
      have hcreate : s.proc.createInstances t env = .ok (true,
          ((s.proc.lldkAllocate t tableSize true).2.withTable t
            ⟨s.proc.heap.next, fun _ => none⟩).pushTable t) := by
        simp only [createInstances, hm, hp]
        rfl
      simp only [setThreadLocalStorage, hi, if_false, htable, hcreate] at h
      split at h
      · cases h
      · rename_i p₁ hs
        cases h
        refine ⟨[.enter t i (some a) true, .register t true, .write t], by simp [StoreMove.thread],
          [none, none], [.registered t, .stored t i a], ?_, by simp, by simp⟩
        rw [run_cons_ok henter]
        simp only [run, storeMove, Stores.goes_phase_self, if_true, Stores.goes_proc,
          Stores.note_phase, Stores.note_proc, hs]
        simp only [Stores.goes, Stores.note, Function.update_idem, List.append_assoc,
          List.cons_append, List.nil_append]
        rw [← ht, Function.update_eq_self]

/-- **The moves are the function.** What `setThreadLocalStorage` does, its thread can do in moves
of its own that follow one another. -/
theorem setThreadLocalStorage_moves {s : Stores β} {t : Tid} (ht : s.phase t = .idle) {i : Nat}
    {pStorage : Option Nat} {env : Env} {rc : Int} {p' : Process β}
    (h : s.proc.setThreadLocalStorage t i pStorage env = .ok (rc, p')) :
    ∃ moves, Moves s t i pStorage rc p' moves := by
  cases pStorage with
  | none =>
    cases h
    refine ⟨[.enter t i none env.tableMem], by simp [StoreMove.thread], [], [.failed t], ?_,
      by simp, by simp⟩
    simp only [run, storeMove, ht, Stores.fails, Stores.goes_idle ht, Stores.note,
      List.nil_append]
  | some a =>
    by_cases hi : i = kInvalidInstanceId
    · simp only [setThreadLocalStorage, hi, if_true] at h
      cases h
      refine ⟨[.enter t i (some a) env.tableMem], by simp [StoreMove.thread], [], [.failed t], ?_,
        by simp, by simp⟩
      simp only [run, storeMove, ht, hi, if_true, Stores.fails, Stores.goes_idle ht, Stores.note,
        List.nil_append]
    · cases htable : s.proc.s_ppInstances t with
      | none => exact firstStore_moves ht htable hi h
      | some table =>
        simp only [setThreadLocalStorage, hi, if_false, htable] at h
        split at h
        · cases h
        · rename_i p₁ hs
          cases h
          refine ⟨[.enter t i (some a) env.tableMem, .write t], by simp [StoreMove.thread],
            [none], [.stored t i a], ?_, by simp, by simp⟩
          simp only [run, storeMove, ht, hi, if_false, htable, Stores.goes_phase_self,
            Stores.goes_proc, hs, Stores.goes_goes_idle ht, Stores.note, List.singleton_append]

/-! ## What the history says -/

def StoreEvent.thread : StoreEvent → Tid
  | .registered t => t
  | .stored t _ _ => t
  | .failed t => t

/-- The threads whose tables were registered, in that order. -/
def registrations (es : List StoreEvent) : List Tid :=
  es.filterMap fun
    | .registered t => some t
    | _ => none

/-- Some call of `t` has succeeded. -/
def HasStored (es : List StoreEvent) (t : Tid) : Prop := ∃ i a, .stored t i a ∈ es

/-- What each thread stored last under each id. -/
def lastStored (es : List StoreEvent) : Tid → Nat → Option Nat :=
  es.foldl (fun cells e => match e with
    | .stored t i a => Function.update cells t (Function.update (cells t) i (some a))
    | _ => cells) fun _ _ => none

theorem registrations_concat (es : List StoreEvent) (e : StoreEvent) :
    registrations (es ++ [e]) = registrations es ++ registrations [e] :=
  List.filterMap_append ..

theorem mem_registrations_concat {es : List StoreEvent} {e : StoreEvent} {t : Tid} :
    t ∈ registrations (es ++ [e]) ↔ t ∈ registrations es ∨ e = .registered t := by
  rw [registrations_concat, List.mem_append]
  refine or_congr_right ?_
  cases e <;> simp [registrations, eq_comm]

theorem hasStored_concat {es : List StoreEvent} {e : StoreEvent} {t : Tid} :
    HasStored (es ++ [e]) t ↔ HasStored es t ∨ ∃ i a, e = .stored t i a := by
  simp only [HasStored, List.mem_append, List.mem_singleton, exists_or, eq_comm]

theorem lastStored_concat (es : List StoreEvent) (e : StoreEvent) :
    lastStored (es ++ [e]) = match e with
      | .stored t i a =>
        Function.update (lastStored es) t (Function.update (lastStored es t) i (some a))
      | _ => lastStored es := by
  rw [lastStored, List.foldl_append]
  cases e <;> rfl

theorem lastStored_eq_none {es : List StoreEvent} {t : Tid} (h : ¬ HasStored es t) (i : Nat) :
    lastStored es t i = none := by
  induction es using List.reverseRecOn with
  | nil => rfl
  | append_singleton es e ih =>
    rw [hasStored_concat, not_or] at h
    rw [lastStored_concat]
    cases e with
    | registered t' => exact ih h.1
    | failed t' => exact ih h.1
    | stored t' j a =>
      have hne : t ≠ t' := by
        rintro rfl
        exact h.2 ⟨j, a, rfl⟩
      simp only [Function.update_of_ne hne]
      exact ih h.1

/-! ## The tables in memory -/

/-- Every table is in a block of its own, and that block is there. -/
structure TablesOwned (p : Process β) : Prop where
  live : ∀ t table, p.s_ppInstances t = some table →
    ∃ block, p.heap.cells table.addr = some block
  apart : ∀ t t' table table', p.s_ppInstances t = some table → p.s_ppInstances t' = some table' →
    table.addr = table'.addr → t = t'

namespace TablesOwned

variable {p p' : Process β} {t : Tid}

theorem congr (h : TablesOwned p) (htables : p'.s_ppInstances = p.s_ppInstances)
    (hheap : p'.heap = p.heap) : TablesOwned p' := by
  constructor
  · rw [htables, hheap]
    exact h.live
  · rw [htables]
    exact h.apart

/-- A table of `p'` is one of `p`, or the one of `t` in a block that no table of `p` has. -/
theorem grown (h : TablesOwned p)
    (htables : ∀ t', t' ≠ t → p'.s_ppInstances t' = p.s_ppInstances t')
    (hself : ∀ table, p'.s_ppInstances t = some table →
      (∃ block, p'.heap.cells table.addr = some block) ∧
        ∀ t' table', t' ≠ t → p.s_ppInstances t' = some table' → table.addr ≠ table'.addr)
    (hblocks : ∀ t' table, t' ≠ t → p.s_ppInstances t' = some table →
      p'.heap.cells table.addr = p.heap.cells table.addr) : TablesOwned p' := by
  constructor
  · intro t' table ht'
    by_cases htt : t' = t
    · subst htt
      exact (hself table ht').1
    · rw [htables t' htt] at ht'
      rw [hblocks t' table htt ht']
      exact h.live t' table ht'
  · intro t' u table table' ht' hu he
    by_cases htt : t' = t
    · by_cases hut : u = t
      · exact htt.trans hut.symm
      · subst htt
        rw [htables u hut] at hu
        exact absurd he ((hself table ht').2 u table' hut hu)
    · rw [htables t' htt] at ht'
      by_cases hut : u = t
      · subst hut
        exact absurd he.symm ((hself table' hu).2 t' table htt ht')
      · rw [htables u hut] at hu
        exact h.apart t' u table table' ht' hu he

/-- A new table in a new block. -/
theorem created (h : TablesOwned p) (size : UInt64) (slots : Nat → Option Nat) :
    TablesOwned ((p.lldkAllocate t size true).2.withTable t ⟨p.heap.next, slots⟩) := by
  have hnew : ∀ t' table, p.s_ppInstances t' = some table → table.addr ≠ p.heap.next := by
    intro t' table ht'
    obtain ⟨block, hblock⟩ := h.live t' table ht'
    exact Nat.ne_of_lt (Heap.lt_next hblock)
  refine h.grown (t := t) (fun t' htt => Function.update_of_ne htt ..) (fun table ht => ?_)
    fun t' table _ ht' => Heap.cells_alloc_ne _ (hnew t' table ht')
  rw [withTable_self] at ht
  cases ht
  exact ⟨⟨_, Heap.cells_alloc_self ..⟩, fun t' table' _ ht' => (hnew t' table' ht').symm⟩

/-- A slot is written in a table that stays where it is. -/
theorem storeSlot (h : TablesOwned p) {i a : Nat} (hs : p.storeSlot t i a = .ok p') :
    TablesOwned p' := by
  cases ht : p.s_ppInstances t with
  | none => simp [Process.storeSlot, ht] at hs
  | some table =>
    simp only [Process.storeSlot, ht] at hs
    split at hs
    · cases hs
      refine h.grown (t := t) (fun t' htt => Function.update_of_ne htt ..) (fun table' ht' => ?_)
        fun _ _ _ _ => rfl
      rw [withTable_self] at ht'
      cases ht'
      exact ⟨h.live t table ht, fun t' table' htt ht' he => htt (h.apart t t' table table' ht ht'
        he).symm⟩
    · cases hs

/-- The drop of a table finds its block, and no other table goes. -/
theorem dropTable (h : TablesOwned p) (ht : p.hasTable t) :
    ∃ p', p.dropTable t = .ok p' ∧ TablesOwned p' ∧
      p'.s_ppInstances = Function.update p.s_ppInstances t none ∧
      p'.s_vecpppInstances = p.s_vecpppInstances := by
  obtain ⟨table, ht⟩ := ht
  obtain ⟨block, hblock⟩ := h.live t table ht
  refine ⟨_, dropTable_live ht hblock, h.grown (t := t)
    (fun t' htt => Function.update_of_ne htt ..) (fun table' ht' => ?_)
    fun t' table' htt ht' => ?_, rfl, rfl⟩
  · have hnone : Function.update p.s_ppInstances t none t = some table' := ht'
    rw [Function.update_self] at hnone
    cases hnone
  · have hne : table'.addr ≠ table.addr := fun he =>
      htt (h.apart t' t table' table ht' ht he)
    exact (released_spec p table.addr block.uSize).others _ hne

end TablesOwned

/-! ## The invariant -/

/-- What holds of thread `t` where it stands. -/
def Placed (s : Stores β) (t : Tid) : Prop :=
  match s.phase t with
  | .idle => (s.proc.hasTable t ↔ t ∈ registrations s.history) ∧
      (t ∈ registrations s.history ↔ HasStored s.history t)
  | .created _ _ => s.proc.hasTable t ∧ t ∉ registrations s.history ∧ ¬ HasStored s.history t
  | .ready _ _ => s.proc.hasTable t ∧ t ∈ registrations s.history

/-- Tables are registered once, each before its thread has stored anything, and slots hold what was
stored last. -/
structure Coherent (s : Stores β) : Prop where
  order : s.proc.s_vecpppInstances = registrations s.history
  nodup : (registrations s.history).Nodup
  first : s.history.Pairwise fun e e' => ∀ t i a, e = .stored t i a → e' ≠ .registered t
  slots : ∀ t i, s.proc.slot t i = lastStored s.history t i
  owned : TablesOwned s.proc
  placed : ∀ t, Placed s t

theorem coherent_init : Coherent (Stores.init : Stores β) where
  order := rfl
  nodup := List.nodup_nil
  first := List.Pairwise.nil
  slots := fun _ _ => rfl
  owned := ⟨fun _ _ ht => (nomatch ht), fun _ _ _ _ ht => (nomatch ht)⟩
  placed := fun t => by
    have hno : ¬ (Process.init : Process β).hasTable t := by
      rintro ⟨table, ht⟩
      cases ht
    refine ⟨⟨fun ht => absurd ht hno, fun hin => (nomatch hin)⟩, fun hin => (nomatch hin), ?_⟩
    rintro ⟨i, a, hin⟩
    cases hin

/-- What holds of a thread stays while another thread moves. -/
theorem Placed.frame {s s' : Stores β} {t t' : Tid} (h : Placed s t') (hne : t' ≠ t)
    (hphase : s'.phase t' = s.phase t') (htable : s'.proc.hasTable t' ↔ s.proc.hasTable t')
    (hhistory : s'.history = s.history ∨
      ∃ e, e.thread = t ∧ s'.history = s.history ++ [e]) : Placed s' t' := by
  have hreg : t' ∈ registrations s'.history ↔ t' ∈ registrations s.history := by
    rcases hhistory with he | ⟨e, rfl, he⟩
    · rw [he]
    · rw [he, mem_registrations_concat]
      refine or_iff_left ?_
      rintro rfl
      exact hne rfl
  have hst : HasStored s'.history t' ↔ HasStored s.history t' := by
    rcases hhistory with he | ⟨e, rfl, he⟩
    · rw [he]
    · rw [he, hasStored_concat]
      refine or_iff_left ?_
      rintro ⟨i, a, rfl⟩
      exact hne rfl
  unfold Placed at h ⊢
  simp only [hphase, htable, hreg, hst]
  exact h

variable {s : Stores β} {t : Tid}

theorem Coherent.of_idle (C : Coherent s) (h : s.phase t = .idle) :
    (s.proc.hasTable t ↔ t ∈ registrations s.history) ∧
      (t ∈ registrations s.history ↔ HasStored s.history t) := by
  have hp := C.placed t
  unfold Placed at hp
  rw [h] at hp
  exact hp

theorem Coherent.of_created (C : Coherent s) {i a : Nat} (h : s.phase t = .created i a) :
    s.proc.hasTable t ∧ t ∉ registrations s.history ∧ ¬ HasStored s.history t := by
  have hp := C.placed t
  unfold Placed at hp
  rw [h] at hp
  exact hp

theorem Coherent.of_ready (C : Coherent s) {i a : Nat} (h : s.phase t = .ready i a) :
    s.proc.hasTable t ∧ t ∈ registrations s.history := by
  have hp := C.placed t
  unfold Placed at hp
  rw [h] at hp
  exact hp

/-- Thread `t` has moved, and what holds where it stands now is shown. -/
theorem Coherent.placed_moved (C : Coherent s) {s' : Stores β} {ph : StorePhase}
    (hphase : s'.phase = Function.update s.phase t ph)
    (htables : ∀ t', t' ≠ t → (s'.proc.hasTable t' ↔ s.proc.hasTable t'))
    (hhistory : s'.history = s.history ∨ ∃ e, e.thread = t ∧ s'.history = s.history ++ [e])
    (hself : Placed s' t) (t' : Tid) : Placed s' t' := by
  by_cases htt : t' = t
  · subst htt
    exact hself
  · have hthere : s'.phase t' = s.phase t' := by rw [hphase, Function.update_of_ne htt]
    exact (C.placed t').frame htt hthere (htables t' htt) hhistory

/-- An event that is no registration comes after those before it. -/
theorem Coherent.quiet (C : Coherent s) {e : StoreEvent} (he : ∀ t', e ≠ .registered t') :
    registrations (s.history ++ [e]) = registrations s.history ∧
      (s.history ++ [e]).Pairwise fun e e' => ∀ t' i a, e = .stored t' i a →
        e' ≠ .registered t' := by
  constructor
  · rw [registrations_concat]
    cases e with
    | registered t' => exact absurd rfl (he t')
    | stored t' i a => exact List.append_nil _
    | failed t' => exact List.append_nil _
  · refine List.pairwise_append.mpr ⟨C.first, List.pairwise_singleton .., fun e' _ e'' he'' => ?_⟩
    rw [List.mem_singleton.mp he'']
    intro t' i a _
    exact he t'

/-- The call of `t` is over without a store. -/
theorem Coherent.fails (C : Coherent s) {p : Process β}
    (hregs : p.s_vecpppInstances = s.proc.s_vecpppInstances)
    (hslots : ∀ t' j, p.slot t' j = s.proc.slot t' j)
    (hothers : ∀ t', t' ≠ t → (p.hasTable t' ↔ s.proc.hasTable t')) (howned : TablesOwned p)
    (hself : (p.hasTable t ↔ t ∈ registrations s.history) ∧
      (t ∈ registrations s.history ↔ HasStored s.history t)) : Coherent (s.fails t p) := by
  obtain ⟨hreg, hfirst⟩ := C.quiet (e := .failed t) fun _ he => (nomatch he)
  have hlast : lastStored (s.history ++ [.failed t]) = lastStored s.history :=
    lastStored_concat ..
  have hst : HasStored (s.history ++ [.failed t]) t ↔ HasStored s.history t := by
    rw [hasStored_concat]
    refine or_iff_left ?_
    rintro ⟨i, a, he⟩
    cases he
  refine ⟨?_, ?_, hfirst, fun t' j => ?_, howned,
    C.placed_moved rfl hothers (Or.inr ⟨.failed t, rfl, rfl⟩) ?_⟩
  · exact (hregs.trans C.order).trans hreg.symm
  · exact hreg.symm ▸ C.nodup
  · exact ((hslots t' j).trans (C.slots t' j)).trans (congrFun (congrFun hlast.symm t') j)
  · have hidle : (s.fails t p).phase t = .idle := Function.update_self ..
    unfold Placed
    rw [hidle]
    show (p.hasTable t ↔ t ∈ registrations (s.history ++ [.failed t])) ∧
      (t ∈ registrations (s.history ++ [.failed t]) ↔ HasStored (s.history ++ [.failed t]) t)
    rw [hreg, hst]
    exact hself

/-- The thread has its table already. -/
theorem Coherent.found (C : Coherent s) (hidle : s.phase t = .idle) (ht : s.proc.hasTable t)
    (i a : Nat) : Coherent (s.goes t (.ready i a) s.proc) := by
  refine ⟨C.order, C.nodup, C.first, C.slots, C.owned,
    C.placed_moved rfl (fun _ _ => Iff.rfl) (Or.inl rfl) ?_⟩
  unfold Placed
  rw [Stores.goes_phase_self]
  exact ⟨ht, (C.of_idle hidle).1.mp ht⟩

/-- The thread has a new table, which is not registered. -/
theorem Coherent.created (C : Coherent s) (hidle : s.phase t = .idle) (ht : ¬ s.proc.hasTable t)
    (i a : Nat) {p : Process β} {b : Nat} (htables : p.s_ppInstances = s.proc.s_ppInstances)
    (hregs : p.s_vecpppInstances = s.proc.s_vecpppInstances)
    (howned : TablesOwned (p.withTable t ⟨b, fun _ => none⟩)) :
    Coherent (s.goes t (.created i a) (p.withTable t ⟨b, fun _ => none⟩)) := by
  have htable : ∀ t', (p.withTable t ⟨b, fun _ => none⟩).hasTable t' ↔
      s.proc.hasTable t' ∨ t' = t := fun t' => by
    rw [hasTable_withTable, hasTable_congr htables]
  refine ⟨hregs.trans C.order, C.nodup, C.first, fun t' j => ?_, howned,
    C.placed_moved rfl (fun t' htt => (htable t').trans (or_iff_left htt)) (Or.inl rfl) ?_⟩
  · show (p.withTable t ⟨b, fun _ => none⟩).slot t' j = lastStored s.history t' j
    rw [← C.slots t' j]
    by_cases htt : t' = t
    · subst htt
      rw [slot_withTable_self, slot_of_noTable ht]
    · rw [slot_withTable_ne htt, slot_congr htables]
  · obtain ⟨hreg, hst⟩ := C.of_idle hidle
    have hnot : t ∉ registrations s.history := fun hin => ht (hreg.mpr hin)
    unfold Placed
    rw [Stores.goes_phase_self]
    exact ⟨(htable t).mpr (Or.inr rfl), hnot, fun hs => hnot (hst.mpr hs)⟩

/-- The new table is registered. -/
theorem Coherent.registered (C : Coherent s) {i a : Nat} (hphase : s.phase t = .created i a) :
    Coherent ((s.goes t (.ready i a) (s.proc.pushTable t)).note (.registered t)) := by
  obtain ⟨ht, hnot, hnone⟩ := C.of_created hphase
  have hreg : registrations (s.history ++ [.registered t]) = registrations s.history ++ [t] :=
    registrations_concat ..
  refine ⟨?_, ?_, ?_, fun t' j => ?_, C.owned.congr rfl rfl,
    C.placed_moved rfl (fun _ _ => Iff.rfl) (Or.inr ⟨.registered t, rfl, rfl⟩) ?_⟩
  · show s.proc.s_vecpppInstances ++ [t] = registrations (s.history ++ [.registered t])
    rw [hreg, C.order]
  · show (registrations (s.history ++ [.registered t])).Nodup
    rw [hreg]
    exact List.nodup_append.mpr ⟨C.nodup, List.nodup_singleton t, fun t' ht' u hu => by
      rw [List.mem_singleton.mp hu]
      rintro rfl
      exact hnot ht'⟩
  · refine List.pairwise_append.mpr ⟨C.first, List.pairwise_singleton .., fun e he e' he' => ?_⟩
    rw [List.mem_singleton.mp he']
    rintro t' j b rfl hreg'
    cases hreg'
    exact hnone ⟨j, b, he⟩
  · have hlast : lastStored (s.history ++ [.registered t]) = lastStored s.history :=
      lastStored_concat ..
    exact (C.slots t' j).trans (congrFun (congrFun hlast.symm t') j)
  · unfold Placed
    rw [Stores.note_phase, Stores.goes_phase_self]
    exact ⟨ht, mem_registrations_concat.mpr (Or.inr rfl)⟩

/-- The slot is written. -/
theorem Coherent.stored (C : Coherent s) {i a : Nat} (hphase : s.phase t = .ready i a)
    {p : Process β} (hst : Stored s.proc t i a p) (howned : TablesOwned p) :
    Coherent ((s.goes t .idle p).note (.stored t i a)) := by
  obtain ⟨ht, hin⟩ := C.of_ready hphase
  obtain ⟨hreg, hfirst⟩ := C.quiet (e := .stored t i a) fun _ he => (nomatch he)
  have hothers : ∀ t', t' ≠ t → (p.hasTable t' ↔ s.proc.hasTable t') :=
    fun t' htt => (hst.hasTable t').trans (or_iff_left htt)
  refine ⟨?_, ?_, hfirst, fun t' j => ?_, howned,
    C.placed_moved rfl hothers (Or.inr ⟨.stored t i a, rfl, rfl⟩) ?_⟩
  · exact ((hst.registered ht).trans C.order).trans hreg.symm
  · exact hreg.symm ▸ C.nodup
  · show p.slot t' j = lastStored (s.history ++ [.stored t i a]) t' j
    rw [lastStored_concat]
    by_cases htt : t' = t
    · subst htt
      by_cases hj : j = i
      · subst hj
        simp only [Function.update_self, hst.self]
      · simp only [Function.update_self, Function.update_of_ne hj, hst.others t' j (Or.inr hj),
          C.slots]
    · simp only [Function.update_of_ne htt, hst.others t' j (Or.inl htt), C.slots]
  · have hidle : ((s.goes t .idle p).note (.stored t i a)).phase t = .idle :=
      Function.update_self ..
    unfold Placed
    rw [hidle]
    show (p.hasTable t ↔ t ∈ registrations (s.history ++ [.stored t i a])) ∧
      (t ∈ registrations (s.history ++ [.stored t i a]) ↔
        HasStored (s.history ++ [.stored t i a]) t)
    rw [hreg]
    exact ⟨iff_of_true ((hst.hasTable t).mpr (Or.inr rfl)) hin,
      iff_of_true hin (hasStored_concat.mpr (Or.inr ⟨i, a, rfl⟩))⟩

/-- A call that is rejected, or has no memory for its table. -/
theorem Coherent.refused (C : Coherent s) (hidle : s.phase t = .idle) {p : Process β}
    (htables : p.s_ppInstances = s.proc.s_ppInstances)
    (hregs : p.s_vecpppInstances = s.proc.s_vecpppInstances) (hheap : p.heap = s.proc.heap) :
    Coherent (s.fails t p) := by
  obtain ⟨hreg, hst⟩ := C.of_idle hidle
  exact C.fails hregs (slot_congr htables) (fun t' _ => hasTable_congr htables t')
    (C.owned.congr htables hheap) ⟨(hasTable_congr htables t).trans hreg, hst⟩

/-- The table is not registered, and the thread gives it up. -/
theorem Coherent.dropped (C : Coherent s) {i a : Nat} (hphase : s.phase t = .created i a) :
    ∃ p, s.proc.dropTable t = .ok p ∧ Coherent (s.fails t p) := by
  obtain ⟨ht, hnot, hnone⟩ := C.of_created hphase
  obtain ⟨p, hdrop, howned, htables, hregs⟩ := C.owned.dropTable ht
  have hself : p.s_ppInstances t = none := by
    rw [htables]
    exact Function.update_self ..
  have hothers : ∀ t', t' ≠ t → p.s_ppInstances t' = s.proc.s_ppInstances t' := by
    intro t' htt
    rw [htables]
    exact Function.update_of_ne htt ..
  refine ⟨p, hdrop, C.fails hregs (fun t' j => ?_) (fun t' htt => ?_) howned
    ⟨iff_of_false (noTable_iff.mpr hself) hnot, iff_of_false hnot hnone⟩⟩
  · by_cases htt : t' = t
    · subst htt
      rw [slot_of_noTable (noTable_iff.mpr hself), C.slots t' j, lastStored_eq_none hnone]
    · simp only [slot, hothers t' htt]
  · simp only [hasTable, hothers t' htt]

/-- **Step lemma.** -/
theorem coherent_step {s' : Stores β} {m : StoreMove} {out : Option Int} (C : Coherent s)
    (h : storeMove s m = .ok (s', out)) : Coherent s' := by
  cases m with
  | enter t i pStorage tableMem =>
    simp only [storeMove] at h
    split at h
    · rename_i hidle
      cases h
      exact C.refused hidle rfl rfl rfl
    · rename_i a hidle
      split at h
      · cases h
        exact C.refused hidle rfl rfl rfl
      · split at h
        · rename_i table ht
          cases h
          exact C.found hidle ⟨table, ht⟩ i a
        · rename_i ht
          split at h
          · rename_i p hp
            cases h
            have hnomem : p.s_ppInstances = s.proc.s_ppInstances ∧
                p.s_vecpppInstances = s.proc.s_vecpppInstances ∧ p.heap = s.proc.heap := by
              cases tableMem <;> cases hp
              exact ⟨rfl, rfl, rfl⟩
            exact C.refused hidle hnomem.1 hnomem.2.1 hnomem.2.2
          · rename_i b p hp
            cases h
            cases tableMem <;> cases hp
            exact C.created hidle (noTable_iff.mpr ht) i a rfl rfl
              (C.owned.created tableSize fun _ => none)
    · cases h
  | register t pushMem =>
    simp only [storeMove] at h
    split at h
    · rename_i i a hphase
      split at h
      · cases h
        exact C.registered hphase
      · obtain ⟨p, hdrop, hdropped⟩ := C.dropped hphase
        rw [hdrop] at h
        cases h
        exact hdropped
    · cases h
  | write t =>
    simp only [storeMove] at h
    split at h
    · rename_i i a hphase
      split at h
      · cases h
      · rename_i p hs
        cases h
        obtain ⟨table, ht⟩ := (C.of_ready hphase).1
        have hi : i < kMaxInstanceId := by
          by_contra hge
          simp only [storeSlot, ht, hge, if_false] at hs
          cases hs
        obtain ⟨q, hq, hst⟩ := storeSlot_stored ht hi a
        rw [hs] at hq
        cases hq
        exact C.stored hphase hst (C.owned.storeSlot hs)
    · cases h

/-- **Run lemma.** -/
theorem coherent_run {moves : List StoreMove} {outs : List (Option Int)}
    (h : run storeMove (Stores.init : Stores β) moves = .ok (s, outs)) : Coherent s :=
  run_invariant (fun _ _ _ _ C h => coherent_step C h) coherent_init h

/-! ## Ids -/

def StoreMove.inRange : StoreMove → Prop
  | .enter _ i _ _ => i ≤ kMaxInstanceId
  | _ => True

/-- The id that a thread is about to write to is one of its table. -/
def StorePhase.inRange : StorePhase → Prop
  | .idle => True
  | .created i _ => i < kMaxInstanceId
  | .ready i _ => i < kMaxInstanceId

theorem inRange_of_update {s s' : Stores β} (hs : ∀ t, (s.phase t).inRange) {t : Tid}
    (ph : StorePhase) (hph : ph.inRange) (h : s'.phase = Function.update s.phase t ph) :
    ∀ t', (s'.phase t').inRange := by
  intro t'
  rw [h]
  by_cases htt : t' = t
  · subst htt
    rw [Function.update_self]
    exact hph
  · rw [Function.update_of_ne htt]
    exact hs t'

theorem inRange_step {s' : Stores β} {m : StoreMove} {out : Option Int}
    (hs : ∀ t, (s.phase t).inRange) (hm : m.inRange) (h : storeMove s m = .ok (s', out)) :
    ∀ t, (s'.phase t).inRange := by
  cases m with
  | enter t i pStorage tableMem =>
    simp only [storeMove] at h
    split at h
    · cases h
      exact inRange_of_update hs .idle trivial rfl
    · rename_i a hidle
      split at h
      · cases h
        exact inRange_of_update hs .idle trivial rfl
      · rename_i hne
        have hi : i < kMaxInstanceId := Nat.lt_of_le_of_ne hm hne
        split at h
        · cases h
          exact inRange_of_update hs (.ready i a) hi rfl
        · split at h
          · cases h
            exact inRange_of_update hs .idle trivial rfl
          · cases h
            exact inRange_of_update hs (.created i a) hi rfl
    · cases h
  | register t pushMem =>
    simp only [storeMove] at h
    split at h
    · rename_i i a hphase
      have hi : (s.phase t).inRange := hs t
      rw [hphase] at hi
      split at h
      · cases h
        exact inRange_of_update hs (.ready i a) hi rfl
      · split at h
        · cases h
        · cases h
          exact inRange_of_update hs .idle trivial rfl
    · cases h
  | write t =>
    simp only [storeMove] at h
    split at h
    · split at h
      · cases h
      · cases h
        exact inRange_of_update hs .idle trivial rfl
    · cases h

/-- A thread that is about to write has a table with its id, and one that gives up its table has
it still. -/
theorem storeMove_ne_fault (C : Coherent s) (hs : ∀ t, (s.phase t).inRange) (m : StoreMove)
    (f : Fault) : storeMove s m ≠ .error (.library f) := by
  intro h
  cases m with
  | enter t i pStorage tableMem =>
    simp only [storeMove] at h
    repeat' split at h
    all_goals cases h
  | register t pushMem =>
    simp only [storeMove] at h
    split at h
    · rename_i i a hphase
      split at h
      · cases h
      · obtain ⟨p, hdrop, -⟩ := C.dropped hphase
        rw [hdrop] at h
        cases h
    · cases h
  | write t =>
    simp only [storeMove] at h
    split at h
    · rename_i i a hphase
      have hi := hs t
      rw [hphase] at hi
      obtain ⟨table, ht⟩ := (C.of_ready hphase).1
      obtain ⟨q, hq, -⟩ := storeSlot_stored ht hi a
      rw [hq] at h
      cases h
    · cases h

/-- No interleaving of stores under ids up to `kInvalidInstanceId` reads or writes outside a
table, or releases one that is gone. -/
theorem stores_never_fault {moves : List StoreMove} (hids : ∀ m, m ∈ moves → m.inRange)
    (f : Fault) : run storeMove (Stores.init : Stores β) moves ≠ .error (.library f) := by
  suffices h : ∀ s : Stores β, Coherent s → (∀ t, (s.phase t).inRange) →
      run storeMove s moves ≠ .error (.library f) from h _ coherent_init fun _ => trivial
  induction moves with
  | nil => exact fun _ _ _ h => (nomatch h)
  | cons m moves ih =>
    obtain ⟨hm, hrest⟩ := List.forall_mem_cons.mp hids
    intro s C hs h
    cases hmove : storeMove s m with
    | error e =>
      rw [run_cons_error hmove] at h
      cases h
      exact storeMove_ne_fault C hs m f hmove
    | ok r =>
      rw [run_cons_ok hmove] at h
      have hnext := ih hrest r.1 (coherent_step C hmove) (inRange_step hs hm hmove)
      cases hr : run storeMove r.1 moves with
      | error e =>
        rw [hr] at h
        cases h
        exact hnext hr
      | ok q =>
        rw [hr] at h
        cases h

/-! ## The traversal after the stores -/

/-- `func`, noting the pointers it is called on. -/
def noting (func : σ → Nat → σ × Int) (s : List Nat × σ) (a : Nat) : (List Nat × σ) × Int :=
  ((s.1 ++ [a], (func s.2 a).1), (func s.2 a).2)

theorem after_noting (func : σ → Nat → σ × Int) (pre : List Nat) (s : σ) (as : List Nat) :
    after (noting func) (pre, s) as = (pre ++ as, after func s as) := by
  induction as generalizing pre s with
  | nil => rw [List.append_nil]; rfl
  | cons a as ih =>
    have hrest := ih (pre ++ [a]) (func s a).1
    rw [List.append_assoc] at hrest
    exact hrest

theorem returnsZero_noting {func : σ → Nat → σ × Int} {pre : List Nat} {s : σ} {as : List Nat} :
    ReturnsZero (noting func) (pre, s) as ↔ ReturnsZero func s as := by
  induction as generalizing pre s with
  | nil => exact Iff.rfl
  | cons a as ih => exact and_congr_right fun _ => ih

theorem Visited.noting {func : σ → Nat → σ × Int} {s : σ} {as calls : List Nat} {stopped : Bool}
    (h : Visited func s as calls stopped) (pre : List Nat) :
    Visited (noting func) (pre, s) as calls stopped := by
  cases h with
  | all hz => exact .all (returnsZero_noting.mpr hz)
  | stop he hz hstop =>
    refine .stop he (returnsZero_noting.mpr hz) ?_
    rw [after_noting]
    exact hstop

/-- **`foreach` in the order of registration.** After any interleaving of stores: the threads that
are not in a call and have stored something were registered, each once and before it stored, and
no others of them were; the slots hold what was stored last. `foreach` calls `func` on the slots of
its id that are not null, in the order of registration, up to and including the first call that asks
to stop, and on nothing else. What is stored is what a call that returned 0 was given: whatever
`setThreadLocalStorage` does next on a thread that is not in a call, it does in such moves. -/
theorem foreach_in_registration_order {moves : List StoreMove} {s : Stores β}
    {outs : List (Option Int)}
    (hrun : run storeMove (Stores.init : Stores β) moves = .ok (s, outs)) (t : Tid) {i : Nat}
    (hi : i < kMaxInstanceId) (func : σ → Nat → σ × Int) (s₀ : σ) :
    (registrations s.history).Nodup ∧
    (∀ t', s.phase t' = .idle → (t' ∈ registrations s.history ↔ HasStored s.history t')) ∧
    (s.history.Pairwise fun e e' => ∀ t' j a, e = .stored t' j a → e' ≠ .registered t') ∧
    (∀ t' j, s.proc.slot t' j = lastStored s.history t' j) ∧
    (∀ t' j pStorage env rc p', s.phase t' = .idle →
      s.proc.setThreadLocalStorage t' j pStorage env = .ok (rc, p') →
      ∃ moves, Moves s t' j pStorage rc p' moves) ∧
    ∃ calls stopped p',
      Visited func s₀ ((registrations s.history).filterMap fun t' => s.proc.slot t' i) calls
        stopped ∧
      s.proc.foreach t i (some func) s₀ =
        .ok (if stopped then -1 else 0, after func s₀ calls, p') ∧
      s.proc.foreach t i (some (noting func)) ([], s₀) =
        .ok (if stopped then -1 else 0, (calls, after func s₀ calls), p') := by
  have C := coherent_run hrun
  refine ⟨C.nodup, fun t' hidle => (C.of_idle hidle).2, C.first, C.slots,
    fun t' j pStorage env rc p' hidle h => setThreadLocalStorage_moves hidle h, ?_⟩
  obtain ⟨calls, stopped, hcalls⟩ := exists_visited func s₀ (s.proc.storages i)
  refine ⟨calls, stopped, _, ?_, foreach_of_visited s.proc t hi hcalls, ?_⟩
  · rw [← C.order]
    exact hcalls
  · rw [foreach_of_visited s.proc t hi (hcalls.noting []), after_noting, List.nil_append]

/-- Two threads register in the order opposite to that of their calls, a third fails to register,
and the callback stops at the first slot. -/
theorem foreach_in_registration_order_crossed :
    ∃ s outs, run storeMove (Stores.init : Stores Unit)
        [.enter 1 7 (some 100) true, .enter 2 7 (some 200) true, .register 2 true,
          .register 1 true, .write 1, .enter 3 7 (some 300) true, .write 2, .register 3 false] =
        .ok (s, outs) ∧
      (registrations s.history).Nodup ∧
      (∀ t', s.phase t' = .idle → (t' ∈ registrations s.history ↔ HasStored s.history t')) ∧
      (s.history.Pairwise fun e e' => ∀ t' j a, e = .stored t' j a → e' ≠ .registered t') ∧
      (∀ t' j, s.proc.slot t' j = lastStored s.history t' j) ∧
      (∀ t' j pStorage env rc p', s.phase t' = .idle →
        s.proc.setThreadLocalStorage t' j pStorage env = .ok (rc, p') →
        ∃ moves, Moves s t' j pStorage rc p' moves) ∧
      ∃ calls stopped p',
        Visited (fun (s : Unit) _ => (s, 1)) ()
          ((registrations s.history).filterMap fun t' => s.proc.slot t' 7) calls stopped ∧
        s.proc.foreach 4 7 (some fun (s : Unit) _ => (s, 1)) () =
          .ok (if stopped then -1 else 0, after (fun (s : Unit) _ => (s, 1)) () calls, p') ∧
        s.proc.foreach 4 7 (some (noting fun (s : Unit) _ => (s, 1))) ([], ()) =
          .ok (if stopped then -1 else 0,
            (calls, after (fun (s : Unit) _ => (s, 1)) () calls), p') := by
  have hends : (run storeMove (Stores.init : Stores Unit)
      [.enter 1 7 (some 100) true, .enter 2 7 (some 200) true, .register 2 true,
        .register 1 true, .write 1, .enter 3 7 (some 300) true, .write 2, .register 3 false]).isOk =
      true := by decide +kernel
  obtain ⟨⟨s, outs⟩, hrun⟩ := exists_of_isOk hends
  exact ⟨s, outs, hrun, foreach_in_registration_order hrun 4 (by decide) _ ()⟩

/-- In that run the pointer of thread 2 comes first. -/
example : (run storeMove (Stores.init : Stores Unit)
    [.enter 1 7 (some 100) true, .enter 2 7 (some 200) true, .register 2 true, .register 1 true,
      .write 1, .enter 3 7 (some 300) true, .write 2, .register 3 false]).toOption.any (fun r =>
    (r.1.proc.foreach 4 7 (some (noting fun (s : Unit) _ => (s, 0))) ([], ())).toOption.any fun q =>
      decide (q.2.1.1 = [200, 100])) = true := by decide +kernel

end Lldk
