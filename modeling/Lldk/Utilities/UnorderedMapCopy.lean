import Lldk.Utilities.UnorderedMapRefinement

/-!
Copies of `LldkUnorderedMap`. The class declares no copy operations, so the compiler's own copy
the container deeply and the cache array as it is: raw pointers to the nodes of the source.

* `Pair` is two maps in one heap, each alive or not; `pairStep` runs operations on either,
  copies (construction when the target is not alive, assignment when it is) and destructions. What
  the comparison of `erase` sees of a removed node is its parameter.
* `plainPairStep` is the same on two independent plain maps, and `lockstep` runs both and stops
  when the results differ.
* `Independent`: every lookup on either map ends as on its own plain map, with a cell of its own.
* `copies_independent_iff`: whatever that comparison sees, a run stays independent all along iff
  every copy in it is taken from a map whose cache is empty and no resident key is erased.
-/

namespace Lldk.UnorderedMap

open Lib Lib.Trace LldkUnorderedMap

/-! ## Copying and destroying -/

section Model

variable {K V : Type} [DecidableEq K]

/-- The deep copy of a list of nodes. -/
def copyNodes (h : NodeHeap K V) : List Nat → NodeHeap K V × List Nat
  | [] => (h, [])
  | n :: ns =>
    match h.cells n with
    | some node =>
      let (h', ns') := copyNodes (h.alloc node).2 ns
      (h', h.next :: ns')
    | none => copyNodes h ns

namespace LldkUnorderedMap

variable {CACHE_SIZE : Nat}

/-- The implicit copy constructor: every member is copied, the array of pointers included. -/
def copyConstruct (h : NodeHeap K V) (that : LldkUnorderedMap CACHE_SIZE) :
    NodeHeap K V × LldkUnorderedMap CACHE_SIZE :=
  let (h', nodes) := copyNodes h that.m_mapEntries.nodes
  (h', { that with m_mapEntries := ⟨nodes⟩ })

/-- `~LldkUnorderedMap() = default` -/
def destruct (h : NodeHeap K V) (m : LldkUnorderedMap CACHE_SIZE) : NodeHeap K V :=
  h.freeAll m.m_mapEntries.nodes

/-- The implicit copy assignment: the nodes the target had are gone. -/
def copyAssign (h : NodeHeap K V) (m that : LldkUnorderedMap CACHE_SIZE) :
    NodeHeap K V × LldkUnorderedMap CACHE_SIZE :=
  copyConstruct (h.freeAll m.m_mapEntries.nodes) that

end LldkUnorderedMap

/-! ## Two maps -/

inductive Side
  | m
  | c
  deriving DecidableEq, Repr

def Side.other : Side → Side
  | .m => .c
  | .c => .m

@[simp] theorem Side.other_other (x : Side) : x.other.other = x := by cases x <;> rfl

theorem Side.other_ne (x : Side) : x.other ≠ x := by cases x <;> decide

theorem Side.eq_or_other (x y : Side) : y = x ∨ y = x.other := by
  cases x <;> cases y <;> decide

/-- A map that is alive, with the pointers it has returned. -/
structure Held (CACHE_SIZE : Nat) where
  obj : LldkUnorderedMap CACHE_SIZE
  ptrs : List (Option Nat)

structure Pair (K V : Type) (CACHE_SIZE : Nat) where
  heap : NodeHeap K V
  objs : Side → Option (Held CACHE_SIZE)

inductive PairOp (K V : Type)
  | on (x : Side) (op : ClientOp K V)
  | copy (dst : Side)
  | destroy (x : Side)

def pairStep [Inhabited V] {CACHE_SIZE : Nat} [NeZero CACHE_SIZE] (hashFunc : K → UInt64)
    (r : StaleRead) : Step (Pair K V CACHE_SIZE) (PairOp K V) (Out V Unit) Fault
  | p, .on x op =>
    match p.objs x with
    | none => .error .nullPointer
    | some o =>
      match clientStep hashFunc r ⟨p.heap, o.obj, o.ptrs⟩ op with
      | .error e => .error e
      | .ok (k, out) => .ok (⟨k.heap, Function.update p.objs x (some ⟨k.obj, k.ptrs⟩)⟩, out)
  | p, .copy dst =>
    match p.objs dst.other with
    | none => .error .nullPointer
    | some src =>
      let (h', obj) := match p.objs dst with
        | none => copyConstruct p.heap src.obj
        | some old => copyAssign p.heap old.obj src.obj
      .ok (⟨h', Function.update p.objs dst (some ⟨obj, []⟩)⟩, .unit)
  | p, .destroy x =>
    match p.objs x with
    | none => .error .nullPointer
    | some o => .ok (⟨o.obj.destruct p.heap, Function.update p.objs x none⟩, .unit)

/-- Two plain maps, each alive or not. -/
abbrev PlainPair (K V : Type) := Side → Option (Plain K V)

def plainPairStep [Inhabited V] : Step (PlainPair K V) (PairOp K V) (Out V Unit) Outside
  | s, .on x op =>
    match s x with
    | none => .error .badPointer
    | some q =>
      match plainStep q op with
      | .error e => .error e
      | .ok (q', out) => .ok (Function.update s x (some q'), out)
  | s, .copy dst =>
    match s dst.other with
    | none => .error .badPointer
    | some q => .ok (Function.update s dst (some ⟨q.map, []⟩), .unit)
  | s, .destroy x =>
    match s x with
    | none => .error .badPointer
    | some _ => .ok (Function.update s x none, .unit)

def Pair.init {CACHE_SIZE : Nat} : Pair K V CACHE_SIZE := ⟨Heap.empty, fun _ => some ⟨.new, []⟩⟩

def PlainPair.init : PlainPair K V := fun _ => some .init

/-- How a run of the two maps parts from that of the two plain maps. -/
inductive Diverges
  | outside (o : Outside)
  | fault (f : Fault)
  | results

open Classical in
/-- Both pairs take the step; they stop when the results differ. -/
noncomputable def lockstep [Inhabited V] {CACHE_SIZE : Nat} [NeZero CACHE_SIZE]
    (hashFunc : K → UInt64) (r : StaleRead) :
    Step (Pair K V CACHE_SIZE × PlainPair K V) (PairOp K V) (Out V Unit) Diverges
  | (p, s), op =>
    match plainPairStep s op with
    | .error o => .error (.outside o)
    | .ok (s', out) =>
      match pairStep hashFunc r p op with
      | .error f => .error (.fault f)
      | .ok (p', out') => if out' = out then .ok ((p', s'), out) else .error .results

/-- The client keeps to the specification: it uses live maps and good pointers. -/
def legal [Inhabited V] {CACHE_SIZE : Nat} (st : Pair K V CACHE_SIZE × PlainPair K V)
    (op : PairOp K V) : Prop :=
  ∃ r, plainPairStep st.2 op = .ok r

/-- A copy is taken only of a map with an empty cache. -/
def copiesEmptyCache {CACHE_SIZE : Nat} (st : Pair K V CACHE_SIZE × PlainPair K V)
    (op : PairOp K V) : Prop :=
  ∀ dst src, op = .copy dst → st.1.objs dst.other = some src →
    ∀ i, src.obj.m_arrEntries i = none

/-- No key is erased that is resident in its slot. -/
def erasesNoResidentOf {CACHE_SIZE : Nat} [NeZero CACHE_SIZE] (hashFunc : K → UInt64)
    (st : Pair K V CACHE_SIZE × PlainPair K V) (op : PairOp K V) : Prop :=
  ∀ x o cop, op = .on x cop → st.1.objs x = some o →
    erasesNoResident hashFunc ⟨st.1.heap, o.obj, o.ptrs⟩ cop

/-- Every lookup on a live map ends as on its own plain map, and with one of its own cells. -/
def Independent {CACHE_SIZE : Nat} [NeZero CACHE_SIZE] (hashFunc : K → UInt64)
    (st : Pair K V CACHE_SIZE × PlainPair K V) : Prop :=
  ∀ x o q, st.1.objs x = some o → st.2 x = some q → ∀ key,
    ∃ p m', find hashFunc st.1.heap o.obj key = .ok (p, m') ∧
      (q.map.lookup key = none → p = none) ∧
      ∀ v, q.map.lookup key = some v →
        ∃ n, p = some n ∧ Entry st.1.heap o.obj.m_mapEntries n key v

end Model

/-! ## The deep copy -/

section Copy

variable {K V : Type}

/-- What `copyNodes` gives for nodes that exist: the same pairs in new nodes, in the same order,
with every cell that was there untouched. -/
theorem copyNodes_spec (h : NodeHeap K V) (ns : List Nat)
    (hlive : ∀ n ∈ ns, ∃ x, h.cells n = some x) :
    h.next ≤ (copyNodes h ns).1.next ∧
      (∀ a, a < h.next → (copyNodes h ns).1.cells a = h.cells a) ∧
      (∀ n ∈ (copyNodes h ns).2, h.next ≤ n) ∧ (copyNodes h ns).2.Nodup ∧
      (copyNodes h ns).2.map (copyNodes h ns).1.cells = ns.map h.cells := by
  induction ns generalizing h with
  | nil => simp [copyNodes]
  | cons n ns ih =>
    obtain ⟨x, hx⟩ := hlive n (List.mem_cons_self ..)
    have hlive' : ∀ n' ∈ ns, ∃ y, (h.alloc x).2.cells n' = some y := by
      intro n' hn'
      obtain ⟨y, hy⟩ := hlive n' (List.mem_cons_of_mem _ hn')
      exact ⟨y, Heap.cells_alloc_of_some x hy⟩
    obtain ⟨hnext, hold, hnew, hnodup, hmap⟩ := ih (h.alloc x).2 hlive'
    rw [Heap.alloc_next] at hnext hold hnew
    have hfirst : (copyNodes (h.alloc x).2 ns).1.cells h.next = some x := by
      rw [hold h.next (Nat.lt_succ_self _), Heap.cells_alloc_self]
    have hsame : ns.map (h.alloc x).2.cells = ns.map h.cells := by
      apply List.map_congr_left
      intro n' hn'
      obtain ⟨y, hy⟩ := hlive n' (List.mem_cons_of_mem _ hn')
      rw [Heap.cells_alloc_of_some x hy, hy]
    simp only [copyNodes, hx]
    refine ⟨by omega, fun a ha => ?_, fun n' hn' => ?_, ?_, ?_⟩
    · rw [hold a (by omega), Heap.cells_alloc_ne x (by omega)]
    · rcases List.mem_cons.mp hn' with rfl | hn'
      · exact Nat.le_refl _
      · have := hnew n' hn'
        omega
    · refine List.nodup_cons.mpr ⟨fun hin => ?_, hnodup⟩
      have := hnew _ hin
      omega
    · rw [List.map_cons, List.map_cons, hfirst, hx, hmap, hsame]

/-- The copy of a node stands at the same place in the list. -/
theorem copyNodes_twin {h : NodeHeap K V} {ns : List Nat}
    (hmap : (copyNodes h ns).2.map (copyNodes h ns).1.cells = ns.map h.cells) {i n' : Nat}
    (hi : (copyNodes h ns).2[i]? = some n') :
    ∃ n, ns[i]? = some n ∧ h.cells n = (copyNodes h ns).1.cells n' := by
  have he := congrArg (fun l : List (Option (Node K V)) => l[i]?) hmap
  simp only [List.getElem?_map, hi, Option.map_some] at he
  obtain ⟨n, hn, hc⟩ := Option.map_eq_some_iff.mp he.symm
  exact ⟨n, hn, hc⟩

variable {h : NodeHeap K V} {m : StdMap}

theorem copy_entry (ok : m.Ok h) (k : K) (v : V) :
    (∃ n, Entry (copyNodes h m.nodes).1 ⟨(copyNodes h m.nodes).2⟩ n k v) ↔
      ∃ n, Entry h m n k v := by
  obtain ⟨-, -, -, -, hmap⟩ := copyNodes_spec h m.nodes fun n hn => by
    obtain ⟨k, v, e⟩ := ok.live n hn
    exact ⟨_, e.2⟩
  have hmem : some (⟨k, v⟩ : Node K V) ∈ (copyNodes h m.nodes).2.map (copyNodes h m.nodes).1.cells ↔
      some (⟨k, v⟩ : Node K V) ∈ m.nodes.map h.cells := by rw [hmap]
  simpa only [List.mem_map, Entry] using hmem

theorem ok_copy (ok : m.Ok h) :
    StdMap.Ok (copyNodes h m.nodes).1 ⟨(copyNodes h m.nodes).2⟩ := by
  obtain ⟨-, -, -, hnodup, hmap⟩ := copyNodes_spec h m.nodes fun n hn => by
    obtain ⟨k, v, e⟩ := ok.live n hn
    exact ⟨_, e.2⟩
  refine ⟨hnodup, fun n' hn' => ?_, fun n₁ n₂ k v₁ v₂ e₁ e₂ => ?_⟩
  · obtain ⟨i, hi⟩ := List.mem_iff_getElem?.mp hn'
    obtain ⟨n, hn, hc⟩ := copyNodes_twin hmap hi
    obtain ⟨k, v, e⟩ := ok.live n (List.mem_of_getElem? hn)
    exact ⟨k, v, hn', by rw [← hc, e.2]⟩
  · obtain ⟨i, hi⟩ := List.mem_iff_getElem?.mp e₁.1
    obtain ⟨j, hj⟩ := List.mem_iff_getElem?.mp e₂.1
    obtain ⟨n, hn, hc⟩ := copyNodes_twin hmap hi
    obtain ⟨n', hn', hc'⟩ := copyNodes_twin hmap hj
    have hnn : n = n' := ok.inj n n' k v₁ v₂ ⟨List.mem_of_getElem? hn, by rw [hc, e₁.2]⟩
      ⟨List.mem_of_getElem? hn', by rw [hc', e₂.2]⟩
    subst hnn
    obtain ⟨hlt, -⟩ := List.getElem?_eq_some_iff.mp hn
    have hij : i = j := (List.getElem?_inj hlt ok.nodup).mp (hn.trans hn'.symm)
    subst hij
    exact Option.some.inj (hi.symm.trans hj)

end Copy

/-! ## The invariant of the two maps -/

section Pairs

variable {K V : Type} [DecidableEq K] {CACHE_SIZE : Nat} [NeZero CACHE_SIZE]
  {hashFunc : K → UInt64}

/-- Each live map refines its own plain map, and the two own different nodes. -/
structure PairInv (hashFunc : K → UInt64) (st : Pair K V CACHE_SIZE × PlainPair K V) : Prop where
  sides : ∀ x, (st.1.objs x = none ∧ st.2 x = none) ∨
    ∃ o q, st.1.objs x = some o ∧ st.2 x = some q ∧
      Refines hashFunc ⟨st.1.heap, o.obj, o.ptrs⟩ q
  apart : ∀ x o o', st.1.objs x = some o → st.1.objs x.other = some o' →
    ∀ n ∈ o.obj.m_mapEntries.nodes, n ∉ o'.obj.m_mapEntries.nodes

/-- A map does not notice changes to cells that are not its nodes. -/
theorem Refines.of_cells {h h' : NodeHeap K V} {obj : LldkUnorderedMap CACHE_SIZE}
    {ptrs : List (Option Nat)} {q : Plain K V} (R : Refines hashFunc ⟨h, obj, ptrs⟩ q)
    (hc : ∀ n ∈ obj.m_mapEntries.nodes, h'.cells n = h.cells n) :
    Refines hashFunc ⟨h', obj, ptrs⟩ q := by
  have he : ∀ n k v, Entry h' obj.m_mapEntries n k v ↔ Entry h obj.m_mapEntries n k v := by
    intro n k v
    constructor
    · rintro ⟨hn, hv⟩
      exact ⟨hn, by rw [← hc n hn, hv]⟩
    · rintro ⟨hn, hv⟩
      exact ⟨hn, by rw [hc n hn, hv]⟩
  have ok := R.inv.entries
  refine ⟨⟨⟨ok.nodup, ?_, ?_⟩, ?_⟩, ?_, R.lengths, ?_⟩
  · intro n hn
    obtain ⟨k, v, e⟩ := ok.live n hn
    exact ⟨k, v, (he n k v).mpr e⟩
  · intro n₁ n₂ k v₁ v₂ e₁ e₂
    exact ok.inj n₁ n₂ k v₁ v₂ ((he _ _ _).mp e₁) ((he _ _ _).mp e₂)
  · intro i n hn
    obtain ⟨k, v, e, hk⟩ := R.inv.cache i n hn
    exact ⟨k, v, (he n k v).mpr e, hk⟩
  · intro k v
    simp only [he]
    exact R.agree k v
  · intro i k hk
    obtain ⟨n, v, hp, e⟩ := R.denotes i k hk
    exact ⟨n, v, hp, (he n k v).mpr e⟩

theorem PairInv.get {p : Pair K V CACHE_SIZE} {s : PlainPair K V} (I : PairInv hashFunc (p, s))
    {x : Side} {q : Plain K V} (hq : s x = some q) :
    ∃ o, p.objs x = some o ∧ Refines hashFunc ⟨p.heap, o.obj, o.ptrs⟩ q := by
  rcases I.sides x with ⟨-, hn⟩ | ⟨o, q', ho, hq', R⟩
  · have hn' : s x = none := hn
    rw [hq] at hn'
    cases hn'
  · have he : some q = some q' := hq.symm.trans hq'
    cases he
    exact ⟨o, ho, R⟩

/-- Replacing one side, with the cells of the other untouched, keeps the invariant. -/
theorem PairInv.set {p : Pair K V CACHE_SIZE} {s : PlainPair K V} (I : PairInv hashFunc (p, s))
    (x : Side) {h' : NodeHeap K V} {o' : Option (Held CACHE_SIZE)} {q' : Option (Plain K V)}
    (hother : ∀ o, p.objs x.other = some o →
      ∀ n ∈ o.obj.m_mapEntries.nodes, h'.cells n = p.heap.cells n)
    (hside : (o' = none ∧ q' = none) ∨ ∃ o q, o' = some o ∧ q' = some q ∧
      Refines hashFunc ⟨h', o.obj, o.ptrs⟩ q)
    (hapart : ∀ o₁ o₂, o' = some o₁ → p.objs x.other = some o₂ →
      ∀ n ∈ o₁.obj.m_mapEntries.nodes, n ∉ o₂.obj.m_mapEntries.nodes) :
    PairInv hashFunc (⟨h', Function.update p.objs x o'⟩, Function.update s x q') where
  sides := by
    intro y
    rcases Side.eq_or_other x y with rfl | rfl
    · simpa only [Function.update_self] using hside
    · simp only [Function.update_of_ne (Side.other_ne x)]
      rcases I.sides x.other with hn | ⟨o, q, ho, hq, R⟩
      · exact Or.inl hn
      · exact Or.inr ⟨o, q, ho, hq, R.of_cells (hother o ho)⟩
  apart := by
    intro y o₁ o₂ h₁ h₂ n hn₁ hn₂
    rcases Side.eq_or_other x y with rfl | rfl
    · simp only [Function.update_self] at h₁
      simp only [Function.update_of_ne (Side.other_ne y)] at h₂
      exact hapart o₁ o₂ h₁ h₂ n hn₁ hn₂
    · simp only [Function.update_of_ne (Side.other_ne x)] at h₁
      simp only [Side.other_other, Function.update_self] at h₂
      exact hapart o₂ o₁ h₂ h₁ n hn₂ hn₁

/-- The invariant gives independence: a lookup finds the key's own node. -/
theorem PairInv.independent {st : Pair K V CACHE_SIZE × PlainPair K V}
    (I : PairInv hashFunc st) : Independent hashFunc st := by
  obtain ⟨p, s⟩ := st
  intro x o q ho hq key
  obtain ⟨o', ho', R⟩ := I.get hq
  change p.objs x = some o at ho
  rw [ho] at ho'
  cases ho'
  refine ⟨_, _, find_spec R.inv key, R.find_of_lookup_none, fun v hv => ?_⟩
  obtain ⟨n, hf, e⟩ := R.find_of_lookup hv
  exact ⟨n, hf, e⟩


/-! ## The steps of the two maps -/

theorem pairInv_init : PairInv hashFunc
    ((Pair.init : Pair K V CACHE_SIZE), (PlainPair.init : PlainPair K V)) where
  sides := fun _ => Or.inr ⟨⟨.new, []⟩, .init, rfl, rfl, refines_init⟩
  apart := by
    intro x o o' ho _ n hn
    cases ho
    cases hn

/-- The heap a copy starts from: an assignment has released the nodes of its target. -/
def copyHeap (p : Pair K V CACHE_SIZE) (dst : Side) : NodeHeap K V :=
  match p.objs dst with
  | none => p.heap
  | some old => old.obj.destruct p.heap

/-- The copy of `src` into a heap. -/
def copyOf (h : NodeHeap K V) (src : LldkUnorderedMap CACHE_SIZE) : LldkUnorderedMap CACHE_SIZE :=
  { src with m_mapEntries := ⟨(copyNodes h src.m_mapEntries.nodes).2⟩ }

variable {p : Pair K V CACHE_SIZE} {s : PlainPair K V} {dst : Side} {src : Held CACHE_SIZE}
  {q : Plain K V}

theorem copyHeap_src (I : PairInv hashFunc (p, s)) (hsrc : p.objs dst.other = some src) :
    ∀ n ∈ src.obj.m_mapEntries.nodes, (copyHeap p dst).cells n = p.heap.cells n := by
  intro n hn
  unfold copyHeap
  cases hd : p.objs dst with
  | none => rfl
  | some old =>
    have hnot : n ∉ old.obj.m_mapEntries.nodes := fun hold => I.apart dst old src hd hsrc n hold hn
    exact Heap.cells_freeAll_of_notMem hnot

variable [Inhabited V] {r : StaleRead}

theorem pairStep_copy (hsrc : p.objs dst.other = some src) :
    pairStep hashFunc r p (.copy dst) =
      .ok (⟨(copyNodes (copyHeap p dst) src.obj.m_mapEntries.nodes).1,
        Function.update p.objs dst (some ⟨copyOf (copyHeap p dst) src.obj, []⟩)⟩, .unit) := by
  cases hd : p.objs dst with
  | none => simp only [pairStep, hsrc, hd, copyHeap, copyConstruct, copyOf]
  | some old =>
    simp only [pairStep, hsrc, hd, copyHeap, copyAssign, copyConstruct, destruct, copyOf]

omit [Inhabited V] in
/-- A copy with an empty cache is a map of its own, with the contents of the source. -/
theorem refines_copy {h : NodeHeap K V} (R : Refines hashFunc ⟨h, src.obj, src.ptrs⟩ q)
    (hempty : ∀ i, src.obj.m_arrEntries i = none) :
    Refines hashFunc ⟨(copyNodes h src.obj.m_mapEntries.nodes).1, copyOf h src.obj, []⟩
      ⟨q.map, []⟩ where
  inv := {
    entries := ok_copy R.inv.entries
    cache := by
      intro i n hn
      have hnone : (copyOf h src.obj).m_arrEntries i = none := hempty i
      rw [hnone] at hn
      cases hn }
  agree := by
    intro k v
    rw [R.agree k v]
    exact (copy_entry R.inv.entries k v).symm
  lengths := rfl
  denotes := by intro i k hk; simp at hk

theorem lockstep_ok {p' : Pair K V CACHE_SIZE} {s' : PlainPair K V} {op : PairOp K V}
    {out : Out V Unit} (hs : plainPairStep s op = .ok (s', out))
    (hp : pairStep hashFunc r p op = .ok (p', out)) :
    lockstep hashFunc r (p, s) op = .ok ((p', s'), out) := by
  simp only [lockstep, hs, hp, if_true]

/-- An operation on one side is a step of its own plain map and leaves the other side alone. -/
theorem lockstep_on (I : PairInv hashFunc (p, s)) {x : Side} {op : ClientOp K V}
    (hl : legal (p, s) (.on x op)) (hr : erasesNoResidentOf hashFunc (p, s) (.on x op)) :
    ∃ st', (∃ out, ∀ r, lockstep hashFunc r (p, s) (.on x op) = .ok (st', out)) ∧
      PairInv hashFunc st' := by
  obtain ⟨⟨s', out⟩, hs⟩ := hl
  cases hq : s x with
  | none => simp [plainPairStep, hq] at hs
  | some q =>
    cases hstep : plainStep q op with
    | error e => simp [plainPairStep, hq, hstep] at hs
    | ok r =>
      obtain ⟨q', out'⟩ := r
      obtain ⟨o, ho, R⟩ := I.get hq
      obtain ⟨k, hk, R', F⟩ := clientStep_simulates R hstep
      have hplain : plainPairStep s (.on x op) = .ok (Function.update s x (some q'), out') := by
        simp only [plainPairStep, hq, hstep]
      have hpair : ∀ r, pairStep hashFunc r p (.on x op) =
          .ok (⟨k.heap, Function.update p.objs x (some ⟨k.obj, k.ptrs⟩)⟩, out') := by
        intro r
        simp only [pairStep, ho, clientStep_anyRead r R.inv (hr x o op rfl ho), hk]
      have hlt : ∀ o₂, p.objs x.other = some o₂ → ∀ n ∈ o₂.obj.m_mapEntries.nodes,
          n < p.heap.next := by
        intro o₂ ho₂ n hn
        rcases I.sides x.other with ⟨hnone, -⟩ | ⟨o₃, q₃, ho₃, -, R₃⟩
        · rw [ho₂] at hnone
          cases hnone
        · rw [ho₂] at ho₃
          cases ho₃
          obtain ⟨_, _, e⟩ := R₃.inv.entries.live n hn
          exact e.lt_next
      refine ⟨_, ⟨_, fun r => lockstep_ok hplain (hpair r)⟩, I.set x ?_ ?_ ?_⟩
      · intro o₂ ho₂ n hn
        have hnot : n ∉ o.obj.m_mapEntries.nodes := fun h => I.apart x o o₂ ho ho₂ n h hn
        exact F.others n (hlt o₂ ho₂ n hn) hnot
      · exact Or.inr ⟨_, q', rfl, rfl, R'⟩
      · intro o₁ o₂ ho₁ ho₂ n hn₁ hn₂
        cases ho₁
        rcases F.nodes n hn₁ with hold | hnew
        · exact I.apart x o o₂ ho ho₂ n hold hn₂
        · have := hlt o₂ ho₂ n hn₂
          have hnew' : p.heap.next ≤ n := hnew
          omega

/-- A destruction releases the nodes of its own side alone. -/
theorem lockstep_destroy (I : PairInv hashFunc (p, s)) {x : Side}
    (hl : legal (p, s) (.destroy x)) :
    ∃ st', (∃ out, ∀ r, lockstep hashFunc r (p, s) (.destroy x) = .ok (st', out)) ∧
      PairInv hashFunc st' := by
  obtain ⟨⟨s', out⟩, hs⟩ := hl
  cases hq : s x with
  | none => simp [plainPairStep, hq] at hs
  | some q =>
    obtain ⟨o, ho, -⟩ := I.get hq
    have hplain : plainPairStep s (.destroy x) = .ok (Function.update s x none, .unit) := by
      simp only [plainPairStep, hq]
    have hpair : ∀ r, pairStep hashFunc r p (.destroy x) =
        .ok (⟨o.obj.destruct p.heap, Function.update p.objs x none⟩, .unit) := by
      intro r
      simp only [pairStep, ho]
    refine ⟨_, ⟨_, fun r => lockstep_ok hplain (hpair r)⟩, I.set x ?_ (Or.inl ⟨rfl, rfl⟩) ?_⟩
    · intro o₂ ho₂ n hn
      have hnot : n ∉ o.obj.m_mapEntries.nodes := fun h => I.apart x o o₂ ho ho₂ n h hn
      exact Heap.cells_freeAll_of_notMem hnot
    · intro o₁ o₂ ho₁
      cases ho₁

/-- What a legal copy does: the target gets new nodes, the cells of the source stay. -/
theorem lockstep_copy (I : PairInv hashFunc (p, s)) (hl : legal (p, s) (.copy dst)) :
    ∃ src q, p.objs dst.other = some src ∧ s dst.other = some q ∧
      Refines hashFunc ⟨copyHeap p dst, src.obj, src.ptrs⟩ q ∧
      ∀ r, lockstep hashFunc r (p, s) (.copy dst) =
        .ok ((⟨(copyNodes (copyHeap p dst) src.obj.m_mapEntries.nodes).1,
          Function.update p.objs dst (some ⟨copyOf (copyHeap p dst) src.obj, []⟩)⟩,
          Function.update s dst (some ⟨q.map, []⟩)), .unit) := by
  obtain ⟨⟨s', out⟩, hs⟩ := hl
  cases hq : s dst.other with
  | none => simp [plainPairStep, hq] at hs
  | some q =>
    obtain ⟨src, hsrc, R⟩ := I.get hq
    have hplain : plainPairStep s (.copy dst) =
        .ok (Function.update s dst (some ⟨q.map, []⟩), .unit) := by
      simp only [plainPairStep, hq]
    exact ⟨src, q, hsrc, rfl, R.of_cells (copyHeap_src I hsrc),
      fun r => lockstep_ok hplain (pairStep_copy hsrc)⟩

omit [Inhabited V] in
/-- The nodes that `copyNodes` is given here exist. -/
theorem copyNodes_spec_of_refines {h : NodeHeap K V} {o : Held CACHE_SIZE}
    (R : Refines hashFunc ⟨h, o.obj, o.ptrs⟩ q) :
    (∀ a, a < h.next → (copyNodes h o.obj.m_mapEntries.nodes).1.cells a = h.cells a) ∧
      ∀ n ∈ (copyNodes h o.obj.m_mapEntries.nodes).2, h.next ≤ n := by
  obtain ⟨-, hold, hnew, -, -⟩ := copyNodes_spec h o.obj.m_mapEntries.nodes fun n hn => by
    obtain ⟨k, v, e⟩ := R.inv.entries.live n hn
    exact ⟨_, e.2⟩
  exact ⟨hold, hnew⟩

/-- A copy taken of an empty cache keeps the invariant. -/
theorem lockstep_copy_empty (I : PairInv hashFunc (p, s)) (hl : legal (p, s) (.copy dst))
    (hc : copiesEmptyCache (p, s) (.copy dst)) :
    ∃ st', (∃ out, ∀ r, lockstep hashFunc r (p, s) (.copy dst) = .ok (st', out)) ∧
      PairInv hashFunc st' := by
  obtain ⟨src, q, hsrc, hq, R, hstep⟩ := lockstep_copy I hl
  obtain ⟨hold, hnew⟩ := copyNodes_spec_of_refines R
  have hlt : ∀ n ∈ src.obj.m_mapEntries.nodes, n < (copyHeap p dst).next := by
    intro n hn
    obtain ⟨_, _, e⟩ := R.inv.entries.live n hn
    exact e.lt_next
  refine ⟨_, ⟨_, hstep⟩, I.set dst ?_ (Or.inr ⟨_, _, rfl, rfl, ?_⟩) ?_⟩
  · intro o₂ ho₂ n hn
    rw [hsrc] at ho₂
    cases ho₂
    rw [hold n (hlt n hn), copyHeap_src I hsrc n hn]
  · exact refines_copy R (hc dst src rfl hsrc)
  · intro o₁ o₂ ho₁ ho₂ n hn₁ hn₂
    cases ho₁
    rw [hsrc] at ho₂
    cases ho₂
    have h₁ := hnew n hn₁
    have h₂ := hlt n hn₂
    omega

/-- A copy that takes a filled slot along: the lookup of its key ends in the source's cell. -/
theorem lockstep_copy_filled (I : PairInv hashFunc (p, s)) (hl : legal (p, s) (.copy dst))
    (hc : ¬ copiesEmptyCache (p, s) (.copy dst)) {st' : Pair K V CACHE_SIZE × PlainPair K V}
    {out : Out V Unit} (hstep' : lockstep hashFunc r (p, s) (.copy dst) = .ok (st', out)) :
    ¬ Independent hashFunc st' := by
  obtain ⟨src, q, hsrc, hq, R, hstep⟩ := lockstep_copy I hl
  rw [hstep r] at hstep'
  cases hstep'
  obtain ⟨i, n, hslot⟩ : ∃ i n, src.obj.m_arrEntries i = some n := by
    refine Classical.byContradiction fun hno => hc ?_
    intro dst' src' he hsrc' i
    cases he
    rw [hsrc] at hsrc'
    cases hsrc'
    cases hi : src.obj.m_arrEntries i with
    | none => rfl
    | some n => exact absurd ⟨i, n, hi⟩ hno
  obtain ⟨k, v, e, hk⟩ := R.inv.cache i n hslot
  obtain ⟨hold, hnew⟩ := copyNodes_spec_of_refines R
  have hlook : q.map.lookup k = some v := (R.agree k v).mpr ⟨n, e⟩
  have hcell : (copyNodes (copyHeap p dst) src.obj.m_mapEntries.nodes).1.cells n = some ⟨k, v⟩ := by
    rw [hold n e.lt_next]
    exact e.2
  have hcached : (copyOf (copyHeap p dst) src.obj).m_arrEntries (uHash CACHE_SIZE hashFunc k) =
      some n := by
    rw [hk]
    exact hslot
  intro hind
  obtain ⟨r, m', hf, -, hown⟩ := hind dst ⟨copyOf (copyHeap p dst) src.obj, []⟩ ⟨q.map, []⟩
    (Function.update_self ..) (Function.update_self ..) k
  have hfound : find hashFunc (copyNodes (copyHeap p dst) src.obj.m_mapEntries.nodes).1
      (copyOf (copyHeap p dst) src.obj) k = .ok (some n, copyOf (copyHeap p dst) src.obj) := by
    simp only [find, hcached, hcell, if_true]
  rw [hfound] at hf
  cases hf
  obtain ⟨n', hn', e'⟩ := hown v hlook
  cases hn'
  have hge : (copyHeap p dst).next ≤ n := hnew n e'.1
  have hlt : n < (copyHeap p dst).next := e.lt_next
  omega

/-- **Step lemma.** A step that meets the condition is the same under both readings. -/
theorem lockstep_keeps {st : Pair K V CACHE_SIZE × PlainPair K V} {op : PairOp K V}
    (I : PairInv hashFunc st) (hl : legal st op) (hc : copiesEmptyCache st op)
    (hr : erasesNoResidentOf hashFunc st op) :
    ∃ st', (∃ out, ∀ r, lockstep hashFunc r st op = .ok (st', out)) ∧ PairInv hashFunc st' := by
  obtain ⟨p, s⟩ := st
  cases op with
  | on x op => exact lockstep_on I hl hr
  | copy dst => exact lockstep_copy_empty I hl hc
  | destroy x => exact lockstep_destroy I hl

/-- With the stale read trapped, an erase of a resident key ends the run. -/
theorem lockstep_traps_resident (I : PairInv hashFunc (p, s)) {x : Side} {cop : ClientOp K V}
    (hr : ¬ erasesNoResidentOf hashFunc (p, s) (.on x cop))
    {b : (Pair K V CACHE_SIZE × PlainPair K V) × Out V Unit} :
    lockstep hashFunc .traps (p, s) (.on x cop) ≠ .ok b := by
  intro h
  simp only [erasesNoResidentOf, not_forall] at hr
  obtain ⟨y, o, _, he, ho, hr⟩ := hr
  cases he
  change p.objs x = some o at ho
  rcases I.sides x with ⟨hnone, -⟩ | ⟨o', q, ho', -, R⟩
  · rw [ho] at hnone
    cases hnone
  · rw [ho] at ho'
    cases ho'
    obtain ⟨n, hfault⟩ := clientStep_traps_resident R.inv hr
    have hpair : pairStep hashFunc .traps p (.on x cop) = .error (.dangling n) := by
      simp only [pairStep, ho, hfault]
    cases hs : plainPairStep s (.on x cop) with
    | error e => simp [lockstep, hs] at h
    | ok t => simp [lockstep, hs, hpair] at h

/-- What is legal for two plain maps is legal for the pair that runs beside them. -/
theorem legal_of_run {ops : List (PairOp K V)} {t : PlainPair K V × List (Out V Unit)}
    (h : run plainPairStep s ops = .ok t) : EachStep (lockstep hashFunc r) legal (p, s) ops := by
  induction ops generalizing p s t with
  | nil => trivial
  | cons op ops ih =>
    obtain ⟨s', out, outs, hs, hrest, -⟩ := run_cons_eq_ok.mp h
    refine ⟨⟨_, hs⟩, fun st' b hstep => ?_⟩
    simp only [lockstep, hs] at hstep
    cases hp : pairStep hashFunc r p op with
    | error f => simp [hp] at hstep
    | ok r' =>
      obtain ⟨p', out'⟩ := r'
      by_cases he : out' = out
      · simp only [hp, he, if_true] at hstep
        cases hstep
        exact ih hrest
      · simp [hp, he] at hstep

/-- **Run lemma.** A run whose steps meet the condition is independent under either reading. -/
theorem independent_along (r : StaleRead) {st : Pair K V CACHE_SIZE × PlainPair K V}
    {ops : List (PairOp K V)} (I : PairInv hashFunc st)
    (hl : EachStep (lockstep hashFunc .traps) legal st ops)
    (hc : EachStep (lockstep hashFunc .traps)
      (fun st op => copiesEmptyCache st op ∧ erasesNoResidentOf hashFunc st op) st ops) :
    AllAlong (lockstep hashFunc r) (Independent hashFunc) st ops := by
  induction ops generalizing st with
  | nil => exact I.independent
  | cons op ops ih =>
    obtain ⟨st', ⟨out, hstep⟩, I'⟩ := lockstep_keeps I hl.1 hc.1.1 hc.1.2
    exact ⟨I.independent, st', out, hstep r,
      ih I' (hl.2 st' out (hstep .traps)) (hc.2 st' out (hstep .traps))⟩

/-- **Copies.** Two maps behave as independent plain maps all along a run, copies and
destructions included and whatever `erase` sees of the nodes it removed, iff no copy in it is taken
of a map with a filled cache slot and no resident key is erased. -/
theorem copies_independent_iff (hashFunc : K → UInt64) (ops : List (PairOp K V))
    (hl : ∃ t, run plainPairStep PlainPair.init ops = .ok t) :
    (∀ r, AllAlong (lockstep hashFunc r) (Independent hashFunc)
        ((Pair.init : Pair K V CACHE_SIZE), PlainPair.init) ops) ↔
      EachStep (lockstep hashFunc .traps)
        (fun st op => copiesEmptyCache st op ∧ erasesNoResidentOf hashFunc st op)
        ((Pair.init : Pair K V CACHE_SIZE), PlainPair.init) ops := by
  obtain ⟨t, ht⟩ := hl
  refine ⟨fun h => ?_, fun hc r => independent_along r pairInv_init (legal_of_run ht) hc⟩
  refine (allAlong_iff_eachStep (PairInv hashFunc) (fun _ => PairInv.independent) ?_ ?_
    pairInv_init (legal_of_run ht)).mp (h .traps)
  · rintro st op I hl ⟨hc, hr⟩
    obtain ⟨st', ⟨out, hstep⟩, I'⟩ := lockstep_keeps I hl hc hr
    exact ⟨st', out, hstep .traps, I'⟩
  · rintro ⟨p, s⟩ op st' out I hl hc hstep
    cases op with
    | on x cop =>
      have hcopies : copiesEmptyCache (p, s) (.on x cop) := fun dst src he => by cases he
      exact absurd hstep (lockstep_traps_resident I fun hr => hc ⟨hcopies, hr⟩)
    | copy dst =>
      have hreads : erasesNoResidentOf hashFunc (p, s) (.copy dst) := fun x o cop he => by cases he
      exact lockstep_copy_filled I hl (fun hcopies => hc ⟨hcopies, hreads⟩) hstep
    | destroy x =>
      refine (hc ⟨fun dst src he => ?_, fun y o cop he => ?_⟩).elim
      · cases he
      · cases he

/-- A map is copied after `clear`, an erase finds its slot taken over by key 4, and then a copy is
taken of a filled cache. -/
theorem copies_independent_iff_sample :
    (∀ r, AllAlong (lockstep (fun key : Nat => key.toUInt64) r)
        (Independent fun key : Nat => key.toUInt64) ((Pair.init : Pair Nat Nat 2), PlainPair.init)
        [.on .m (.call (.insert 1 10 true)), .on .m (.call .clear), .copy .c,
          .on .c (.call (.insert 2 20 true)), .on .c (.call (.insert 4 40 true)),
          .on .c (.call (.erase 2)), .copy .m, .destroy .c]) ↔
      EachStep (lockstep (fun key : Nat => key.toUInt64) .traps)
        (fun st op => copiesEmptyCache st op ∧
          erasesNoResidentOf (fun key : Nat => key.toUInt64) st op)
        ((Pair.init : Pair Nat Nat 2), PlainPair.init)
        [.on .m (.call (.insert 1 10 true)), .on .m (.call .clear), .copy .c,
          .on .c (.call (.insert 2 20 true)), .on .c (.call (.insert 4 40 true)),
          .on .c (.call (.erase 2)), .copy .m, .destroy .c] :=
  copies_independent_iff _ _ ⟨_, rfl⟩

/-- A write through the pointer that the copy returned changes what the source holds. -/
theorem copy_write_reaches_source :
    ((run (pairStep (fun key : Nat => key.toUInt64) .traps) (Pair.init : Pair Nat Nat 2)
        [.on .m (.call (.insert 1 10 true)), .destroy .c, .copy .c, .on .c (.call (.find 1)),
          .on .c (.write 0 20), .on .m (.call (.find 1)), .on .m (.read 0)]).map Prod.snd =
      .ok [.bool true, .unit, .unit, .ptr (some ()), .unit, .ptr (some ()), .value 20]) ∧
    ((run plainPairStep (PlainPair.init : PlainPair Nat Nat)
        [.on .m (.call (.insert 1 10 true)), .destroy .c, .copy .c, .on .c (.call (.find 1)),
          .on .c (.write 0 20), .on .m (.call (.find 1)), .on .m (.read 0)]).map Prod.snd =
      .ok [.bool true, .unit, .unit, .ptr (some ()), .unit, .ptr (some ()), .value 10]) :=
  ⟨rfl, rfl⟩

end Pairs

end Lldk.UnorderedMap
