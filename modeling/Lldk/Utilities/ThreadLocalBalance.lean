import Lldk.Utilities.ThreadLocalOwnership

/-!
Whether `LldkThreadLocal` objects give back what they take.

* `Accounted`: every object that a constructor created is still its holder's, or was destroyed
  once and its storage freed once; nothing else is in memory but slot tables, and nothing else
  is marked in `s_bitset`.
* The destructor frees what is in the slot of the thread it runs on, and a move assignment
  overwrites the id of its target, so that `endsAtHome` is what a program has to keep to.
* `accounted_iff`: along every run without allocation failures the books are right iff each step
  keeps to it; `Settled` is what is then left when no object holds an id.
-/

namespace Lldk

open Lib Lib.Trace Process

variable {β : Type}

structure Accounted (w : World β) : Prop where
  created : ∀ a, w.proc.log.count (.created a) ≤ 1
  once : ∀ a, .created a ∈ w.proc.log →
    ((∃ inst, Holder w inst ∧ inst.pStorage = a) ∧
      w.proc.log.count (.destroyed a) = 0 ∧ w.proc.log.count (.freed a) = 0) ∨
    ((∀ inst, Holder w inst → inst.pStorage ≠ a) ∧ w.proc.heap.cells a = none ∧
      w.proc.log.count (.destroyed a) = 1 ∧ w.proc.log.count (.freed a) = 1)
  only : ∀ a, .destroyed a ∈ w.proc.log ∨ .freed a ∈ w.proc.log → .created a ∈ w.proc.log
  memory : ∀ b block, w.proc.heap.cells b = some block →
    (∃ t table, w.proc.s_ppInstances t = some table ∧ table.addr = b) ∨
      ∃ inst, Holder w inst ∧ inst.pStorage = b
  ids : ∀ i, w.proc.marked i ↔ ∃ inst, Holder w inst ∧ inst.obj.m_uInstanceId = i

/-- Every object created was destroyed and its storage freed once, the memory holds slot tables
only, and no id is marked. -/
structure Settled (w : World β) : Prop where
  once : ∀ a, .created a ∈ w.proc.log → w.proc.log.count (.destroyed a) = 1 ∧
    w.proc.log.count (.freed a) = 1
  memory : ∀ b block, w.proc.heap.cells b = some block →
    ∃ t table, w.proc.s_ppInstances t = some table ∧ table.addr = b
  ids : ∀ i, ¬ w.proc.marked i

/-- No allocation fails, the objects named are alive, and they are destroyed on threads with a
table. -/
def noAllocFailure (w : World β) : WorldOp → Prop
  | .construct _ o env => w.objs o = none ∧ env.storageMem = true ∧ env.tableMem = true ∧
      env.pushMem = true
  | .moveConstruct o src => w.objs o = none ∧ (w.objs src).isSome = true
  | .moveAssign o src => (w.objs o).isSome = true ∧ (w.objs src).isSome = true
  | .destroy t o => (w.objs o).isSome = true ∧ w.proc.hasTable t
  | .get _ _ => False
  | .foreach _ _ _ => False

instance (w : World β) (op : WorldOp) : Decidable (noAllocFailure w op) :=
  match op with
  | .construct _ o env => inferInstanceAs (Decidable (w.objs o = none ∧ env.storageMem = true ∧
      env.tableMem = true ∧ env.pushMem = true))
  | .moveConstruct o src =>
    inferInstanceAs (Decidable (w.objs o = none ∧ (w.objs src).isSome = true))
  | .moveAssign o src =>
    inferInstanceAs (Decidable ((w.objs o).isSome = true ∧ (w.objs src).isSome = true))
  | .destroy t o => inferInstanceAs (Decidable ((w.objs o).isSome = true ∧ w.proc.hasTable t))
  | .get _ _ => inferInstanceAs (Decidable False)
  | .foreach _ _ _ => inferInstanceAs (Decidable False)

/-- `T()` does not throw in a constructor that has got an id, nothing is moved onto an object
that holds one, and objects that hold one are destroyed, where they were constructed. -/
def endsAtHome (w : World β) : WorldOp → Prop
  | .construct _ _ env => env.ctorThrows = false ∨ ∀ i, i < kMaxInstanceId → w.proc.marked i
  | .moveConstruct _ _ => True
  | .moveAssign o src => o = src ∨ ∀ inst ∈ w.objs o, ¬ inst.obj.m_uInstanceId < kMaxInstanceId
  | .destroy t o => ∀ inst ∈ w.objs o, inst.obj.m_uInstanceId < kMaxInstanceId ∧ inst.tid = t
  | .get _ _ => True
  | .foreach _ _ _ => True

/-! ## The invariant -/

structure BalInv (w : World β) : Prop where
  owners : OwnInv w
  books : Accounted w
  logged : ∀ a, .created a ∈ w.proc.log → a < w.proc.heap.next
  held : ∀ inst, Holder w inst → .created inst.pStorage ∈ w.proc.log

theorem balInv_init : BalInv (World.init : World β) where
  owners := ownInv_init
  books := by
    refine ⟨fun a => Nat.zero_le _, fun a ha => ?_, fun a ha => ?_, fun b block hb => ?_,
      fun i => ⟨fun h => ?_, fun h => ?_⟩⟩
    · cases ha
    · rcases ha with ha | ha <;> cases ha
    · cases hb
    · have hbit := (marked_iff.mp h).2
      rw [show (World.init : World β).proc.s_bitset = .new from rfl, Bitset.LldkBitset.bit_new]
        at hbit
      cases hbit
    · obtain ⟨inst, ⟨o, ho, -⟩, -⟩ := h
      cases ho
  logged := by
    intro a ha
    cases ha
  held := by
    rintro inst ⟨o, ho, -⟩
    cases ho

namespace BalInv

variable {w : World β} {o src : Nat} {inst that : Instance}

/-- Nothing that happened before has to do with the block that comes next. -/
theorem fresh (I : BalInv w) {e : Event}
    (he : e = .created w.proc.heap.next ∨ e = .destroyed w.proc.heap.next ∨
      e = .freed w.proc.heap.next) : e ∉ w.proc.log := by
  have hnot : .created w.proc.heap.next ∉ w.proc.log :=
    fun h => absurd (I.logged _ h) (Nat.lt_irrefl _)
  rcases he with rfl | rfl | rfl
  · exact hnot
  · exact fun h => hnot (I.books.only _ (Or.inl h))
  · exact fun h => hnot (I.books.only _ (Or.inr h))

/-- A holder's object was neither destroyed nor its storage freed. -/
theorem holder_counts (I : BalInv w) (h : Holder w inst) :
    w.proc.log.count (.destroyed inst.pStorage) = 0 ∧
      w.proc.log.count (.freed inst.pStorage) = 0 := by
  rcases I.books.once _ (I.held inst h) with ⟨-, hcounts⟩ | ⟨hnone, -⟩
  · exact hcounts
  · exact absurd rfl (hnone inst h)

/-- The books speak of holders, not of the objects that they are. -/
theorem congr (I : BalInv w) {objs : Nat → Option Instance} (hown : OwnInv { w with objs := objs })
    (hold : ∀ inst, Holder { w with objs := objs } inst ↔ Holder w inst) :
    BalInv { w with objs := objs } where
  owners := hown
  books := by
    refine ⟨I.books.created, fun a ha => ?_, I.books.only, fun b block hb => ?_, fun i => ?_⟩
    · simp only [hold]
      exact I.books.once a ha
    · simp only [hold]
      exact I.books.memory b block hb
    · simp only [hold]
      exact I.books.ids i
  logged := I.logged
  held := by
    intro inst h
    exact I.held inst ((hold inst).mp h)

/-- A move onto an object without an id. -/
theorem transfer (I : BalInv w) (hsrc : w.objs src = some that) (hne : o ≠ src)
    (hno : ∀ inst, ¬ holds w o inst) : BalInv { w with objs := moved w.objs o src that } := by
  refine I.congr (I.owners.transfer hsrc hne) fun inst => ⟨holder_moved hsrc, ?_⟩
  rintro ⟨o', ho', hi⟩
  have hne' : o' ≠ o := by
    rintro rfl
    exact hno inst ⟨ho', hi⟩
  by_cases hs : o' = src
  · rw [hs, hsrc] at ho'
    cases ho'
    exact ⟨o, Function.update_self .., hi⟩
  · exact ⟨o', (Function.update_of_ne hne' ..).trans ((Function.update_of_ne hs ..).trans ho'), hi⟩

/-! ### A construction -/

/-- A construction creates one object, and logs nothing else. -/
theorem count_construct {T : ObjectType β} {t : Tid} {p p' : Process β} (hk : Booked T p t p')
    {e : Event} (he : e ≠ .created p.heap.next) : p'.log.count e = p.log.count e := by
  rw [hk.log, List.count_append, List.count_singleton, if_neg]
  · rfl
  · simpa using Ne.symm he

theorem created_construct {T : ObjectType β} {t : Tid} {p p' : Process β} (hk : Booked T p t p')
    {a : Nat} (ha : .created a ∈ p'.log) : a = p.heap.next ∨ .created a ∈ p.log := by
  rw [hk.log, List.mem_append, List.mem_singleton] at ha
  exact ha.symm.imp_left Event.created.inj

section Construct

variable {T : ObjectType β} {t : Tid} {i : Nat} {p : Process β}

/-- An object is the new one, a holder's of before, or gone before. -/
theorem once_construct (I : BalInv w) (ho : w.objs o = none) (hi : i < kMaxInstanceId)
    (hk : Booked T w.proc t p) {a : Nat} (ha : .created a ∈ p.log) :
    ((∃ inst, Holder ⟨p, Function.update w.objs o (some ⟨⟨i⟩, t, w.proc.heap.next⟩)⟩ inst ∧
        inst.pStorage = a) ∧ p.log.count (.destroyed a) = 0 ∧ p.log.count (.freed a) = 0) ∨
      ((∀ inst, Holder ⟨p, Function.update w.objs o (some ⟨⟨i⟩, t, w.proc.heap.next⟩)⟩ inst →
        inst.pStorage ≠ a) ∧ p.heap.cells a = none ∧
          p.log.count (.destroyed a) = 1 ∧ p.log.count (.freed a) = 1) := by
  rw [count_construct hk (e := .destroyed a) Event.noConfusion,
    count_construct hk (e := .freed a) Event.noConfusion]
  by_cases hnext : a = w.proc.heap.next
  · subst hnext
    exact Or.inl ⟨⟨⟨⟨i⟩, t, w.proc.heap.next⟩, ⟨o, Function.update_self .., hi⟩, rfl⟩,
      List.count_eq_zero_of_not_mem (I.fresh (Or.inr (Or.inl rfl))),
      List.count_eq_zero_of_not_mem (I.fresh (Or.inr (Or.inr rfl)))⟩
  · have hold := (created_construct hk ha).resolve_left hnext
    have hlt := I.logged a hold
    rcases I.books.once a hold with ⟨⟨inst, h, he⟩, hc⟩ | ⟨hnone, hgone, hc⟩
    · exact Or.inl ⟨⟨inst, holder_of_construct ho h, he⟩, hc⟩
    · refine Or.inr ⟨fun inst h he => ?_, ?_, hc⟩
      · rcases holder_construct h with rfl | h
        · exact hnext he.symm
        · exact hnone inst h he
      · cases hcell : p.heap.cells a with
        | none => rfl
        | some block =>
          rcases hk.cells a block hcell with hb | hb | ⟨hb, -⟩
          · rw [hgone] at hb
            cases hb
          · exact absurd hb hnext
          · omega

/-- A block is a slot table or the storage of a holder. -/
theorem memory_construct (I : BalInv w) (ho : w.objs o = none) (hi : i < kMaxInstanceId)
    (hk : Booked T w.proc t p) {b : Nat} {block : Block β} (hcell : p.heap.cells b = some block) :
    (∃ t' table, p.s_ppInstances t' = some table ∧ table.addr = b) ∨
      ∃ inst, Holder ⟨p, Function.update w.objs o (some ⟨⟨i⟩, t, w.proc.heap.next⟩)⟩ inst ∧
        inst.pStorage = b := by
  rcases hk.cells b block hcell with hb | rfl | ⟨-, table, ht, he⟩
  · rcases I.books.memory b block hb with ⟨t', table, ht, he⟩ | ⟨inst, h, he⟩
    · obtain ⟨table', ht', he'⟩ := hk.addrs t' table ht
      exact Or.inl ⟨t', table', ht', he'.trans he⟩
    · exact Or.inr ⟨inst, holder_of_construct ho h, he⟩
  · exact Or.inr ⟨⟨⟨i⟩, t, w.proc.heap.next⟩, ⟨o, Function.update_self .., hi⟩, rfl⟩
  · exact Or.inl ⟨t, table, ht, he⟩

/-- The ids in use are the new one and those of before. -/
theorem ids_construct (I : BalInv w) (ho : w.objs o = none) (hi : i < kMaxInstanceId)
    (hb : Built T w.proc t i p) (j : Nat) :
    p.marked j ↔ ∃ inst, Holder ⟨p, Function.update w.objs o
      (some ⟨⟨i⟩, t, w.proc.heap.next⟩)⟩ inst ∧ inst.obj.m_uInstanceId = j := by
  rw [hb.marked j, I.books.ids j]
  constructor
  · rintro (⟨inst, h, he⟩ | rfl)
    · exact ⟨inst, holder_of_construct ho h, he⟩
    · exact ⟨⟨⟨j⟩, t, w.proc.heap.next⟩, ⟨o, Function.update_self .., hi⟩, rfl⟩
  · rintro ⟨inst, h, he⟩
    rcases holder_construct h with rfl | h
    · exact Or.inr he.symm
    · exact Or.inl ⟨inst, h, he⟩

/-- A construction that succeeds enters one object, one storage and one id. -/
theorem construct (I : BalInv w) (ho : w.objs o = none) (hi : i < kMaxInstanceId)
    (hfree : ¬ w.proc.marked i) (hb : Built T w.proc t i p) (hk : Booked T w.proc t p) :
    BalInv ⟨p, Function.update w.objs o (some ⟨⟨i⟩, t, w.proc.heap.next⟩)⟩ := by
  refine ⟨I.owners.construct hi hfree hb, ⟨fun a => ?_, fun a ha => I.once_construct ho hi hk ha,
    fun a ha => ?_, fun b block hcell => I.memory_construct ho hi hk hcell,
    I.ids_construct ho hi hb⟩, fun a ha => ?_, fun inst h => ?_⟩
  · show p.log.count _ ≤ 1
    by_cases ha : a = w.proc.heap.next
    · subst ha
      rw [hk.log, List.count_append, List.count_eq_zero_of_not_mem (I.fresh (Or.inl rfl))]
      simp
    · rw [count_construct hk fun he => ha (Event.created.inj he)]
      exact I.books.created a
  · have hold : .destroyed a ∈ w.proc.log ∨ .freed a ∈ w.proc.log := by
      rw [show p.log = _ from hk.log] at ha
      simpa using ha
    rw [show p.log = _ from hk.log]
    exact List.mem_append_left _ (I.books.only a hold)
  · have hnext := hb.next
    rcases created_construct hk ha with rfl | ha
    · exact hnext
    · exact Nat.lt_trans (I.logged a ha) hnext
  · rw [show p.log = _ from hk.log]
    rcases holder_construct h with rfl | h
    · exact List.mem_append_right _ (List.mem_singleton_self _)
    · exact List.mem_append_left _ (I.held inst h)

end Construct

/-! ### A destruction -/

section Destroy

variable {p : Process β}

theorem log_destroy (I : BalInv w) (h : holds w o inst)
    (hd : inst.obj.destruct w.proc inst.tid = .ok p) :
    p.log = w.proc.log ++ [.destroyed inst.pStorage, .freed inst.pStorage] := by
  rw [LldkThreadLocal.destruct_log hd, I.owners.own inst ⟨o, h⟩]

/-- A holder afterwards is another holder of before, with another storage. -/
theorem apart_destroy (I : BalInv w) (h : holds w o inst) {inst' : Instance}
    (h' : Holder ⟨p, Function.update w.objs o none⟩ inst') :
    Holder w inst' ∧ inst'.pStorage ≠ inst.pStorage := by
  obtain ⟨o', h'⟩ := h'
  obtain ⟨hne, hw⟩ := holds_destroy h'
  exact ⟨⟨o', hw⟩, fun he => hne (I.owners.apart hw h he)⟩

/-- Memory other than the storage is as it was. -/
theorem cells_destroy (I : BalInv w) (h : holds w o inst)
    (hd : inst.obj.destruct w.proc inst.tid = .ok p) {b : Nat} (hb : b ≠ inst.pStorage) :
    p.heap.cells b = w.proc.heap.cells b := by
  refine (LldkThreadLocal.destruct_destructed hd).others b ?_
  rw [I.owners.own inst ⟨o, h⟩]
  exact fun he => hb (Option.some.inj he).symm

/-- The object that goes is destroyed and its storage freed; the others are as they were. -/
theorem once_destroy (I : BalInv w) (h : holds w o inst)
    (hd : inst.obj.destruct w.proc inst.tid = .ok p) {a : Nat} (ha : .created a ∈ w.proc.log) :
    ((∃ inst', Holder ⟨p, Function.update w.objs o none⟩ inst' ∧ inst'.pStorage = a) ∧
        p.log.count (.destroyed a) = 0 ∧ p.log.count (.freed a) = 0) ∨
      ((∀ inst', Holder ⟨p, Function.update w.objs o none⟩ inst' → inst'.pStorage ≠ a) ∧
        p.heap.cells a = none ∧ p.log.count (.destroyed a) = 1 ∧
          p.log.count (.freed a) = 1) := by
  have hcount : ∀ e, p.log.count e = w.proc.log.count e +
      (if e = .destroyed inst.pStorage then 1 else 0) +
      (if e = .freed inst.pStorage then 1 else 0) := by
    intro e
    rw [I.log_destroy h hd, List.count_append, List.count_cons, List.count_singleton]
    simp only [beq_iff_eq, eq_comm (b := e)]
    omega
  rw [hcount, hcount, if_neg (Event.noConfusion : Event.destroyed a ≠ .freed inst.pStorage),
    if_neg (Event.noConfusion : Event.freed a ≠ .destroyed inst.pStorage)]
  by_cases he : a = inst.pStorage
  · subst he
    obtain ⟨hd₀, hf₀⟩ := I.holder_counts ⟨o, h⟩
    refine Or.inr ⟨fun inst' h' => (I.apart_destroy h h').2,
      (LldkThreadLocal.destruct_destructed hd).gone _ (I.owners.own inst ⟨o, h⟩), ?_, ?_⟩
    · rw [hd₀, if_pos rfl]
    · rw [hf₀, if_pos rfl]
  · rw [if_neg fun h' => he (Event.destroyed.inj h'), if_neg fun h' => he (Event.freed.inj h')]
    rcases I.books.once a ha with ⟨⟨inst', h', ha'⟩, hc⟩ | ⟨hnone, hgone, hc⟩
    · refine Or.inl ⟨⟨inst', holder_of_destroy h.1 h' ?_, ha'⟩, hc⟩
      rintro rfl
      exact he ha'.symm
    · exact Or.inr ⟨fun inst' h' => hnone inst' (I.apart_destroy h h').1,
        (I.cells_destroy h hd he).trans hgone, hc⟩

theorem memory_destroy (I : BalInv w) (h : holds w o inst)
    (hd : inst.obj.destruct w.proc inst.tid = .ok p) {b : Nat} {block : Block β}
    (hcell : p.heap.cells b = some block) :
    (∃ t table, p.s_ppInstances t = some table ∧ table.addr = b) ∨
      ∃ inst', Holder ⟨p, Function.update w.objs o none⟩ inst' ∧ inst'.pStorage = b := by
  have hq := LldkThreadLocal.destruct_destructed hd
  have hne : b ≠ inst.pStorage := by
    rintro rfl
    rw [hq.gone _ (I.owners.own inst ⟨o, h⟩)] at hcell
    cases hcell
  rw [I.cells_destroy h hd hne] at hcell
  rcases I.books.memory b block hcell with ⟨t, table, ht, ha⟩ | ⟨inst', h', ha⟩
  · exact Or.inl ⟨t, table, (congrFun hq.s_ppInstances t).trans ht, ha⟩
  · refine Or.inr ⟨inst', holder_of_destroy h.1 h' ?_, ha⟩
    rintro rfl
    exact hne ha.symm

theorem ids_destroy (I : BalInv w) (h : holds w o inst)
    (hd : inst.obj.destruct w.proc inst.tid = .ok p) (j : Nat) :
    p.marked j ↔ ∃ inst', Holder ⟨p, Function.update w.objs o none⟩ inst' ∧
      inst'.obj.m_uInstanceId = j := by
  rw [(LldkThreadLocal.destruct_destructed hd).marked j, I.books.ids j]
  constructor
  · rintro ⟨⟨inst', h', rfl⟩, hne⟩
    refine ⟨inst', holder_of_destroy h.1 h' ?_, rfl⟩
    rintro rfl
    exact hne rfl
  · rintro ⟨inst', ⟨o', h'⟩, rfl⟩
    obtain ⟨hne, hw⟩ := holds_destroy h'
    refine ⟨⟨inst', ⟨o', hw⟩, rfl⟩, fun he => hne ?_⟩
    exact I.owners.ids.unique o' o inst' inst hw.1 h.1 hw.2 he

/-- A destruction on the thread of the construction strikes out what that had entered. -/
theorem destroy (I : BalInv w) (h : holds w o inst)
    (hd : inst.obj.destruct w.proc inst.tid = .ok p) :
    BalInv ⟨p, Function.update w.objs o none⟩ := by
  have hq := LldkThreadLocal.destruct_destructed hd
  have hlog := I.log_destroy h hd
  have hcreated : ∀ a, .created a ∈ p.log ↔ .created a ∈ w.proc.log := by
    intro a
    rw [hlog]
    simp
  refine ⟨I.owners.destroy h.1 h.2 hq, ⟨fun a => ?_,
    fun a ha => I.once_destroy h hd ((hcreated a).mp ha), fun a ha => ?_,
    fun b block hcell => I.memory_destroy h hd hcell, I.ids_destroy h hd⟩, fun a ha => ?_,
    fun inst' h' => (hcreated _).mpr (I.held inst' (I.apart_destroy h h').1)⟩
  · show p.log.count _ ≤ 1
    have hcount : p.log.count (.created a) = w.proc.log.count (.created a) := by
      rw [hlog, List.count_append]
      simp
    rw [hcount]
    exact I.books.created a
  · rw [hcreated]
    by_cases he : a = inst.pStorage
    · rw [he]
      exact I.held inst ⟨o, h⟩
    · refine I.books.only a ?_
      rw [show p.log = _ from hlog] at ha
      simpa [he] using ha
  · show a < p.heap.next
    rw [hq.next]
    exact I.logged a ((hcreated a).mp ha)

end Destroy

end BalInv

/-! ## Steps -/

variable (T : ObjectType β)

theorem balInv_construct {w : World β} (I : BalInv w) {t : Tid} {o : Nat} {env : Env}
    (hl : noAllocFailure w (.construct t o env)) (hc : endsAtHome w (.construct t o env)) :
    ∃ w' out, worldStep T w (.construct t o env) = .ok (w', out) ∧ BalInv w' := by
  obtain ⟨ho, hmem, htable, hpush⟩ := hl
  rcases exists_least_free w.proc with ⟨i, hi, hfree, hleast⟩ | hall
  · have hctor : env.ctorThrows = false := hc.resolve_right fun hall => hfree (hall i hi)
    have henv : env.serves w.proc t := ⟨hmem, hctor, Or.inr ⟨htable, hpush⟩⟩
    obtain ⟨p, hs, hb⟩ := LldkThreadLocal.construct_built T hi hfree hleast henv
    exact ⟨_, _, worldStep_construct_object ho hs,
      I.construct ho hi hfree hb (LldkThreadLocal.construct_booked T hs)⟩
  · have hs := LldkThreadLocal.construct_exhausted T hall t env
    exact ⟨_, _, worldStep_construct_threw ho hs, I⟩

/-- **Step lemma.** -/
theorem balInv_step (w : World β) (op : WorldOp) (I : BalInv w) (hl : noAllocFailure w op)
    (hc : endsAtHome w op) : ∃ w' out, worldStep T w op = .ok (w', out) ∧ BalInv w' := by
  cases op with
  | construct t o env => exact balInv_construct T I hl hc
  | moveConstruct o src =>
    obtain ⟨ho, hsome⟩ := hl
    obtain ⟨that, hsrc⟩ := Option.isSome_iff_exists.mp hsome
    have hne : o ≠ src := by
      rintro rfl
      rw [ho] at hsrc
      cases hsrc
    refine ⟨_, _, worldStep_moveConstruct ho hsrc, I.transfer hsrc hne fun inst h => ?_⟩
    cases ho.symm.trans h.1
  | moveAssign o src =>
    obtain ⟨inst, ho⟩ := Option.isSome_iff_exists.mp hl.1
    obtain ⟨that, hsrc⟩ := Option.isSome_iff_exists.mp hl.2
    by_cases hne : o = src
    · subst hne
      exact ⟨_, _, worldStep_moveAssign_self ho, I⟩
    · have hno := hc.resolve_left hne
      exact ⟨_, _, worldStep_moveAssign hne ho hsrc,
        I.transfer hsrc hne fun inst' h => hno inst' h.1 h.2⟩
  | destroy t o =>
    obtain ⟨inst, ho⟩ := Option.isSome_iff_exists.mp hl.1
    obtain ⟨hi, rfl⟩ := hc inst ho
    obtain ⟨p, hd, -⟩ :=
      LldkThreadLocal.destruct_spec hi hl.2 (I.owners.slotLive ⟨o, ho, hi⟩)
    exact ⟨_, _, worldStep_destroy ho hd, I.destroy ⟨ho, hi⟩ hd⟩
  | get t o => exact absurd hl id
  | foreach t o answer => exact absurd hl id

/-- `T()` throws: nobody holds the id that the constructor got. -/
theorem construct_loses_id {w w' : World β} {t : Tid} {o : Nat} {env : Env} {out : WorldOut}
    (I : BalInv w) (hl : noAllocFailure w (.construct t o env))
    (hc : ¬ endsAtHome w (.construct t o env))
    (hs : worldStep T w (.construct t o env) = .ok (w', out)) : ¬ Accounted w' := by
  obtain ⟨ho, hmem, -, -⟩ := hl
  obtain ⟨hthrows, hsome⟩ : env.ctorThrows = true ∧
      ¬ ∀ i, i < kMaxInstanceId → w.proc.marked i := by
    simpa [endsAtHome, not_or] using hc
  obtain ⟨i, hi, hfree, hleast⟩ := (exists_least_free w.proc).resolve_right hsome
  obtain ⟨p, hcon, hmarked⟩ :=
    LldkThreadLocal.construct_ctorThrows T (t := t) hi hfree hleast hmem hthrows
  rw [worldStep_construct_threw ho hcon] at hs
  cases hs
  intro hbooks
  obtain ⟨inst, h, rfl⟩ := (hbooks.ids i).mp hmarked
  exact hfree (I.owners.marked_of_holder h)

/-- The id of an object that is moved onto stays marked, and nobody holds it. -/
theorem moveAssign_loses_id {w w' : World β} {o src : Nat} {out : WorldOut} (I : BalInv w)
    (hl : noAllocFailure w (.moveAssign o src)) (hc : ¬ endsAtHome w (.moveAssign o src))
    (hs : worldStep T w (.moveAssign o src) = .ok (w', out)) : ¬ Accounted w' := by
  obtain ⟨that, hsrc⟩ := Option.isSome_iff_exists.mp hl.2
  obtain ⟨hne, hheld⟩ : o ≠ src ∧
      ¬ ∀ inst ∈ w.objs o, ¬ inst.obj.m_uInstanceId < kMaxInstanceId := by
    simpa only [endsAtHome, not_or] using hc
  push Not at hheld
  obtain ⟨inst, ho, hi⟩ := hheld
  rw [worldStep_moveAssign hne ho hsrc] at hs
  cases hs
  intro hbooks
  obtain ⟨inst', ⟨o', h'⟩, he⟩ :=
    (hbooks.ids _).mp (I.owners.marked_of_holder ⟨o, ho, hi⟩)
  rcases holds_moved h' with ⟨-, rfl⟩ | ⟨hno, -, hw⟩
  · exact hne (I.owners.ids.unique o src inst inst' ho hsrc hi he.symm)
  · exact hno (I.owners.ids.unique o' o inst' inst hw.1 ho hw.2 he)

/-- A destruction on another thread does not reach the storage. -/
theorem destroy_loses_storage {w w' : World β} {t : Tid} {o : Nat} {out : WorldOut}
    (I : BalInv w) (hc : ¬ endsAtHome w (.destroy t o))
    (hs : worldStep T w (.destroy t o) = .ok (w', out)) : ¬ Accounted w' := by
  cases stepped_of_ok hs with
  | destroyed ho hd =>
    rename_i inst p
    obtain ⟨hi, -⟩ := LldkThreadLocal.destruct_ok hd
    have ht : t ≠ inst.tid := by
      rintro rfl
      refine hc fun inst' ho' => ?_
      rw [ho] at ho'
      cases ho'
      exact ⟨hi, rfl⟩
    have hslot : w.proc.slot t inst.obj.m_uInstanceId ≠ some inst.pStorage :=
      fun ha => ht (I.owners.placed inst _ _ ⟨o, ho, hi⟩ ha).1
    have hlog := LldkThreadLocal.destruct_log hd
    have hcount : p.log.count (.destroyed inst.pStorage) = 0 := by
      rw [hlog, List.count_append, (I.holder_counts ⟨o, ho, hi⟩).1, Nat.zero_add]
      cases ha : w.proc.slot t inst.obj.m_uInstanceId with
      | none => rfl
      | some a =>
        have hne : a ≠ inst.pStorage := by
          rintro rfl
          exact hslot ha
        simp [hne]
    have hcreated : .created inst.pStorage ∈ p.log := by
      rw [hlog]
      exact List.mem_append_left _ (I.held inst ⟨o, ho, hi⟩)
    intro hbooks
    rcases hbooks.once _ hcreated with ⟨⟨inst', ⟨o', h'⟩, he⟩, -⟩ | ⟨-, -, hone, -⟩
    · obtain ⟨hne, hw⟩ := holds_destroy h'
      exact hne (I.owners.apart hw ⟨ho, hi⟩ he)
    · rw [show (⟨p, Function.update w.objs o none⟩ : World β).proc.log = p.log from rfl, hcount]
        at hone
      cases hone

theorem loses_track {w w' : World β} {op : WorldOp} {out : WorldOut} (I : BalInv w)
    (hl : noAllocFailure w op) (hc : ¬ endsAtHome w op)
    (hs : worldStep T w op = .ok (w', out)) : ¬ Accounted w' := by
  cases op with
  | construct t o env => exact construct_loses_id T I hl hc hs
  | moveConstruct o src => exact absurd trivial hc
  | moveAssign o src => exact moveAssign_loses_id T I hl hc hs
  | destroy t o => exact destroy_loses_storage T I hc hs
  | get t o => exact absurd trivial hc
  | foreach t o answer => exact absurd trivial hc

/-! ## Runs -/

/-- When nobody holds an id, everything has been given back. -/
theorem Accounted.settled {w : World β} (h : Accounted w) (hnone : ∀ inst, ¬ Holder w inst) :
    Settled w where
  once := by
    intro a ha
    rcases h.once a ha with ⟨⟨inst, hheld, -⟩, -⟩ | ⟨-, -, hcounts⟩
    · exact absurd hheld (hnone inst)
    · exact hcounts
  memory := by
    intro b block hb
    refine (h.memory b block hb).resolve_right ?_
    rintro ⟨inst, hheld, -⟩
    exact hnone inst hheld
  ids := by
    intro i hi
    obtain ⟨inst, hheld, -⟩ := (h.ids i).mp hi
    exact hnone inst hheld

/-- **Accounts.** Along a run without allocation failures every object and storage is accounted
for iff each step ends what it ends at home; and then nothing is left when no object holds an id. -/
theorem accounted_iff (ops : List WorldOp)
    (hl : EachStep (worldStep T) noAllocFailure World.init ops) :
    AllAlong (worldStep T) (fun w => Accounted w ∧ ((∀ inst, ¬ Holder w inst) → Settled w))
        World.init ops ↔ EachStep (worldStep T) endsAtHome World.init ops :=
  allAlong_iff_eachStep BalInv (fun _ I => ⟨I.books, I.books.settled⟩)
    (fun w op I hl hc => balInv_step T w op I hl hc)
    (fun _ _ _ _ I hl hc hs h => loses_track T I hl hc hs h.1) balInv_init hl

/-- An id is moved twice, and its object destroyed on its thread; another thread's too. -/
theorem accounted_iff_sample :
    AllAlong (worldStep (⟨8, ()⟩ : ObjectType Unit))
        (fun w => Accounted w ∧ ((∀ inst, ¬ Holder w inst) → Settled w)) World.init
        [.construct 1 0 {}, .construct 2 1 {}, .moveConstruct 2 0, .moveAssign 0 2, .destroy 1 0,
          .destroy 2 1] ↔
      EachStep (worldStep (⟨8, ()⟩ : ObjectType Unit)) endsAtHome World.init
        [.construct 1 0 {}, .construct 2 1 {}, .moveConstruct 2 0, .moveAssign 0 2, .destroy 1 0,
          .destroy 2 1] :=
  accounted_iff _ _ (by decide +kernel)

/-- Thread 2 has a table of its own and destroys what thread 1 constructed: the object is never
destroyed, its storage stays in memory, and its id can be handed out again. -/
theorem foreign_destruction_leaks :
    (run (worldStep (⟨8, ()⟩ : ObjectType Unit)) World.init
        [.construct 1 0 {}, .construct 2 1 {}, .destroy 2 1, .destroy 2 0]).map (fun r =>
          (r.1.proc.log, (r.1.proc.heap.cells 0).isSome, r.1.proc.s_bitset.m_arrBits)) =
      .ok ([.created 0, .created 2, .destroyed 2, .freed 2], true, List.replicate 32 0) ∧
    ¬ AllAlong (worldStep (⟨8, ()⟩ : ObjectType Unit))
        (fun w => Accounted w ∧ ((∀ inst, ¬ Holder w inst) → Settled w)) World.init
        [.construct 1 0 {}, .construct 2 1 {}, .destroy 2 1, .destroy 2 0] := by
  have hend : (run (worldStep (⟨8, ()⟩ : ObjectType Unit)) World.init
      [.construct 1 0 {}, .construct 2 1 {}, .destroy 2 1, .destroy 2 0]).map (fun r =>
        (r.1.proc.log, (r.1.proc.heap.cells 0).isSome, r.1.proc.s_bitset.m_arrBits)) =
      .ok ([.created 0, .created 2, .destroyed 2, .freed 2], true, List.replicate 32 0) := by
    decide +kernel
  refine ⟨hend, fun h => ?_⟩
  obtain ⟨w, outs, hr, hbooks, -⟩ := allAlong_iff_prefix.mp h _ [] (List.append_nil _).symm
  rw [hr] at hend
  obtain ⟨hlog, -, hbits⟩ : w.proc.log = [.created 0, .created 2, .destroyed 2, .freed 2] ∧
      (w.proc.heap.cells 0).isSome = true ∧ w.proc.s_bitset.m_arrBits = List.replicate 32 0 := by
    simpa [Except.map] using hend
  rcases hbooks.once 0 (by rw [hlog]; decide) with ⟨⟨inst, hheld, -⟩, -⟩ | ⟨-, -, hone, -⟩
  · -- an object that still held an id would have it marked
    have hbit := (marked_iff.mp ((hbooks.ids _).mpr ⟨inst, hheld, rfl⟩)).2
    rw [hbits, show List.replicate 32 0 = (.new : Bitset.LldkBitset instanceIds).m_arrBits from rfl,
      Bitset.LldkBitset.bit_new] at hbit
    cases hbit
  · rw [hlog] at hone
    exact absurd hone (by decide)

end Lldk
