import Lldk.Utilities.ThreadLocalLifetime

/-!
The storage that an `LldkThreadLocal` object with an id owns.

* `Holder w inst`: a live object has the id of `inst`; a move changes which object that is, and
  not whether there is one.
* `OwnInv`: the storage of a holder is alive, stands in the slot of the thread that constructed
  it, and in no other slot.
* `ownInv_step`: every step that does not fault keeps this, on whatever threads objects are
  destroyed, and whatever is moved onto them.
-/

namespace Lldk

open Lib Lib.Trace Process

variable {β : Type}

/-- `o` is a live object with an id. -/
def holds (w : World β) (o : Nat) (inst : Instance) : Prop :=
  w.objs o = some inst ∧ inst.obj.m_uInstanceId < kMaxInstanceId

def Holder (w : World β) (inst : Instance) : Prop := ∃ o, holds w o inst

structure OwnInv (w : World β) : Prop where
  ids : IdInv w
  own : ∀ inst, Holder w inst → w.proc.slot inst.tid inst.obj.m_uInstanceId = some inst.pStorage
  placed : ∀ inst t i, Holder w inst → w.proc.slot t i = some inst.pStorage →
    t = inst.tid ∧ i = inst.obj.m_uInstanceId
  live : ∀ inst, Holder w inst → holdsObject w.proc inst.pStorage
  below : ∀ t i a, w.proc.slot t i = some a → a < w.proc.heap.next

theorem ownInv_init : OwnInv (World.init : World β) where
  ids := idInv_init
  own := by
    rintro inst ⟨o, ho, -⟩
    cases ho
  placed := by
    rintro inst t i ⟨o, ho, -⟩
    cases ho
  live := by
    rintro inst ⟨o, ho, -⟩
    cases ho
  below := by
    intro t i a ha
    cases ha

/-! ## Who holds an id after a step -/

variable {w : World β} {o src : Nat} {inst that : Instance}

theorem holder_construct {p : Process β} {new : Instance}
    (h : Holder ⟨p, Function.update w.objs o (some new)⟩ inst) : inst = new ∨ Holder w inst := by
  obtain ⟨o', ho', hi⟩ := h
  rcases lookup_update ho' with ⟨-, rfl⟩ | ⟨-, ho'⟩
  · exact Or.inl rfl
  · exact Or.inr ⟨o', ho', hi⟩

theorem holder_of_construct {p : Process β} {new : Instance} (ho : w.objs o = none)
    (h : Holder w inst) : Holder ⟨p, Function.update w.objs o (some new)⟩ inst := by
  obtain ⟨o', ho', hi⟩ := h
  have hne : o' ≠ o := by
    rintro rfl
    rw [ho] at ho'
    cases ho'
  exact ⟨o', (Function.update_of_ne hne ..).trans ho', hi⟩

/-- After a move from `src` to `o` the object at `o` has what `src` had. -/
theorem holds_moved {o' : Nat} (h : holds { w with objs := moved w.objs o src that } o' inst) :
    (o' = o ∧ inst = that) ∨ (o' ≠ o ∧ o' ≠ src ∧ holds w o' inst) := by
  obtain ⟨ho', hi⟩ := h
  rcases lookup_update ho' with ⟨he, rfl⟩ | ⟨hne, ho'⟩
  · exact Or.inl ⟨he, rfl⟩
  · rcases lookup_update ho' with ⟨-, rfl⟩ | ⟨hs, ho'⟩
    · exact absurd hi (Nat.lt_irrefl _)
    · exact Or.inr ⟨hne, hs, ho', hi⟩

theorem holder_moved (hsrc : w.objs src = some that)
    (h : Holder { w with objs := moved w.objs o src that } inst) : Holder w inst := by
  obtain ⟨o', h⟩ := h
  rcases holds_moved h with ⟨-, rfl⟩ | ⟨-, -, h'⟩
  · exact ⟨src, hsrc, h.2⟩
  · exact ⟨o', h'⟩

theorem holds_destroy {p : Process β} {o' : Nat}
    (h : holds ⟨p, Function.update w.objs o none⟩ o' inst) : o' ≠ o ∧ holds w o' inst := by
  obtain ⟨ho', hi⟩ := h
  by_cases he : o' = o
  · rw [he] at ho'
    exact absurd ((Function.update_self ..).symm.trans ho') (Option.some_ne_none inst).symm
  · exact ⟨he, (Function.update_of_ne he ..).symm.trans ho', hi⟩

theorem holder_of_destroy {p : Process β} (ho : w.objs o = some that) (h : Holder w inst)
    (hne : inst ≠ that) : Holder ⟨p, Function.update w.objs o none⟩ inst := by
  obtain ⟨o', ho', hi⟩ := h
  have hother : o' ≠ o := by
    rintro rfl
    rw [ho] at ho'
    cases ho'
    exact hne rfl
  exact ⟨o', (Function.update_of_ne hother ..).trans ho', hi⟩

/-! ## The invariant under each kind of step -/

namespace OwnInv

theorem marked_of_holder (I : OwnInv w) (h : Holder w inst) :
    w.proc.marked inst.obj.m_uInstanceId := by
  obtain ⟨o, ho, hi⟩ := h
  exact I.ids.used o inst ho hi

theorem storage_lt (I : OwnInv w) (h : Holder w inst) : inst.pStorage < w.proc.heap.next :=
  I.below _ _ _ (I.own inst h)

/-- The thread that constructed an object finds its storage alive in the slot. -/
theorem slotLive (I : OwnInv w) (h : Holder w inst) :
    w.proc.slotLive inst.tid inst.obj.m_uInstanceId := by
  intro a ha
  obtain ⟨block, x, hc, -⟩ := I.live inst h
  rw [I.own inst h] at ha
  cases ha
  exact ⟨block, hc⟩

/-- Holders with one storage are one object. -/
theorem apart (I : OwnInv w) {o o' : Nat} {inst inst' : Instance} (h : holds w o inst)
    (h' : holds w o' inst') (he : inst.pStorage = inst'.pStorage) : o = o' := by
  have hslot : w.proc.slot inst.tid inst.obj.m_uInstanceId = some inst'.pStorage :=
    (I.own inst ⟨o, h⟩).trans (congrArg some he)
  have hid := (I.placed inst' _ _ ⟨o', h'⟩ hslot).2
  exact I.ids.unique o o' inst inst' h.1 h'.1 h.2 hid

/-- The process may change where it does not touch the ids, slots and storages of holders. -/
theorem withProc (I : OwnInv w) {p : Process β}
    (hmarked : ∀ i, w.proc.marked i → (∃ inst, Holder w inst ∧ inst.obj.m_uInstanceId = i) →
      p.marked i)
    (htables : p.s_ppInstances = w.proc.s_ppInstances)
    (hblocks : ∀ b block, w.proc.heap.cells b = some block → p.heap.cells b = some block)
    (hnext : w.proc.heap.next ≤ p.heap.next) : OwnInv { w with proc := p } where
  ids := I.ids.withProc fun o inst ho hi =>
    hmarked _ (I.ids.used o inst ho hi) ⟨inst, ⟨o, ho, hi⟩, rfl⟩
  own := by
    intro inst h
    exact (slot_congr htables _ _).trans (I.own inst h)
  placed := by
    intro inst t i h ha
    exact I.placed inst t i h ((slot_congr htables t i).symm.trans ha)
  live := by
    intro inst h
    obtain ⟨block, x, hc, hx⟩ := I.live inst h
    exact ⟨block, x, hblocks _ _ hc, hx⟩
  below := by
    intro t i a ha
    exact Nat.lt_of_lt_of_le (I.below t i a ((slot_congr htables t i).symm.trans ha)) hnext

theorem untouched (I : OwnInv w) {p : Process β} (hu : Untouched w.proc p) :
    OwnInv { w with proc := p } :=
  I.withProc (fun i hi _ => (hu.marked i).mpr hi) hu.s_ppInstances
    (fun b _ hb => (hu.blocks b).trans hb) hu.next

theorem aborted (I : OwnInv w) {i : Nat} (hfree : ¬ w.proc.marked i) {p : Process β}
    (ha : Aborted w.proc i p) : OwnInv { w with proc := p } := by
  refine I.withProc (fun j hj hheld => ?_) ha.s_ppInstances ha.blocks ha.next
  have hne : j ≠ i := by
    rintro rfl
    exact hfree hj
  exact (ha.keeps j hne).mpr hj

/-- A new object under an id that was not marked, with a storage that no slot points to. -/
theorem construct (I : OwnInv w) {T : ObjectType β} {t : Tid} {i : Nat} (hi : i < kMaxInstanceId)
    (hfree : ¬ w.proc.marked i) {p : Process β} (hb : Built T w.proc t i p) :
    OwnInv ⟨p, Function.update w.objs o (some ⟨⟨i⟩, t, w.proc.heap.next⟩)⟩ := by
  have hother : ∀ inst, Holder w inst → inst.obj.m_uInstanceId ≠ i := by
    rintro inst h rfl
    exact hfree (I.marked_of_holder h)
  have hslot : ∀ t' j a, p.slot t' j = some a →
      (t' = t ∧ j = i ∧ a = w.proc.heap.next) ∨
        (a ≠ w.proc.heap.next ∧ w.proc.slot t' j = some a) := by
    intro t' j a ha
    by_cases he : t' ≠ t ∨ j ≠ i
    · have hold : w.proc.slot t' j = some a := (hb.others t' j he).symm.trans ha
      exact Or.inr ⟨Nat.ne_of_lt (I.below t' j a hold), hold⟩
    · obtain ⟨rfl, rfl⟩ : t' = t ∧ j = i := by simpa [not_or] using he
      rw [hb.self] at ha
      cases ha
      exact Or.inl ⟨rfl, rfl, rfl⟩
  obtain ⟨block, hcell, hobj⟩ := hb.storage
  refine ⟨I.ids.construct hi hfree hb.marked rfl, fun inst h => ?_, fun inst t' j h ha => ?_,
    fun inst h => ?_, fun t' j a ha => ?_⟩
  · rcases holder_construct h with rfl | h
    · exact hb.self
    · exact (hb.others _ _ (Or.inr (hother inst h))).trans (I.own inst h)
  · rcases holder_construct h with rfl | h
    · rcases hslot t' j _ ha with ⟨rfl, rfl, -⟩ | ⟨hne, -⟩
      · exact ⟨rfl, rfl⟩
      · exact absurd rfl hne
    · rcases hslot t' j _ ha with ⟨-, -, he⟩ | ⟨-, hold⟩
      · exact absurd he (Nat.ne_of_lt (I.storage_lt h))
      · exact I.placed inst t' j h hold
  · rcases holder_construct h with rfl | h
    · exact ⟨block, T.value, hcell, hobj⟩
    · obtain ⟨block', x, hc, hx⟩ := I.live inst h
      exact ⟨block', x, hb.blocks _ _ hc, hx⟩
  · have hnext := hb.next
    rcases hslot t' j a ha with ⟨-, -, rfl⟩ | ⟨-, hold⟩
    · exact hnext
    · exact Nat.lt_trans (I.below t' j a hold) hnext

theorem transfer (I : OwnInv w) (hsrc : w.objs src = some that) (hne : o ≠ src) :
    OwnInv { w with objs := moved w.objs o src that } :=
  ⟨I.ids.transfer hsrc hne, fun inst h => I.own inst (holder_moved hsrc h),
    fun inst t i h => I.placed inst t i (holder_moved hsrc h),
    fun inst h => I.live inst (holder_moved hsrc h), I.below⟩

/-- The destructor reaches no storage but that of its own object: it is another's in no slot
under this id. -/
theorem destroy (I : OwnInv w) {t : Tid} (ho : w.objs o = some inst)
    (hi : inst.obj.m_uInstanceId < kMaxInstanceId) {p : Process β}
    (hd : LldkThreadLocal.Destructed w.proc t inst.obj.m_uInstanceId p) :
    OwnInv ⟨p, Function.update w.objs o none⟩ := by
  have hslot : ∀ t' j, p.slot t' j = w.proc.slot t' j := slot_congr hd.s_ppInstances
  have hold : ∀ inst', Holder ⟨p, Function.update w.objs o none⟩ inst' → Holder w inst' ∧
      inst.obj.m_uInstanceId ≠ inst'.obj.m_uInstanceId := by
    rintro inst' ⟨o', h⟩
    obtain ⟨hne, h'⟩ := holds_destroy h
    refine ⟨⟨o', h'⟩, fun he => hne ?_⟩
    exact (I.ids.unique o o' inst inst' ho h'.1 hi he).symm
  refine ⟨I.ids.destroy ho hd.marked, fun inst' h => ?_, fun inst' t' j h ha => ?_,
    fun inst' h => ?_, fun t' j a ha => ?_⟩
  · exact (hslot _ _).trans (I.own inst' (hold inst' h).1)
  · exact I.placed inst' t' j (hold inst' h).1 ((hslot t' j).symm.trans ha)
  · obtain ⟨h', hne⟩ := hold inst' h
    obtain ⟨block, x, hc, hx⟩ := I.live inst' h'
    refine ⟨block, x, ?_, hx⟩
    exact (hd.others _ fun he => hne (I.placed inst' t _ h' he).2).trans hc
  · show a < p.heap.next
    rw [hd.next]
    exact I.below t' j a ((hslot t' j).symm.trans ha)

end OwnInv

/-! ## Steps -/

variable (T : ObjectType β)

/-- **Step lemma.** -/
theorem ownInv_step (w : World β) (op : WorldOp) (w' : World β) (out : WorldOut) (I : OwnInv w)
    (h : worldStep T w op = .ok (w', out)) : OwnInv w' := by
  cases stepped_of_ok h with
  | constructed ho hc =>
    obtain ⟨hi, hfree, rfl, hb⟩ := LldkThreadLocal.construct_object T hc
    exact I.construct hi hfree hb
  | threw ho hc =>
    rcases LldkThreadLocal.construct_threw T hc with ⟨rfl, -⟩ | ⟨i, -, hfree, -, ha⟩
    · exact I
    · exact I.aborted hfree ha
  | moveConstructed ho hsrc =>
    refine I.transfer hsrc ?_
    rintro rfl
    rw [ho] at hsrc
    cases hsrc
  | moveAssigned hne ho hsrc => exact I.transfer hsrc hne
  | moveAssignedSelf ho => exact I
  | destroyed ho hd =>
    exact I.destroy ho (LldkThreadLocal.destruct_ok hd).1 (LldkThreadLocal.destruct_destructed hd)
  | got ho hg => exact I
  | visited ho hf =>
    exact I.untouched (LldkThreadLocal.foreach_untouched (I.ids.bounded _ _ ho) hf)

end Lldk
