import Lldk.Utilities.ThreadLocalOwnership

/-!
What `get` answers, over whole runs.

* `answers` collects the calls of `get`: the thread, the instance, the pointer, and whether it
  leads to an object. A move hands the instance over to another C++ object.
* `Isolated`: a live object for every call, the same for each call of a thread on an instance,
  and another one for every other pair of thread and instance.
* Only the constructor creates an object, for its own thread, and `get` creates none; so
  `getsAtHome` is what makes the answers isolated (`gets_isolated`), while no destructor meets a
  dangling pointer (`destroysLive`). Where objects are destroyed by the thread that constructed
  them nothing less does.
-/

namespace Lldk

open Lib Lib.Trace Process

variable {β : Type}

/-! ## Answers -/

structure Answer where
  t : Tid
  inst : Instance
  p : Option Nat
  alive : Bool
  deriving DecidableEq, Repr

/-- There is an object in the block of `a`. -/
def hasObject (p : Process β) (a : Nat) : Bool :=
  (p.heap.cells a).any fun block => block.object.isSome

theorem hasObject_iff {p : Process β} {a : Nat} : hasObject p a = true ↔ holdsObject p a := by
  unfold hasObject holdsObject
  cases hc : p.heap.cells a with
  | none => simp
  | some block => simp [Option.isSome_iff_exists]

def answerOf (w : World β) : WorldOp → WorldOut → List Answer
  | .get t o, .ptr p =>
    match w.objs o with
    | some inst => [⟨t, inst, p, p.any (hasObject w.proc)⟩]
    | none => []
  | _, _ => []

/-- The answers of `get` along a run. -/
def answers (T : ObjectType β) : World β → List WorldOp → List Answer
  | _, [] => []
  | w, op :: ops =>
    match worldStep T w op with
    | .error _ => []
    | .ok (w', out) => answerOf w op out ++ answers T w' ops

structure Isolated (l : List Answer) : Prop where
  alive : ∀ x ∈ l, x.p.isSome = true ∧ x.alive = true
  same : ∀ x ∈ l, ∀ y ∈ l, x.t = y.t → x.inst = y.inst → x.p = y.p
  apart : ∀ x ∈ l, ∀ y ∈ l, (x.t, x.inst) ≠ (y.t, y.inst) → x.p ≠ y.p

/-- Every call returns, and the answers of `get` are isolated. -/
def Served (T : ObjectType β) (ops : List WorldOp) : Prop :=
  (∃ r, run (worldStep T) World.init ops = .ok r) ∧ Isolated (answers T World.init ops)

/-- The objects named are alive; what is destroyed holds an id, and its thread owns a table. -/
def namesLive (w : World β) : WorldOp → Prop
  | .construct _ o _ => w.objs o = none
  | .moveConstruct o src => w.objs o = none ∧ (w.objs src).isSome = true
  | .moveAssign o src => (w.objs o).isSome = true ∧ (w.objs src).isSome = true
  | .destroy t o => ∃ inst, w.objs o = some inst ∧ inst.obj.m_uInstanceId < kMaxInstanceId ∧
      w.proc.hasTable t
  | .get _ o => (w.objs o).isSome = true
  | .foreach _ o _ => (w.objs o).isSome = true

instance (w : World β) (op : WorldOp) : Decidable (namesLive w op) :=
  match op with
  | .construct _ o _ => inferInstanceAs (Decidable (w.objs o = none))
  | .moveConstruct o src =>
    inferInstanceAs (Decidable (w.objs o = none ∧ (w.objs src).isSome = true))
  | .moveAssign o src =>
    inferInstanceAs (Decidable ((w.objs o).isSome = true ∧ (w.objs src).isSome = true))
  | .destroy t o => inferInstanceAs (Decidable (∃ inst, w.objs o = some inst ∧
      inst.obj.m_uInstanceId < kMaxInstanceId ∧ w.proc.hasTable t))
  | .get _ o => inferInstanceAs (Decidable ((w.objs o).isSome = true))
  | .foreach _ o _ => inferInstanceAs (Decidable ((w.objs o).isSome = true))

/-- `get` is called by the thread that constructed the instance, on the object that has it. -/
def getsAtHome (w : World β) : WorldOp → Prop
  | .get t o => ∀ inst ∈ w.objs o, inst.obj.m_uInstanceId < kMaxInstanceId ∧ inst.tid = t
  | _ => True

/-- The slot that a destructor reads is null or points to a block that is there. -/
def destroysLive (w : World β) : WorldOp → Prop
  | .destroy t o => ∀ inst ∈ w.objs o, w.proc.slotLive t inst.obj.m_uInstanceId
  | _ => True

def destroysAtHome (w : World β) : WorldOp → Prop
  | .destroy t o => ∀ inst ∈ w.objs o, inst.tid = t
  | _ => True

instance (w : World β) (op : WorldOp) : Decidable (getsAtHome w op) :=
  match op with
  | .get t o => inferInstanceAs (Decidable (∀ inst ∈ w.objs o,
      inst.obj.m_uInstanceId < kMaxInstanceId ∧ inst.tid = t))
  | .construct .. | .moveConstruct .. | .moveAssign .. | .destroy .. | .foreach .. => isTrue trivial

instance (w : World β) (op : WorldOp) : Decidable (destroysLive w op) :=
  match op with
  | .destroy t o => inferInstanceAs (Decidable (∀ inst ∈ w.objs o,
      w.proc.slotLive t inst.obj.m_uInstanceId))
  | .construct .. | .moveConstruct .. | .moveAssign .. | .get .. | .foreach .. => isTrue trivial

instance (w : World β) (op : WorldOp) : Decidable (destroysAtHome w op) :=
  match op with
  | .destroy t o => inferInstanceAs (Decidable (∀ inst ∈ w.objs o, inst.tid = t))
  | .construct .. | .moveConstruct .. | .moveAssign .. | .get .. | .foreach .. => isTrue trivial

/-! ## Which instances there are -/

variable {T : ObjectType β} {w w' : World β} {op : WorldOp} {out : WorldOut} {inst : Instance}

theorem next_le_step (I : OwnInv w) (h : worldStep T w op = .ok (w', out)) :
    w.proc.heap.next ≤ w'.proc.heap.next := by
  cases stepped_of_ok h with
  | constructed ho hc =>
    obtain ⟨-, -, -, hb⟩ := LldkThreadLocal.construct_object T hc
    exact Nat.le_of_lt hb.next
  | threw ho hc =>
    rcases LldkThreadLocal.construct_threw T hc with ⟨rfl, -⟩ | ⟨i, -, -, -, ha⟩
    · exact Nat.le_refl _
    · exact ha.next
  | moveConstructed ho hsrc => exact Nat.le_refl _
  | moveAssigned hne ho hsrc => exact Nat.le_refl _
  | moveAssignedSelf ho => exact Nat.le_refl _
  | destroyed ho hd => exact Nat.le_of_eq (LldkThreadLocal.destruct_destructed hd).next.symm
  | got ho hg => exact Nat.le_refl _
  | visited ho hf =>
    exact (LldkThreadLocal.foreach_untouched (I.ids.bounded _ _ ho) hf).next

/-- An instance is new, with the next block for its storage, or was there before. -/
theorem holder_step (h : worldStep T w op = .ok (w', out)) (hheld : Holder w' inst) :
    Holder w inst ∨ inst.pStorage = w.proc.heap.next := by
  cases stepped_of_ok h with
  | constructed ho hc =>
    obtain ⟨-, -, rfl, -⟩ := LldkThreadLocal.construct_object T hc
    rcases holder_construct hheld with rfl | hheld
    · exact Or.inr rfl
    · exact Or.inl hheld
  | threw ho hc => exact Or.inl hheld
  | moveConstructed ho hsrc => exact Or.inl (holder_moved hsrc hheld)
  | moveAssigned hne ho hsrc => exact Or.inl (holder_moved hsrc hheld)
  | moveAssignedSelf ho => exact Or.inl hheld
  | destroyed ho hd =>
    obtain ⟨o', h'⟩ := hheld
    exact Or.inl ⟨o', (holds_destroy h').2⟩
  | got ho hg => exact Or.inl hheld
  | visited ho hf => exact Or.inl hheld

/-- An instance of now, or one whose storage is still to come. -/
def presentOrLater (w : World β) (inst : Instance) : Prop :=
  Holder w inst ∨ w.proc.heap.next ≤ inst.pStorage

theorem presentOrLater_step (I : OwnInv w) (h : worldStep T w op = .ok (w', out))
    (hp : presentOrLater w' inst) : presentOrLater w inst := by
  rcases hp with hheld | hle
  · rcases holder_step h hheld with hheld | he
    · exact Or.inl hheld
    · exact Or.inr (Nat.le_of_eq he.symm)
  · exact Or.inr (Nat.le_trans (next_le_step I h) hle)

/-- No instance has the storage of another, now or later. -/
theorem eq_of_presentOrLater (I : OwnInv w) {inst' : Instance} (h : Holder w inst)
    (hp : presentOrLater w inst') (he : inst.pStorage = inst'.pStorage) : inst = inst' := by
  rcases hp with ⟨o', h'⟩ | hle
  · obtain ⟨o, ho⟩ := h
    obtain rfl := I.apart ho h' he
    exact Option.some.inj (ho.1.symm.trans h'.1)
  · have hlt := I.storage_lt h
    omega

/-! ## Calls at home -/

/-- An answer as it should be: the storage of the instance, to the thread that constructed it. -/
def Proper (x : Answer) : Prop :=
  x.p = some x.inst.pStorage ∧ x.alive = true ∧ x.t = x.inst.tid

/-- What is destroyed at home leaves no dangling pointer for its destructor. -/
theorem destroysLive_of_atHome (I : OwnInv w) (hl : namesLive w op) (hd : destroysAtHome w op) :
    destroysLive w op := by
  cases op with
  | destroy t o =>
    intro inst ho
    obtain ⟨inst', ho', hi, -⟩ := hl
    obtain rfl : inst' = inst := Option.some.inj (ho'.symm.trans ho)
    obtain rfl := hd inst' ho
    exact I.slotLive ⟨o, ho, hi⟩
  | _ => trivial

/-- A call returns if it is at home, and a destruction finds no dangling pointer. -/
theorem step_returns (T : ObjectType β) (I : OwnInv w) (hl : namesLive w op)
    (hc : getsAtHome w op) (hd : destroysLive w op) :
    ∃ w' out, worldStep T w op = .ok (w', out) := by
  cases op with
  | construct t o env =>
    obtain ⟨r, p, h⟩ := LldkThreadLocal.construct_returns T w.proc t env
    cases r with
    | object obj a => exact ⟨_, _, worldStep_construct_object hl h⟩
    | threw what => exact ⟨_, _, worldStep_construct_threw hl h⟩
  | moveConstruct o src =>
    obtain ⟨that, hsrc⟩ := Option.isSome_iff_exists.mp hl.2
    exact ⟨_, _, worldStep_moveConstruct hl.1 hsrc⟩
  | moveAssign o src =>
    obtain ⟨inst, ho⟩ := Option.isSome_iff_exists.mp hl.1
    obtain ⟨that, hsrc⟩ := Option.isSome_iff_exists.mp hl.2
    by_cases hne : o = src
    · subst hne
      exact ⟨_, _, worldStep_moveAssign_self ho⟩
    · exact ⟨_, _, worldStep_moveAssign hne ho hsrc⟩
  | destroy t o =>
    obtain ⟨inst, ho, hi, ht⟩ := hl
    obtain ⟨p, h, -⟩ := LldkThreadLocal.destruct_spec hi ht (hd inst ho)
    exact ⟨_, _, worldStep_destroy ho h⟩
  | get t o =>
    obtain ⟨inst, ho⟩ := Option.isSome_iff_exists.mp hl
    obtain ⟨hi, rfl⟩ := hc inst ho
    have ht : w.proc.hasTable inst.tid := by
      by_contra hno
      have hs := I.own inst ⟨o, ho, hi⟩
      rw [slot_of_noTable hno] at hs
      cases hs
    exact ⟨_, _, worldStep_get ho hi ht⟩
  | foreach t o answer =>
    obtain ⟨inst, ho⟩ := Option.isSome_iff_exists.mp hl
    obtain ⟨p, out, h, -⟩ := worldStep_foreach ho (I.ids.bounded _ _ ho) answer
    exact ⟨_, _, h⟩

/-- **Step lemma.** A call at home returns, and if it is a `get`, it is answered properly. -/
theorem step_atHome (T : ObjectType β) (I : OwnInv w) (hl : namesLive w op)
    (hc : getsAtHome w op) (hd : destroysLive w op) :
    ∃ w' out, worldStep T w op = .ok (w', out) ∧
      ∀ x ∈ answerOf w op out, Proper x ∧ Holder w x.inst := by
  obtain ⟨w', out, hs⟩ := step_returns T I hl hc hd
  refine ⟨w', out, hs, fun x hx => ?_⟩
  cases stepped_of_ok hs with
  | got ho hg =>
    rename_i t o inst q
    obtain ⟨hi, rfl⟩ := hc inst ho
    have hheld : Holder w inst := ⟨o, ho, hi⟩
    have hq : q = some inst.pStorage :=
      (eq_slot_of_getThreadLocalStorage hg).trans (I.own inst hheld)
    simp only [answerOf, ho, List.mem_singleton] at hx
    subst hx
    refine ⟨⟨hq, ?_, rfl⟩, hheld⟩
    rw [hq]
    exact hasObject_iff.mpr (I.live inst hheld)
  | constructed ho hc => cases hx
  | threw ho hc => cases hx
  | moveConstructed ho hsrc => cases hx
  | moveAssigned hne ho hsrc => cases hx
  | moveAssignedSelf ho => cases hx
  | destroyed ho hd => cases hx
  | visited ho hf => cases hx

theorem answers_atHome (T : ObjectType β) {ops : List WorldOp} (I : OwnInv w)
    (hl : EachStep (worldStep T) namesLive w ops) (hc : EachStep (worldStep T) getsAtHome w ops)
    (hd : EachStep (worldStep T) destroysLive w ops) :
    (∃ r, run (worldStep T) w ops = .ok r) ∧
      (∀ x ∈ answers T w ops, Proper x ∧ presentOrLater w x.inst) ∧
      ∀ x ∈ answers T w ops, ∀ y ∈ answers T w ops,
        x.inst.pStorage = y.inst.pStorage → x.inst = y.inst := by
  induction ops generalizing w with
  | nil => exact ⟨⟨_, rfl⟩, fun x hx => (nomatch hx), fun x hx => (nomatch hx)⟩
  | cons op ops ih =>
    obtain ⟨w', out, hs, hnow⟩ := step_atHome T I hl.1 hc.1 hd.1
    obtain ⟨⟨⟨w'', outs⟩, hr⟩, hlater, hinj⟩ :=
      ih (ownInv_step T w op w' out I hs) (hl.2 w' out hs) (hc.2 w' out hs) (hd.2 w' out hs)
    have hmem : ∀ x ∈ answers T w (op :: ops),
        (Proper x ∧ Holder w x.inst) ∨ x ∈ answers T w' ops := by
      intro x hx
      simp only [answers, hs] at hx
      exact (List.mem_append.mp hx).imp_left (hnow x)
    have hpresent : ∀ x ∈ answers T w' ops, presentOrLater w x.inst :=
      fun x hx => presentOrLater_step I hs (hlater x hx).2
    refine ⟨⟨_, by rw [run_cons_ok hs, hr]⟩, fun x hx => ?_, fun x hx y hy he => ?_⟩
    · rcases hmem x hx with ⟨hp, hheld⟩ | hx
      · exact ⟨hp, Or.inl hheld⟩
      · exact ⟨(hlater x hx).1, hpresent x hx⟩
    · rcases hmem x hx with ⟨-, hheld⟩ | hx
      · rcases hmem y hy with ⟨-, hheld'⟩ | hy
        · exact eq_of_presentOrLater I hheld (Or.inl hheld') he
        · exact eq_of_presentOrLater I hheld (hpresent y hy) he
      · rcases hmem y hy with ⟨-, hheld⟩ | hy
        · exact (eq_of_presentOrLater I hheld (hpresent x hx) he.symm).symm
        · exact hinj x hx y hy he

/-- Proper answers are isolated: the storage tells the instance, and the instance the thread. -/
theorem isolated_of_proper {l : List Answer} (hp : ∀ x ∈ l, Proper x)
    (hinj : ∀ x ∈ l, ∀ y ∈ l, x.inst.pStorage = y.inst.pStorage → x.inst = y.inst) :
    Isolated l where
  alive := by
    intro x hx
    obtain ⟨he, ha, -⟩ := hp x hx
    rw [he]
    exact ⟨rfl, ha⟩
  same := by
    intro x hx y hy _ hi
    rw [(hp x hx).1, (hp y hy).1, hi]
  apart := by
    intro x hx y hy hne he
    obtain ⟨hx₁, -, hx₂⟩ := hp x hx
    obtain ⟨hy₁, -, hy₂⟩ := hp y hy
    rw [hx₁, hy₁] at he
    have hi := hinj x hx y hy (Option.some.inj he)
    exact hne (Prod.ext (hx₂.trans ((congrArg Instance.tid hi).trans hy₂.symm)) hi)

/-! ## Calls from elsewhere -/

/-- What stands in a slot under an id that is free, or that an instance has, is the storage of
an instance, or leads to no object. -/
def NoStrayObject (w : World β) : Prop :=
  ∀ t i a, w.proc.slot t i = some a →
    (¬ w.proc.marked i ∨ ∃ inst, Holder w inst ∧ inst.obj.m_uInstanceId = i) →
    (∃ inst, Holder w inst ∧ inst.pStorage = a) ∨ ¬ holdsObject w.proc a

theorem noStrayObject_init : NoStrayObject (World.init : World β) := by
  intro t i a ha
  cases ha

theorem not_holdsObject_congr {p p' : Process β} {a : Nat}
    (h : p'.heap.cells a = p.heap.cells a) (hno : ¬ holdsObject p a) : ¬ holdsObject p' a := by
  rintro ⟨block, x, hc, hx⟩
  exact hno ⟨block, x, h.symm.trans hc, hx⟩

namespace NoStrayObject

/-- The process changes, the slots and what they point to do not, and no id becomes free. -/
theorem withProc (S : NoStrayObject w) (I : OwnInv w) {p : Process β}
    (hmarked : ∀ i, ¬ p.marked i → ¬ w.proc.marked i)
    (htables : p.s_ppInstances = w.proc.s_ppInstances)
    (hold : ∀ a, a < w.proc.heap.next → p.heap.cells a = w.proc.heap.cells a) :
    NoStrayObject { w with proc := p } := by
  intro t i a ha hi
  have ha' : w.proc.slot t i = some a := (slot_congr htables t i).symm.trans ha
  exact (S t i a ha' (hi.imp_left (hmarked i))).imp_right
    (not_holdsObject_congr (hold a (I.below t i a ha')))

theorem construct (S : NoStrayObject w) (I : OwnInv w) {t : Tid} {o i : Nat}
    (ho : w.objs o = none) (hi : i < kMaxInstanceId) (hfree : ¬ w.proc.marked i) {p : Process β}
    (hb : Built T w.proc t i p)
    (hold : ∀ a, a < w.proc.heap.next → p.heap.cells a = w.proc.heap.cells a) :
    NoStrayObject ⟨p, Function.update w.objs o (some ⟨⟨i⟩, t, w.proc.heap.next⟩)⟩ := by
  intro t' j a ha hj
  by_cases he : t' ≠ t ∨ j ≠ i
  · have ha' : w.proc.slot t' j = some a := (hb.others t' j he).symm.trans ha
    -- an id that is free or had now was so before
    have hj' : ¬ w.proc.marked j ∨ ∃ inst, Holder w inst ∧ inst.obj.m_uInstanceId = j := by
      rcases hj with hno | ⟨inst, h, rfl⟩
      · exact Or.inl fun hm => hno ((hb.marked j).mpr (Or.inl hm))
      · rcases holder_construct h with rfl | h
        · exact Or.inl hfree
        · exact Or.inr ⟨inst, h, rfl⟩
    exact (S t' j a ha' hj').imp (fun ⟨inst, h, hp⟩ =>
        ⟨inst, holder_of_construct ho h, hp⟩)
      (not_holdsObject_congr (hold a (I.below t' j a ha')))
  · obtain ⟨rfl, rfl⟩ : t' = t ∧ j = i := by simpa [not_or] using he
    have hnew : some w.proc.heap.next = some a := hb.self.symm.trans ha
    exact Or.inl ⟨_, ⟨o, Function.update_self .., hi⟩, Option.some.inj hnew⟩

/-- After a move an instance that is left is where it was, or at the target. -/
theorem transfer (S : NoStrayObject w) (I : OwnInv w) {o src : Nat} {that : Instance}
    (hsrc : w.objs src = some that) (hne : o ≠ src) :
    NoStrayObject { w with objs := moved w.objs o src that } := by
  have I' := I.transfer hsrc hne
  intro t i a ha hi
  have hi' : ¬ w.proc.marked i ∨ ∃ inst, Holder w inst ∧ inst.obj.m_uInstanceId = i :=
    hi.imp_right fun ⟨inst, h, he⟩ => ⟨inst, holder_moved hsrc h, he⟩
  refine (S t i a ha hi').imp_left ?_
  rintro ⟨inst, ⟨o', h⟩, rfl⟩
  -- the instance has the id of the slot, which is not free, so that it is the one left with it
  obtain ⟨rfl, rfl⟩ := I.placed inst t i ⟨o', h⟩ ha
  rcases hi with hfree | ⟨inst', h', he⟩
  · exact absurd (I.marked_of_holder ⟨o', h⟩) hfree
  · obtain ⟨o'', hw⟩ := holder_moved hsrc h'
    obtain rfl := I.ids.unique o'' o' inst' inst hw.1 h.1 hw.2 he
    have heq : inst' = inst := Option.some.inj (hw.1.symm.trans h.1)
    exact ⟨inst, heq ▸ h', rfl⟩

/-- A destruction at home frees the storage that its slot goes on pointing to. -/
theorem destroy (S : NoStrayObject w) (I : OwnInv w) {o : Nat} (h : holds w o inst)
    {p : Process β} (hd : LldkThreadLocal.Destructed w.proc inst.tid inst.obj.m_uInstanceId p) :
    NoStrayObject ⟨p, Function.update w.objs o none⟩ := by
  have hslot := I.own inst ⟨o, h⟩
  have hgone : ¬ holdsObject p inst.pStorage := by
    rintro ⟨block, x, hc, -⟩
    rw [hd.gone _ hslot] at hc
    cases hc
  have hdead : ∀ a, ¬ holdsObject w.proc a → ¬ holdsObject p a := by
    intro a hno
    by_cases he : a = inst.pStorage
    · rw [he]
      exact hgone
    · refine not_holdsObject_congr (hd.others a ?_) hno
      rw [hslot]
      exact fun h' => he (Option.some.inj h').symm
  intro t i a ha hi
  have ha' : w.proc.slot t i = some a := (slot_congr hd.s_ppInstances t i).symm.trans ha
  have hi' : ¬ w.proc.marked i ∨ ∃ inst', Holder w inst' ∧ inst'.obj.m_uInstanceId = i := by
    rcases hi with hno | ⟨inst', ⟨o', h'⟩, he⟩
    · by_cases he : i = inst.obj.m_uInstanceId
      · exact Or.inr ⟨inst, ⟨o, h⟩, he.symm⟩
      · exact Or.inl fun hm => hno ((hd.marked i).mpr ⟨hm, he⟩)
    · exact Or.inr ⟨inst', ⟨o', (holds_destroy h').2⟩, he⟩
  rcases S t i a ha' hi' with ⟨inst', ⟨o', h'⟩, rfl⟩ | hno
  · by_cases ho : o' = o
    · rw [ho] at h'
      obtain rfl : inst' = inst := Option.some.inj (h'.1.symm.trans h.1)
      exact Or.inr hgone
    · exact Or.inl ⟨inst', ⟨o', (Function.update_of_ne ho ..).trans h'.1, h'.2⟩, rfl⟩
  · exact Or.inr (hdead a hno)

end NoStrayObject

theorem noStrayObject_step (I : OwnInv w) (S : NoStrayObject w) (hd : destroysAtHome w op)
    (hs : worldStep T w op = .ok (w', out)) : NoStrayObject w' := by
  cases stepped_of_ok hs with
  | constructed ho hc =>
    obtain ⟨hi, hfree, rfl, hb⟩ := LldkThreadLocal.construct_object T hc
    exact S.construct I ho hi hfree hb fun a ha => LldkThreadLocal.construct_old T hc ha
  | threw ho hc =>
    have hold : ∀ a, a < w.proc.heap.next → _ := fun a ha => LldkThreadLocal.construct_old T hc ha
    rcases LldkThreadLocal.construct_threw T hc with ⟨rfl, -⟩ | ⟨i, -, hfree, -, ha⟩
    · exact S
    · refine S.withProc I (fun j hno hm => hno ((ha.keeps j ?_).mpr hm)) ha.s_ppInstances hold
      rintro rfl
      exact hfree hm
  | moveConstructed ho hsrc =>
    refine S.transfer I hsrc ?_
    rintro rfl
    rw [ho] at hsrc
    cases hsrc
  | moveAssigned hne ho hsrc => exact S.transfer I hsrc hne
  | moveAssignedSelf ho => exact S
  | destroyed ho hdes =>
    obtain rfl := hd _ ho
    exact S.destroy I ⟨ho, (LldkThreadLocal.destruct_ok hdes).1⟩
      (LldkThreadLocal.destruct_destructed hdes)
  | got ho hg => exact S
  | visited ho hf =>
    have hu := LldkThreadLocal.foreach_untouched (I.ids.bounded _ _ ho) hf
    exact S.withProc I (fun j hno hm => hno ((hu.marked j).mpr hm)) hu.s_ppInstances
      fun a _ => hu.blocks a

/-- A `get` that is answered with a live object was called at home. -/
theorem getsAtHome_of_alive (I : OwnInv w) (S : NoStrayObject w)
    (hs : worldStep T w op = .ok (w', out))
    (halive : ∀ x ∈ answerOf w op out, x.p.isSome = true ∧ x.alive = true) : getsAtHome w op := by
  cases stepped_of_ok hs with
  | got ho hg =>
    rename_i t o inst q
    intro inst' ho'
    obtain rfl : inst = inst' := Option.some.inj (ho.symm.trans ho')
    have hi : inst.obj.m_uInstanceId < kMaxInstanceId := by
      by_contra hno
      have hbad := hg
      unfold LldkThreadLocal.get getThreadLocalStorage at hbad
      split at hbad
      · cases hbad
      · rw [if_neg hno] at hbad
        cases hbad
    refine ⟨hi, ?_⟩
    obtain ⟨hsome, hobject⟩ := halive ⟨t, inst, q, q.any (hasObject w.proc)⟩
      (by simp only [answerOf, ho, List.mem_singleton])
    obtain ⟨a, rfl⟩ := Option.isSome_iff_exists.mp hsome
    have hslot : w.proc.slot t inst.obj.m_uInstanceId = some a :=
      (eq_slot_of_getThreadLocalStorage hg).symm
    rcases S _ _ a hslot (Or.inr ⟨inst, ⟨o, ho, hi⟩, rfl⟩) with ⟨inst', ⟨o', h'⟩, rfl⟩ | hno
    · obtain ⟨rfl, he⟩ := I.placed inst' _ _ ⟨o', h'⟩ hslot
      obtain rfl := I.ids.unique o o' inst inst' ho h'.1 hi he
      rw [Option.some.inj (ho.symm.trans h'.1)]
    · exact absurd (hasObject_iff.mp hobject) hno
  | constructed ho hc => trivial
  | threw ho hc => trivial
  | moveConstructed ho hsrc => trivial
  | moveAssigned hne ho hsrc => trivial
  | moveAssignedSelf ho => trivial
  | destroyed ho hd => trivial
  | visited ho hf => trivial

theorem getsAtHome_of_answers (T : ObjectType β) {ops : List WorldOp} (I : OwnInv w)
    (S : NoStrayObject w) (hd : EachStep (worldStep T) destroysAtHome w ops)
    (hr : ∃ r, run (worldStep T) w ops = .ok r)
    (halive : ∀ x ∈ answers T w ops, x.p.isSome = true ∧ x.alive = true) :
    EachStep (worldStep T) getsAtHome w ops := by
  induction ops generalizing w with
  | nil => trivial
  | cons op ops ih =>
    obtain ⟨⟨w'', outs⟩, hr⟩ := hr
    obtain ⟨w', out, outs', hs, hrest, -⟩ := run_cons_eq_ok.mp hr
    simp only [answers, hs, List.mem_append] at halive
    refine ⟨getsAtHome_of_alive I S hs fun x hx => halive x (Or.inl hx), fun w₁ out₁ hs₁ => ?_⟩
    rw [hs] at hs₁
    cases hs₁
    exact ih (ownInv_step T w op w' out I hs) (noStrayObject_step I S hd.1 hs) (hd.2 w' out hs)
      ⟨_, hrest⟩ fun x hx => halive x (Or.inr hx)

/-! ## Runs -/

/-- **Isolation.** A run whose calls of `get` are each made by the thread that constructed the
instance, and whose destructors meet no dangling pointer, is served, with isolated answers. Where
objects are destroyed by the thread that constructed them, nothing but the calls of `get` matters,
and no other run is served. -/
theorem gets_isolated (T : ObjectType β) (ops : List WorldOp)
    (hl : EachStep (worldStep T) namesLive World.init ops) :
    (EachStep (worldStep T) getsAtHome World.init ops →
        EachStep (worldStep T) destroysLive World.init ops → Served T ops) ∧
      (EachStep (worldStep T) destroysAtHome World.init ops →
        (Served T ops ↔ EachStep (worldStep T) getsAtHome World.init ops)) := by
  have hserved : EachStep (worldStep T) getsAtHome World.init ops →
      EachStep (worldStep T) destroysLive World.init ops → Served T ops := by
    intro hc hd
    obtain ⟨hr, hp, hinj⟩ := answers_atHome T ownInv_init hl hc hd
    exact ⟨hr, isolated_of_proper (fun x hx => (hp x hx).1) hinj⟩
  refine ⟨hserved, fun hd => ⟨fun ⟨hr, hisolated⟩ => ?_, fun hc => hserved hc ?_⟩⟩
  · exact getsAtHome_of_answers T ownInv_init noStrayObject_init hd hr hisolated.alive
  · exact (hl.and hd).mono_of_invariant OwnInv (ownInv_step T)
      (fun w op I h => destroysLive_of_atHome I h.1 h.2) ownInv_init

/-- Two threads, three instances, of which one is moved and one is destroyed on the other thread;
and a call from elsewhere. -/
theorem gets_isolated_sample :
    Served (⟨8, ()⟩ : ObjectType Unit)
        [.construct 1 0 {}, .construct 2 1 {}, .get 1 0, .get 2 1, .construct 1 2 {}, .get 1 2,
          .moveConstruct 3 0, .get 1 3, .destroy 1 3, .destroy 2 2] ∧
      (Served (⟨8, ()⟩ : ObjectType Unit)
          [.construct 1 0 {}, .construct 2 1 {}, .get 2 0, .destroy 1 0] ↔
        EachStep (worldStep (⟨8, ()⟩ : ObjectType Unit)) getsAtHome World.init
          [.construct 1 0 {}, .construct 2 1 {}, .get 2 0, .destroy 1 0]) :=
  ⟨(gets_isolated _ _ (by decide +kernel)).1 (by decide +kernel) (by decide +kernel),
    (gets_isolated _ _ (by decide +kernel)).2 (by decide +kernel)⟩

/-- Another thread that has a table gets null for the instance, and one that has none faults. -/
theorem get_elsewhere_is_null :
    answers (⟨8, ()⟩ : ObjectType Unit) World.init
        [.construct 1 0 {}, .construct 2 1 {}, .get 2 0] =
      [⟨2, ⟨⟨0⟩, 1, 0⟩, none, false⟩] ∧
    run (worldStep (⟨8, ()⟩ : ObjectType Unit)) World.init [.construct 1 0 {}, .get 2 0] =
      .error (.library .nullTable) ∧
    ¬ Served (⟨8, ()⟩ : ObjectType Unit) [.construct 1 0 {}, .construct 2 1 {}, .get 2 0] := by
  have hnull : answers (⟨8, ()⟩ : ObjectType Unit) World.init
      [.construct 1 0 {}, .construct 2 1 {}, .get 2 0] = [⟨2, ⟨⟨0⟩, 1, 0⟩, none, false⟩] := by
    decide +kernel
  refine ⟨hnull, eq_error_of_map (f := fun _ => 0) (by decide +kernel), fun h => ?_⟩
  have halive := h.2.alive
  rw [hnull] at halive
  obtain ⟨hsome, -⟩ := halive _ (List.mem_singleton_self _)
  cases hsome

end Lldk
