import Lldk.Utilities.ThreadLocalIds

/-!
Which storages the live `LldkThreadLocal` objects hand out.

* `Safe`: `get` and `foreach` on a live object end in its own storage, and that has not been
  freed.
* The destructor leaves its pointer in the slot, so `Safe` rests on who is given the id next:
  `reusesCleanId` says that no other thread still has something under it.
* `LifeInv` is the invariant; `lifeInv_construct`, `lifeInv_destroy` are its two real steps, and
  `construct_over_stale` is what a stale slot of another thread leads to.
* `own_storages_iff`: the storages handed out along a run are the objects' own iff every
  construction in it is given an id that is clean on the other threads.
-/

namespace Lldk

open Lib Lib.Trace Process

variable {β : Type}

/-! ## Safety -/

/-- There is an object in the block of `a`. -/
def holdsObject (p : Process β) (a : Nat) : Prop :=
  ∃ block x, p.heap.cells a = some block ∧ block.object = some x

/-- `a` is the storage constructed for `inst`, and has not been freed. -/
def ownStorage (p : Process β) (inst : Instance) (a : Nat) : Prop :=
  a = inst.pStorage ∧ holdsObject p a

structure Safe (w : World β) : Prop where
  get : ∀ o inst t, w.objs o = some inst → w.proc.hasTable t →
    ∃ q, inst.obj.get w.proc t = .ok q ∧ ∀ a, q = some a → ownStorage w.proc inst a
  foreach : ∀ o inst t answer, w.objs o = some inst →
    ∃ rc visited p, inst.obj.foreach w.proc t (some (recordVisits answer)) [] =
      .ok (rc, visited, p) ∧ ∀ a ∈ visited, ownStorage w.proc inst a

/-- Objects are destroyed on the thread that constructed them, and used from threads with a
table. -/
def keepsThread (w : World β) : WorldOp → Prop
  | .construct _ o _ => w.objs o = none
  | .moveConstruct _ _ => False
  | .moveAssign _ _ => False
  | .destroy t o => ∃ inst, w.objs o = some inst ∧ inst.tid = t
  | .get t o => (w.objs o).isSome ∧ w.proc.hasTable t
  | .foreach t o _ => (w.objs o).isSome ∧ w.proc.hasTable t

instance (w : World β) (op : WorldOp) : Decidable (keepsThread w op) :=
  match op with
  | .construct _ o _ => inferInstanceAs (Decidable (w.objs o = none))
  | .moveConstruct _ _ => inferInstanceAs (Decidable False)
  | .moveAssign _ _ => inferInstanceAs (Decidable False)
  | .destroy t o => inferInstanceAs (Decidable (∃ inst, w.objs o = some inst ∧ inst.tid = t))
  | .get t o => inferInstanceAs (Decidable ((w.objs o).isSome ∧ w.proc.hasTable t))
  | .foreach t o _ => inferInstanceAs (Decidable ((w.objs o).isSome ∧ w.proc.hasTable t))

/-- `i` is the id that is handed out next. -/
def nextId (p : Process β) (i : Nat) : Prop :=
  i < kMaxInstanceId ∧ ¬ p.marked i ∧ ∀ j, j < i → p.marked j

/-- A construction that succeeds is given an id under which no other thread has a pointer. -/
def reusesCleanId (w : World β) (op : WorldOp) : Prop :=
  ∀ t o env i, op = .construct t o env → env.serves w.proc t → nextId w.proc i →
    ∀ t', t' ≠ t → w.proc.slot t' i = none

/-! ## The invariant -/

structure LifeInv (w : World β) : Prop where
  ids : IdInv w
  valid : ∀ o inst, w.objs o = some inst → inst.obj.m_uInstanceId < kMaxInstanceId
  own : ∀ o inst, w.objs o = some inst →
    w.proc.slot inst.tid inst.obj.m_uInstanceId = some inst.pStorage
  elsewhere : ∀ o inst t, w.objs o = some inst → t ≠ inst.tid →
    w.proc.slot t inst.obj.m_uInstanceId = none
  live : ∀ o inst, w.objs o = some inst → holdsObject w.proc inst.pStorage
  apart : ∀ o o' inst inst', w.objs o = some inst → w.objs o' = some inst' →
    inst.pStorage = inst'.pStorage → o = o'
  below : ∀ t i a, w.proc.slot t i = some a → a < w.proc.heap.next

theorem lifeInv_init : LifeInv (World.init : World β) where
  ids := idInv_init
  valid := by
    intro o inst ho
    cases ho
  own := by
    intro o inst ho
    cases ho
  elsewhere := by
    intro o inst t ho
    cases ho
  live := by
    intro o inst ho
    cases ho
  apart := by
    intro o o' inst inst' ho
    cases ho
  below := by
    intro t i a ha
    cases ha

theorem visit_recordVisits (answer : Nat → Int) (as l : List Nat) :
    ∀ a ∈ (visit (recordVisits answer) as l).2, a ∈ as ∨ a ∈ l := by
  induction l generalizing as with
  | nil => exact fun a ha => Or.inl ha
  | cons b l ih =>
    have hstep : ∀ a ∈ as ++ [b], a ∈ as ∨ a ∈ b :: l := by
      intro a ha
      rcases List.mem_append.mp ha with h | h
      · exact Or.inl h
      · rw [List.mem_singleton.mp h]
        exact Or.inr (List.mem_cons_self ..)
    intro a ha
    rw [visit_cons] at ha
    split at ha
    · exact hstep a ha
    · rcases ih (as ++ [b]) a ha with h | h
      · exact hstep a h
      · exact Or.inr (List.mem_cons_of_mem _ h)

namespace LifeInv

variable {w : World β}

/-- A pointer under the id of a live object is the object's own storage. -/
theorem ownStorage_of_slot (I : LifeInv w) {o : Nat} {inst : Instance} (ho : w.objs o = some inst)
    {t : Tid} {a : Nat} (ha : w.proc.slot t inst.obj.m_uInstanceId = some a) :
    ownStorage w.proc inst a := by
  by_cases ht : t = inst.tid
  · rw [ht, I.own o inst ho] at ha
    cases ha
    exact ⟨rfl, I.live o inst ho⟩
  · rw [I.elsewhere o inst t ho ht] at ha
    cases ha

theorem safe (I : LifeInv w) : Safe w where
  get := by
    intro o inst t ho ht
    exact ⟨_, getThreadLocalStorage_ok ht (I.valid o inst ho),
      fun a ha => I.ownStorage_of_slot ho ha⟩
  foreach := by
    intro o inst t answer ho
    have hi := I.valid o inst ho
    have hne : inst.obj.m_uInstanceId ≠ kInvalidInstanceId := Nat.ne_of_lt hi
    obtain ⟨rc, p', hf, -, -⟩ := foreach_spec w.proc t hi (recordVisits answer) []
    have hmember : inst.obj.foreach w.proc t (some (recordVisits answer)) [] = .ok (rc,
        (visit (recordVisits answer) [] (w.proc.storages inst.obj.m_uInstanceId)).2, p') := by
      simp only [LldkThreadLocal.foreach, ne_eq, hne, not_false_eq_true, if_true, hf]
    refine ⟨rc, _, p', hmember, fun a ha => ?_⟩
    rcases visit_recordVisits answer [] _ a ha with hnil | hin
    · cases hnil
    · obtain ⟨t', -, ht'⟩ := List.mem_filterMap.mp hin
      exact I.ownStorage_of_slot ho ht'

/-- A step that changes no slot and no live block may take the place of the old process. -/
theorem withProc (I : LifeInv w) {p : Process β}
    (hmarked : ∀ o inst, w.objs o = some inst → p.marked inst.obj.m_uInstanceId)
    (htables : p.s_ppInstances = w.proc.s_ppInstances)
    (hblocks : ∀ b block, w.proc.heap.cells b = some block → p.heap.cells b = some block)
    (hnext : w.proc.heap.next ≤ p.heap.next) : LifeInv { w with proc := p } where
  ids := I.ids.withProc fun o inst ho _ => hmarked o inst ho
  valid := I.valid
  own := by
    intro o inst ho
    exact (slot_congr htables _ _).trans (I.own o inst ho)
  elsewhere := by
    intro o inst t ho ht
    exact (slot_congr htables _ _).trans (I.elsewhere o inst t ho ht)
  live := by
    intro o inst ho
    obtain ⟨block, x, hc, hx⟩ := I.live o inst ho
    exact ⟨block, x, hblocks _ _ hc, hx⟩
  apart := I.apart
  below := by
    intro t i a ha
    have ha' : w.proc.slot t i = some a := (slot_congr htables t i).symm.trans ha
    exact Nat.lt_of_lt_of_le (I.below t i a ha') hnext

/-- A live object's id is not the one handed out next. -/
theorem ne_nextId (I : LifeInv w) {o : Nat} {inst : Instance} (ho : w.objs o = some inst) {i : Nat}
    (hi : nextId w.proc i) : inst.obj.m_uInstanceId ≠ i := by
  intro he
  have hm := I.ids.used o inst ho (I.valid o inst ho)
  rw [he] at hm
  exact hi.2.1 hm

theorem storage_lt (I : LifeInv w) {o : Nat} {inst : Instance} (ho : w.objs o = some inst) :
    inst.pStorage < w.proc.heap.next :=
  I.below _ _ _ (I.own o inst ho)

end LifeInv

/-! ## Steps -/

theorem lookup_update {objs : Nat → Option Instance} {o o' : Nat} {new inst : Instance}
    (h : Function.update objs o (some new) o' = some inst) :
    (o' = o ∧ inst = new) ∨ (o' ≠ o ∧ objs o' = some inst) := by
  by_cases he : o' = o
  · rw [he, Function.update_self] at h
    exact Or.inl ⟨he, (Option.some.inj h).symm⟩
  · rw [Function.update_of_ne he] at h
    exact Or.inr ⟨he, h⟩

variable (T : ObjectType β)

/-- A construction over a clean id. -/
theorem lifeInv_construct {w : World β} (I : LifeInv w) {t : Tid} {o i : Nat}
    (hi : nextId w.proc i) {p : Process β} (hb : Built T w.proc t i p)
    (hclean : ∀ t', t' ≠ t → w.proc.slot t' i = none) :
    LifeInv ⟨p, Function.update w.objs o (some ⟨⟨i⟩, t, w.proc.heap.next⟩)⟩ := by
  have hold : ∀ o' inst, w.objs o' = some inst → ∀ t',
      p.slot t' inst.obj.m_uInstanceId = w.proc.slot t' inst.obj.m_uInstanceId :=
    fun o' inst ho' t' => hb.others t' _ (Or.inr (I.ne_nextId ho' hi))
  obtain ⟨block, hcell, hobj⟩ := hb.storage
  refine ⟨I.ids.construct hi.1 hi.2.1 hb.marked rfl, fun o' inst h => ?_, fun o' inst h => ?_,
    fun o' inst t' h ht' => ?_, fun o' inst h => ?_, fun o₁ o₂ inst₁ inst₂ h₁ h₂ he => ?_,
    fun t' j a ha => ?_⟩
  · rcases lookup_update h with ⟨-, rfl⟩ | ⟨-, h⟩
    · exact hi.1
    · exact I.valid o' inst h
  · rcases lookup_update h with ⟨-, rfl⟩ | ⟨-, h⟩
    · exact hb.self
    · exact (hold o' inst h _).trans (I.own o' inst h)
  · rcases lookup_update h with ⟨-, rfl⟩ | ⟨-, h⟩
    · exact (hb.others t' i (Or.inl ht')).trans (hclean t' ht')
    · exact (hold o' inst h _).trans (I.elsewhere o' inst t' h ht')
  · rcases lookup_update h with ⟨-, rfl⟩ | ⟨-, h⟩
    · exact ⟨block, T.value, hcell, hobj⟩
    · obtain ⟨block', x, hc, hx⟩ := I.live o' inst h
      exact ⟨block', x, hb.blocks _ _ hc, hx⟩
  · rcases lookup_update h₁ with ⟨e₁, rfl⟩ | ⟨-, h₁'⟩ <;>
      rcases lookup_update h₂ with ⟨e₂, rfl⟩ | ⟨-, h₂'⟩
    · exact e₁.trans e₂.symm
    · exact absurd he.symm (Nat.ne_of_lt (I.storage_lt h₂'))
    · exact absurd he (Nat.ne_of_lt (I.storage_lt h₁'))
    · exact I.apart o₁ o₂ inst₁ inst₂ h₁' h₂' he
  · have hnext := hb.next
    show a < p.heap.next
    by_cases hslot : t' ≠ t ∨ j ≠ i
    · have ha' : w.proc.slot t' j = some a := (hb.others t' j hslot).symm.trans ha
      have hlt := I.below t' j a ha'
      omega
    · obtain ⟨rfl, rfl⟩ : t' = t ∧ j = i := by simpa [not_or] using hslot
      have ha' : some w.proc.heap.next = some a := hb.self.symm.trans ha
      cases ha'
      exact hnext

theorem lifeInv_destroy {w : World β} (I : LifeInv w) {o : Nat} {inst : Instance}
    (ho : w.objs o = some inst) {p : Process β}
    (hd : LldkThreadLocal.Destructed w.proc inst.tid inst.obj.m_uInstanceId p) :
    LifeInv ⟨p, Function.update w.objs o none⟩ := by
  have hlook : ∀ o' inst', Function.update w.objs o none o' = some inst' →
      o' ≠ o ∧ w.objs o' = some inst' := by
    intro o' inst' h
    by_cases he : o' = o
    · rw [he, Function.update_self] at h
      cases h
    · rw [Function.update_of_ne he] at h
      exact ⟨he, h⟩
  have hslot : ∀ t i, p.slot t i = w.proc.slot t i := slot_congr hd.s_ppInstances
  refine ⟨I.ids.destroy ho hd.marked, fun o' inst' h => ?_, fun o' inst' h => ?_,
    fun o' inst' t h ht => ?_, fun o' inst' h => ?_, fun o₁ o₂ inst₁ inst₂ h₁ h₂ => ?_,
    fun t i a ha => ?_⟩
  · exact I.valid o' inst' (hlook o' inst' h).2
  · exact (hslot _ _).trans (I.own o' inst' (hlook o' inst' h).2)
  · exact (hslot _ _).trans (I.elsewhere o' inst' t (hlook o' inst' h).2 ht)
  · obtain ⟨hne, h'⟩ := hlook o' inst' h
    obtain ⟨block, x, hc, hx⟩ := I.live o' inst' h'
    refine ⟨block, x, ?_, hx⟩
    have hother : w.proc.slot inst.tid inst.obj.m_uInstanceId ≠ some inst'.pStorage := by
      rw [I.own o inst ho]
      intro he
      exact hne (I.apart o' o inst' inst h' ho (Option.some.inj he).symm)
    exact (hd.others _ hother).trans hc
  · exact I.apart o₁ o₂ inst₁ inst₂ (hlook o₁ inst₁ h₁).2 (hlook o₂ inst₂ h₂).2
  · have ha' : w.proc.slot t i = some a := (hslot t i).symm.trans ha
    have hlt := I.below t i a ha'
    show a < p.heap.next
    rw [hd.next]
    exact hlt

/-- **Step lemma.** -/
theorem lifeInv_step (w : World β) (op : WorldOp) (I : LifeInv w) (hl : keepsThread w op)
    (hc : reusesCleanId w op) : ∃ w' out, worldStep T w op = .ok (w', out) ∧ LifeInv w' := by
  cases op with
  | construct t o env =>
    have ho : w.objs o = none := hl
    rcases exists_least_free w.proc with ⟨i, hi⟩ | hall
    · by_cases henv : env.serves w.proc t
      · obtain ⟨p', hs, hb⟩ := LldkThreadLocal.construct_built T hi.1 hi.2.1 hi.2.2 henv
        exact ⟨_, _, worldStep_construct_object ho hs,
          lifeInv_construct T I hi hb (hc t o env i rfl henv hi)⟩
      · obtain ⟨what, p', hs, ha⟩ := LldkThreadLocal.construct_aborted T hi.1 hi.2.1 hi.2.2 henv
        have hmarked : ∀ o' inst, w.objs o' = some inst → p'.marked inst.obj.m_uInstanceId :=
          fun o' inst ho' => (ha.keeps _ (I.ne_nextId ho' hi)).mpr
            (I.ids.used o' inst ho' (I.valid o' inst ho'))
        exact ⟨_, _, worldStep_construct_threw ho hs,
          I.withProc hmarked ha.s_ppInstances ha.blocks ha.next⟩
    · have hs := LldkThreadLocal.construct_exhausted T hall t env
      exact ⟨_, _, worldStep_construct_threw ho hs, I⟩
  | moveConstruct o src => exact absurd hl id
  | moveAssign o src => exact absurd hl id
  | destroy t o =>
    obtain ⟨inst, ho, rfl⟩ := hl
    have ht : w.proc.hasTable inst.tid := by
      by_contra hno
      have hs := I.own o inst ho
      rw [slot_of_noTable hno] at hs
      cases hs
    have hlive : w.proc.slotLive inst.tid inst.obj.m_uInstanceId := by
      intro a ha
      obtain ⟨-, block, -, hc, -⟩ := I.ownStorage_of_slot ho ha
      exact ⟨block, hc⟩
    obtain ⟨p', hd, hp⟩ := LldkThreadLocal.destruct_spec (I.valid o inst ho) ht hlive
    exact ⟨_, _, worldStep_destroy ho hd, lifeInv_destroy I ho hp⟩
  | get t o =>
    obtain ⟨inst, ho⟩ := Option.isSome_iff_exists.mp hl.1
    exact ⟨_, _, worldStep_get ho (I.valid o inst ho) hl.2, I⟩
  | foreach t o answer =>
    obtain ⟨inst, ho⟩ := Option.isSome_iff_exists.mp hl.1
    obtain ⟨p', out, hs, hu⟩ := worldStep_foreach ho (Nat.le_of_lt (I.valid o inst ho)) answer
    refine ⟨_, out, hs, I.withProc (fun o' inst' ho' => ?_) hu.s_ppInstances
      (fun b block hb => (hu.blocks b).trans hb) hu.next⟩
    exact (hu.marked _).mpr (I.ids.used o' inst' ho' (I.valid o' inst' ho'))

/-- A construction over an id under which another thread has a pointer: that thread's `get` on
the new object returns the pointer. -/
theorem construct_over_stale {w w' : World β} {op : WorldOp} {out : WorldOut} (I : LifeInv w)
    (hl : keepsThread w op) (hc : ¬ reusesCleanId w op)
    (hs : worldStep T w op = .ok (w', out)) : ¬ Safe w' := by
  unfold reusesCleanId at hc
  push Not at hc
  obtain ⟨t, o, env, i, rfl, henv, hi, t', htt, hstale⟩ := hc
  obtain ⟨a, ha⟩ := Option.ne_none_iff_exists'.mp hstale
  have ho : w.objs o = none := hl
  obtain ⟨p', hcon, hb⟩ := LldkThreadLocal.construct_built T hi.1 hi.2.1 hi.2.2 henv
  rw [worldStep_construct_object ho hcon] at hs
  cases hs
  intro hsafe
  have hslot : p'.slot t' i = some a := (hb.others t' i (Or.inl htt)).trans ha
  have htable : p'.hasTable t' := by
    by_contra hno
    rw [slot_of_noTable hno] at hslot
    cases hslot
  obtain ⟨q, hget, hown⟩ :=
    hsafe.get o ⟨⟨i⟩, t, w.proc.heap.next⟩ t' (Function.update_self ..) htable
  have hget' : LldkThreadLocal.get p' t' ⟨i⟩ = .ok (some a) :=
    (getThreadLocalStorage_ok htable hi.1).trans (congrArg Except.ok hslot)
  have hq : q = some a := Except.ok.inj (hget.symm.trans hget')
  have hnew : a = w.proc.heap.next := (hown a hq).1
  have hlt := I.below t' i a ha
  omega

/-! ## Runs -/

/-- **Storages.** In a run whose objects are destroyed where they were constructed, `get` and
`foreach` on live objects end in their own storages all along iff every construction that
succeeds is given an id under which no other thread has a pointer. -/
theorem own_storages_iff (ops : List WorldOp)
    (hl : EachStep (worldStep T) keepsThread World.init ops) :
    AllAlong (worldStep T) Safe World.init ops ↔
      EachStep (worldStep T) reusesCleanId World.init ops :=
  allAlong_iff_eachStep LifeInv (fun _ => LifeInv.safe)
    (fun w op I hl hc => lifeInv_step T w op I hl hc)
    (fun _ _ _ _ I hl hc hs => construct_over_stale T I hl hc hs) lifeInv_init hl

/-- The same thread constructs, destroys and constructs again; another one looks on. -/
theorem own_storages_iff_sample :
    AllAlong (worldStep (⟨8, ()⟩ : ObjectType Unit)) Safe World.init
        [.construct 1 0 {}, .construct 2 1 {}, .get 2 0, .destroy 1 0, .construct 1 2 {},
          .foreach 2 2 (fun _ => 0)] ↔
      EachStep (worldStep (⟨8, ()⟩ : ObjectType Unit)) reusesCleanId World.init
        [.construct 1 0 {}, .construct 2 1 {}, .get 2 0, .destroy 1 0, .construct 1 2 {},
          .foreach 2 2 (fun _ => 0)] :=
  own_storages_iff _ _ (by decide +kernel)

/-- Thread 1 constructs and destroys an object, thread 2 constructs one with the same id, and
`get` on thread 1 returns the storage that was freed. -/
theorem get_returns_freed_storage :
    (run (worldStep (⟨8, ()⟩ : ObjectType Unit)) World.init
        [.construct 1 0 {}, .destroy 1 0, .construct 2 1 {}, .get 1 1]).map Prod.snd =
      .ok [.unit, .unit, .unit, .ptr (some 0)] ∧
    ¬ AllAlong (worldStep (⟨8, ()⟩ : ObjectType Unit)) Safe World.init
        [.construct 1 0 {}, .destroy 1 0, .construct 2 1 {}] := by
  refine ⟨by decide +kernel, fun h => ?_⟩
  obtain ⟨w, outs, hr, hsafe⟩ := allAlong_iff_prefix.mp h _ [] (List.append_nil _).symm
  have hend : (run (worldStep (⟨8, ()⟩ : ObjectType Unit)) World.init
      [.construct 1 0 {}, .destroy 1 0, .construct 2 1 {}]).map (fun r =>
        (r.1.objs 1, r.1.proc.slot 1 0, (r.1.proc.heap.cells 0).isNone)) =
      .ok (some ⟨⟨0⟩, 2, 2⟩, some 0, true) := by decide +kernel
  rw [hr] at hend
  obtain ⟨hobj, hslot, hfreed⟩ : w.objs 1 = some ⟨⟨0⟩, 2, 2⟩ ∧ w.proc.slot 1 0 = some 0 ∧
      (w.proc.heap.cells 0).isNone = true := by
    simpa [Except.map] using hend
  have ht : w.proc.hasTable 1 := by
    by_contra hno
    rw [slot_of_noTable hno] at hslot
    cases hslot
  obtain ⟨q, hget, hown⟩ := hsafe.get 1 _ 1 hobj ht
  have hq : q = some 0 := by
    have hok := getThreadLocalStorage_ok ht (i := 0) (by decide)
    rw [LldkThreadLocal.get, hok, hslot] at hget
    cases hget
    rfl
  obtain ⟨-, block, x, hcell, -⟩ := hown 0 hq
  rw [hcell] at hfreed
  cases hfreed

end Lldk
