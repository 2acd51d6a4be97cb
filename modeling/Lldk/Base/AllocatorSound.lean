import Lldk.Base.AllocatorSpares

/-!
What holds of the allocators and of the ids in every state that a program reaches.

* `Keeper` is who may keep an id: the singleton, an entry of the registry or an
  `LldkThreadLocal` object of the program.
* `Sound`: every kept id is marked and has one keeper; a kept allocator is alive, and no slot and
  no block of the program refers to it.
* `sound_step` and `sound_run`: any calls on any threads, failing or not, keep a state sound.
-/

namespace Lldk

open Lib Lib.Trace Process

/-! ## Keepers -/

inductive Keeper
  | singleton
  | entry (pName : String)
  | object (o : Nat)

namespace Api

/-- The allocator that the library keeps for `k`. -/
def address (s : Api) : Keeper → Option Nat
  | .singleton => s.lib.s_pAllocator
  | .entry pName => s.lib.find pName
  | .object _ => none

inductive Keeps (s : Api) : Keeper → Nat → Prop
  | allocator {k : Keeper} {a : Nat} {al : AllocatorImpl} (hk : s.address k = some a)
      (hal : s.lib.proc.readAllocator a = some al) : Keeps s k al.id
  | object {o : Nat} {obj : LldkThreadLocal} (ho : s.objs o = some obj) :
      Keeps s (.object o) obj.m_uInstanceId

structure Sound (s : Api) : Prop where
  slots : SlotsBelow s.lib.proc
  lent : ∀ e ∈ s.blocks, e.2 < s.lib.proc.heap.next
  empty : s.lib.s_pAllocator = none → ∀ n, s.lib.find n = none
  live : ∀ k a, s.address k = some a → ∃ al, s.lib.proc.readAllocator a = some al
  unstored : ∀ k a, s.address k = some a → ∀ t i, s.lib.proc.slot t i ≠ some a
  unlent : ∀ k a, s.address k = some a → ∀ e ∈ s.blocks, e.2 ≠ a
  marked : ∀ k i, s.Keeps k i → i < kMaxInstanceId ∧ s.lib.proc.marked i
  single : ∀ k k' i, s.Keeps k i → s.Keeps k' i → k = k'

/-- The allocators and the ids of the keepers that stay. -/
def addresses (s : Api) (stays : Keeper → Prop) (a : Nat) : Prop :=
  ∃ k, stays k ∧ s.address k = some a

def ids (s : Api) (stays : Keeper → Prop) (i : Nat) : Prop := ∃ k, stays k ∧ s.Keeps k i

namespace Sound

variable {s s' : Api} {stays : Keeper → Prop} {p : Process Object}

theorem init : Sound .init where
  slots := by
    intro t i b hb
    cases hb
  lent := by
    intro e he
    cases he
  empty := fun _ _ => rfl
  live := by
    intro k a ha
    cases k <;> cases ha
  unstored := by
    intro k a ha
    cases k <;> cases ha
  unlent := by
    intro k a ha
    cases k <;> cases ha
  marked := by
    intro k i hi
    cases hi with
    | allocator hk hal => cases k <;> cases hk
    | object ho => cases ho
  single := by
    intro k k' i hi
    cases hi with
    | allocator hk hal => cases k <;> cases hk
    | object ho => cases ho

theorem lt_next (h : Sound s) {k : Keeper} {a : Nat} (ha : s.address k = some a) :
    a < s.lib.proc.heap.next := by
  obtain ⟨al, hal⟩ := h.live k a ha
  exact readAllocator_lt hal

/-- Two keepers do not share an allocator. -/
theorem address_single (h : Sound s) {k k' : Keeper} {a : Nat} (hk : s.address k = some a)
    (hk' : s.address k' = some a) : k = k' := by
  obtain ⟨al, hal⟩ := h.live k a hk
  exact h.single k k' _ (.allocator hk hal) (.allocator hk' hal)

/-- **A change that spares the keepers who stay**, with no keeper coming. -/
theorem spared (h : Sound s)
    (hp : Spares (s.addresses stays) (s.ids stays) s.lib.proc s'.lib.proc)
    (haddress : ∀ k a, s'.address k = some a → stays k ∧ s.address k = some a)
    (hobjs : ∀ o obj, s'.objs o = some obj → stays (.object o) ∧ s.objs o = some obj)
    (hsingleton : s'.lib.s_pAllocator = s.lib.s_pAllocator)
    (hblocks : ∀ e ∈ s'.blocks, (∃ e' ∈ s.blocks, e'.2 = e.2) ∨
      (s.lib.proc.heap.next ≤ e.2 ∧ e.2 < s'.lib.proc.heap.next)) : Sound s' := by
  have hkeeps : ∀ k i, s'.Keeps k i → stays k ∧ s.Keeps k i := by
    intro k i hi
    cases hi with
    | allocator hk hal =>
      obtain ⟨hstay, hk₀⟩ := haddress _ _ hk
      obtain ⟨al₀, hal₀⟩ := h.live _ _ hk₀
      rw [hp.object _ al₀ ⟨_, hstay, hk₀⟩ hal₀] at hal
      cases hal
      exact ⟨hstay, .allocator hk₀ hal₀⟩
    | object ho =>
      obtain ⟨hstay, ho₀⟩ := hobjs _ _ ho
      exact ⟨hstay, .object ho₀⟩
  refine ⟨fun t i b hb => ?_, fun e he => ?_, fun hs n => ?_, fun k a ha => ?_,
    fun k a ha t i hb => ?_, fun k a ha e he heq => ?_, fun k i hi => ?_, fun k k' i hi hi' => ?_⟩
  · rcases hp.slots t i b hb with hold | hnew
    · exact Nat.lt_of_lt_of_le (h.slots t i b hold) hp.next
    · exact hnew.2
  · rcases hblocks e he with ⟨e', he', heq⟩ | hnew
    · rw [← heq]
      exact Nat.lt_of_lt_of_le (h.lent e' he') hp.next
    · exact hnew.2
  · cases hf : s'.lib.find n with
    | none => rfl
    | some a =>
      have hold := (haddress (.entry n) a hf).2
      have hnone : s.address (.entry n) = none := h.empty (hsingleton.symm.trans hs) n
      rw [hnone] at hold
      cases hold
  · obtain ⟨hstay, hold⟩ := haddress k a ha
    obtain ⟨al, hal⟩ := h.live k a hold
    exact ⟨al, hp.object a al ⟨k, hstay, hold⟩ hal⟩
  · have hold := (haddress k a ha).2
    rcases hp.slots t i a hb with hslot | hnew
    · exact h.unstored k a hold t i hslot
    · have hlt := h.lt_next hold
      omega
  · have hold := (haddress k a ha).2
    rcases hblocks e he with ⟨e', he', heq'⟩ | hnew
    · exact h.unlent k a hold e' he' (heq'.trans heq)
    · have hlt := h.lt_next hold
      omega
  · obtain ⟨hstay, hold⟩ := hkeeps k i hi
    obtain ⟨hlt, hmarked⟩ := h.marked k i hold
    exact ⟨hlt, hp.marked i ⟨k, hstay, hold⟩ hmarked⟩
  · exact h.single k k' i (hkeeps k i hi).2 (hkeeps k' i hi').2

/-- The same for the process alone. -/
theorem withProc (h : Sound s)
    (hp : Spares (s.addresses fun _ => True) (s.ids fun _ => True) s.lib.proc p) :
    Sound { s with lib := s.lib.withProc p } :=
  h.spared hp (fun k _ ha => ⟨trivial, by cases k <;> exact ha⟩) (fun _ _ ho => ⟨trivial, ho⟩) rfl
    fun e he => Or.inl ⟨e, he, rfl⟩

theorem setErrorCode (h : Sound s) (t : Tid) (e : ErrorCode) :
    Sound { s with lib := s.lib.lldkSetErrorCode t e } :=
  h.withProc (Spares.setErrorCode _ _ _ t e)

/-- **A new keeper** of an id that was not marked; its allocator, if it is one, is new. -/
theorem gained (h : Sound s) (k₀ : Keeper) {i₀ : Nat}
    (hp : Spares (s.addresses fun _ => True) (s.ids fun _ => True) s.lib.proc s'.lib.proc)
    (hfree : ¬ s.lib.proc.marked i₀) (hi₀ : i₀ < kMaxInstanceId) (hmarked : s'.lib.proc.marked i₀)
    (hnew : ∀ i, s'.Keeps k₀ i → i = i₀)
    (haddress : ∀ k a, s'.address k = some a → (k ≠ k₀ ∧ s.address k = some a) ∨
      (k = k₀ ∧ s.lib.proc.heap.next ≤ a ∧ (∃ al, s'.lib.proc.readAllocator a = some al) ∧
        ∀ t i, s'.lib.proc.slot t i ≠ some a))
    (hobjs : ∀ o obj, s'.objs o = some obj → .object o = k₀ ∨ s.objs o = some obj)
    (hempty : s'.lib.s_pAllocator = none → ∀ n, s'.lib.find n = none)
    (hblocks : s'.blocks = s.blocks) : Sound s' := by
  have hkeeps : ∀ k i, s'.Keeps k i → (k = k₀ ∧ i = i₀) ∨ s.Keeps k i := by
    intro k i hi
    by_cases hk₀ : k = k₀
    · subst hk₀
      exact Or.inl ⟨rfl, hnew i hi⟩
    · refine Or.inr ?_
      cases hi with
      | allocator hk hal =>
        rcases haddress _ _ hk with ⟨-, hold⟩ | ⟨he, -⟩
        · obtain ⟨al₀, hal₀⟩ := h.live _ _ hold
          rw [hp.object _ al₀ ⟨_, trivial, hold⟩ hal₀] at hal
          cases hal
          exact .allocator hold hal₀
        · exact absurd he hk₀
      | object ho =>
        rcases hobjs _ _ ho with he | hold
        · exact absurd he hk₀
        · exact .object hold
  refine ⟨fun t i b hb => ?_, fun e he => ?_, hempty, fun k a ha => ?_, fun k a ha t i hb => ?_,
    fun k a ha e he heq => ?_, fun k i hi => ?_, fun k k' i hi hi' => ?_⟩
  · rcases hp.slots t i b hb with hold | hnew
    · exact Nat.lt_of_lt_of_le (h.slots t i b hold) hp.next
    · exact hnew.2
  · rw [hblocks] at he
    exact Nat.lt_of_lt_of_le (h.lent e he) hp.next
  · rcases haddress k a ha with ⟨-, hold⟩ | ⟨-, -, hlive, -⟩
    · obtain ⟨al, hal⟩ := h.live k a hold
      exact ⟨al, hp.object a al ⟨k, trivial, hold⟩ hal⟩
    · exact hlive
  · rcases haddress k a ha with ⟨-, hold⟩ | ⟨-, -, -, hun⟩
    · rcases hp.slots t i a hb with hslot | hnew
      · exact h.unstored k a hold t i hslot
      · have hlt := h.lt_next hold
        omega
    · exact hun t i hb
  · rw [hblocks] at he
    rcases haddress k a ha with ⟨-, hold⟩ | ⟨-, hge, -⟩
    · exact h.unlent k a hold e he heq
    · have hlt := h.lent e he
      omega
  · rcases hkeeps k i hi with ⟨-, rfl⟩ | hold
    · exact ⟨hi₀, hmarked⟩
    · obtain ⟨hlt, hm⟩ := h.marked k i hold
      exact ⟨hlt, hp.marked i ⟨k, trivial, hold⟩ hm⟩
  · rcases hkeeps k i hi with ⟨rfl, rfl⟩ | hold
    · rcases hkeeps k' i hi' with ⟨rfl, -⟩ | hold'
      · rfl
      · exact absurd (h.marked k' i hold').2 hfree
    · rcases hkeeps k' i hi' with ⟨rfl, rfl⟩ | hold'
      · exact absurd (h.marked k i hold).2 hfree
      · exact h.single k k' i hold hold'

end Sound

/-! ## Allocators that come -/

section Made

variable {s : Api} {t : Tid} {r : Option Nat} {al : AllocatorImpl} {p : Process Object}

theorem slots_of_made (h : Made s.lib.proc t r al p) {t' : Tid} {i b : Nat}
    (hb : p.slot t' i = some b) : s.lib.proc.slot t' i = some b ∨ b = s.lib.proc.heap.next + 1 := by
  by_cases hself : t' = t ∧ i = al.id
  · obtain ⟨rfl, rfl⟩ := hself
    rw [h.self] at hb
    exact Or.inr (Option.some.inj hb).symm
  · rw [h.others t' i (not_and_or.mp hself)] at hb
    exact Or.inl hb

/-- The block of the allocator is in no slot. -/
theorem unstored_of_made (hs : SlotsBelow s.lib.proc) (h : Made s.lib.proc t r al p) (t' : Tid)
    (i : Nat) : p.slot t' i ≠ some s.lib.proc.heap.next := by
  intro hb
  rcases slots_of_made h hb with hold | hnew
  · exact Nat.lt_irrefl _ (hs t' i _ hold)
  · omega

theorem spares_made {own ids : Nat → Prop} (h : Made s.lib.proc t r al p)
    (hr : ∀ b, r = some b → ∃ st, s.lib.proc.readStats b = some st) :
    Spares own ids s.lib.proc p where
  next := by
    have hnext := h.next
    omega
  slots := by
    intro t' i b hb
    have hnext := h.next
    refine (slots_of_made h hb).imp_right ?_
    rintro rfl
    omega
  object := by
    intro a al' _ hal
    have hra : r ≠ some a := by
      intro hra
      obtain ⟨st, hst⟩ := hr a hra
      rw [readAllocator_of_readStats hst] at hal
      cases hal
    exact (readAllocator_congr (h.old a (readAllocator_lt hal) hra)).trans hal
  marked := fun i _ hi => (h.marked i).mpr (Or.inl hi)

end Made

/-! ## The functions of the library -/

open Library

variable {s s' : Api} {t : Tid} {env : CallEnv} {l' : Library} {out : ApiOut} {p : Process Object}

theorem sound_getSingleton (h : Sound s) {r : Except String (Option Nat)}
    (hs : s.lib.lldkGetAllocatorSingleton t env = .ok (r, l')) : Sound { s with lib := l' } := by
  rcases lldkGetAllocatorSingleton_ok h.slots hs with
    ⟨a, -, rfl, -⟩ | ⟨a, q, hnone, rfl, rfl, -⟩ | ⟨what, q, rfl, -, hg⟩
  · exact h
  · obtain ⟨al, q', hok, hmade, -⟩ := getSingleton_made hnone (servesSingleton_of_ok hnone hs)
    rw [hs] at hok
    cases hok
    refine h.gained .singleton (spares_made hmade fun b hb => by cases hb) hmade.free
      hmade.id_lt ((hmade.marked _).mpr (Or.inr rfl)) (fun i hi => ?_) (fun k a ha => ?_)
      (fun o obj ho => Or.inr ho) (fun hno => ?_) rfl
    · cases hi with
      | allocator hk hal =>
        cases hk
        exact congrArg AllocatorImpl.id (Option.some.inj (hal.symm.trans hmade.object))
    · cases k with
      | singleton =>
        cases ha
        exact Or.inr ⟨rfl, Nat.le_refl _, ⟨al, hmade.object⟩, unstored_of_made h.slots hmade⟩
      | entry n => exact Or.inl ⟨(fun he => by cases he), ha⟩
      | object o => cases ha
    · cases hno
  · exact h.withProc (.of_grew hg fun i hi => marked_of_getSingleton hs hi)

/-- **The construction of an allocator**: the singleton first, then the allocator in a block of
its own, or nothing. -/
theorem sound_createObject (h : Sound s) {n : String} {uMaxSizeMB : UInt64}
    {r : Except String (Option Nat)}
    (ho : s.lib.createObject t n uMaxSizeMB env = .ok (r, l')) :
    (∃ l₁ b al r' q, Sound { s with lib := l₁ } ∧ l₁.s_pAllocator = some b ∧
        l₁.s_pAllocatorMap = s.lib.s_pAllocatorMap ∧ r = .ok (some l₁.proc.heap.next) ∧
        (∀ c, r' = some c → ∃ st, l₁.proc.readStats c = some st) ∧
        Made l₁.proc t r' al q ∧ l' = l₁.withProc q) ∨
      ((∀ a, r ≠ .ok (some a)) ∧ Sound { s with lib := l' }) := by
  obtain ⟨r₁, l₁, q, hs, hl', hcase⟩ := createObject_ok h.slots ho
  have h₁ := sound_getSingleton h hs
  rcases r₁ with what | _ | b
  · have hobject := ho
    unfold createObject at hobject
    rw [hs] at hobject
    cases hobject
    exact Or.inr ⟨(fun a ha => by cases ha), h₁⟩
  · obtain ⟨-, -, b, he⟩ := codes_getSingleton hs
    cases he
  · have hb : l₁.s_pAllocator = some b := by
      rcases lldkGetAllocatorSingleton_ok h.slots hs with
        ⟨b', hb', rfl, he⟩ | ⟨b', q', -, rfl, he, -⟩ | ⟨what, q', -, he, -⟩
      · cases he
        exact hb'
      · cases he
        rfl
      · cases he
    rw [createObject_of_getSingleton hs hb] at ho
    obtain ⟨self, hself⟩ := h₁.live .singleton b hb
    rcases hcase with ⟨a, -, rfl, -, -⟩ | ⟨hnot, hg⟩
    · obtain ⟨⟨r', hcounts⟩, hmem, hname, hid, henv⟩ := serves_of_createObject hb hself ho
      obtain ⟨al, q', hok, hmade, -⟩ :=
        createObject_made hb hself hcounts hmem hname hid henv n uMaxSizeMB
      rw [ho] at hok
      injection hok with hok
      injection hok with hr hl
      rw [hr, hl]
      exact Or.inl ⟨l₁, b, al, r', q', h₁, hb, (codes_getSingleton hs).2.1, rfl, hcounts.live,
        hmade, rfl⟩
    · rw [hl'] at ho ⊢
      exact Or.inr ⟨hnot, h₁.withProc (.of_grew hg fun i hi => marked_of_createObject hb ho hi)⟩

/-- An allocator that nobody keeps is deleted again. -/
theorem sound_deleted (h : Sound s) {b : Nat} {al : AllocatorImpl} {r' : Option Nat}
    {q : Process Object} {l₃ : Library} (hb : s.lib.s_pAllocator = some b)
    (hr : ∀ c, r' = some c → ∃ st, s.lib.proc.readStats c = some st)
    (hmade : Made s.lib.proc t r' al q) (hq : Spares (s.addresses fun _ => True)
      (s.ids fun _ => True) q p) (hal : p.readAllocator s.lib.proc.heap.next = some al)
    (hslots : p.s_ppInstances = q.s_ppInstances)
    (hd : (s.lib.withProc p).deleteAllocatorImpl t s.lib.proc.heap.next env = .ok l₃) :
    Sound { s with lib := l₃ } := by
  obtain ⟨p₃, rfl, hdel⟩ := deleteAllocatorImpl_ok (l := s.lib.withProc p) hb hd
  have hdeleted : Spares (s.addresses fun _ => True) (s.ids fun _ => True) p p₃ := by
    refine ⟨Nat.le_of_eq hdel.next.symm,
      fun t i _ hs => Or.inl ((slot_congr hdel.s_ppInstances t i).symm.trans hs), ?_, ?_⟩
    · rintro a al' ⟨k, -, hk⟩ ha
      have hlt := h.lt_next hk
      refine hdel.allocators a al' (Nat.ne_of_lt hlt) (fun t' i hs => ?_) ha
      rcases slots_of_made hmade ((slot_congr hslots t' i).symm.trans hs) with hold | hnew
      · exact h.unstored k a hk t' i hold
      · omega
    · rintro i ⟨k, -, hk⟩ hi
      refine marked_of_deleteAllocatorImpl (l := s.lib.withProc p) hb hal hd hi ?_
      rintro rfl
      exact hmade.free (h.marked k _ hk).2
  exact h.withProc (((spares_made hmade hr).trans hq).trans hdeleted)

/-- **The registration**: the new allocator is kept under its name, or deleted. -/
theorem sound_createEmplace (h : Sound s) {n : String} {b : Nat} {al : AllocatorImpl}
    {r' : Option Nat} {q : Process Object} {res : Option Nat} (hb : s.lib.s_pAllocator = some b)
    (hr : ∀ c, r' = some c → ∃ st, s.lib.proc.readStats c = some st)
    (hmade : Made s.lib.proc t r' al q)
    (he : EmplaceMove (s.lib.withProc q) t n s.lib.proc.heap.next env res l') :
    Sound { s with lib := l' } := by
  have hsame : Spares (s.addresses fun _ => True) (s.ids fun _ => True) q q :=
    .of_tables (SameTables.refl q) fun _ _ => rfl
  cases he with
  | noNode hnode hd =>
    exact sound_deleted h hb hr hmade (Spares.setErrorCode _ _ q t .kThrowException) hmade.object
      rfl hd
  | there hnode hfind hd =>
    exact sound_deleted h hb hr hmade hsame hmade.object rfl (deleteAllocatorImpl_of_underLock hd)
  | noBuckets hnode hfind hrehash hd =>
    have h₃ := sound_deleted h hb hr hmade hsame hmade.object rfl
      (deleteAllocatorImpl_of_underLock hd)
    exact h₃.setErrorCode t .kThrowException
  | added hnode hfind hrehash =>
    have hfree : s.lib.find n = none := hfind
    refine h.gained (.entry n) (spares_made hmade hr) hmade.free hmade.id_lt
      ((hmade.marked _).mpr (Or.inr rfl)) (fun i hi => ?_) (fun k a ha => ?_)
      (fun o obj ho => Or.inr ho) (fun hno => ?_) rfl
    · cases hi with
      | allocator hk hal =>
        have hk' := (find_registered s.lib n n s.lib.proc.heap.next).symm.trans hk
        rw [hfree, if_pos rfl] at hk'
        cases hk'
        exact congrArg AllocatorImpl.id (Option.some.inj (hal.symm.trans hmade.object))
    · cases k with
      | singleton => exact Or.inl ⟨(fun he => by cases he), ha⟩
      | entry m =>
        have ha' := (find_registered s.lib n m s.lib.proc.heap.next).symm.trans ha
        by_cases hm : m = n
        · rw [hm, hfree, if_pos rfl] at ha'
          cases ha'
          exact Or.inr ⟨by rw [hm], Nat.le_refl _, ⟨al, hmade.object⟩,
            unstored_of_made h.slots hmade⟩
        · rw [if_neg hm, Option.or_none] at ha'
          exact Or.inl ⟨fun he => hm (by cases he; rfl), ha'⟩
      | object o => cases ha
    · have hno' : s.lib.s_pAllocator = none := hno
      rw [hb] at hno'
      cases hno'

theorem sound_create (h : Sound s) {pName : Option String} {uMaxSizeMB : UInt64}
    {r : Except String (Option Nat)}
    (hc : s.lib.lldkCreateAllocator t pName uMaxSizeMB env = .ok (r, l')) :
    Sound { s with lib := l' } := by
  cases lldkCreateAllocator_moves hc with
  | refused hno => exact h.setErrorCode t .kInvalidParam
  | noKey hkey => exact h
  | stopped hkey hfind ho hr =>
    rcases sound_createObject h ho with ⟨l₁, b, al, r', q, -, -, -, rfl, -⟩ | ⟨-, h₂⟩
    · exact absurd rfl (hr _)
    · exact h₂
  | made hkey hfind ho hemplace =>
    rcases sound_createObject h ho with
      ⟨l₁, b, al, r', q, h₁, hb, -, he, hr, hmade, rfl⟩ | ⟨hnot, -⟩
    · cases he
      exact sound_createEmplace (s := { s with lib := l₁ }) h₁ hb hr hmade hemplace
    · exact absurd rfl (hnot _)

theorem sound_destroy (h : Sound s) {q : Option Nat} {r : Except String Unit}
    (hd : s.lib.lldkDestroyAllocator t q env = .ok (r, l')) : Sound { s with lib := l' } := by
  cases lldkDestroyAllocator_moves hd with
  | refused hno => exact h.setErrorCode t .kInvalidParam
  | noKey hkey => exact h
  | @deleted a al l₁ hkey hal hfind hdel =>
    have hentry : s.address (.entry al.getName) = some a := hfind
    cases hs : s.lib.s_pAllocator with
    | none =>
      rw [h.empty hs] at hfind
      cases hfind
    | some b =>
      have himpl := deleteAllocatorImpl_of_underLock hdel
      obtain ⟨p, rfl, hdeleted⟩ := deleteUnderLock_ok (l := s.lib.erase al.getName) hs hdel
      have hp : Spares (s.addresses (· ≠ .entry al.getName))
          (s.ids (· ≠ .entry al.getName)) s.lib.proc p := by
        refine ⟨Nat.le_of_eq hdeleted.next.symm, fun t i _ hb =>
          Or.inl ((slot_congr hdeleted.s_ppInstances t i).symm.trans hb), ?_, ?_⟩
        · rintro c al' ⟨k, hk, hc⟩ hal'
          refine hdeleted.allocators c al' ?_ (h.unstored k c hc) hal'
          rintro rfl
          exact hk (h.address_single hc hentry)
        · rintro i ⟨k, hk, hi⟩ hm
          refine marked_of_deleteAllocatorImpl (l := s.lib.erase al.getName) hs hal himpl hm ?_
          rintro rfl
          exact hk (h.single _ _ _ hi (.allocator hentry hal))
      have hsound : Sound { s with lib := (s.lib.erase al.getName).withProc p } := by
        refine h.spared hp (fun k c hc => ?_) (fun o obj ho => ⟨(fun he => by cases he), ho⟩)
          rfl fun e he => Or.inl ⟨e, he, rfl⟩
        cases k with
        | singleton => exact ⟨(fun he => by cases he), hc⟩
        | entry m =>
          have hc' := (find_erase s.lib al.getName m).symm.trans hc
          by_cases hm : m = al.getName
          · rw [if_pos hm] at hc'
            cases hc'
          · rw [if_neg hm] at hc'
            exact ⟨fun he => hm (by cases he; rfl), hc'⟩
        | object o => cases hc
      exact hsound.setErrorCode t .kInvalidParam

/-- The block that a program gives back is nobody's allocator. -/
theorem Sound.not_lent (h : Sound s) {o : Option Nat} {b : Nat} (hb : (o, b) ∈ s.blocks) :
    ¬ s.addresses (fun _ => True) b := by
  rintro ⟨k, -, hk⟩
  exact h.unlent k b hk _ hb rfl

/-- A call that returned a block of the program, or a new one. -/
theorem sound_holding (h : Sound s) {o : Option Nat} {b : Nat} {blocks : List (Option Nat × Nat)}
    (hblocks : ∀ e ∈ blocks, e ∈ s.blocks)
    (hp : Spares (s.addresses fun _ => True) (s.ids fun _ => True) s.lib.proc p)
    (hb : (∃ e ∈ s.blocks, e.2 = b) ∨ (s.lib.proc.heap.next ≤ b ∧ b < p.heap.next)) :
    Sound { s with lib := s.lib.withProc p, blocks := (o, b) :: blocks } := by
  refine h.spared hp (fun k _ ha => ⟨trivial, by cases k <;> exact ha⟩)
    (fun _ _ ho => ⟨trivial, ho⟩) rfl fun e he => ?_
  rcases List.mem_cons.mp he with rfl | he
  · exact hb
  · exact Or.inl ⟨e, hblocks e he, rfl⟩

theorem sound_allocated (h : Sound s) {al : AllocatorImpl} {a b : Nat} {uSize : UInt64}
    {mem : Bool} (hcall : al.allocate s.lib.proc t uSize mem = .ok (some b, p)) :
    Sound { s with lib := s.lib.withProc p, blocks := (some a, b) :: s.blocks } := by
  obtain ⟨rfl, -, -, hnext, -⟩ := AllocatorImpl.allocate_grew hcall
  refine sound_holding h (fun _ he => he) (spares_allocate hcall) (Or.inr ⟨Nat.le_refl _, ?_⟩)
  rw [hnext]
  exact Nat.lt_succ_self _

/-- A block that is resized is no kept allocator, before or after. -/
theorem sound_resized (h : Sound s) {al : AllocatorImpl} {a b q : Nat} {uSize : UInt64}
    {mem : Bool} {r : Realloc} (hb : (some a, b) ∈ s.blocks)
    (hcall : al.reAllocate s.lib.proc t (some b) uSize mem r = .ok (some q, p)) :
    Sound { s with
      lib := s.lib.withProc p
      blocks := (some a, q) :: s.blocks.erase (some a, b) } := by
  have hapart : ∀ c, s.addresses (fun _ => True) c → c ≠ b ∧ c < s.lib.proc.heap.next := by
    rintro c ⟨k, -, hk⟩
    exact ⟨fun he => h.unlent k c hk _ hb he.symm, h.lt_next hk⟩
  obtain ⟨hp, hq⟩ := spares_reAllocate hapart hcall
  exact sound_holding h (fun e he => List.mem_of_mem_erase he) hp
    (hq.imp_left fun he => ⟨_, hb, he.symm⟩)

theorem sound_gaveBack (h : Sound s) {e : Option Nat × Nat}
    (hp : Spares (s.addresses fun _ => True) (s.ids fun _ => True) s.lib.proc p) :
    Sound { s with lib := s.lib.withProc p, blocks := s.blocks.erase e } :=
  h.spared hp (fun k _ ha => ⟨trivial, by cases k <;> exact ha⟩)
    (fun _ _ ho => ⟨trivial, ho⟩) rfl fun e he => Or.inl ⟨e, List.mem_of_mem_erase he, rfl⟩

/-- A block that `realloc` released was no kept allocator. -/
theorem spares_dropped (h : Sound s) {o : Option Nat} {b : Nat} (hb : (o, b) ∈ s.blocks)
    (ids : Nat → Prop) : Spares (s.addresses fun _ => True) ids s.lib.proc
      ((s.lib.proc.freeBlock b).lldkSetErrorCode t .kNoMemory) :=
  (spares_freeBlock (h.not_lent hb)).trans (Spares.setErrorCode _ _ _ t _)

theorem spares_lldkAllocate {P ids : Nat → Prop} {p : Process Object} {uSize : UInt64} :
    Spares P ids p (p.lldkAllocate t uSize true).2 := by
  refine .of_grew (Grew.of_tables (Nat.le_succ _) rfl fun b al hb => ?_) fun _ hi => hi
  exact readAllocator_of_blocks (fun c block hc => Heap.cells_alloc_of_some _ hc) hb

theorem spares_lldkFree (h : Sound s) {o : Option Nat} {b : Nat} (hb : (o, b) ∈ s.blocks)
    (ids : Nat → Prop) (hcall : s.lib.proc.lldkFree t (some b) = .ok p) :
    Spares (s.addresses fun _ => True) ids s.lib.proc p := by
  have hr := released_lldkFree hcall
  refine .of_tables ⟨hr.s_bitset, hr.s_ppInstances, hr.s_vecpppInstances,
    Nat.le_of_eq hr.next.symm⟩ fun a ha => readAllocator_congr (hr.others a ?_)
  rintro rfl
  exact h.not_lent hb ha

/-! ## The other `LldkThreadLocal` objects -/

theorem sound_constructThreadLocal (h : Sound s) {T : ObjectType Object} {o a : Nat} {env : Env}
    {obj : LldkThreadLocal}
    (hc : LldkThreadLocal.construct T s.lib.proc t env = .ok (.object obj a, p)) :
    Sound { s with lib := s.lib.withProc p, objs := Function.update s.objs o (some obj) } := by
  obtain ⟨hlt, hfree, -, hb⟩ := LldkThreadLocal.construct_object T hc
  refine h.gained (.object o) (.of_grew (constructs_threadLocal hc).toGrew
    fun i hi => marked_of_construct hc hi) hfree hlt ((hb.marked _).mpr (Or.inr rfl))
    (fun i hi => ?_) (fun k c hk => Or.inl ?_) (fun o' obj' ho => ?_) h.empty rfl
  · cases hi with
    | allocator hk hal => cases hk
    | object ho =>
      have he := ho.symm.trans (Function.update_self o (some obj) s.objs)
      cases he
      rfl
  · cases k with
    | singleton => exact ⟨(fun he => by cases he), hk⟩
    | entry n => exact ⟨(fun he => by cases he), hk⟩
    | object o' => cases hk
  · by_cases he : o' = o
    · exact Or.inl (by rw [he])
    · exact Or.inr ((Function.update_of_ne he ..).symm.trans ho)

theorem sound_destroyThreadLocal (h : Sound s) {o : Nat} {obj : LldkThreadLocal}
    (ho : s.objs o = some obj) (hd : obj.destruct s.lib.proc t = .ok p) :
    Sound { s with lib := s.lib.withProc p, objs := Function.update s.objs o none } := by
  have hdes := LldkThreadLocal.destruct_destructed hd
  have hp : Spares (s.addresses (· ≠ .object o)) (s.ids (· ≠ .object o)) s.lib.proc p := by
    refine ⟨Nat.le_of_eq hdes.next.symm, fun t i _ hb =>
      Or.inl ((slot_congr hdes.s_ppInstances t i).symm.trans hb), ?_, ?_⟩
    · rintro a al ⟨k, -, hk⟩ hal
      exact (readAllocator_congr (hdes.others a (h.unstored k a hk t _))).trans hal
    · rintro i ⟨k, hk, hi⟩ hm
      refine (hdes.marked i).mpr ⟨hm, ?_⟩
      rintro rfl
      exact hk (h.single _ _ _ hi (.object ho))
  refine h.spared hp (fun k a ha => ?_) (fun o' obj' ho' => ?_) rfl fun e he => Or.inl ⟨e, he, rfl⟩
  · cases k with
    | singleton => exact ⟨(fun he => by cases he), ha⟩
    | entry n => exact ⟨(fun he => by cases he), ha⟩
    | object o' => cases ha
  · by_cases he : o' = o
    · rw [he] at ho'
      have hnone := ho'.symm.trans (Function.update_self o none s.objs)
      cases hnone
    · refine ⟨fun hk => he ?_, (Function.update_of_ne he ..).symm.trans ho'⟩
      cases hk
      rfl

/-! ## Runs -/

theorem CallMove.sound {op : ApiOp} (h : Sound s) (hs : CallMove s op out s') : Sound s' := by
  cases hs with
  | refused t e hfails => exact h.setErrorCode t e
  | looked => exact h
  | allocated hop hal hcall => exact sound_allocated h hcall
  | resized hb hal hcall => exact sound_resized h hb hcall
  | dropped hb hdrops => exact sound_gaveBack h (spares_dropped h hb _)
  | freed hb hal hcall => exact sound_gaveBack h (spares_free (h.not_lent hb) hcall)
  | lldkAllocated =>
    exact sound_holding h (fun _ he => he) spares_lldkAllocate
      (Or.inr ⟨Nat.le_refl _, Nat.lt_succ_self _⟩)
  | lldkFreed hb hcall => exact sound_gaveBack h (spares_lldkFree h hb _ hcall)
  | constructed ho hcall => exact sound_constructThreadLocal h hcall
  | threw ho hcall =>
    exact h.withProc (.of_grew (constructs_threadLocal hcall).toGrew
      fun i hi => marked_of_construct hcall hi)
  | destructed ho hcall => exact sound_destroyThreadLocal h ho hcall

/-- **Every call keeps a state sound.** -/
theorem sound_step {op : ApiOp} (h : Sound s) (hs : apiStep s op = .ok (s', out)) : Sound s' := by
  cases apiStep_moves hs with
  | created hc => exact sound_create h hc
  | gotSingleton hg => exact sound_getSingleton h hg
  | destroyed hd => exact sound_destroy h hd
  | destroyThrew hd => exact sound_destroy h hd
  | call hop hcall => exact hcall.sound h

theorem sound_run {ops : List ApiOp} {outs : List ApiOut}
    (hr : run apiStep .init ops = .ok (s, outs)) : Sound s :=
  run_invariant (fun _ _ _ _ h hs => sound_step h hs) Sound.init hr

end Api

end Lldk
