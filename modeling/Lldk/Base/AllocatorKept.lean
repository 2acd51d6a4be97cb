import Lldk.Base.AllocatorSound

/-!
The allocators of a program from the call that creates them to the call that destroys them.

* No call registers a name twice: `namesOnce_step`.
* `Carries s s'`: the allocators that the library keeps in both states are unchanged, and the ones
  it keeps in `s'` only are new and have their names. `carries_step` is one call, `carries_run` a
  run.
* `allocators_kept_apart` and `allocators_unchanged` say it of every program.
-/

namespace Lldk

open Lib Lib.Trace Process

/-! ## The names of the registry -/

section Names

open Library Api

variable {s s' : Api} {t : Tid} {l l' : Library} {env : CallEnv}

/-- The construction of an allocator leaves the registry. -/
theorem map_createObject {n : String} {uMaxSizeMB : UInt64} {r : Except String (Option Nat)}
    (hslots : SlotsBelow l.proc) (h : l.createObject t n uMaxSizeMB env = .ok (r, l')) :
    l'.s_pAllocatorMap = l.s_pAllocatorMap := by
  obtain ⟨r₁, l₁, p, hs, rfl, -⟩ := createObject_ok hslots h
  rcases lldkGetAllocatorSingleton_ok hslots hs with
    ⟨a, -, rfl, -⟩ | ⟨a, q, -, rfl, -⟩ | ⟨what, q, rfl, -⟩ <;> rfl

/-- The registration adds a name that is not there, or leaves the registry. -/
theorem map_createEmplace {n : String} {a b : Nat} {res : Option Nat}
    (hb : l.s_pAllocator = some b) (h : EmplaceMove l t n a env res l') :
    l'.s_pAllocatorMap = l.s_pAllocatorMap ∨
      l.find n = none ∧ l'.s_pAllocatorMap = l.s_pAllocatorMap ++ [(n, a)] := by
  cases h with
  | noNode hnode hd =>
    obtain ⟨p, rfl, -⟩ := deleteAllocatorImpl_ok
      (l := l.lldkSetErrorCode t .kThrowException) hb hd
    exact Or.inl rfl
  | there hnode hfind hd =>
    obtain ⟨p, rfl, -⟩ := deleteUnderLock_ok hb hd
    exact Or.inl rfl
  | noBuckets hnode hfind hrehash hd =>
    obtain ⟨p, rfl, -⟩ := deleteUnderLock_ok hb hd
    exact Or.inl rfl
  | added hnode hfind hrehash => exact Or.inr ⟨hfind, rfl⟩

theorem map_create (h : Sound s) {pName : Option String} {uMaxSizeMB : UInt64}
    {r : Except String (Option Nat)}
    (hc : s.lib.lldkCreateAllocator t pName uMaxSizeMB env = .ok (r, l')) :
    l'.s_pAllocatorMap = s.lib.s_pAllocatorMap ∨ ∃ n a, s.lib.find n = none ∧
      l'.s_pAllocatorMap = s.lib.s_pAllocatorMap ++ [(n, a)] := by
  cases lldkCreateAllocator_moves hc with
  | refused hno => exact Or.inl rfl
  | noKey hkey => exact Or.inl rfl
  | stopped hkey hfind ho hr => exact Or.inl (map_createObject h.slots ho)
  | @made n a q l₁ l' hkey hfind ho hemplace =>
    have hmap := map_createObject h.slots ho
    rcases sound_createObject h ho with ⟨l₂, b, al, r', p, -, hb, -, -, -, -, rfl⟩ | ⟨hnot, -⟩
    · rcases map_createEmplace (l := l₂.withProc p) hb hemplace with hsame | ⟨-, hadded⟩
      · exact Or.inl (hsame.trans hmap)
      · exact Or.inr ⟨n, a, hfind, hadded.trans (congrArg (· ++ _) hmap)⟩
    · exact absurd rfl (hnot a)

/-- A destruction takes entries out of the registry at most. -/
theorem map_destroy (h : Sound s) {q : Option Nat} {r : Except String Unit}
    (hd : s.lib.lldkDestroyAllocator t q env = .ok (r, l')) :
    l'.s_pAllocatorMap.Sublist s.lib.s_pAllocatorMap := by
  cases lldkDestroyAllocator_moves hd with
  | refused hno => exact List.Sublist.refl _
  | noKey hkey => exact List.Sublist.refl _
  | @deleted a al l₁ hkey hal hfind hdel =>
    cases hs : s.lib.s_pAllocator with
    | none =>
      rw [h.empty hs] at hfind
      cases hfind
    | some b =>
      obtain ⟨p, rfl, -⟩ := deleteUnderLock_ok (l := s.lib.erase al.getName) hs hdel
      exact List.filter_sublist

/-- No name is registered twice. -/
def NamesOnce (s : Api) : Prop := (s.lib.s_pAllocatorMap.map Prod.fst).Nodup

theorem NamesOnce.added (h : NamesOnce s) {n : String} {a : Nat} (hfind : s.lib.find n = none) :
    ((s.lib.s_pAllocatorMap ++ [(n, a)]).map Prod.fst).Nodup := by
  rw [List.map_append]
  refine List.nodup_append.mpr ⟨h, List.nodup_singleton _, fun m hm k hk hmk => ?_⟩
  obtain ⟨e, he, rfl⟩ := List.mem_map.mp hm
  rw [List.map_singleton, List.mem_singleton] at hk
  have hfound : s.lib.find e.1 = some e.2 := (find_iff_mem h).mpr he
  rw [hmk, hk, hfind] at hfound
  cases hfound

/-- What the other calls do: the process changes at most, and the allocators are spared. -/
def SparesAll (s s' : Api) : Prop :=
  ∃ p, s'.lib = s.lib.withProc p ∧
    Spares (s.addresses fun _ => True) (fun _ => False) s.lib.proc p

/-- **The other calls.** -/
theorem Api.CallMove.sparesAll {op : ApiOp} {out : ApiOut} (h : Sound s)
    (hs : CallMove s op out s') : SparesAll s s' := by
  cases hs with
  | refused t e hfails => exact ⟨_, rfl, .setErrorCode _ _ _ t e⟩
  | looked => exact ⟨s.lib.proc, rfl, .of_tables (SameTables.refl _) fun _ _ => rfl⟩
  | allocated hop hal hcall => exact ⟨_, rfl, spares_allocate hcall⟩
  | resized hb hal hcall =>
    refine ⟨_, rfl, (spares_reAllocate (fun c hc => ?_) hcall).1⟩
    obtain ⟨k, -, hk⟩ := hc
    exact ⟨fun he => h.unlent k c hk _ hb he.symm, h.lt_next hk⟩
  | dropped hb hdrops => exact ⟨_, rfl, spares_dropped h hb _⟩
  | freed hb hal hcall => exact ⟨_, rfl, spares_free (h.not_lent hb) hcall⟩
  | lldkAllocated => exact ⟨_, rfl, spares_lldkAllocate⟩
  | lldkFreed hb hcall => exact ⟨_, rfl, spares_lldkFree h hb _ hcall⟩
  | constructed ho hcall =>
    exact ⟨_, rfl, .of_grew (constructs_threadLocal hcall).toGrew
      fun i hi => marked_of_construct hcall hi⟩
  | threw ho hcall =>
    exact ⟨_, rfl, .of_grew (constructs_threadLocal hcall).toGrew
      fun i hi => marked_of_construct hcall hi⟩
  | @destructed t o obj p ho hcall =>
    have hdes := LldkThreadLocal.destruct_destructed hcall
    refine ⟨p, rfl, Nat.le_of_eq hdes.next.symm, fun t' i _ hb =>
      Or.inl ((slot_congr hdes.s_ppInstances t' i).symm.trans hb), ?_, fun i hi _ => hi.elim⟩
    rintro a al ⟨k, -, hk⟩ hal
    exact (readAllocator_congr (hdes.others a (h.unstored k a hk t _))).trans hal

theorem NamesOnce.destroy (hsound : Sound s) (h : NamesOnce s) {q : Option Nat}
    {r : Except String Unit} (hd : s.lib.lldkDestroyAllocator t q env = .ok (r, l')) :
    NamesOnce { s with lib := l' } :=
  List.Nodup.sublist ((map_destroy hsound hd).map Prod.fst) h

/-- **Every call keeps the names apart.** -/
theorem namesOnce_step {op : ApiOp} {out : ApiOut} (hsound : Sound s) (h : NamesOnce s)
    (hs : apiStep s op = .ok (s', out)) : NamesOnce s' := by
  cases apiStep_moves hs with
  | created hc =>
    unfold NamesOnce
    rcases map_create hsound hc with hsame | ⟨n, a, hfind, hadded⟩
    · rw [hsame]
      exact h
    · rw [hadded]
      exact h.added hfind
  | gotSingleton hg =>
    rcases lldkGetAllocatorSingleton_ok hsound.slots hg with
      ⟨a, -, rfl, -⟩ | ⟨a, q, -, rfl, -⟩ | ⟨what, q, rfl, -⟩ <;> exact h
  | destroyed hd => exact h.destroy hsound hd
  | destroyThrew hd => exact h.destroy hsound hd
  | call hop hcall =>
    obtain ⟨p, hl, -⟩ := hcall.sparesAll hsound
    unfold NamesOnce
    rw [hl]
    exact h

theorem namesOnce_run {ops : List ApiOp} {outs : List ApiOut}
    (hr : run apiStep .init ops = .ok (s, outs)) : Sound s ∧ NamesOnce s := by
  have hstep : ∀ s op s' out, Sound s ∧ NamesOnce s → apiStep s op = .ok (s', out) →
      Sound s' ∧ NamesOnce s' :=
    fun _ _ _ _ h hs => ⟨sound_step h.1 hs, namesOnce_step h.1 h.2 hs⟩
  exact run_invariant hstep ⟨Sound.init, List.nodup_nil⟩ hr

end Names

/-! ## Allocators that stay -/

/-- The name that the allocator of a keeper has. -/
def Keeper.name : Keeper → String
  | .singleton => "lldk.global.allocator"
  | .entry pName => pName
  | .object _ => ""

structure Carries (s s' : Api) : Prop where
  next : s.lib.proc.heap.next ≤ s'.lib.proc.heap.next
  old : ∀ k a al, s.address k = some a → s'.address k = some a →
    s.lib.proc.readAllocator a = some al → s'.lib.proc.readAllocator a = some al
  new : ∀ k a, s'.address k = some a → s.address k = some a ∨
    (s.lib.proc.heap.next ≤ a ∧ ∃ al, s'.lib.proc.readAllocator a = some al ∧ al.getName = k.name)

namespace Carries

open Library Api

variable {s s' s'' : Api} {t : Tid} {l l' : Library} {p : Process Object} {env : CallEnv}

theorem refl (s : Api) : Carries s s :=
  ⟨Nat.le_refl _, fun _ _ _ _ _ h => h, fun _ _ h => Or.inl h⟩

/-- An allocator that is kept at the end of two calls and at their start is kept between them,
since an address that the second call adds is new. -/
theorem trans (hs : Sound s) (h : Carries s s') (h' : Carries s' s'') : Carries s s'' := by
  refine ⟨Nat.le_trans h.next h'.next, fun k a al hk hk'' hal => ?_, fun k a hk'' => ?_⟩
  · rcases h'.new k a hk'' with hk' | ⟨hnew, -⟩
    · exact h'.old k a al hk' hk'' (h.old k a al hk hk' hal)
    · have hlt := hs.lt_next hk
      have hnext := h.next
      omega
  · rcases h'.new k a hk'' with hk' | ⟨hnew, hal⟩
    · rcases h.new k a hk' with hk | ⟨hnew, al, hal, hname⟩
      · exact Or.inl hk
      · exact Or.inr ⟨hnew, al, h'.old k a al hk' hk'' hal, hname⟩
    · exact Or.inr ⟨Nat.le_trans h.next hnew, hal⟩

/-- A call that adds no allocator and leaves those that it does not take away. -/
theorem of_object (hnext : s.lib.proc.heap.next ≤ s'.lib.proc.heap.next)
    (hobject : ∀ k a al, s.address k = some a → s'.address k = some a →
      s.lib.proc.readAllocator a = some al → s'.lib.proc.readAllocator a = some al)
    (haddress : ∀ k a, s'.address k = some a → s.address k = some a) : Carries s s' :=
  ⟨hnext, hobject, fun k a hk => Or.inl (haddress k a hk)⟩

theorem of_grew (hg : Grew s.lib.proc p) : Carries s { s with lib := s.lib.withProc p } :=
  of_object hg.next (fun _ a al _ _ hal => hg.allocators a al hal)
    fun k _ hk => by cases k <;> exact hk

theorem getSingleton (h : Sound s) {r : Except String (Option Nat)}
    (hs : s.lib.lldkGetAllocatorSingleton t env = .ok (r, l')) :
    Carries s { s with lib := l' } := by
  rcases lldkGetAllocatorSingleton_ok h.slots hs with
    ⟨a, -, rfl, -⟩ | ⟨a, q, hnone, rfl, -, hg⟩ | ⟨what, q, rfl, -, hg⟩
  · exact refl s
  · refine ⟨hg.next, fun k b al _ _ hal => hg.allocators b al hal, fun k b hk => ?_⟩
    cases k with
    | singleton =>
      cases hk
      exact Or.inr ⟨hg.fresh, hg.live⟩
    | entry n => exact Or.inl hk
    | object o => cases hk
  · exact of_grew hg

/-- An allocator `a` that is new in `p` is destroyed again. -/
theorem deleted (h : Sound s) {n : String} {a : Nat} (hg : Gained s.lib.proc p n a)
    {p' : Process Object} (hd : Deleted p a p') :
    Carries s { s with lib := s.lib.withProc p' } := by
  refine of_object (Nat.le_trans hg.next (Nat.le_of_eq hd.next.symm))
    (fun k c al hk _ hal => ?_) fun k c hk => by cases k <;> exact hk
  have hlt := h.lt_next hk
  have hfresh := hg.fresh
  refine hd.allocators c al (by omega) (fun t i hb => ?_) (hg.allocators c al hal)
  rcases hg.slots t i c hb with hold | hnew
  · exact h.unstored k c hk t i hold
  · omega

/-- The registration of the allocator that the call has made. -/
theorem createEmplace (h : Sound s) {n : String} {a b : Nat} {res : Option Nat}
    (hb : s.lib.s_pAllocator = some b) (hg : Gained s.lib.proc p n a)
    (he : EmplaceMove (s.lib.withProc p) t n a env res l') : Carries s { s with lib := l' } := by
  have hdeleted : ∀ {q q' : Process Object}, Gained s.lib.proc q n a → Deleted q a q' →
      ∀ codes, Carries s { s with lib := s.lib.withProc { q' with s_eErrorCode := codes } } :=
    fun hq hd codes => deleted h hq ⟨hd.next, hd.s_ppInstances, hd.gone, hd.allocators⟩
  cases he with
  | noNode hnode hd =>
    obtain ⟨q, rfl, hdel⟩ := deleteAllocatorImpl_ok
      (l := (s.lib.withProc p).lldkSetErrorCode t .kThrowException) hb hd
    exact hdeleted (q := p.lldkSetErrorCode t .kThrowException)
      ⟨⟨hg.next, hg.allocators, hg.slots, hg.kept⟩, hg.fresh, hg.live, hg.unstored⟩ hdel _
  | there hnode hfind hd =>
    obtain ⟨q, rfl, hdel⟩ := deleteUnderLock_ok (l := s.lib.withProc p) hb hd
    exact hdeleted hg hdel _
  | noBuckets hnode hfind hrehash hd =>
    obtain ⟨q, rfl, hdel⟩ := deleteUnderLock_ok (l := s.lib.withProc p) hb hd
    exact hdeleted hg hdel _
  | added hnode hfind hrehash =>
    refine ⟨hg.next, fun k c al _ _ hal => hg.allocators c al hal, fun k c hk => ?_⟩
    cases k with
    | singleton => exact Or.inl hk
    | entry m =>
      have hk' := (find_registered (s.lib.withProc p) n m a).symm.trans hk
      by_cases hm : m = n
      · rw [hm, hfind, if_pos rfl] at hk'
        cases hk'
        rw [hm]
        exact Or.inr ⟨hg.fresh, hg.live⟩
      · rw [if_neg hm, Option.or_none] at hk'
        exact Or.inl hk'
    | object o => cases hk

theorem setErrorCode (s : Api) (t : Tid) (e : ErrorCode) :
    Carries s { s with lib := s.lib.lldkSetErrorCode t e } :=
  of_grew (Grew.of_tables (Nat.le_refl _) rfl fun _ _ hb => hb)

/-- The construction, up to the registration. -/
theorem createObject (h : Sound s) {n : String} {uMaxSizeMB : UInt64}
    {r : Except String (Option Nat)} (ho : s.lib.createObject t n uMaxSizeMB env = .ok (r, l')) :
    (∃ a b l₁ p, r = .ok (some a) ∧ l' = l₁.withProc p ∧ Sound { s with lib := l₁ } ∧
        Carries s { s with lib := l₁ } ∧ l₁.s_pAllocator = some b ∧ Gained l₁.proc p n a) ∨
      ((∀ a, r ≠ .ok (some a)) ∧ Carries s { s with lib := l' }) := by
  obtain ⟨r₁, l₁, p, hs, rfl, hcase⟩ := createObject_ok h.slots ho
  have hsingleton := getSingleton h hs
  rcases hcase with ⟨a, b, rfl, rfl, hg⟩ | ⟨hnot, hg⟩
  · obtain ⟨b', hb⟩ : ∃ b', l₁.s_pAllocator = some b' := by
      rcases lldkGetAllocatorSingleton_ok h.slots hs with
        ⟨b', hb', rfl, -⟩ | ⟨b', q', -, rfl, -⟩ | ⟨what, q', -, he, -⟩
      · exact ⟨b', hb'⟩
      · exact ⟨b', rfl⟩
      · cases he
    exact Or.inl ⟨a, b', l₁, p, rfl, rfl, sound_getSingleton h hs, hsingleton, hb, hg⟩
  · exact Or.inr ⟨hnot, hsingleton.trans h (of_grew (s := { s with lib := l₁ }) hg)⟩

theorem create (h : Sound s) {pName : Option String} {uMaxSizeMB : UInt64}
    {r : Except String (Option Nat)}
    (hc : s.lib.lldkCreateAllocator t pName uMaxSizeMB env = .ok (r, l')) :
    Carries s { s with lib := l' } := by
  cases lldkCreateAllocator_moves hc with
  | refused hno => exact setErrorCode s t .kInvalidParam
  | noKey hkey => exact refl s
  | stopped hkey hfind ho hr =>
    rcases createObject h ho with ⟨a, b, l₁, p, rfl, -⟩ | ⟨-, hend⟩
    · exact absurd rfl (hr a)
    · exact hend
  | made hkey hfind ho hemplace =>
    rcases createObject h ho with ⟨a, b, l₁, p, he, rfl, h₁, hend, hb, hg⟩ | ⟨hnot, -⟩
    · cases he
      exact hend.trans h (createEmplace (s := { s with lib := l₁ }) h₁ hb hg hemplace)
    · exact absurd rfl (hnot _)

theorem destroy (h : Sound s) {q : Option Nat} {r : Except String Unit}
    (hd : s.lib.lldkDestroyAllocator t q env = .ok (r, l')) : Carries s { s with lib := l' } := by
  cases lldkDestroyAllocator_moves hd with
  | refused hno => exact setErrorCode s t .kInvalidParam
  | noKey hkey => exact refl s
  | @deleted a al l₁ hkey hal hfind hdel =>
    cases hs : s.lib.s_pAllocator with
    | none =>
      rw [h.empty hs] at hfind
      cases hfind
    | some b =>
      obtain ⟨p, rfl, hdeleted⟩ := deleteUnderLock_ok (l := s.lib.erase al.getName) hs hdel
      have hgone : ∀ k c, Api.address
          ⟨((s.lib.erase al.getName).withProc p).lldkSetErrorCode t .kInvalidParam,
            s.blocks, s.objs⟩ k = some c →
          k ≠ .entry al.getName ∧ s.address k = some c := by
        intro k c hk
        cases k with
        | singleton => exact ⟨(fun he => by cases he), hk⟩
        | entry m =>
          have hk' := (find_erase s.lib al.getName m).symm.trans hk
          by_cases hm : m = al.getName
          · rw [if_pos hm] at hk'
            cases hk'
          · rw [if_neg hm] at hk'
            exact ⟨fun he => hm (by cases he; rfl), hk'⟩
        | object o => cases hk
      refine of_object (Nat.le_of_eq hdeleted.next.symm) (fun k c al' hk hk' hal' => ?_)
        fun k c hk => (hgone k c hk).2
      refine hdeleted.allocators c al' ?_ (h.unstored k c hk) hal'
      rintro rfl
      exact (hgone k c hk').1 (h.address_single hk hfind)

/-- The blocks and the thread-local objects of the program are not allocators. -/
theorem same_lib (h : Carries s s') (hl : s''.lib = s'.lib) : Carries s s'' := by
  have haddress : s''.address = s'.address := by
    funext k
    cases k with
    | singleton => exact congrArg Library.s_pAllocator hl
    | entry n => exact congrArg (Library.find · n) hl
    | object o => rfl
  refine ⟨?_, ?_, ?_⟩
  · rw [hl]
    exact h.next
  · rw [haddress, hl]
    exact h.old
  · rw [haddress, hl]
    exact h.new

end Carries

/-! ## Programs -/

open Api

variable {s s' : Api} {op : ApiOp} {ops : List ApiOp} {out : ApiOut} {outs : List ApiOut}

/-- **One call.** -/
theorem carries_step (h : Sound s) (hs : apiStep s op = .ok (s', out)) : Carries s s' := by
  cases apiStep_moves hs with
  | created hc => exact .create h hc
  | gotSingleton hg => exact .getSingleton h hg
  | destroyed hd => exact .destroy h hd
  | destroyThrew hd => exact .destroy h hd
  | call hop hcall =>
    obtain ⟨p, hl, hp⟩ := hcall.sparesAll h
    have hspared : Carries s { s with lib := s.lib.withProc p } :=
      .of_object hp.next (fun k a al hk _ hal => hp.object a al ⟨k, trivial, hk⟩ hal)
        fun k a hk => by cases k <;> exact hk
    exact hspared.same_lib hl

/-- **A run.** -/
theorem carries_run (h : Sound s) (hr : run apiStep s ops = .ok (s', outs)) :
    Sound s' ∧ Carries s s' := by
  have hstep : ∀ s₁ op s₂ out, Sound s₁ ∧ Carries s s₁ → apiStep s₁ op = .ok (s₂, out) →
      Sound s₂ ∧ Carries s s₂ :=
    fun s₁ op s₂ out hi hs => ⟨sound_step hi.1 hs, hi.2.trans h (carries_step hi.1 hs)⟩
  exact run_invariant hstep ⟨h, Carries.refl s⟩ hr

/-- What the library keeps is alive, under its name, with an id of its own, and no block of the
program. -/
structure KeptApart (s : Api) : Prop where
  names : NamesOnce s
  named : ∀ n a, (n, a) ∈ s.lib.s_pAllocatorMap →
    ∃ al, s.lib.proc.readAllocator a = some al ∧ al.getName = n ∧ s.lib.find n = some a
  singleton : ∀ a, s.lib.s_pAllocator = some a → a ∉ s.lib.s_pAllocatorMap.map Prod.snd ∧
    ∃ al, s.lib.proc.readAllocator a = some al ∧ al.getName = "lldk.global.allocator"
  marked : ∀ a al, s.lib.knows a → s.lib.proc.readAllocator a = some al →
    al.id < kMaxInstanceId ∧ s.lib.proc.marked al.id
  ids : ∀ a b al bl, s.lib.knows a → s.lib.knows b → s.lib.proc.readAllocator a = some al →
    s.lib.proc.readAllocator b = some bl → al.id = bl.id → a = b
  objects : ∀ a al o obj, s.lib.knows a → s.lib.proc.readAllocator a = some al →
    s.objs o = some obj → al.id ≠ obj.m_uInstanceId
  unlent : ∀ a, s.lib.knows a → ∀ e ∈ s.blocks, e.2 ≠ a

/-- An allocator that the program may use has a keeper. -/
theorem exists_keeper (hn : NamesOnce s) {a : Nat} (ha : s.lib.knows a) :
    ∃ k, s.address k = some a ∧ ∀ o, k ≠ .object o := by
  rcases ha with hs | hmem
  · exact ⟨.singleton, hs, fun o he => by cases he⟩
  · obtain ⟨e, he, rfl⟩ := List.mem_map.mp hmem
    exact ⟨.entry e.1, (Library.find_iff_mem hn).mpr he, fun o he => by cases he⟩

/-- **The allocators of every program.** Whatever calls any threads make, failing or not, as long as
none uses a block that is gone: every allocator that is registered, and the singleton, is alive, has
the name it was created with and an id that no other allocator and no other `LldkThreadLocal` object
has. -/
theorem allocators_kept_apart (hr : run apiStep .init ops = .ok (s, outs)) : KeptApart s := by
  obtain ⟨hsound, hn⟩ := namesOnce_run hr
  have hnew : ∀ k a, s.address k = some a →
      ∃ al, s.lib.proc.readAllocator a = some al ∧ al.getName = k.name := by
    intro k a hk
    rcases (carries_run Sound.init hr).2.new k a hk with hold | ⟨-, hal⟩
    · cases k <;> cases hold
    · exact hal
  refine ⟨hn, fun n a hmem => ?_, fun a hs => ⟨fun hmem => ?_, hnew .singleton a hs⟩,
    fun a al ha hal => ?_, fun a b al bl ha hb hal hbl hid => ?_,
    fun a al o obj ha hal ho hid => ?_, fun a ha => ?_⟩
  · have hfind : s.lib.find n = some a := (Library.find_iff_mem hn).mpr hmem
    obtain ⟨al, hal, hname⟩ := hnew (.entry n) a hfind
    exact ⟨al, hal, hname, hfind⟩
  · obtain ⟨e, he, rfl⟩ := List.mem_map.mp hmem
    have hentry : s.address (.entry e.1) = some e.2 := (Library.find_iff_mem hn).mpr he
    have hk := hsound.address_single (k := .singleton) hs hentry
    cases hk
  · obtain ⟨k, hk, -⟩ := exists_keeper hn ha
    exact hsound.marked k al.id (.allocator hk hal)
  · obtain ⟨k, hk, -⟩ := exists_keeper hn ha
    obtain ⟨k', hk', -⟩ := exists_keeper hn hb
    have hkb : s.Keeps k' al.id := hid ▸ .allocator hk' hbl
    have hsame := hsound.single k k' al.id (.allocator hk hal) hkb
    rw [hsame, hk'] at hk
    exact (Option.some.inj hk).symm
  · obtain ⟨k, hk, hno⟩ := exists_keeper hn ha
    have hko : s.Keeps (.object o) al.id := hid ▸ .object ho
    exact hno o (hsound.single k (.object o) al.id (.allocator hk hal) hko)
  · obtain ⟨k, hk, -⟩ := exists_keeper hn ha
    exact hsound.unlent k a hk

/-- Thread 1 uses the allocator of thread 0 for blocks, a creation fails for lack of memory, and
the name is refused when it comes again. -/
theorem allocators_kept_apart_sample :
    ∃ s outs, run apiStep .init [.create 0 (some "a") 1 {}, .constructThreadLocal 1 0 statsType {},
        .allocate 1 3 64 true, .create 1 (some "b") 0 { objectMem := false },
        .create 1 (some "a") 0 {}, .create 1 (some "b") 0 {}] = .ok (s, outs) ∧
      s.lib.s_pAllocatorMap.map Prod.fst = ["a", "b"] ∧ KeptApart s := by
  have hends : (run apiStep .init [.create 0 (some "a") 1 {},
        .constructThreadLocal 1 0 statsType {}, .allocate 1 3 64 true,
        .create 1 (some "b") 0 { objectMem := false }, .create 1 (some "a") 0 {},
        .create 1 (some "b") 0 {}]).toOption.any
      (fun r => decide (r.1.lib.s_pAllocatorMap.map Prod.fst = ["a", "b"])) = true := by
    decide +kernel
  obtain ⟨⟨s, outs⟩, h, hends⟩ := exists_of_any hends
  exact ⟨s, outs, h, of_decide_eq_true hends, allocators_kept_apart h⟩

/-- **No call changes an allocator of another.** An allocator that the program may use in every
state of a part of a run is the same in all of them, with its name, its limit and its id, whatever
calls are made on any threads. -/
theorem allocators_unchanged {ops' : List ApiOp}
    (hr : run apiStep .init ops = .ok (s, outs)) {a : Nat}
    (ha : AllAlong apiStep (fun s => s.lib.knows a) s ops') :
    ∃ al, AllAlong apiStep (fun s => s.lib.proc.readAllocator a = some al) s ops' := by
  obtain ⟨hsound, hn⟩ := namesOnce_run hr
  obtain ⟨k, hk, -⟩ := exists_keeper hn ha.head
  obtain ⟨al, hal⟩ := hsound.live k a hk
  refine ⟨al, ?_⟩
  clear hr hk
  induction ops' generalizing s k with
  | nil => exact hal
  | cons op ops' ih =>
    obtain ⟨hknown, s', out, hs, hrest⟩ := ha
    have hsound' := sound_step hsound hs
    have hn' := namesOnce_step hsound hn hs
    obtain ⟨k, hk, -⟩ := exists_keeper hn hknown
    obtain ⟨k', hk', -⟩ := exists_keeper hn' hrest.head
    have hc := carries_step hsound hs
    have hal' : s'.lib.proc.readAllocator a = some al := by
      rcases hc.new k' a hk' with hold | ⟨hnew, -⟩
      · exact hc.old k' a al hold hk' hal
      · -- an allocator that the call made is not the one that was there
        have hlt := hsound.lt_next hk
        omega
    exact ⟨hal, s', out, hs, ih hrest hsound' hn' k' hal'⟩

/-- The allocator at 3 stays while thread 1 creates another, and thread 0 destroys that one. -/
theorem allocators_unchanged_sample :
    ∃ s outs al, run apiStep .init [.create 0 (some "a") 8 {}] = .ok (s, outs) ∧
      AllAlong apiStep (fun s => s.lib.proc.readAllocator 3 = some al) s
        [.constructThreadLocal 1 0 statsType {}, .create 1 (some "b") 0 {},
          .allocate 1 3 64 true, .destroy 0 (some 7) {}] := by
  have hends : (run apiStep .init [.create 0 (some "a") 8 {}]).toOption.any
      (fun r => decide (AllAlong apiStep (fun s => s.lib.knows 3) r.1
        [.constructThreadLocal 1 0 statsType {}, .create 1 (some "b") 0 {},
          .allocate 1 3 64 true, .destroy 0 (some 7) {}])) = true := by
    decide +kernel
  obtain ⟨⟨s, outs⟩, h, ha⟩ := exists_of_any hends
  obtain ⟨al, hall⟩ := allocators_unchanged h (of_decide_eq_true ha)
  exact ⟨s, outs, al, h, hall⟩

end Lldk
