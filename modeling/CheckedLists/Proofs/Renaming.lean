import CheckedLists.Proofs.Census
import CheckedLists.Proofs.Issue
import CheckedLists.Proofs.Release
import Mathlib.Data.Set.Function

/-!
# Renaming handles

Two stores may hold the same lists with the same values, but in other slots and
under other handles. A renaming maps the live handles of one of them one to one to
those of the other, in step with values and successors. It says nothing about slots,
free lists and generations, nor about what nodes say of their ownership: this is
shown to agree. Every change that operations make to one store can be made to the
other one, and a renaming is left, where a creation adds its pair of new handles.
-/

namespace CheckedLists

variable {α : Type}

/-- The same cursor on a renamed node. -/
def Cursor.rename (ρ : Handle → Handle) (c : Cursor) : Cursor := ⟨c.next.map ρ⟩

namespace Store

variable {s t s' t' : Store α} {ρ ρ' : Handle → Handle} {place : Option Handle}
  {a b h h' p q : Handle} {ks : List Handle} {n : Node α} {v : α}

/-- The handles of the live nodes. -/
def liveSet (s : Store α) : Set Handle := {h | s.isLive h = true}

/-- `t` holds the nodes of `s` under the handles that `ρ` gives to theirs. -/
structure Renamed (s : Store α) (ρ : Handle → Handle) (t : Store α) : Prop where
  /-- The live handles correspond one to one. -/
  bijOn : Set.BijOn ρ s.liveSet t.liveSet
  /-- Corresponding nodes have the same value. -/
  get_eq : ∀ {h v}, s.get h = .ok v → t.get (ρ h) = .ok v
  /-- Corresponding nodes have corresponding successors. -/
  next_eq : ∀ {h place}, s.next h = .ok place → t.next (ρ h) = .ok (place.map ρ)
  /-- The bounds are equal. -/
  limit_eq : t.limit = s.limit

/-- The renaming with the pair of the next handles added to it. -/
def extend (s : Store α) (ρ : Handle → Handle) (t : Store α) : Handle → Handle :=
  Function.update ρ s.fresh t.fresh

theorem Slotted.extend_of_isLive (hs : s.Slotted) (hp : s.isLive p = true) :
    s.extend ρ t p = ρ p := by
  refine Function.update_of_ne ?_ t.fresh ρ
  rintro rfl
  exact hs.not_isLive_fresh hp

/-- The handles of two nodes that are created correspond. -/
theorem Created.extend_eq (hs : s.Created v h s') (ht : t.Created v h' t') :
    s.extend ρ t h = h' := by
  rw [hs.eq_fresh, ht.eq_fresh]
  exact Function.update_self s.fresh t.fresh ρ

/-- Whether a store holds the nodes of another one under other handles can be seen from its live
handles. -/
theorem Slotted.renamed_of_perm (hs : s.Slotted) (ht : t.Slotted)
    (hperm : t.handles.Perm (s.handles.map ρ))
    (hget : ∀ h ∈ s.handles, t.get (ρ h) = s.get h)
    (hnext : ∀ h ∈ s.handles, t.next (ρ h) = (s.next h).map (Option.map ρ))
    (hlimit : t.limit = s.limit) : s.Renamed ρ t where
  bijOn := by
    have hnodup : (s.handles.map ρ).Nodup := hperm.nodup_iff.mp ht.nodup_handles
    refine ⟨fun p hp => ?_, fun p hp q hq he => ?_, fun q hq => ?_⟩
    · refine ht.mem_handles.mp (hperm.mem_iff.mpr ?_)
      exact List.mem_map_of_mem (hs.mem_handles.mpr hp)
    · exact List.inj_on_of_nodup_map hnodup (hs.mem_handles.mpr hp) (hs.mem_handles.mpr hq) he
    · obtain ⟨p, hp, he⟩ := List.mem_map.mp (hperm.mem_iff.mp (ht.mem_handles.mpr hq))
      exact ⟨p, hs.mem_handles.mp hp, he⟩
  get_eq hv := by
    rw [hget _ (hs.mem_handles.mpr (isLive_iff_get.mpr ⟨_, hv⟩)), hv]
  next_eq hn := by
    rw [hnext _ (hs.mem_handles.mpr (isLive_of_next hn)), hn]
    rfl
  limit_eq := hlimit

namespace Renamed

theorem isLive (hr : s.Renamed ρ t) (hp : s.isLive p = true) : t.isLive (ρ p) = true :=
  hr.bijOn.mapsTo hp

theorem inj (hr : s.Renamed ρ t) (hp : s.isLive p = true) (hq : s.isLive q = true)
    (he : ρ p = ρ q) : p = q :=
  hr.bijOn.injOn hp hq he

/-- Every live node of the other store has its handle from a live one. -/
theorem surj (hr : s.Renamed ρ t) (hq : t.isLive q = true) : ∃ p, s.isLive p = true ∧ ρ p = q :=
  hr.bijOn.surjOn hq

/-- A renaming matters at live handles only. -/
theorem congr (hr : s.Renamed ρ t) (hl : s.Linked none)
    (hag : ∀ h, s.isLive h = true → ρ' h = ρ h) : s.Renamed ρ' t where
  bijOn := hr.bijOn.congr fun h hh => (hag h hh).symm
  get_eq hv := by
    rw [hag _ (isLive_iff_get.mpr ⟨_, hv⟩)]
    exact hr.get_eq hv
  next_eq {h place} hn := by
    have hplace : place.map ρ' = place.map ρ := by
      cases place with
      | none => rfl
      | some q => exact congrArg some (hag q (hl.isLive_of_leads hn))
    rw [hag _ (isLive_of_next hn), hplace]
    exact hr.next_eq hn
  limit_eq := hr.limit_eq

/-- A live handle is among live handles exactly if it is after the renaming. -/
theorem mem_map_iff (hr : s.Renamed ρ t) (hks : ∀ q ∈ ks, s.isLive q = true)
    (hp : s.isLive p = true) : ρ p ∈ ks.map ρ ↔ p ∈ ks := by
  constructor
  · intro hmem
    obtain ⟨q, hq, he⟩ := List.mem_map.mp hmem
    rwa [← hr.inj (hks q hq) hp he]
  · exact List.mem_map_of_mem

/-- Chains correspond node by node. -/
theorem chain (hr : s.Renamed ρ t) (hc : s.Chain place ks) :
    t.Chain (place.map ρ) (ks.map ρ) := by
  induction hc with
  | nil => exact .nil
  | cons hn _ ih => exact .cons (hr.next_eq hn) ih

/-- Corresponding nodes have the same values, in the same order. -/
theorem valuesOf_eq (hr : s.Renamed ρ t) (hks : ∀ q ∈ ks, s.isLive q = true) :
    t.valuesOf (ks.map ρ) = s.valuesOf ks := by
  rw [valuesOf, List.filterMap_map]
  refine List.filterMap_congr fun q hq => ?_
  obtain ⟨v, hv⟩ := isLive_iff_get.mp (hks q hq)
  simp only [Function.comp_apply, hr.get_eq hv, hv]

/-- Links between live nodes correspond. -/
theorem leads_iff (hr : s.Renamed ρ t) (hl : s.Linked none) (hp : s.isLive p = true)
    (hq : s.isLive q = true) : t.Leads (ρ p) (ρ q) ↔ s.Leads p q := by
  constructor
  · intro hlead
    obtain ⟨n, hn⟩ := isLive_iff.mp hp
    have hnext : s.next p = .ok n.next := next_eq_ok_iff.mpr ⟨n, hn, rfl⟩
    have hplace := Except.ok.inj ((hr.next_eq hnext).symm.trans hlead)
    obtain ⟨r, hsome, he⟩ := Option.map_eq_some_iff.mp hplace
    rw [hsome] at hnext
    rwa [← hr.inj (hl.isLive_of_leads hnext) hq he]
  · exact hr.next_eq

/-- Corresponding nodes are owned alike. -/
theorem owned_iff (hr : s.Renamed ρ t) (hs : s.Linked none) (ht : t.Linked none)
    (hq : s.isLive q = true) : t.Owned (ρ q) ↔ s.Owned q := by
  rw [ht.owned_iff, hs.owned_iff]
  constructor
  · rintro ⟨r, hlead⟩
    obtain ⟨p, hp, rfl⟩ := hr.surj (isLive_of_next hlead)
    exact ⟨p, (hr.leads_iff hs hp hq).mp hlead⟩
  · rintro ⟨p, hlead⟩
    exact ⟨ρ p, hr.next_eq hlead⟩

/-- Corresponding nodes agree in all that does not tell their slots. -/
theorem lookup (hr : s.Renamed ρ t) (hs : s.Linked none) (ht : t.Linked none)
    (hn : s.lookup h = .ok n) :
    ∃ m, t.lookup (ρ h) = .ok m ∧ m.value = n.value ∧ m.next = n.next.map ρ ∧
      m.owned = n.owned := by
  have hlive : s.isLive h = true := Store.isLive_iff.mpr ⟨n, hn⟩
  obtain ⟨m, hm, hvalue⟩ := get_eq_ok_iff.mp (hr.get_eq (get_eq_ok_iff.mpr ⟨n, hn, rfl⟩))
  obtain ⟨m', hm', hnext⟩ := next_eq_ok_iff.mp (hr.next_eq (next_eq_ok_iff.mpr ⟨n, hn, rfl⟩))
  obtain rfl := Except.ok.inj (hm.symm.trans hm')
  have howned := hr.owned_iff hs ht hlive
  simp only [Owned, hn, hm, Except.ok.injEq, exists_eq_left'] at howned
  exact ⟨m, hm, hvalue, hnext, Bool.eq_iff_iff.mpr howned⟩

/-- As many nodes are live. -/
theorem live_eq (hr : s.Renamed ρ t) (hs : s.Slotted) (ht : t.Slotted) : t.live = s.live := by
  have hnodup : (s.handles.map ρ).Nodup := hs.nodup_handles.map_on fun p hp q hq he =>
    hr.inj (hs.mem_handles.mp hp) (hs.mem_handles.mp hq) he
  have hperm : t.handles.Perm (s.handles.map ρ) := by
    refine (List.perm_ext_iff_of_nodup ht.nodup_handles hnodup).mpr fun q => ?_
    rw [ht.mem_handles, List.mem_map]
    constructor
    · intro hq
      obtain ⟨p, hp, he⟩ := hr.surj hq
      exact ⟨p, hs.mem_handles.mpr hp, he⟩
    · rintro ⟨p, hp, rfl⟩
      exact hr.isLive (hs.mem_handles.mp hp)
  rw [← hs.length_handles, ← ht.length_handles, hperm.length_eq, List.length_map]

/-- A cursor on corresponding lists answers the same, from corresponding places. -/
theorem advances_eq (hr : s.Renamed ρ t) (hs : s.Linked none) (ht : t.Linked none)
    (hc : s.Chain place ks) (steps : Nat) :
    ∃ answers, s.advances steps ⟨place⟩ = .ok answers ∧
      t.advances steps ⟨place.map ρ⟩ = .ok (answers.map fun x => (x.1, x.2.rename ρ)) := by
  induction steps generalizing place ks with
  | zero => exact ⟨[], rfl, rfl⟩
  | succ steps ih =>
    cases hc with
    | nil =>
      obtain ⟨answers, hanswers, hrenamed⟩ := ih .nil
      refine ⟨(none, ⟨none⟩) :: answers, by rw [advances_none, hanswers]; rfl, ?_⟩
      change t.advances steps ⟨none⟩ = _ at hrenamed
      change t.advances (steps + 1) ⟨none⟩ = _
      rw [advances_none, hrenamed]
      rfl
    | @cons h _ _ hn hrest =>
      obtain ⟨n, hlookup, rfl⟩ := next_eq_ok_iff.mp hn
      obtain ⟨answers, hanswers, hrenamed⟩ := ih hrest
      obtain ⟨m, hm, hvalue, hnext, _⟩ := hr.lookup hs ht hlookup
      refine ⟨(some n.value, ⟨n.next⟩) :: answers, ?_, ?_⟩
      · rw [advances_of_lookup hlookup, hanswers]
        rfl
      · change t.advances (steps + 1) ⟨some (ρ h)⟩ = _
        rw [advances_of_lookup hm, hnext, hvalue, hrenamed]
        rfl

/-- A cursor can be put on corresponding lists alike. -/
theorem iterate_eq (hr : s.Renamed ρ t) (hs : s.Linked none) (ht : t.Linked none)
    (hc : s.Chain place ks) (steps : Nat) :
    ∃ answers, s.iterate place steps = .ok (⟨place⟩, answers) ∧
      t.iterate (place.map ρ) steps =
        .ok (⟨place.map ρ⟩, answers.map fun x => (x.1, x.2.rename ρ)) := by
  obtain ⟨answers, hanswers, hrenamed⟩ := hr.advances_eq hs ht hc steps
  refine ⟨answers, ?_, ?_⟩
  · rw [iterate, cursor_of_chain hc]
    change (s.advances steps ⟨place⟩ >>= _) = _
    rw [hanswers]
    rfl
  · rw [iterate, cursor_of_chain (hr.chain hc)]
    change (t.advances steps ⟨place.map ρ⟩ >>= _) = _
    rw [hrenamed]
    rfl

/-- Revising corresponding nodes alike leaves a renaming. -/
theorem revise (hr : s.Renamed ρ t) (hp : s.isLive p = true) (f : α → α) :
    (s.revise p f).Renamed ρ (t.revise (ρ p) f) where
  bijOn := by
    have hlive (u : Store α) (q : Handle) : (u.revise q f).liveSet = u.liveSet := by
      simp only [liveSet, isLive_revise]
    rw [hlive, hlive]
    exact hr.bijOn
  get_eq {h v} hv := by
    rw [get_revise] at hv ⊢
    by_cases he : h = p
    · rw [if_pos he] at hv
      rw [if_pos (congrArg ρ he)]
      cases hget : s.get h with
      | error e =>
        rw [hget] at hv
        cases hv
      | ok w =>
        rw [hget] at hv
        rw [hr.get_eq hget]
        exact hv
    · rw [if_neg he] at hv
      rw [if_neg fun he' => he (hr.inj (isLive_iff_get.mpr ⟨v, hv⟩) hp he')]
      exact hr.get_eq hv
  next_eq hn := by
    rw [next_revise] at hn ⊢
    exact hr.next_eq hn
  limit_eq := by
    have hlimit (u : Store α) (q : Handle) : (u.revise q f).limit = u.limit :=
      (counters_alter _ _ _).2.2.1
    rw [hlimit, hlimit, hr.limit_eq]

/-- Bounding the number of live nodes alike leaves a renaming. -/
theorem setLimit (hr : s.Renamed ρ t) (limit : Option Nat) :
    (s.setLimit limit).Renamed ρ (t.setLimit limit) :=
  ⟨hr.bijOn, hr.get_eq, hr.next_eq, rfl⟩

/-- Extending a renaming leaves it one. -/
theorem extend (hr : s.Renamed ρ t) (hs : s.Coherent) : s.Renamed (s.extend ρ t) t :=
  hr.congr hs.linked fun _ hp => hs.slotted.extend_of_isLive hp

/-- Creating nodes with the same value leaves a renaming, to which the pair of the new handles is
added. -/
theorem created (hr : s.Renamed ρ t) (hcoherent : s.Coherent) (hs : s.Created v h s')
    (ht : t.Created v h' t') : s'.Renamed (s.extend ρ t) t' := by
  have hnew : s.extend ρ t h = h' := hs.extend_eq ht
  have hold := hr.extend hcoherent
  have hlive {u u' : Store α} {k : Handle} (hc : u.Created v k u') :
      u'.liveSet = insert k u.liveSet := by
    ext p
    exact hc.isLive_iff
  refine ⟨?_, fun {p w} hw => ?_, fun {p place} hn => ?_, ?_⟩
  · have hoff : s.extend ρ t h ∉ t.liveSet := by
      rw [hnew]
      intro hlive
      obtain ⟨n, hn⟩ := Store.isLive_iff.mp hlive
      exact ht.not_live rfl hn
    have hinsert := hold.bijOn.insert hoff
    rwa [hnew, ← hlive hs, ← hlive ht] at hinsert
  · rw [ht.get_eq_ok_iff]
    obtain ⟨rfl, rfl⟩ | hw := hs.get_eq_ok_iff.mp hw
    · exact .inl ⟨hnew, rfl⟩
    · exact .inr (hold.get_eq hw)
  · rw [ht.next_eq_ok_iff]
    obtain ⟨rfl, rfl⟩ | hn := hs.next_eq_ok_iff.mp hn
    · exact .inl ⟨hnew, rfl⟩
    · exact .inr (hold.next_eq hn)
  · rw [hs.counters.2.2, ht.counters.2.2, hr.limit_eq]

/-- Joining corresponding nodes leaves a renaming. -/
theorem join (hr : s.Renamed ρ t) (ha : s.isLive a = true) (hb : s.isLive b = true)
    (hne : a ≠ b) : (s.join a b).Renamed ρ (t.join (ρ a) (ρ b)) where
  bijOn := by
    have hlive (u : Store α) (p q : Handle) : (u.join p q).liveSet = u.liveSet := by
      simp only [liveSet, isLive_join]
    rw [hlive, hlive]
    exact hr.bijOn
  get_eq hv := by
    rw [get_join] at hv ⊢
    exact hr.get_eq hv
  next_eq {p place} hn := by
    have hne' : ρ a ≠ ρ b := fun he => hne (hr.inj ha hb he)
    rw [next_join hne ha] at hn
    rw [next_join hne' (hr.isLive ha)]
    by_cases hp : p = a
    · rw [if_pos hp] at hn
      rw [if_pos (congrArg ρ hp), ← Except.ok.inj hn]
      rfl
    · rw [if_neg hp] at hn
      rw [if_neg fun he => hp (hr.inj (isLive_of_next hn) ha he)]
      exact hr.next_eq hn
  limit_eq := by
    rw [(counters_join _ _ _).2.2.1, (counters_join _ _ _).2.2.1, hr.limit_eq]

/-- Releasing corresponding nodes leaves a renaming. -/
theorem vacateAll (hr : s.Renamed ρ t) (hnodup : ks.Nodup) (hks : ∀ q ∈ ks, s.isLive q = true) :
    (s.vacateAll ks).Renamed ρ (t.vacateAll (ks.map ρ)) := by
  have hnodup' : (ks.map ρ).Nodup := hnodup.map_on fun p hp q hq he =>
    hr.inj (hks p hp) (hks q hq) he
  have hks' : ∀ q ∈ ks.map ρ, t.isLive q = true := by
    intro q hq
    obtain ⟨p, hp, rfl⟩ := List.mem_map.mp hq
    exact hr.isLive (hks p hp)
  have hmem {p : Handle} (hp : s.isLive p = true) : ρ p ∉ ks.map ρ ↔ p ∉ ks :=
    not_congr (hr.mem_map_iff hks hp)
  refine ⟨⟨fun p hp => ?_, fun p hp q hq he => ?_, fun q hq => ?_⟩, fun {p v} hv => ?_,
    fun {p place} hn => ?_, ?_⟩
  · obtain ⟨hoff, hp⟩ := (isLive_vacateAll hnodup hks).mp hp
    exact (isLive_vacateAll hnodup' hks').mpr ⟨(hmem hp).mpr hoff, hr.isLive hp⟩
  · exact hr.inj ((isLive_vacateAll hnodup hks).mp hp).2 ((isLive_vacateAll hnodup hks).mp hq).2 he
  · obtain ⟨hoff, hq⟩ := (isLive_vacateAll hnodup' hks').mp hq
    obtain ⟨p, hp, rfl⟩ := hr.surj hq
    exact ⟨p, (isLive_vacateAll hnodup hks).mpr ⟨(hmem hp).mp hoff, hp⟩, rfl⟩
  · obtain ⟨hoff, hv⟩ := (get_vacateAll_eq_ok_iff hnodup hks).mp hv
    have hp : s.isLive p = true := isLive_iff_get.mpr ⟨v, hv⟩
    exact (get_vacateAll_eq_ok_iff hnodup' hks').mpr ⟨(hmem hp).mpr hoff, hr.get_eq hv⟩
  · obtain ⟨hoff, hn⟩ := (next_vacateAll_eq_ok_iff hnodup hks).mp hn
    have hp : s.isLive p = true := isLive_of_next hn
    exact (next_vacateAll_eq_ok_iff hnodup' hks').mpr ⟨(hmem hp).mpr hoff, hr.next_eq hn⟩
  · rw [(counters_vacateAll _ _).2.2.1, (counters_vacateAll _ _).2.2.1, hr.limit_eq]

end Renamed

end Store

end CheckedLists
