import CheckedLists.Proofs.Chain
import Mathlib.Logic.ExistsUnique

/-!
# Sound links

Between two operations the links of a store form disjoint finite chains, and a
node is owned exactly if it is a successor. While a list is being destroyed the
next node to be released is owned without being a successor any longer. The
invariant has this node as its entry, so that it also holds between two releases:
each one hands the entry on to the successor, and destruction ends with none.
-/

namespace CheckedLists.Store

variable {α : Type} {s t : Store α} {entry place : Option Handle} {a b h p q : Handle}
  {hs ks : List Handle} {n : Node α} {v : α}

/-- The links of a store are sound, where the entry is a node that no other one leads to and that
may be owned nevertheless. -/
structure Linked (s : Store α) (entry : Option Handle) : Prop where
  /-- The list from every live node on comes to an end. -/
  exists_chain : ∀ {h}, s.isLive h = true → ∃ hs, s.Chain (some h) hs
  /-- No node is the successor of two nodes. -/
  single : ∀ {p q r}, s.Leads p r → s.Leads q r → p = q
  /-- A successor is owned. -/
  owned_of_leads : ∀ {p q}, s.Leads p q → s.Owned q
  /-- An owned node is a successor, or the entry. -/
  leads_of_owned : ∀ {q}, s.Owned q → entry = some q ∨ ∃ p, s.Leads p q
  /-- The entry is live. -/
  entry_live : ∀ {q}, entry = some q → s.isLive q = true
  /-- The entry is no successor. -/
  entry_head : ∀ {p q}, entry = some q → ¬ s.Leads p q

/-- Where no node is live, the links are sound. -/
theorem linked_empty : (empty : Store α).Linked none where
  exists_chain hp := by cases hp
  single hp := by cases hp
  owned_of_leads hp := by cases hp
  leads_of_owned := by
    rintro q ⟨n, hn, _⟩
    cases hn
  entry_live := nofun
  entry_head := nofun

theorem Created.leads_iff (hc : s.Created v h t) : t.Leads p q ↔ s.Leads p q := by
  unfold Leads
  rw [hc.next_eq_ok_iff]
  simp

theorem leads_vacate (hn : s.lookup h = .ok n) :
    (s.vacate h).Leads p q ↔ p ≠ h ∧ s.Leads p q :=
  next_vacate_eq_ok_iff hn

/-- Joining adds one link. -/
theorem leads_join (ha : s.next a = .ok none) (hne : a ≠ b) :
    (s.join a b).Leads p q ↔ p = a ∧ q = b ∨ s.Leads p q := by
  unfold Leads
  rw [next_join hne (isLive_of_next ha)]
  by_cases hp : p = a
  · subst hp
    simp [ha, eq_comm]
  · simp [hp]

/-- Joining the last node of a chain to the head of another chain puts the second chain behind
the first one, and leaves the chains that do not end in the first node. -/
theorem Chain.join (hc : s.Chain place hs) (ha : s.next a = .ok none) (hb : s.Chain (some b) ks)
    (hab : a ∉ ks) : (s.join a b).Chain place (if a ∈ hs then hs ++ ks else hs) := by
  have hne : a ≠ b := by
    rintro rfl
    exact hab hb.head_mem
  have hnext (p : Handle) (hp : p ≠ a) : (s.join a b).next p = s.next p := by
    rw [next_join hne (isLive_of_next ha), if_neg hp]
  have hb' : (s.join a b).Chain (some b) ks := by
    refine hb.congr fun p hp => hnext p ?_
    rintro rfl
    exact hab hp
  by_cases hmem : a ∈ hs
  · rw [if_pos hmem]
    obtain ⟨before, rfl⟩ := hc.eq_append_of_mem hmem ha
    have hnodup := List.nodup_append.mp hc.nodup
    rw [List.append_assoc]
    refine hc.extend (fun p hp => hnext p ?_) ?_ hb'
    · exact hnodup.2.2 p hp a List.mem_cons_self
    · rw [next_join hne (isLive_of_next ha), if_pos rfl]
  · rw [if_neg hmem]
    refine hc.congr fun p hp => hnext p ?_
    rintro rfl
    exact hmem hp

/-- A creation leaves all chains. -/
theorem Chain.created (hs : s.Chain place ks) (hc : s.Created v h t) : t.Chain place ks := by
  apply hs.congr
  intro q hq
  exact next_eq_of_lookup_eq (hc.lookup_of_isLive (hs.isLive hq))

namespace Linked

/-- A head leads nowhere back: no node has an unowned one as its successor. -/
theorem not_leads (hl : s.Linked entry) (ho : ¬ s.Owned q) : ¬ s.Leads p q :=
  fun hp => ho (hl.owned_of_leads hp)

/-- Where no list is being destroyed, the owned nodes are the successors. -/
theorem owned_iff (hl : s.Linked none) : s.Owned q ↔ ∃ p, s.Leads p q := by
  constructor
  · intro ho
    obtain hentry | hlead := hl.leads_of_owned ho
    · cases hentry
    · exact hlead
  · rintro ⟨p, hp⟩
    exact hl.owned_of_leads hp

/-- A successor is live. -/
theorem isLive_of_leads (hl : s.Linked entry) (hp : s.Leads p q) : s.isLive q = true := by
  obtain ⟨m, hm, _⟩ := hl.owned_of_leads hp
  exact isLive_iff.mpr ⟨m, hm⟩

/-- A node has no successor, or its successor is live. -/
theorem next_live (hl : s.Linked entry) (hn : s.lookup p = .ok n) :
    n.next = none ∨ ∃ q, n.next = some q ∧ s.isLive q = true := by
  cases hnext : n.next with
  | none => exact .inl rfl
  | some q =>
    have hlead : s.Leads p q := next_eq_ok_iff.mpr ⟨n, hn, hnext⟩
    exact .inr ⟨q, rfl, hl.isLive_of_leads hlead⟩

/-- A node says that it is owned exactly if it is the successor of one node. -/
theorem owned_eq_true_iff (hl : s.Linked none) (hn : s.lookup q = .ok n) :
    n.owned = true ↔ ∃! p, s.Leads p q := by
  constructor
  · intro ho
    obtain ⟨p, hp⟩ := hl.owned_iff.mp ⟨n, hn, ho⟩
    refine ⟨p, hp, ?_⟩
    intro r hr
    exact hl.single hr hp
  · rintro ⟨p, hp, _⟩
    obtain ⟨m, hm, ho⟩ := hl.owned_of_leads hp
    rwa [Except.ok.inj (hn.symm.trans hm)]

/-- A node says that it is not owned exactly if it is no successor. -/
theorem owned_eq_false_iff (hl : s.Linked none) (hn : s.lookup q = .ok n) :
    n.owned = false ↔ ∀ p, ¬ s.Leads p q := by
  constructor
  · intro hhead p
    exact hl.not_leads (not_owned hn hhead)
  · intro hnone
    rw [← Bool.not_eq_true, hl.owned_eq_true_iff hn]
    rintro ⟨p, hp, _⟩
    exact hnone p hp

/-- No node leads back to itself. -/
theorem not_transGen (hl : s.Linked entry) (p : Handle) : ¬ Relation.TransGen s.Leads p p := by
  intro hp
  have hlive : s.isLive p = true := by
    cases hp with
    | single hlead => exact isLive_of_next hlead
    | tail _ hlead => exact hl.isLive_of_leads hlead
  obtain ⟨hs, hc⟩ := hl.exists_chain hlive
  exact hc.not_transGen hp

/-- The lists from different heads on have no node in common. -/
theorem disjoint (hl : s.Linked none) (hne : p ≠ q) (hp : ¬ s.Owned p) (hq : ¬ s.Owned q)
    (hhs : s.Chain (some p) hs) (hks : s.Chain (some q) ks) : ∀ h ∈ hs, h ∉ ks := by
  refine Chain.disjoint hl.single hhs hks (fun r => hl.not_leads hq) fun hmem => ?_
  obtain rfl | ⟨r, _, hr⟩ := hks.exists_leads hmem
  · exact hne rfl
  · exact hl.not_leads hp hr

/-- The links stay sound if successors and ownership stay as they are. -/
theorem congr (hl : s.Linked entry) (hn : ∀ p, t.next p = s.next p)
    (ho : ∀ p, t.Owned p ↔ s.Owned p) : t.Linked entry := by
  have hleads (p q : Handle) : t.Leads p q ↔ s.Leads p q := by
    unfold Leads
    rw [hn]
  have hlive (p : Handle) : t.isLive p = true ↔ s.isLive p = true := by
    have hnext : (∃ n, t.lookup p = .ok n) ↔ ∃ n, s.lookup p = .ok n := by
      have he := hn p
      unfold next at he
      cases hs : s.lookup p <;> cases ht : t.lookup p <;> simp_all [Except.map]
    rw [isLive_iff, isLive_iff, hnext]
  refine ⟨fun {p} hp => ?_, ?_, ?_, ?_, ?_, ?_⟩
  · obtain ⟨hs, hc⟩ := hl.exists_chain ((hlive p).mp hp)
    exact ⟨hs, hc.congr fun q _ => hn q⟩
  · simp only [hleads]
    exact hl.single
  · simp only [hleads, ho]
    exact hl.owned_of_leads
  · simp only [hleads, ho]
    exact hl.leads_of_owned
  · simp only [hlive]
    exact hl.entry_live
  · simp only [hleads]
    exact hl.entry_head

/-- A creation keeps the links sound. -/
theorem created (hl : s.Linked none) (hc : s.Created v h t) : t.Linked none where
  exists_chain := by
    intro p hp
    rcases hc.isLive_iff.mp hp with rfl | hp
    · exact ⟨[p], .cons (hc.next_eq_ok_iff.mpr (.inl ⟨rfl, rfl⟩)) .nil⟩
    · obtain ⟨hs, hchain⟩ := hl.exists_chain hp
      exact ⟨hs, hchain.created hc⟩
  single hp hq := hl.single (hc.leads_iff.mp hp) (hc.leads_iff.mp hq)
  owned_of_leads hp := hc.owned_iff.mpr (hl.owned_of_leads (hc.leads_iff.mp hp))
  leads_of_owned ho := by
    simp only [hc.leads_iff]
    exact hl.leads_of_owned (hc.owned_iff.mp ho)
  entry_live := nofun
  entry_head := nofun

/-- Joining the end of one list to the head of another list keeps the links sound. -/
theorem join (hl : s.Linked none) (ha : s.next a = .ok none) (hb : s.Chain (some b) ks)
    (hhead : ¬ s.Owned b) (hab : a ∉ ks) : (s.join a b).Linked none := by
  have hlive : s.isLive b = true := hb.isLive hb.head_mem
  have hne : a ≠ b := by
    rintro rfl
    exact hab hb.head_mem
  have hleads {p q : Handle} := leads_join (p := p) (q := q) ha hne
  have howned {p : Handle} := owned_join (p := p) hne hlive
  refine ⟨fun {p} hp => ?_, fun {p q r} hp hq => ?_, fun {p q} hp => ?_, fun {q} ho => ?_,
    nofun, nofun⟩
  · rw [isLive_join] at hp
    obtain ⟨hs, hc⟩ := hl.exists_chain hp
    exact ⟨_, hc.join ha hb hab⟩
  · rcases hleads.mp hp with ⟨hpa, hr⟩ | hp <;> rcases hleads.mp hq with ⟨hqa, hr'⟩ | hq
    · rw [hpa, hqa]
    · exact absurd (hr ▸ hq) (hl.not_leads hhead)
    · exact absurd (hr' ▸ hp) (hl.not_leads hhead)
    · exact hl.single hp hq
  · rcases hleads.mp hp with ⟨rfl, rfl⟩ | hp
    · exact howned.mpr (.inl rfl)
    · exact howned.mpr (.inr (hl.owned_of_leads hp))
  · rcases howned.mp ho with rfl | ho
    · exact .inr ⟨a, hleads.mpr (.inl ⟨rfl, rfl⟩)⟩
    · obtain hentry | ⟨p, hp⟩ := hl.leads_of_owned ho
      · cases hentry
      · exact .inr ⟨p, hleads.mpr (.inr hp)⟩

/-- A head can be made the entry. -/
theorem enter (hl : s.Linked none) (hh : s.isLive h = true) (ho : ¬ s.Owned h) :
    s.Linked (some h) where
  exists_chain := hl.exists_chain
  single := hl.single
  owned_of_leads := hl.owned_of_leads
  leads_of_owned hq := (hl.leads_of_owned hq).elim nofun .inr
  entry_live he := by
    obtain rfl := Option.some.inj he
    exact hh
  entry_head he := by
    obtain rfl := Option.some.inj he
    exact hl.not_leads ho

/-- The chain of the entry is not entered from elsewhere, so that its release leaves every other
chain. -/
theorem chain_vacate (hl : s.Linked (some h)) (hn : s.lookup h = .ok n)
    (hc : s.Chain place hs) (hplace : place ≠ some h) : (s.vacate h).Chain place hs := by
  have hoff : h ∉ hs := by
    intro hmem
    cases hc with
    | nil => cases hmem
    | cons hfirst hrest =>
      rcases (Chain.cons hfirst hrest).exists_leads hmem with rfl | ⟨p, _, hp⟩
      · exact hplace rfl
      · exact hl.entry_head rfl hp
  refine hc.congr fun p hp => next_eq_of_lookup_eq (lookup_eq_of_isLive (hc.isLive hp) ?_)
  intro m hm
  refine (lookup_vacate_eq_ok_iff hn).mpr ⟨?_, hm⟩
  rintro rfl
  exact hoff hp

/-- The entry is not its own successor. -/
theorem next_ne (hl : s.Linked (some h)) (hn : s.lookup h = .ok n) : n.next ≠ some h := by
  intro he
  have hlead : s.Leads h h := next_eq_ok_iff.mpr ⟨n, hn, he⟩
  exact hl.entry_head rfl hlead

/-- Releasing the entry makes its successor the entry. -/
theorem vacate (hl : s.Linked (some h)) (hn : s.lookup h = .ok n) :
    (s.vacate h).Linked n.next := by
  have hnext : s.next h = .ok n.next := next_eq_ok_iff.mpr ⟨n, hn, rfl⟩
  refine ⟨fun {p} hp => ?_, fun {p q r} hp hq => ?_, fun {p q} hp => ?_, fun {q} ho => ?_,
    fun {q} he => ?_, fun {p q} he hp => ?_⟩
  · obtain ⟨hne, hp⟩ := (isLive_vacate hn).mp hp
    obtain ⟨hs, hc⟩ := hl.exists_chain hp
    have hplace : some p ≠ some h := by
      intro he
      exact hne (Option.some.inj he)
    exact ⟨hs, hl.chain_vacate hn hc hplace⟩
  · obtain ⟨_, hpr⟩ := (leads_vacate hn).mp hp
    obtain ⟨_, hqr⟩ := (leads_vacate hn).mp hq
    exact hl.single hpr hqr
  · have hlead := ((leads_vacate hn).mp hp).2
    refine (owned_vacate hn).mpr ⟨?_, hl.owned_of_leads hlead⟩
    rintro rfl
    exact hl.entry_head rfl hlead
  · obtain ⟨hne, ho⟩ := (owned_vacate hn).mp ho
    obtain he | ⟨p, hp⟩ := hl.leads_of_owned ho
    · exact absurd (Option.some.inj he).symm hne
    · by_cases hph : p = h
      · subst hph
        exact .inl (Except.ok.inj (hnext.symm.trans hp))
      · exact .inr ⟨p, (leads_vacate hn).mpr ⟨hph, hp⟩⟩
  · have hlead : s.Leads h q := by rw [Leads, hnext, he]
    refine (isLive_vacate hn).mpr ⟨?_, hl.isLive_of_leads hlead⟩
    rintro rfl
    exact hl.entry_head rfl hlead
  · obtain ⟨hne, hp⟩ := (leads_vacate hn).mp hp
    have hlead : s.Leads h q := by rw [Leads, hnext, he]
    exact hne (hl.single hp hlead)

end Linked

end CheckedLists.Store
