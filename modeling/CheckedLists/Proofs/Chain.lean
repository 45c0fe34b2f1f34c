import CheckedLists.Proofs.Change

/-!
# Chains

The chain from a place is the list of the handles that are met by following
successors until a node has none. Its derivation is finite, so a chain shows
that the links from there on close no cycle: a place has at most one chain, and
no handle is met twice.
-/

namespace CheckedLists.Store

variable {α : Type} {s t : Store α} {place : Option Handle} {a b h p q : Handle}
  {hs ks : List Handle}

/-- `hs` are the nodes met by following successors from a place to the end of its list. -/
inductive Chain (s : Store α) : Option Handle → List Handle → Prop where
  | nil : Chain s none []
  | cons {h : Handle} {place : Option Handle} {hs : List Handle} :
      s.next h = .ok place → Chain s place hs → Chain s (some h) (h :: hs)

/-- The live node `p` has the successor `q`. -/
def Leads (s : Store α) (p q : Handle) : Prop := s.next p = .ok (some q)

namespace Chain

/-- The chain of a node begins with it. -/
theorem eq_cons (hc : s.Chain (some h) hs) :
    ∃ place ks, hs = h :: ks ∧ s.next h = .ok place ∧ s.Chain place ks := by
  cases hc with
  | cons hn hks => exact ⟨_, _, rfl, hn, hks⟩

/-- A chain begins at its place. -/
theorem head?_eq (hc : s.Chain place hs) : hs.head? = place := by
  cases hc <;> rfl

/-- A node is on its own chain. -/
theorem head_mem (hc : s.Chain (some h) hs) : h ∈ hs := by
  obtain ⟨_, ks, rfl, _, _⟩ := hc.eq_cons
  exact List.mem_cons_self

/-- A place has at most one chain. -/
theorem unique (hhs : s.Chain place hs) (hks : s.Chain place ks) : hs = ks := by
  induction hhs generalizing ks with
  | nil => cases hks; rfl
  | cons hn _ ih =>
    obtain ⟨_, ks', rfl, hm, hks'⟩ := hks.eq_cons
    obtain rfl := Except.ok.inj (hn.symm.trans hm)
    rw [ih hks']

/-- Every node of a chain is live. -/
theorem isLive (hc : s.Chain place hs) (hp : p ∈ hs) : s.isLive p = true := by
  induction hc with
  | nil => cases hp
  | cons hn _ ih =>
    rcases List.mem_cons.mp hp with rfl | hp
    · exact isLive_of_next hn
    · exact ih hp

/-- The rest of a chain from one of its nodes on is the chain of that node. -/
theorem of_append (hc : s.Chain place (hs ++ h :: ks)) : s.Chain (some h) (h :: ks) := by
  induction hs generalizing place with
  | nil => cases hc with | cons hn hks => exact .cons hn hks
  | cons p hs ih => cases hc with | cons _ hrest => exact ih hrest

/-- Every node of a chain has a chain, and it is not longer. -/
theorem of_mem (hc : s.Chain place hs) (hp : p ∈ hs) :
    ∃ ks, s.Chain (some p) ks ∧ ks.length ≤ hs.length := by
  obtain ⟨before, after, rfl⟩ := List.append_of_mem hp
  exact ⟨p :: after, hc.of_append, by simp⟩

/-- A chain goes on from one of its nodes as the chain of that node. -/
theorem suffix_of_mem (hc : s.Chain place hs) (hp : p ∈ hs) (hk : s.Chain (some p) ks) :
    ks <:+ hs := by
  obtain ⟨before, after, rfl⟩ := List.append_of_mem hp
  rw [hk.unique hc.of_append]
  exact ⟨before, rfl⟩

/-- No node is met twice. -/
theorem nodup (hc : s.Chain place hs) : hs.Nodup := by
  induction hc with
  | nil => exact List.nodup_nil
  | @cons h place hs hn hrest ih =>
    refine List.nodup_cons.mpr ⟨fun hmem => ?_, ih⟩
    -- A second visit would make the chain of `h` a proper part of itself.
    obtain ⟨ks, hks, hle⟩ := hrest.of_mem hmem
    have heq := hks.unique (.cons hn hrest)
    rw [heq, List.length_cons] at hle
    omega

/-- Every node of a chain but its first one is the successor of a node of the chain. -/
theorem exists_leads (hc : s.Chain (some h) hs) (hq : q ∈ hs) :
    q = h ∨ ∃ p ∈ hs, s.Leads p q := by
  generalize hplace : some h = place at hc
  induction hc generalizing h with
  | nil => cases hq
  | @cons first behind ks hn hrest ih =>
    obtain rfl := Option.some.inj hplace
    rcases List.mem_cons.mp hq with rfl | hq
    · exact .inl rfl
    · right
      cases hrest with
      | nil => cases hq
      | @cons second _ _ hm hks =>
        rcases ih hq rfl with rfl | ⟨p, hp, hlead⟩
        · exact ⟨h, List.mem_cons_self, hn⟩
        · exact ⟨p, List.mem_cons_of_mem _ hp, hlead⟩

/-- With a node a chain contains the successor. -/
theorem mem_of_leads (hc : s.Chain place hs) (hp : p ∈ hs) (hl : s.Leads p q) : q ∈ hs := by
  obtain ⟨before, after, rfl⟩ := List.append_of_mem hp
  obtain ⟨_, ks, heq, hn, hks⟩ := hc.of_append.eq_cons
  obtain rfl := Except.ok.inj (hn.symm.trans hl)
  obtain ⟨_, _, rfl, _, _⟩ := hks.eq_cons
  rw [heq]
  simp

/-- A chain is kept by a change that keeps the successors of its nodes. -/
theorem congr (hc : s.Chain place hs) (hag : ∀ p ∈ hs, t.next p = s.next p) :
    t.Chain place hs := by
  induction hc with
  | nil => exact .nil
  | cons hn _ ih =>
    refine .cons ?_ (ih fun p hp => hag p (List.mem_cons_of_mem _ hp))
    rw [hag _ List.mem_cons_self, hn]

/-- A node without successor ends the chains that it is on. -/
theorem eq_append_of_mem (hc : s.Chain place hs) (ha : a ∈ hs) (hn : s.next a = .ok none) :
    ∃ before, hs = before ++ [a] := by
  obtain ⟨before, after, rfl⟩ := List.append_of_mem ha
  obtain ⟨_, ks, heq, hm, hks⟩ := hc.of_append.eq_cons
  obtain rfl := Except.ok.inj (hn.symm.trans hm)
  cases hks
  obtain rfl := (List.cons.inj heq).2
  exact ⟨before, rfl⟩

/-- The last node of a chain has no successor. -/
theorem next_of_getLast? (hc : s.Chain place hs) (hlast : hs.getLast? = some a) :
    s.next a = .ok none := by
  obtain ⟨before, rfl⟩ := List.getLast?_eq_some_iff.mp hlast
  cases hc.of_append with
  | cons hn hrest =>
    cases hrest
    exact hn

/-- A node without successor is on a chain exactly if it is its last node. -/
theorem getLast?_eq_some_iff (hc : s.Chain place hs) (ha : s.next a = .ok none) :
    hs.getLast? = some a ↔ a ∈ hs := by
  refine ⟨List.mem_of_getLast?, fun hmem => ?_⟩
  obtain ⟨before, rfl⟩ := hc.eq_append_of_mem hmem ha
  simp

/-- From a node on it a chain leads to the end that it has from its beginning. -/
theorem getLast?_eq_of_mem (hc : s.Chain place hs) (hp : p ∈ hs) (hks : s.Chain (some p) ks) :
    ks.getLast? = hs.getLast? := by
  obtain ⟨before, rfl⟩ := hc.suffix_of_mem hp hks
  have hne : ks ≠ [] := List.ne_nil_of_mem hks.head_mem
  rw [List.getLast?_append, List.getLast?_eq_some_getLast hne, Option.some_or]

/-- Where the last node of a chain is given a successor, the chain of the successor comes
behind it. -/
theorem extend (hc : s.Chain place (hs ++ [a])) (hag : ∀ p ∈ hs, t.next p = s.next p)
    (ha : t.next a = .ok (some b)) (hb : t.Chain (some b) ks) :
    t.Chain place (hs ++ a :: ks) := by
  induction hs generalizing place with
  | nil =>
    cases hc with
    | cons _ _ => exact .cons ha hb
  | cons p hs ih =>
    cases hc with
    | cons hn hrest =>
      refine .cons ?_ (ih hrest fun p hp => hag p (List.mem_cons_of_mem _ hp))
      rw [hag _ List.mem_cons_self, hn]

/-- Where no node has two predecessors, a chain stays off the chain of a node without predecessor
unless it begins on it. -/
theorem disjoint (hsingle : ∀ {p q r}, s.Leads p r → s.Leads q r → p = q)
    (hp : s.Chain (some p) hs) (hq : s.Chain (some q) ks) (hhead : ∀ r, ¬ s.Leads r q)
    (hoff : p ∉ ks) : ∀ h ∈ hs, h ∉ ks := by
  generalize hplace : some p = place at hp
  induction hp generalizing p with
  | nil => simp
  | @cons first behind hs hn hrest ih =>
    obtain rfl := Option.some.inj hplace
    intro h hh
    rcases List.mem_cons.mp hh with rfl | hh
    · exact hoff
    · cases hrest with
      | nil => cases hh
      | @cons second _ _ hm hks =>
        refine ih (fun hmem => ?_) rfl h hh
        rcases hq.exists_leads hmem with rfl | ⟨r, hr, hlead⟩
        · exact hhead p hn
        · exact hoff (hsingle hlead hn ▸ hr)

/-- What a node leads to over one or more links comes behind it in its chain. -/
theorem mem_of_transGen (hc : s.Chain (some p) (p :: hs))
    (hr : Relation.TransGen s.Leads p q) : q ∈ hs := by
  obtain ⟨place, ks, heq, hn, hks⟩ := hc.eq_cons
  obtain rfl := (List.cons.inj heq).2
  induction hr with
  | single hl =>
    obtain rfl := Except.ok.inj (hn.symm.trans hl)
    exact hks.head_mem
  | tail _ hl ih => exact hks.mem_of_leads ih hl

/-- A node with a chain does not lead to itself. -/
theorem not_transGen (hc : s.Chain (some p) hs) : ¬ Relation.TransGen s.Leads p p := by
  intro hr
  obtain ⟨_, ks, rfl, _, _⟩ := hc.eq_cons
  exact (List.nodup_cons.mp hc.nodup).1 (hc.mem_of_transGen hr)

end Chain

end CheckedLists.Store
