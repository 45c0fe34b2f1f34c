import CheckedLists.Proofs.Run

/-!
# Operations come to an end

In an arena that a run leads to, no operation meets a defect: no slot that is
read or written is out of bounds, no counter runs below zero, and every node that
a step relies on is there. A walk along a list visits the nodes of its chain and
no others. Their number bounds the steps that it needs, and it is at most the
number of live nodes.
-/

namespace CheckedLists

variable {α : Type} {a : Arena α} {x y h : Handle} {n m : Node α} {place : Option Handle}
  {ks : List Handle}

/-- Whatever is done with a coherent arena, no defect arises. -/
theorem Op.perform_ne_defect (hs : a.store.Coherent) (op : Op (Option Handle) Handle α)
    (d : Defect) (b : Arena α) : op.perform a ≠ .error (.defect d) b := by
  intro herror
  obtain ⟨_, _, hok, _⟩ | ⟨e, allocator, hrefused, hr⟩ := op.settles_perform hs
  · rw [hok] at herror
    contradiction
  · rw [hrefused] at herror
    obtain ⟨rfl, _⟩ := EStateM.Result.error.inj herror
    cases hr

/-- `ks` are the nodes that every walk along the list at `place` visits. None of the walks needs
more steps than these nodes, and none of them fails. -/
structure Arena.Walked (a : Arena α) (place : Option Handle) (ks : List Handle) : Prop where
  /-- The nodes are met by following successors to the end of the list. -/
  chain : a.store.Chain place ks
  /-- The search for the end of the list finds the last one of them. -/
  last : ∀ {h}, place = some h → ∃ last, ks.getLast? = some last ∧
    ∀ {fuel}, ks.length ≤ fuel + 1 → a.store.lastFrom fuel h = .ok last
  /-- The search for a node says whether it is one of them. -/
  reaches : ∀ target {fuel}, ks.length ≤ fuel →
    a.store.reachesFrom target fuel place = .ok (decide (target ∈ ks))
  /-- From a head on they are released, one by one. -/
  released : (∀ {h}, place = some h → ¬ a.store.Owned h) → ∀ {fuel}, ks.length ≤ fuel →
    ∃ b, ArenaM.releaseFrom fuel place a = .ok ks.length b
  /-- A cursor gives their values and then none, however often it is asked. -/
  iterated : (a.store.valuesOf ks).length = ks.length ∧
    ∀ steps, ∃ answers, a.store.iterate place steps = .ok (⟨place⟩, answers) ∧
      answers.map Prod.fst = (List.range steps).map fun i => (a.store.valuesOf ks)[i]?

/-- The walks along a list of a coherent arena visit the nodes of its chain. -/
theorem Arena.walked_of_chain (hs : a.store.Coherent) (hc : a.store.Chain place ks) :
    a.Walked place ks where
  chain := hc
  last := by
    rintro h rfl
    obtain ⟨_, rest, rfl, _, _⟩ := hc.eq_cons
    have hlast := List.getLast?_eq_some_getLast (List.cons_ne_nil h rest)
    exact ⟨_, hlast, fun hf => Store.lastFrom_of_chain hc hlast hf⟩
  reaches target _ hf := Store.reachesFrom_of_chain target hc hf
  released := by
    intro hhead fuel hf
    have hl : a.store.Linked place := by
      cases place with
      | none => exact hs.linked
      | some h =>
        have hlive : a.store.isLive h = true := hc.isLive hc.head_mem
        exact hs.linked.enter hlive (hhead rfl)
    exact ⟨_, ArenaM.releaseFrom_of_chain hl hs.slotted hc hf⟩
  iterated := ⟨hc.length_valuesOf, fun steps => Store.iterate_of_chain hc steps⟩

/-- A walk in a coherent arena visits at most as many nodes as are live, and it ends with the fault
of its first lookup if it does not begin at a live node. -/
theorem Arena.walked_or_error (hs : a.store.Coherent) (place : Option Handle) :
    (∃ ks, ks.length ≤ a.store.live ∧ a.Walked place ks) ∨
    ∃ h f, place = some h ∧ a.store.lookup h = .error f ∧
      (∀ fuel, a.store.lastFrom fuel h = .error (.error f)) ∧
      ∀ steps, a.store.iterate place steps = .error (.error f) := by
  obtain ⟨ks, hc⟩ | ⟨h, f, rfl, hf⟩ := hs.chain_or_error place
  · exact .inl ⟨ks, hs.length_le_live hc, walked_of_chain hs hc⟩
  · exact .inr ⟨h, f, rfl, hf, Store.lastFrom_of_error hf, Store.iterate_of_error hf⟩

/-- Behind its guards a link can only close a cycle or be carried out. -/
theorem ArenaM.link_of_guards (hs : a.store.Coherent) (hn : a.store.lookup x = .ok n)
    (hnext : n.next = none) (hm : a.store.lookup y = .ok m) (hhead : m.owned = false) :
    ∃ closed, a.store.reaches y x = .ok closed ∧
      if closed then link x y a = .error (.error (.cycle y)) a
      else ∃ b, link x y a = .ok () b := by
  obtain ⟨ks, _, hc, _⟩ := hs.exists_chain hm
  have hlink := link_of_head hs hn hnext hm hhead hc
  refine ⟨decide (x ∈ ks), hs.reaches_eq hc x, ?_⟩
  by_cases hx : x ∈ ks
  · rw [if_pos (decide_eq_true hx), hlink, if_pos hx]
  · rw [if_neg (by simpa using hx), hlink, if_neg hx]
    exact ⟨_, rfl⟩

/-- In every arena that a run leads to, no operation meets a defect, whatever it is given; the
number of slots is not cut when it is written with 32 bits as the index of a new slot; a walk visits
at most as many nodes as are live, and ends at once if it does not begin at a live node; and behind
its guards a link finds every node that it looks up. -/
theorem operations_end_without_defect (ha : a.Reachable) :
    (∀ (op : Op (Option Handle) Handle α) d b, op.perform a ≠ .error (.defect d) b) ∧
    a.store.slots.size.toUInt32.toNat = a.store.slots.size ∧
    (∀ place, (∃ ks, ks.length ≤ a.store.live ∧ a.Walked place ks) ∨
      ∃ h f, place = some h ∧ a.store.lookup h = .error f ∧
        (∀ fuel, a.store.lastFrom fuel h = .error (.error f)) ∧
        ∀ steps, a.store.iterate place steps = .error (.error f)) ∧
    ∀ x y n m, a.store.lookup x = .ok n → n.next = none →
      a.store.lookup y = .ok m → m.owned = false →
      ∃ closed, a.store.reaches y x = .ok closed ∧
        if closed then ArenaM.link x y a = .error (.error (.cycle y)) a
        else ∃ b, ArenaM.link x y a = .ok () b := by
  have hs := ha.coherent
  refine ⟨Op.perform_ne_defect hs, Store.toNat_toUInt32_of_le hs.slotted.size_le,
    Arena.walked_or_error hs, ?_⟩
  intro x y n m hn hnext hm hhead
  exact ArenaM.link_of_guards hs hn hnext hm hhead

/-- The walks along the list of `reusedSlot` visit its three nodes at most, and a link from its end
to its head closes a cycle. -/
theorem reusedSlot_walked :
    reusedSlot.Reachable ∧
    (∃ ks, ks.length ≤ 3 ∧ reusedSlot.Walked (some ⟨2, 0⟩) ks) ∧
    (∀ fuel, reusedSlot.store.lastFrom fuel ⟨0, 0⟩ = .error (.error (.useAfterRelease ⟨0, 0⟩))) ∧
    ArenaM.link ⟨1, 1⟩ ⟨2, 0⟩ reusedSlot = .error (.error (.cycle ⟨2, 0⟩)) reusedSlot := by
  have ha : reusedSlot.Reachable := ⟨.global, _, rfl⟩
  obtain ⟨_, _, hwalk, hlink⟩ := operations_end_without_defect ha
  refine ⟨ha, ?_, ?_, ?_⟩
  · obtain hks | ⟨h, f, hh, hf, _⟩ := hwalk (some ⟨2, 0⟩)
    · exact hks
    · cases hh
      cases hf
  · obtain ⟨ks, _, hks⟩ | ⟨h, f, hh, hf, hlast, _⟩ := hwalk (some ⟨0, 0⟩)
    · have hlive := hks.chain.isLive hks.chain.head_mem
      cases hlive
    · cases hh
      cases hf
      exact hlast
  · obtain ⟨closed, hclosed, hcycle⟩ := hlink ⟨1, 1⟩ ⟨2, 0⟩ _ _ rfl rfl rfl rfl
    cases hclosed
    exact hcycle

end CheckedLists
