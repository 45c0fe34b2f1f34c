import CheckedLists.Proofs.Head

/-!
# Destroying one list

A list is destroyed from its head, and from there only. All of its nodes are released, in
the order of their links, and each of them once: its slot shows the next generation, and
the free list has the slots of these nodes, the last one first, before those that it had.
Every other slot is left as it is, and with it every other list.
-/

namespace CheckedLists

variable {α : Type}

namespace Store

variable {s t : Store α} {h p : Handle} {ks : List Handle} {f : Fault}

/-- In `t` the nodes `ks` of the list from `h` on have been released, one after the other and each
of them once, and nothing else has changed. -/
structure Destroys (s : Store α) (h : Handle) (ks : List Handle) (t : Store α) : Prop where
  /-- These are the nodes of the list, in the order of their links. -/
  chain : s.Chain (some h) ks
  /-- No node is among them twice. -/
  nodup : ks.Nodup
  /-- The slot of each of them is vacant, and its next node will have the next generation. -/
  slot_of_mem : ∀ k ∈ ks, ∃ place, t.slots[k.slot]? = some (.vacant place (k.generation + 1))
  /-- The other slots are as they were. -/
  slot_of_ne : ∀ i, (∀ k ∈ ks, k.slot ≠ i) → t.slots[i]? = s.slots[i]?
  /-- The slots of the nodes are on the free list, the last one first, before those that were
  there. -/
  freeList : ∀ is, s.FreeList s.free is →
    t.FreeList t.free ((ks.map Handle.index).reverse ++ is)
  /-- The nodes of the list are not live any longer, and the others are if they were. -/
  isLive_iff : ∀ p, t.isLive p = true ↔ p ∉ ks ∧ s.isLive p = true
  /-- The other nodes have the successors that they had. -/
  next_eq : ∀ p, p ∉ ks → s.isLive p = true → t.next p = s.next p
  /-- The other nodes have the values that they had. -/
  get_eq : ∀ p, p ∉ ks → s.isLive p = true → t.get p = s.get p
  /-- The other heads are heads still. -/
  isHead_iff : ∀ p, t.IsHead p ↔ p ≠ h ∧ s.IsHead p
  /-- The nodes of the list are counted as live no longer. -/
  live_eq : t.live + ks.length = s.live
  /-- The nodes of the list are counted as released. -/
  stats_eq : t.stats = ⟨s.stats.created, s.stats.released + ks.length⟩
  /-- The bound is as before. -/
  limit_eq : t.limit = s.limit
  /-- The number of slots is as before. -/
  size_eq : t.slots.size = s.slots.size

/-- A reason not to destroy a list from `h` on, with the fault that tells of it. -/
inductive Undestroyable (s : Store α) (h : Handle) : Fault → Prop where
  /-- The node is live and has a predecessor. -/
  | notHead {p : Handle} (hlive : s.isLive h = true) (hp : s.Leads p h) :
      Undestroyable s h (.notHead h)
  /-- There is such a slot, but the node is not live. -/
  | released (hslot : h.slot < s.slots.size) (hdead : s.isLive h = false) :
      Undestroyable s h (.doubleRelease h)
  /-- There is no such slot. -/
  | foreign (hslot : s.slots.size ≤ h.slot) : Undestroyable s h (.invalidHandle h)

/-- A head can be destroyed from, and everything else cannot. -/
theorem isHead_or_undestroyable (s : Store α) (h : Handle) :
    s.IsHead h ∨ ∃ f, s.Undestroyable h f := by
  by_cases hlive : s.isLive h = true
  · by_cases hhead : ∀ p, ¬ s.Leads p h
    · exact .inl ⟨hlive, hhead⟩
    · obtain ⟨p, hp⟩ := not_forall_not.mp hhead
      exact .inr ⟨_, .notHead hlive hp⟩
  · rw [Bool.not_eq_true] at hlive
    rcases Nat.lt_or_ge h.slot s.slots.size with hslot | hslot
    · exact .inr ⟨_, .released hslot hlive⟩
    · exact .inr ⟨_, .foreign hslot⟩

/-- Releasing the nodes of the list of a head destroys it. -/
theorem Coherent.destroys (hs : s.Coherent) (hc : s.Chain (some h) ks) :
    s.Destroys h ks (s.vacateAll ks) := by
  have hlive : ∀ k ∈ ks, s.isLive k = true := fun _ => hc.isLive
  obtain ⟨hcount, hstats, hlimit, hsize⟩ := s.counters_vacateAll ks
  refine ⟨hc, hc.nodup, fun k => getElem?_vacateAll_of_mem hc.nodup hlive,
    fun i => getElem?_vacateAll_of_ne, fun is => FreeList.vacateAll hc.nodup hlive,
    fun p => isLive_vacateAll hc.nodup hlive, fun p hp hlivep => ?_, fun p hp hlivep => ?_,
    fun p => hc.isHead_vacateAll, ?_, hstats, hlimit, hsize⟩
  · exact next_eq_of_lookup_eq (lookup_vacateAll_of_notMem hc.nodup hlive hp hlivep)
  · exact get_eq_of_lookup_eq (lookup_vacateAll_of_notMem hc.nodup hlive hp hlivep)
  · have hle := hs.length_le_live hc
    omega

end Store

namespace ArenaM

variable {a b : Arena α} {h : Handle} {ks : List Handle} {f : Fault} {e : Abort Fault} {n : Nat}

/-- From a head a list is destroyed. -/
theorem destroy_of_isHead (hs : a.store.Coherent) (hh : a.store.IsHead h)
    (hc : a.store.Chain (some h) ks) :
    destroy (some h) a = .ok ks.length (a.updated (a.store.vacateAll ks)
      (ks.map .released ++ [.destroyed ks.length h])) := by
  obtain ⟨n, hn, hhead⟩ := hs.linked.isHead_iff.mp hh
  exact destroy_of_head hs hn hhead hc

/-- A destruction is refused for the reason against it. -/
theorem destroy_of_undestroyable (hs : a.store.Coherent) (hf : a.store.Undestroyable h f) :
    destroy (some h) a = .error (.error f) a := by
  cases hf with
  | notHead _ hp =>
    obtain ⟨n, hn, howned⟩ := hs.linked.owned_of_leads hp
    exact destroy_of_owned hn howned
  | released hslot hdead =>
    have hlookup := Store.lookup_eq_error_iff.mpr ⟨hdead, rfl⟩
    rw [destroy_of_error hlookup, if_pos hslot]
    rfl
  | foreign hslot =>
    have hdead : a.store.isLive h = false := by
      rw [← Bool.not_eq_true, Store.isLive_iff]
      rintro ⟨n, hn⟩
      exact Nat.not_lt.mpr hslot (Store.slot_lt_of_lookup hn)
    have hlookup := Store.lookup_eq_error_iff.mpr ⟨hdead, rfl⟩
    rw [destroy_of_error hlookup, if_neg (Nat.not_lt.mpr hslot)]
    rfl

/-- Lists are destroyed from their heads, and from there only. -/
theorem destroy_ok_iff (hs : a.store.Coherent) :
    (∃ n b, destroy (some h) a = .ok n b) ↔ a.store.IsHead h := by
  constructor
  · rintro ⟨n, b, hok⟩
    rcases a.store.isHead_or_undestroyable h with hh | ⟨f, hf⟩
    · exact hh
    · cases (destroy_of_undestroyable hs hf).symm.trans hok
  · intro hh
    obtain ⟨ks, hc⟩ := hs.linked.exists_chain hh.1
    exact ⟨_, _, destroy_of_isHead hs hh hc⟩

/-- Destructions are refused for the reasons against them, and nothing is changed. -/
theorem destroy_error_iff (hs : a.store.Coherent) :
    destroy (some h) a = .error e b ↔
      ∃ f, a.store.Undestroyable h f ∧ e = .error f ∧ b = a := by
  refine eq_error_iff ?_ fun f => destroy_of_undestroyable hs
  rcases a.store.isHead_or_undestroyable h with hh | hf
  · exact .inl ((destroy_ok_iff hs).mpr hh)
  · exact .inr hf

end ArenaM

variable {a : Arena α}

/-- In a reachable arena nothing is done to destroy the empty list. Another one is destroyed exactly
if the given node is a head. Then the answer is its length; its nodes have been released in the
order of their links and are recorded so, and everything else is as before. Otherwise the
destruction is refused, with nothing changed: because the node has a predecessor, because it is not
live, or because there is no such slot. -/
theorem destruction_releases_one_list (ha : a.Reachable) :
    ArenaM.destroy none a = .ok 0 a ∧
    ∀ h, ((∃ n b, ArenaM.destroy (some h) a = .ok n b) ↔ a.store.IsHead h) ∧
      (∀ n b, ArenaM.destroy (some h) a = .ok n b →
        a.store.length (some h) = .ok n ∧ ∃ ks, ks.length = n ∧ a.store.Destroys h ks b.store ∧
          b = a.updated b.store (ks.map .released ++ [.destroyed n h])) ∧
      ∀ e b, ArenaM.destroy (some h) a = .error e b ↔
        ∃ f, a.store.Undestroyable h f ∧ e = .error f ∧ b = a := by
  have hs := ha.coherent
  refine ⟨rfl, fun h => ⟨ArenaM.destroy_ok_iff hs, ?_, fun e b => ArenaM.destroy_error_iff hs⟩⟩
  intro n b hok
  have hh := (ArenaM.destroy_ok_iff hs).mp ⟨n, b, hok⟩
  obtain ⟨ks, hc⟩ := hs.linked.exists_chain hh.1
  cases (ArenaM.destroy_of_isHead hs hh hc).symm.trans hok
  exact ⟨hs.length_eq hc, ks, rfl, hs.destroys hc, rfl⟩

/-- The second list of `twoLists` is destroyed from its head, and the first one is left; neither its
second node nor a handle from elsewhere begins a list to be destroyed, nor does one of a node that
has been released. -/
theorem twoLists_destroyed :
    twoLists.Reachable ∧
    (∃ b, ArenaM.destroy (some ⟨2, 0⟩) twoLists = .ok 2 b ∧
      b.store.isLive ⟨3, 0⟩ = false ∧ b.store.get ⟨1, 0⟩ = .ok 20 ∧
      b.store.FreeList b.store.free [3, 2] ∧ b.store.stats = ⟨4, 2⟩) ∧
    ArenaM.destroy (some ⟨3, 0⟩) twoLists = .error (.error (.notHead ⟨3, 0⟩)) twoLists ∧
    ArenaM.destroy (some ⟨9, 0⟩) twoLists = .error (.error (.invalidHandle ⟨9, 0⟩)) twoLists ∧
    ArenaM.destroy (some ⟨0, 0⟩) reusedSlot =
      .error (.error (.doubleRelease ⟨0, 0⟩)) reusedSlot := by
  have ha : twoLists.Reachable := ⟨.global, _, rfl⟩
  have hreused : reusedSlot.Reachable := ⟨.global, _, rfl⟩
  obtain ⟨_, hdestroy⟩ := destruction_releases_one_list ha
  obtain ⟨_, hreleased⟩ := destruction_releases_one_list hreused
  have hlist : twoLists.store.Chain (some ⟨2, 0⟩) [⟨2, 0⟩, ⟨3, 0⟩] :=
    .cons rfl (.cons rfl .nil)
  refine ⟨ha, ?_, ?_, ?_, ?_⟩
  · obtain ⟨hok, hdone, _⟩ := hdestroy ⟨2, 0⟩
    obtain ⟨n, b, hb⟩ := hok.mpr (ha.coherent.linked.isHead_iff.mpr ⟨_, rfl, rfl⟩)
    obtain ⟨hlength, ks, rfl, hgone, _⟩ := hdone n b hb
    obtain rfl := hgone.chain.unique hlist
    refine ⟨b, hb, ?_, ?_, hgone.freeList [] .nil, hgone.stats_eq⟩
    · rw [← Bool.not_eq_true, hgone.isLive_iff]
      simp
    · exact (hgone.get_eq ⟨1, 0⟩ (by decide) rfl).trans rfl
  · exact ((hdestroy ⟨3, 0⟩).2.2 _ _).mpr ⟨_, .notHead rfl (p := ⟨2, 0⟩) rfl, rfl, rfl⟩
  · exact ((hdestroy ⟨9, 0⟩).2.2 _ _).mpr ⟨_, .foreign (by decide), rfl, rfl⟩
  · exact ((hreleased ⟨0, 0⟩).2.2 _ _).mpr ⟨_, .released (by decide) rfl, rfl, rfl⟩

end CheckedLists
