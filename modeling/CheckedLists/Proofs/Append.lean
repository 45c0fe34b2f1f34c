import CheckedLists.Proofs.Bound
import CheckedLists.Proofs.Concatenation
import CheckedLists.Proofs.Permanence
import CheckedLists.Proofs.Refusal

/-!
# Appending nodes

An append creates a node and joins the list to it: it is a creation, which starts a list
of its own, followed by a concatenation. So it does not matter which node of a list is
given. All nodes that end up before the new one find its value behind those that they
found before, and all others find what they found. An append that does not begin at a
live node creates nothing, and any other one is refused exactly if the creation is.

An append does not ask whether the new node may be linked. It need not: a link from the
end of the list to the node is never refused, and leads to the same store.
-/

namespace CheckedLists

variable {α : Type}

namespace Store

variable {s t u : Store α} {v : α} {place : Option Handle} {h p q last : Handle}
  {ks qs : List Handle}

/-- In `t` there is one node more than in `s`. It has value `v`, is named `p` and has no successor.
The other nodes have their values, and nothing else is counted. -/
structure Adds (s : Store α) (v : α) (p : Handle) (t : Store α) : Prop where
  /-- The new node was not live before. -/
  fresh : s.isLive p = false
  /-- The new node is live, and the others are if they were. -/
  isLive_iff : ∀ q, t.isLive q = true ↔ q = p ∨ s.isLive q = true
  /-- The new node has its value. -/
  get_new : t.get p = .ok v
  /-- The other nodes have the values that they had. -/
  get_eq : ∀ q, s.isLive q = true → t.get q = s.get q
  /-- The new node has no successor. -/
  next_new : t.next p = .ok none
  /-- One node more is live. -/
  live_eq : t.live = s.live + 1
  /-- One node more has been created, and none has been released. -/
  stats_eq : t.stats = ⟨s.stats.created + 1, s.stats.released⟩
  /-- The bound is as before. -/
  limit_eq : t.limit = s.limit

/-- In `t` there is a further list, of the new node `p` alone, and the lists of `s` are as they
were. -/
structure Starts (s : Store α) (v : α) (p : Handle) (t : Store α) : Prop
    extends s.Adds v p t where
  /-- The other nodes have the successors that they had. -/
  next_eq : ∀ q, s.isLive q = true → t.next q = s.next q
  /-- The new node is a head, and the others are if they were. -/
  isHead_iff : ∀ q, t.IsHead q ↔ q = p ∨ s.IsHead q
  /-- The value of the new node is the only one of its list. -/
  values_new : t.values (some p) = .ok [v]
  /-- From the other nodes the values are as before. -/
  values_eq : ∀ q, s.isLive q = true → t.values (some q) = s.values (some q)

/-- In `t` the new node `p` comes behind `last`, the end of the list that `h` is on, and the other
lists of `s` are as they were. -/
structure Appends (s : Store α) (h : Handle) (v : α) (p last : Handle) (t : Store α) : Prop
    extends s.Adds v p t where
  /-- This was the end of the list. -/
  ends : ∃ ks, s.Chain (some h) ks ∧ ks.getLast? = some last
  /-- The end of the list has the new node as its successor. -/
  next_last : t.next last = .ok (some p)
  /-- The other nodes have the successors that they had. -/
  next_eq : ∀ q, q ≠ last → s.isLive q = true → t.next q = s.next q
  /-- The new node is not a head. -/
  not_isHead : ¬ t.IsHead p
  /-- The heads are as before. -/
  isHead_iff : ∀ q, t.IsHead q ↔ s.IsHead q
  /-- From every node of the list, before and behind `h`, the new value comes behind those that were
  there. -/
  values_of_together : ∀ q, s.Together h q →
    ∃ vs, s.values (some q) = .ok vs ∧ t.values (some q) = .ok (vs ++ [v])
  /-- From the nodes of other lists the values are as before. -/
  values_eq : ∀ q, s.isLive q = true → ¬ s.Together h q → t.values (some q) = s.values (some q)

/-- A creation adds a node. -/
theorem Created.adds (hc : s.Created v p t) : s.Adds v p t := by
  obtain ⟨hlive, hstats, hlimit⟩ := hc.counters
  refine ⟨?_, fun q => hc.isLive_iff, ?_, fun q hq => ?_, ?_, hlive, hstats, hlimit⟩
  · rw [← Bool.not_eq_true, Store.isLive_iff]
    rintro ⟨n, hn⟩
    exact hc.not_live rfl hn
  · exact hc.get_eq_ok_iff.mpr (.inl ⟨rfl, rfl⟩)
  · exact get_eq_of_lookup_eq (hc.lookup_of_isLive hq)
  · exact hc.next_eq_ok_iff.mpr (.inl ⟨rfl, rfl⟩)

theorem Adds.not_leads (ha : s.Adds v p t) (hs : s.Coherent) (q : Handle) : ¬ s.Leads q p := by
  intro hq
  have hlive := hs.linked.isLive_of_leads hq
  cases ha.fresh.symm.trans hlive

/-- A creation starts a list. -/
theorem Coherent.starts (hs : s.Coherent) (hc : s.Created v p t) : s.Starts v p t := by
  have ha := hc.adds
  have ht := hs.created hc
  have hend : t.Chain (some p) [p] := .cons ha.next_new .nil
  refine { ha with next_eq := ?_, isHead_iff := ?_, values_new := ?_, values_eq := ?_ }
  · intro q hq
    exact next_eq_of_lookup_eq (hc.lookup_of_isLive hq)
  · intro q
    simp only [IsHead, ha.isLive_iff, hc.leads_iff]
    constructor
    · rintro ⟨rfl | hq, hnone⟩
      · exact .inl rfl
      · exact .inr ⟨hq, hnone⟩
    · rintro (rfl | ⟨hq, hnone⟩)
      · exact ⟨.inl rfl, ha.not_leads hs⟩
      · exact ⟨.inr hq, hnone⟩
  · rw [ht.values_eq hend]
    simp [valuesOf, ha.get_new, Except.toOption]
  · intro q hq
    obtain ⟨qs, hqs⟩ := hs.linked.exists_chain hq
    rw [ht.values_eq (hqs.created hc), hs.values_eq hqs,
      valuesOf_congr fun r hr => ha.get_eq r (hqs.isLive hr)]

/-- The lists that there were before are there behind a creation. -/
theorem Starts.chain (hst : s.Starts v p t) (hc : s.Chain place ks) : t.Chain place ks :=
  hc.congr fun q hq => hst.next_eq q (hc.isLive hq)

/-- The nodes of a list are those whose lists lead to its end. -/
theorem Coherent.together_iff (hs : s.Coherent) (hks : s.Chain (some h) ks)
    (hlast : ks.getLast? = some last) (hqs : s.Chain (some q) qs) :
    s.Together h q ↔ qs.getLast? = some last := by
  constructor
  · rintro ⟨r, rs, hrs, hh, hq⟩
    rw [hrs.getLast?_eq_of_mem hq hqs, ← hrs.getLast?_eq_of_mem hh hks, hlast]
  · intro hlast'
    obtain ⟨r, rs, hr, hrs, hh⟩ := hs.exists_head hks
    obtain ⟨r', rs', hr', hrs', hq⟩ := hs.exists_head hqs
    -- The end is on one list of a head only.
    have hend := hrs.getLast?_eq_of_mem hh hks
    have hend' := hrs'.getLast?_eq_of_mem hq hqs
    rw [hlast] at hend
    rw [hlast'] at hend'
    have hlive := hks.isLive (List.mem_of_getLast? hlast)
    obtain rfl := (hs.existsUnique_head hlive).unique
      ⟨hr, rs, hrs, List.mem_of_getLast? hend.symm⟩
      ⟨hr', rs', hrs', List.mem_of_getLast? hend'.symm⟩
    rw [hrs'.unique hrs] at hq
    exact ⟨r, rs, hrs, hh, hq⟩

/-- The end of a list can be joined to a node that has been created since. -/
theorem Starts.linkable (hst : s.Starts v p t) (hlast : s.next last = .ok none) :
    t.Linkable last p := by
  have hlive := isLive_of_next hlast
  have hnext := (hst.next_eq last hlive).trans hlast
  have hhead := (hst.isHead_iff p).mpr (.inl rfl)
  refine ⟨isLive_of_next hnext, hhead.1, fun q hq => ?_, hhead.2, fun ks hks hmem => ?_⟩
  · cases hnext.symm.trans hq
  · rw [hks.unique (.cons hst.next_new .nil), List.mem_singleton] at hmem
    rw [hmem, hst.fresh] at hlive
    cases hlive

/-- An added node is still there, without successor, once it has been put behind another list. -/
theorem Adds.concatenated (ha : s.Adds v p t) (hcat : t.Concatenates last p u) (hne : p ≠ last) :
    s.Adds v p u where
  fresh := ha.fresh
  isLive_iff q := by rw [hcat.isLive_eq, ha.isLive_iff]
  get_new := (hcat.get_eq p).trans ha.get_new
  get_eq q hq := (hcat.get_eq q).trans (ha.get_eq q hq)
  next_new := by rw [hcat.next_eq, if_neg hne, ha.next_new]
  live_eq := hcat.live_eq.trans ha.live_eq
  stats_eq := hcat.stats_eq.trans ha.stats_eq
  limit_eq := hcat.limit_eq.trans ha.limit_eq

/-- Where a new node is put behind a list, its value comes behind those of all nodes of the list. -/
theorem Starts.values_concatenated (hst : s.Starts v p t) (hs : s.Coherent)
    (hks : s.Chain (some h) ks) (hlast : ks.getLast? = some last)
    (hcat : t.Concatenates last p u) (hq : s.isLive q = true) :
    ∃ vs, s.values (some q) = .ok vs ∧
      (s.Together h q → u.values (some q) = .ok (vs ++ [v])) ∧
      (¬ s.Together h q → u.values (some q) = .ok vs) := by
  obtain ⟨qs, hqs⟩ := hs.linked.exists_chain hq
  obtain ⟨ts, vs, ws, hts, hvs, hws, hu⟩ := hcat.values_eq q ((hst.isLive_iff q).mpr (.inr hq))
  cases hts.unique (hst.chain hqs)
  cases hst.values_new.symm.trans hws
  refine ⟨vs, (hst.values_eq q hq).symm.trans hvs, ?_, ?_⟩
  · intro ht
    rw [hu, if_pos ((hs.together_iff hks hlast hqs).mp ht)]
  · intro ht
    rw [hu, if_neg fun hend => ht ((hs.together_iff hks hlast hqs).mpr hend)]

/-- A list that is started and put behind another one appends its node. -/
theorem Starts.appends (hst : s.Starts v p t) (hs : s.Coherent) (hks : s.Chain (some h) ks)
    (hlast : ks.getLast? = some last) (hcat : t.Concatenates last p u) :
    s.Appends h v p last u := by
  have hne {q : Handle} (hq : s.isLive q = true) : q ≠ p := by
    rintro rfl
    cases hst.fresh.symm.trans hq
  have hend : last ≠ p := hne (hks.isLive (List.mem_of_getLast? hlast))
  have hvalues {q : Handle} := hst.values_concatenated (q := q) hs hks hlast hcat
  refine { hst.concatenated hcat hend.symm with
    ends := ⟨ks, hks, hlast⟩, next_last := ?_, next_eq := fun q hq hlive => ?_,
    not_isHead := fun hp => ?_, isHead_iff := fun q => ?_, values_of_together := fun q hq => ?_,
    values_eq := fun q hlive hq => ?_ }
  · rw [hcat.next_eq, if_pos rfl]
  · rw [hcat.next_eq, if_neg hq, hst.next_eq q hlive]
  · exact ((hcat.isHead_iff p).mp hp).1 rfl
  · rw [hcat.isHead_iff, hst.isHead_iff]
    constructor
    · rintro ⟨hqp, rfl | hq⟩
      · exact absurd rfl hqp
      · exact hq
    · intro hq
      exact ⟨hne hq.1, .inr hq⟩
  · obtain ⟨vs, hvs, hu, _⟩ := hvalues hq.isLive
    exact ⟨vs, hvs, hu hq⟩
  · obtain ⟨vs, hvs, _, hu⟩ := hvalues hlive
    rw [hu hq, hvs]

end Store

namespace ArenaM

variable {a b : Arena α} {v : α} {e : Abort Fault} {h : Handle}

/-- A creation is refused only for want of room, and leaves all but what the allocator counts. -/
theorem create_eq_error (hs : a.store.Slotted) (he : create v a = .error e b) :
    e = .error .outOfMemory ∧ b = { a with allocator := b.allocator } := by
  by_cases hx : a.Exhausted
  · obtain ⟨allocator, _, hcreate⟩ := create_of_exhausted hx v
    cases hcreate.symm.trans he
    exact ⟨rfl, rfl⟩
  · obtain ⟨p, t, _, hcreate⟩ := create_of_not_exhausted hs hx v
    cases hcreate.symm.trans he

/-- A creation is carried out only where there is room. -/
theorem created_of_create (hs : a.store.Slotted) (hok : create v a = .ok h b) :
    ¬ a.Exhausted ∧ a.store.Created v h b.store ∧ b = a.updated b.store [.created h] := by
  by_cases hx : a.Exhausted
  · obtain ⟨allocator, _, hcreate⟩ := create_of_exhausted hx v
    cases hcreate.symm.trans hok
  · obtain ⟨p, t, hc, hcreate⟩ := create_of_not_exhausted hs hx v
    cases hcreate.symm.trans hok
    exact ⟨hx, hc, rfl⟩

/-- A creation that is carried out starts a list. -/
theorem starts_of_create (hs : a.store.Coherent) (hok : create v a = .ok h b) :
    a.store.Starts v h b.store ∧ b = a.updated b.store [.created h] := by
  obtain ⟨_, hc, hb⟩ := created_of_create hs.slotted hok
  exact ⟨hs.starts hc, hb⟩

/-- Where its head is live an append is refused exactly if the creation is. -/
theorem append_eq_error_iff (hs : a.store.Coherent) (hh : a.store.isLive h = true) :
    append (some h) v a = .error e b ↔ create v a = .error e b := by
  obtain ⟨n, hn⟩ := Store.isLive_iff.mp hh
  obtain ⟨ks, last, hks, hlast⟩ := hs.exists_chain hn
  have hwalk : walk (fun s => s.last h) a = .ok last a := walk_of_ok (hs.last_eq hks hlast)
  by_cases hx : a.Exhausted
  · obtain ⟨allocator, _, hcreate⟩ := create_of_exhausted hx v
    rw [append, bind_of_ok hwalk, bind_of_error hcreate, hcreate]
  · obtain ⟨p, t, _, hcreate⟩ := create_of_not_exhausted hs.slotted hx v
    obtain ⟨q, u, _, happend⟩ := append_of_not_exhausted hs hks hlast hx v
    rw [hcreate, happend]
    simp

/-- An append that is carried out comes back with the head, and appends a node. -/
theorem appends_of_append {r : Handle} (hs : a.store.Coherent)
    (hok : append (some h) v a = .ok r b) :
    r = h ∧ ∃ p last, a.store.Appends h v p last b.store ∧
      b = a.updated b.store [.created p, .appended p last] := by
  rcases append_cases hs h v with ⟨f, allocator, herror⟩ | ⟨ks, last, p, t, hks, hlast, hc, happend⟩
  · cases herror.symm.trans hok
  · cases happend.symm.trans hok
    have hst := hs.starts hc
    have hcat := (hs.created hc).concatenates (hst.linkable (hks.next_of_getLast? hlast))
    exact ⟨rfl, p, last, hst.appends hs hks hlast hcat, rfl⟩

/-- Where a node is created, an append puts it behind the end of the list as a link does. -/
theorem append_and_link_of_create {ks : List Handle} {p last : Handle} (hs : a.store.Coherent)
    (hks : a.store.Chain (some h) ks) (hlast : ks.getLast? = some last)
    (hok : create v a = .ok p b) :
    append (some h) v a = .ok h (b.updated (b.store.join last p) [.appended p last]) ∧
      link last p b = .ok () (b.updated (b.store.join last p) [.linked last p]) := by
  obtain ⟨hx, hc, hb⟩ := created_of_create hs.slotted hok
  obtain ⟨q, t, hc', happend⟩ := append_of_not_exhausted hs hks hlast hx v
  obtain ⟨rfl, rfl⟩ := hc'.unique hc
  have hlinkable := (hs.starts hc).linkable (hks.next_of_getLast? hlast)
  refine ⟨?_, link_of_linkable (hs.created hc) hlinkable⟩
  rw [happend, hb, Arena.updated_updated]
  rfl

end ArenaM

variable {a : Arena α}

/-- In a reachable arena an append to a list whose given node is not live is refused for the reason
for which the node is not found, whatever the room. Any other append is refused exactly if the
creation of the node is, for want of room, and leaves store and journal. One that is carried out
appends a node to the list that the given node is on, from wherever on it, and comes back with the
given node; without a given node it starts a list, and comes back with the new node. -/
theorem appends_reach_the_end_from_every_node (ha : a.Reachable) (v : α) :
    (∀ h f, a.store.lookup h = .error f →
      ArenaM.append (some h) v a = .error (.error f) a) ∧
    (∀ head : Option Handle, (∀ h ∈ head, a.store.isLive h = true) → ∀ e b,
      ArenaM.append head v a = .error e b ↔ ArenaM.create v a = .error e b) ∧
    (∀ e b, ArenaM.create v a = .error e b →
      e = .error .outOfMemory ∧ b = { a with allocator := b.allocator }) ∧
    (∀ h r b, ArenaM.append (some h) v a = .ok r b →
      r = h ∧ ∃ p last, a.store.Appends h v p last b.store ∧
        b = a.updated b.store [.created p, .appended p last]) ∧
    ∀ p b, ArenaM.append none v a = .ok p b →
      a.store.Starts v p b.store ∧ b = a.updated b.store [.created p] := by
  have hs := ha.coherent
  refine ⟨fun h f hf => ArenaM.append_of_error hf v, ?_,
    fun e b => ArenaM.create_eq_error hs.slotted,
    fun h r b => ArenaM.appends_of_append hs, fun p b => ArenaM.starts_of_create hs⟩
  intro head hlive e b
  cases head with
  | none => exact Iff.rfl
  | some h => exact ArenaM.append_eq_error_iff hs (hlive h rfl)

/-- An append from the node in the middle of the list of `reusedSlot` takes the slot that is vacant,
and is seen from the head and from the end. Where there is no room, it still matters whether the
given node is live. -/
theorem reusedSlot_appended :
    reusedSlot.Reachable ∧
    (∃ b, ArenaM.append (some ⟨3, 0⟩) 60 reusedSlot = .ok ⟨3, 0⟩ b ∧
      b.store.values (some ⟨2, 0⟩) = .ok [30, 40, 50, 60] ∧
      b.store.values (some ⟨1, 1⟩) = .ok [50, 60]) ∧
    ArenaM.append (some ⟨0, 0⟩) 60 fullSlots =
      .error (.error (.useAfterRelease ⟨0, 0⟩)) fullSlots ∧
    ∃ b, ArenaM.append (some ⟨3, 0⟩) 60 fullSlots = .error (.error .outOfMemory) b := by
  have ha : reusedSlot.Reachable := ⟨.global, _, rfl⟩
  have hfull : fullSlots.Reachable := ⟨.global, slotReuse ++ [.call (.setLimit (some 3))], rfl⟩
  obtain ⟨_, _, _, happends, _⟩ := appends_reach_the_end_from_every_node ha 60
  obtain ⟨hdead, hroom, _⟩ := appends_reach_the_end_from_every_node hfull 60
  refine ⟨ha, ?_, hdead ⟨0, 0⟩ _ rfl, ⟨fullSlots, ?_⟩⟩
  · have hok : ∃ b, ArenaM.append (some ⟨3, 0⟩) 60 reusedSlot = .ok ⟨3, 0⟩ b := ⟨_, rfl⟩
    obtain ⟨b, hb⟩ := hok
    obtain ⟨_, p, last, happended, _⟩ := happends _ _ _ hb
    have hlist : reusedSlot.store.Chain (some ⟨2, 0⟩) [⟨2, 0⟩, ⟨3, 0⟩, ⟨1, 1⟩] :=
      .cons rfl (.cons rfl (.cons rfl .nil))
    have hvalues (h : Handle) (vs : List Nat) (hh : h ∈ [⟨2, 0⟩, ⟨3, 0⟩, ⟨1, 1⟩])
        (hvs : reusedSlot.store.values (some h) = .ok vs) :
        b.store.values (some h) = .ok (vs ++ [60]) := by
      obtain ⟨ws, hws, hb⟩ := happended.values_of_together h ⟨_, _, hlist, by decide, hh⟩
      cases hvs.symm.trans hws
      exact hb
    exact ⟨b, hb, hvalues ⟨2, 0⟩ [30, 40, 50] (by decide) (ha.coherent.values_eq hlist),
      hvalues ⟨1, 1⟩ [50] (by decide) (ha.coherent.values_eq (.cons rfl .nil))⟩
  · exact (hroom (some ⟨3, 0⟩) (by rintro h ⟨⟩; rfl) _ _).mpr rfl

/-- In a reachable arena an append to the list from a live node on does what the creation of a node
does with a link to it from the end of that list. Either both are refused for want of room and leave
store and journal, or both are carried out, and the link is not refused. Then they leave the same
store and allocator, and differ in the last record only. -/
theorem appends_are_creations_with_a_link (ha : a.Reachable) {h : Handle}
    (hh : a.store.isLive h = true) (v : α) :
    ∃ ks last, a.store.Chain (some h) ks ∧ ks.getLast? = some last ∧ a.store.last h = .ok last ∧
      ((∃ b, ArenaM.append (some h) v a = .error (.error .outOfMemory) b ∧
          ArenaM.create v a = .error (.error .outOfMemory) b ∧
          b.store = a.store ∧ b.journal = a.journal) ∨
        ∃ p b c d, ArenaM.append (some h) v a = .ok h b ∧
          ArenaM.create v a = .ok p c ∧ ArenaM.link last p c = .ok () d ∧
          d.store = b.store ∧ d.allocator = b.allocator ∧
          b.journal = c.journal ++ #[.appended p last] ∧
          d.journal = c.journal ++ #[.linked last p]) := by
  have hs := ha.coherent
  obtain ⟨n, hn⟩ := Store.isLive_iff.mp hh
  obtain ⟨ks, last, hks, hlast⟩ := hs.exists_chain hn
  refine ⟨ks, last, hks, hlast, hs.last_eq hks hlast, ?_⟩
  cases hcreate : ArenaM.create v a with
  | error e b =>
    left
    obtain ⟨rfl, hb⟩ := ArenaM.create_eq_error hs.slotted hcreate
    refine ⟨b, (ArenaM.append_eq_error_iff hs hh).mpr hcreate, rfl, ?_, ?_⟩ <;> rw [hb]
  | ok p c =>
    right
    obtain ⟨happend, hlink⟩ := ArenaM.append_and_link_of_create hs hks hlast hcreate
    exact ⟨p, _, c, _, happend, rfl, hlink, rfl, rfl, rfl, rfl⟩

/-- A node put behind the list of `reusedSlot` in one step or in two, and one that finds no room. -/
theorem reusedSlot_appended_by_link :
    reusedSlot.Reachable ∧
    (∃ b c d, ArenaM.append (some ⟨3, 0⟩) 60 reusedSlot = .ok ⟨3, 0⟩ b ∧
      ArenaM.create 60 reusedSlot = .ok ⟨0, 1⟩ c ∧ ArenaM.link ⟨1, 1⟩ ⟨0, 1⟩ c = .ok () d ∧
      d.store = b.store) ∧
    ∃ b, ArenaM.append (some ⟨3, 0⟩) 60 fullSlots = .error (.error .outOfMemory) b ∧
      ArenaM.create 60 fullSlots = .error (.error .outOfMemory) b ∧
      b.store = fullSlots.store := by
  have ha : reusedSlot.Reachable := ⟨.global, _, rfl⟩
  have hfull : fullSlots.Reachable := ⟨.global, slotReuse ++ [.call (.setLimit (some 3))], rfl⟩
  refine ⟨ha, ?_, ?_⟩
  · obtain ⟨ks, last, hks, hlast, _, hboth⟩ :=
      appends_are_creations_with_a_link ha (h := ⟨3, 0⟩) rfl 60
    obtain rfl := hks.unique (.cons rfl (.cons rfl .nil) : reusedSlot.store.Chain _ [_, ⟨1, 1⟩])
    obtain rfl := Option.some.inj hlast
    have hok : ∃ c, ArenaM.create 60 reusedSlot = .ok ⟨0, 1⟩ c := ⟨_, rfl⟩
    obtain ⟨c, hc⟩ := hok
    obtain ⟨_, _, hrefused, _⟩ | ⟨p, b, c', d, happend, hcreate, hlink, hstore, _⟩ := hboth
    · cases hrefused.symm.trans hc
    · cases hcreate.symm.trans hc
      exact ⟨b, c, d, happend, hc, hlink, hstore⟩
  · obtain ⟨_, _, _, _, _, hboth⟩ :=
      appends_are_creations_with_a_link hfull (h := ⟨3, 0⟩) rfl 60
    obtain ⟨b, happend, hcreate, hstore, _⟩ | ⟨p, b, _, _, happend, _⟩ := hboth
    · exact ⟨b, happend, hcreate, hstore⟩
    · have hrefused : ∃ b, ArenaM.append (some ⟨3, 0⟩) 60 fullSlots =
          .error (.error .outOfMemory) b := ⟨_, rfl⟩
      obtain ⟨b', hb'⟩ := hrefused
      cases happend.symm.trans hb'

end CheckedLists
