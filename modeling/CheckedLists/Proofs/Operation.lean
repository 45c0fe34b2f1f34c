import CheckedLists.Arena.Operation
import CheckedLists.Proofs.Coherent

/-!
# Operations on coherent arenas

For every operation that changes an arena these lemmas give its result: the
reply or the abort, the store that is left, and the records that are added. On
a coherent store none of the defects can arise, since every step of an operation
finds the nodes that it needs.
-/

namespace CheckedLists

variable {α β γ : Type} {a : Arena α} {x y h head last : Handle} {place : Option Handle}
  {ks : List Handle} {n m : Node α} {f : Fault} {t u : Store α} {v : α}

namespace Arena

/-- The arena with another store and with further records in its journal. -/
def updated (a : Arena α) (t : Store α) (records : List Record) : Arena α :=
  { a with store := t, journal := a.journal ++ records.toArray }

@[simp] theorem updated_store (a : Arena α) (t : Store α) (records : List Record) :
    (a.updated t records).store = t := rfl

/-- A later update replaces the store and adds its records behind the others. -/
theorem updated_updated (a : Arena α) (t u : Store α) (records more : List Record) :
    (a.updated t records).updated u more = a.updated u (records ++ more) := by
  simp [updated, Array.append_assoc]

/-- No node can be created: the bound on live nodes is reached, or no slot is free and no further
one can be named or is granted. -/
def Exhausted (a : Arena α) : Prop :=
  a.store.limit ≤ a.store.live ∨
    a.store.free = none ∧
      (maxNodes ≤ a.store.slots.size ∨ a.allocator.grants a.store.slots.size = false)

end Arena

namespace ArenaM

/-- Changing the result of a computation changes nothing else about it. -/
theorem map_apply (g : β → γ) (c : ArenaM α β) (a : Arena α) :
    (g <$> c) a = match c a with
      | .ok b a => .ok (g b) a
      | .error e a => .error e a := by
  change EStateM.map g c a = _
  unfold EStateM.map
  cases c a <;> rfl

/-- The result of a computation that is changed in a reversible way is known. -/
theorem map_eq_ok_iff {c : ArenaM α β} {g : β → γ} {x : β} {b : Arena α}
    (hg : Function.Injective g) : (g <$> c) a = .ok (g x) b ↔ c a = .ok x b := by
  rw [map_apply]
  cases c a <;> simp [hg.eq_iff]

/-- A computation that may panic is carried out exactly if it is without the panic. -/
theorem orPanic_eq_ok_iff {c : ArenaM α β} {x : β} {b : Arena α} :
    c.orPanic a = .ok x b ↔ c a = .ok x b := by
  rw [orPanic]
  cases c a with
  | ok => rfl
  | error e => cases e <;> simp

/-- A computation that is refused for certain faults, and carried out unless there is one, is
refused for these faults only. -/
theorem eq_error_iff {c : ArenaM α β} {faults : Fault → Prop} {e : Abort Fault} {b : Arena α}
    (hcases : (∃ x b, c a = .ok x b) ∨ ∃ f, faults f)
    (hrefused : ∀ f, faults f → c a = .error (.error f) a) :
    c a = .error e b ↔ ∃ f, faults f ∧ e = .error f ∧ b = a := by
  constructor
  · intro herror
    rcases hcases with ⟨x, b, hok⟩ | ⟨f, hf⟩
    · cases hok.symm.trans herror
    · cases (hrefused f hf).symm.trans herror
      exact ⟨f, hf, rfl, rfl⟩
  · rintro ⟨f, hf, rfl, rfl⟩
    exact hrefused f hf

theorem bind_of_ok {c : ArenaM α β} {g : β → ArenaM α γ} {b : β} {a' : Arena α}
    (hc : c a = .ok b a') : (c >>= g) a = g b a' := by
  rw [bind_apply, hc]

theorem bind_of_error {c : ArenaM α β} {g : β → ArenaM α γ} {e : Abort Fault} {a' : Arena α}
    (hc : c a = .error e a') : (c >>= g) a = .error e a' := by
  rw [bind_apply, hc]

theorem read_of_ok {g : Store α → Except Fault β} {b : β} (hg : g a.store = .ok b) :
    read g a = .ok b a := by
  rw [read_apply, hg]

theorem walk_of_ok {g : Store α → Except (Abort Fault) β} {b : β} (hg : g a.store = .ok b) :
    walk g a = .ok b a := by
  rw [walk_apply, hg]

/-- Nothing is aborted if the condition does not hold. -/
theorem abortIf_of_not {c : Prop} [Decidable c] (hc : ¬ c) (e : Abort Fault) :
    abortIf c e a = .ok () a := by
  rw [abortIf_apply, if_neg hc]

/-- A write that is carried out meets no defect. -/
theorem orDefect_of_ok {c : ArenaM α β} {b : β} {a' : Arena α} (d : Defect)
    (hc : c a = .ok b a') : orDefect d c a = .ok b a' := by
  rw [orDefect, hc]

/-- A record is added behind the others. -/
theorem emit_eq (r : Record) (a : Arena α) : emit r a = .ok () (a.updated a.store [r]) := by
  simp [Arena.updated]

/-- An altered node is written back without a record. -/
theorem update_of_lookup (hn : a.store.lookup h = .ok n) (g : Node α → Node α) :
    update h g a = .ok () (a.updated (a.store.alter h g) []) := by
  rw [update_apply, Store.update_eq, hn]
  simp [Except.map, Arena.updated]

theorem update_of_error (hf : a.store.lookup h = .error f) (g : Node α → Node α) :
    update h g a = .error (.error f) a := by
  rw [update_apply, Store.update_eq, hf]
  rfl

/-- An exhausted arena creates no node; the allocator may count the refusal. -/
theorem create_of_exhausted (hx : a.Exhausted) (v : α) :
    ∃ allocator, (allocator = a.allocator ∨ allocator = a.allocator.refuse) ∧
      create v a = .error (.error .outOfMemory) { a with allocator := allocator } := by
  unfold create
  simp only [bind_apply, store_apply, abortIf_apply]
  by_cases hlimit : a.store.limit ≤ a.store.live
  · exact ⟨a.allocator, .inl rfl, by rw [if_pos hlimit]⟩
  · obtain ⟨hfree, hroom⟩ := hx.resolve_left hlimit
    rw [if_neg hlimit, hfree]
    simp only [fillSlot, growSlot, bind_apply, store_apply, abortIf_apply, reserve]
    by_cases hsize : maxNodes ≤ a.store.slots.size
    · exact ⟨a.allocator, .inl rfl, by simp only [if_pos hsize]⟩
    · refine ⟨a.allocator.refuse, .inr rfl, ?_⟩
      simp [if_neg hsize, hroom.resolve_left hsize]

/-- An arena that is not exhausted creates a node. -/
theorem create_of_not_exhausted (hs : a.store.Slotted) (hx : ¬ a.Exhausted) (v : α) :
    ∃ h t, a.store.Created v h t ∧ create v a = .ok h (a.updated t [.created h]) := by
  have hlimit : ¬ a.store.limit ≤ a.store.live := by
    intro hl
    exact hx (.inl hl)
  unfold create
  simp only [bind_apply, store_apply, abortIf_apply, if_neg hlimit]
  obtain ⟨is, hlist, _, _⟩ := hs.exists_freeList
  cases hfree : a.store.free with
  | some i =>
    rw [hfree] at hlist
    cases hlist with
    | @cons _ place _ g hslot _ =>
      refine ⟨_, _, .reuse hfree hslot, ?_⟩
      simp [fillSlot, reuseSlot, bind_apply, map_apply, hslot, Arena.updated, Store.put]
  | none =>
    have hroom : ¬ maxNodes ≤ a.store.slots.size ∧
        a.allocator.grants a.store.slots.size = true := by
      constructor
      · intro hsize
        exact hx (.inr ⟨hfree, .inl hsize⟩)
      · by_contra hgrants
        exact hx (.inr ⟨hfree, .inr (Bool.not_eq_true _ ▸ hgrants)⟩)
    refine ⟨_, _, .grow hfree (Nat.lt_of_not_le hroom.1), ?_⟩
    simp [fillSlot, growSlot, bind_apply, map_apply, abortIf_apply, reserve, hroom, Arena.updated]

/-- Nothing is appended to a list whose head is not live. -/
theorem append_of_error (hf : a.store.lookup head = .error f) (v : α) :
    append (some head) v a = .error (.error f) a := by
  simp [append, bind_apply, walk_apply, Store.last, Store.lastFrom_of_error hf]

/-- Nothing is appended in an exhausted arena. -/
theorem append_of_exhausted (hs : a.store.Coherent) (hn : a.store.lookup head = .ok n)
    (hx : a.Exhausted) (v : α) :
    ∃ allocator, (allocator = a.allocator ∨ allocator = a.allocator.refuse) ∧
      append (some head) v a = .error (.error .outOfMemory) { a with allocator := allocator } := by
  obtain ⟨allocator, hallocator, hcreate⟩ := create_of_exhausted hx v
  obtain ⟨ks, last, hc, hlast⟩ := hs.exists_chain hn
  refine ⟨allocator, hallocator, ?_⟩
  simp [append, bind_apply, walk_apply, hs.last_eq hc hlast, hcreate]

/-- An append creates a node and joins the last node of the list to it. -/
theorem append_of_not_exhausted (hs : a.store.Coherent) (hc : a.store.Chain (some head) ks)
    (hlast : ks.getLast? = some last) (hx : ¬ a.Exhausted) (v : α) :
    ∃ h t, a.store.Created v h t ∧
      append (some head) v a =
        .ok head (a.updated (t.join last h) [.created h, .appended h last]) := by
  obtain ⟨h, t, hcreated, hcreate⟩ := create_of_not_exhausted hs.slotted hx v
  refine ⟨h, t, hcreated, ?_⟩
  obtain ⟨n, hn⟩ := Store.isLive_iff.mp (hc.isLive (List.mem_of_getLast? hlast))
  have hlastLive : t.lookup last = .ok n := hcreated.lookup_eq_ok_iff.mpr (.inr hn)
  have hne : h ≠ last := (hcreated.ne_of_next (hc.next_of_getLast? hlast)).symm
  have hnew : (t.alter last fun n => { n with next := some h }).lookup h =
      .ok (freshNode v h.generation a.store.stats.created) := by
    rw [Store.lookup_alter (by intro; rfl), if_neg hne]
    exact hcreated.lookup_eq_ok_iff.mpr (.inl ⟨rfl, rfl⟩)
  rw [append, bind_of_ok (walk_of_ok (hs.last_eq hc hlast)), bind_of_ok hcreate,
    bind_of_ok (orDefect_of_ok _ (update_of_lookup hlastLive _)), Arena.updated_updated,
    bind_of_ok (orDefect_of_ok _ (update_of_lookup hnew _)), Arena.updated_updated,
    bind_of_ok (emit_eq _ _), Arena.updated_updated]
  rfl

/-- An append to a list that is not empty is refused, or it creates a node and joins the last node
of the list to it. -/
theorem append_cases (hs : a.store.Coherent) (head : Handle) (v : α) :
    (∃ f allocator, append (some head) v a =
      .error (.error f) { a with allocator := allocator }) ∨
    ∃ ks last h t, a.store.Chain (some head) ks ∧ ks.getLast? = some last ∧
      a.store.Created v h t ∧ append (some head) v a =
        .ok head (a.updated (t.join last h) [.created h, .appended h last]) := by
  cases hn : a.store.lookup head with
  | error f => exact .inl ⟨f, a.allocator, append_of_error hn v⟩
  | ok n =>
    by_cases hx : a.Exhausted
    · obtain ⟨allocator, _, happend⟩ := append_of_exhausted hs hn hx v
      exact .inl ⟨.outOfMemory, allocator, happend⟩
    · obtain ⟨ks, last, hc, hlast⟩ := hs.exists_chain hn
      obtain ⟨h, t, hcreated, happend⟩ := append_of_not_exhausted hs hc hlast hx v
      exact .inr ⟨ks, last, h, t, hc, hlast, hcreated, happend⟩

/-- An append is refused, which the allocator may count, or it creates a node in an arena that is
not exhausted and joins the end of a list to it, if the list is not empty. -/
theorem append_refused_or_grown (hs : a.store.Coherent) (head : Option Handle) (v : α) :
    (∃ f allocator, (allocator = a.allocator ∨ allocator = a.allocator.refuse) ∧
      append head v a = .error (.error f) { a with allocator := allocator }) ∨
    ¬ a.Exhausted ∧ ∃ h t u r records, a.store.Created v h t ∧
      (u = t ∨ ∃ last, a.store.next last = .ok none ∧ u = t.join last h) ∧
      append head v a = .ok r (a.updated u records) := by
  by_cases hx : a.Exhausted
  · left
    cases head with
    | none => exact ⟨_, create_of_exhausted hx v⟩
    | some head =>
      cases hn : a.store.lookup head with
      | error f => exact ⟨f, a.allocator, .inl rfl, append_of_error hn v⟩
      | ok n => exact ⟨_, append_of_exhausted hs hn hx v⟩
  · cases head with
    | none =>
      obtain ⟨h, t, hc, hok⟩ := create_of_not_exhausted hs.slotted hx v
      exact .inr ⟨hx, h, t, t, _, _, hc, .inl rfl, hok⟩
    | some head =>
      cases hn : a.store.lookup head with
      | error f => exact .inl ⟨f, a.allocator, .inl rfl, append_of_error hn v⟩
      | ok n =>
        obtain ⟨ks, last, hks, hlast⟩ := hs.exists_chain hn
        obtain ⟨h, t, hc, hok⟩ := append_of_not_exhausted hs hks hlast hx v
        have hend := hks.next_of_getLast? hlast
        exact .inr ⟨hx, h, t, _, _, _, hc, .inr ⟨last, hend, rfl⟩, hok⟩

/-- A link from a handle that is not live is refused. -/
theorem link_of_error_left (hf : a.store.lookup x = .error f) :
    link x y a = .error (.error f) a := by
  simp [link, bind_apply, read_apply, hf]

/-- A node has one successor at most. -/
theorem link_of_linked (hn : a.store.lookup x = .ok n) (hnext : n.next ≠ none) :
    link x y a = .error (.error (.alreadyLinked x)) a := by
  have hsome : n.next.isSome = true := Option.isSome_iff_ne_none.mpr hnext
  simp [link, bind_apply, read_apply, hn, abortIf_apply, hsome]

/-- A link to a handle that is not live is refused. -/
theorem link_of_error_right (hn : a.store.lookup x = .ok n) (hnext : n.next = none)
    (hf : a.store.lookup y = .error f) : link x y a = .error (.error f) a := by
  simp [link, bind_apply, read_apply, hn, abortIf_apply, hnext, hf]

/-- A node has one predecessor at most. -/
theorem link_of_owned (hn : a.store.lookup x = .ok n) (hnext : n.next = none)
    (hm : a.store.lookup y = .ok m) (howned : m.owned = true) :
    link x y a = .error (.error (.notHead y)) a := by
  simp [link, bind_apply, read_apply, hn, abortIf_apply, hnext, hm, howned]

/-- A link from a node without successor to a head joins them, unless the first ends the list of
the second. -/
theorem link_of_head (hs : a.store.Coherent) (hn : a.store.lookup x = .ok n)
    (hnext : n.next = none) (hm : a.store.lookup y = .ok m) (hhead : m.owned = false)
    (hc : a.store.Chain (some y) ks) :
    link x y a =
      if x ∈ ks then .error (.error (.cycle y)) a
      else .ok () (a.updated (a.store.join x y) [.linked x y]) := by
  rw [link, bind_of_ok (read_of_ok hn), bind_of_ok (abortIf_of_not (by simp [hnext]) _),
    bind_of_ok (read_of_ok hm), bind_of_ok (abortIf_of_not (by simp [hhead]) _),
    bind_of_ok (walk_of_ok (hs.reaches_eq hc x))]
  by_cases hx : x ∈ ks
  · rw [if_pos hx]
    refine bind_of_error ?_
    rw [abortIf_apply, if_pos (decide_eq_true hx)]
  · have hne : y ≠ x := by
      rintro rfl
      exact hx hc.head_mem
    have hsecond : (a.store.alter x fun n => { n with next := some y }).lookup y = .ok m := by
      rw [Store.lookup_alter (by intro; rfl), if_neg hne, hm]
    rw [if_neg hx, bind_of_ok (abortIf_of_not (by simpa using hx) _),
      bind_of_ok (update_of_lookup hn _), bind_of_ok (update_of_lookup hsecond _),
      Arena.updated_updated, emit_eq, Arena.updated_updated]
    rfl

/-- A link is refused, or it joins the end of one list to the head of another one. -/
theorem link_cases (hs : a.store.Coherent) (x y : Handle) :
    (∃ f, link x y a = .error (.error f) a) ∨
    ∃ ks, a.store.next x = .ok none ∧ a.store.Chain (some y) ks ∧ ¬ a.store.Owned y ∧ x ∉ ks ∧
      link x y a = .ok () (a.updated (a.store.join x y) [.linked x y]) := by
  cases hn : a.store.lookup x with
  | error f => exact .inl ⟨f, link_of_error_left hn⟩
  | ok n =>
    by_cases hnext : n.next = none
    · cases hm : a.store.lookup y with
      | error f => exact .inl ⟨f, link_of_error_right hn hnext hm⟩
      | ok m =>
        cases howned : m.owned with
        | true => exact .inl ⟨.notHead y, link_of_owned hn hnext hm howned⟩
        | false =>
          obtain ⟨ks, _, hc, _⟩ := hs.exists_chain hm
          have hlink := link_of_head hs hn hnext hm howned hc
          have hend := Store.next_eq_ok_iff.mpr ⟨n, hn, hnext⟩
          by_cases hx : x ∈ ks
          · exact .inl ⟨.cycle y, hlink.trans (if_pos hx)⟩
          · exact .inr ⟨ks, hend, hc, Store.not_owned hm howned, hx, hlink.trans (if_neg hx)⟩
    · exact .inl ⟨.alreadyLinked x, link_of_linked hn hnext⟩

theorem set_of_error (hf : a.store.lookup h = .error f) (v : α) :
    set h v a = .error (.error f) a :=
  update_of_error hf _

theorem set_of_lookup (hn : a.store.lookup h = .ok n) (v : α) :
    set h v a = .ok () (a.updated (a.store.alter h fun n => { n with value := v }) []) :=
  update_of_lookup hn _

theorem amend_of_error (hf : a.store.lookup h = .error f) (g : α → α) :
    amend h g a = .error (.error f) a := by
  refine bind_of_error ?_
  rw [read_apply, hf]

/-- A value is changed in place and given back. -/
theorem amend_of_lookup (hn : a.store.lookup h = .ok n) (g : α → α) :
    amend h g a =
      .ok (g n.value) (a.updated (a.store.alter h fun n => { n with value := g n.value }) []) := by
  rw [amend, bind_of_ok (read_of_ok hn), bind_of_ok (modifyStore_apply _ _),
    Store.alter_of_lookup hn]
  simp [Arena.updated]

/-- A release vacates the slot of a live node and gives back its successor. -/
theorem release_of_lookup (hs : a.store.Slotted) (hn : a.store.lookup h = .ok n) :
    release h a = .ok n.next (a.updated (a.store.vacate h) [.released h]) := by
  have hslot := (Store.lookup_eq_ok_iff.mp hn).1
  have hlive : a.store.live ≠ 0 := Nat.ne_of_gt (hs.live_pos hn)
  simp [release, bind_apply, map_apply, hslot, abortIf_apply, hlive, Arena.updated, Store.vacate,
    Store.put]

/-- The list at the entry is released node by node to its end. -/
theorem releaseFrom_of_chain (hl : a.store.Linked place) (hs : a.store.Slotted)
    (hc : a.store.Chain place ks) {fuel : Nat} (hf : ks.length ≤ fuel) :
    releaseFrom fuel place a =
      .ok ks.length (a.updated (a.store.vacateAll ks) (ks.map .released)) := by
  induction ks generalizing a place fuel with
  | nil =>
    cases hc
    simp [releaseFrom, Arena.updated, Store.vacateAll]
  | cons h ks ih =>
    cases hc with
    | cons hn hrest =>
      obtain ⟨n, hlookup, rfl⟩ := Store.next_eq_ok_iff.mp hn
      cases fuel with
      | zero => simp at hf
      | succ fuel =>
        have hchain := hl.chain_vacate hlookup hrest (hl.next_ne hlookup)
        have hbehind := ih (a := a.updated (a.store.vacate h) [.released h]) (hl.vacate hlookup)
          (hs.vacate hlookup) hchain (Nat.le_of_succ_le_succ hf)
        rw [releaseFrom, bind_of_ok (release_of_lookup hs hlookup), bind_of_ok hbehind,
          Arena.updated_updated]
        rfl

/-- A list whose head is not live is not destroyed. -/
theorem destroy_of_error (hf : a.store.lookup head = .error f) :
    destroy (some head) a = .error (.error (destroyFault f)) a := by
  simp [destroy, bind_apply, hf]

/-- A list is not destroyed from the middle. -/
theorem destroy_of_owned (hn : a.store.lookup head = .ok n) (howned : n.owned = true) :
    destroy (some head) a = .error (.error (.notHead head)) a := by
  simp [destroy, bind_apply, hn, abortIf_apply, howned]

/-- Destroying a list from its head releases its nodes. -/
theorem destroy_of_head (hs : a.store.Coherent) (hn : a.store.lookup head = .ok n)
    (hhead : n.owned = false) (hc : a.store.Chain (some head) ks) :
    destroy (some head) a =
      .ok ks.length (a.updated (a.store.vacateAll ks)
        (ks.map .released ++ [.destroyed ks.length head])) := by
  have hlinked := hs.linked.enter (Store.isLive_iff.mpr ⟨n, hn⟩) (Store.not_owned hn hhead)
  have hrelease := releaseFrom_of_chain hlinked hs.slotted hc (hs.length_le_live hc)
  rw [destroy, bind_of_ok (store_apply a), hn]
  simp only
  rw [bind_of_ok (abortIf_of_not (by simp [hhead]) _), bind_of_ok hrelease,
    bind_of_ok (emit_eq _ _), Arena.updated_updated]
  rfl

/-- A destruction of a list that is not empty is refused, or it releases the nodes from its head
on. -/
theorem destroy_cases (hs : a.store.Coherent) (head : Handle) :
    (∃ f, destroy (some head) a = .error (.error f) a) ∨
    ∃ ks, ¬ a.store.Owned head ∧ a.store.Chain (some head) ks ∧
      destroy (some head) a =
        .ok ks.length (a.updated (a.store.vacateAll ks)
          (ks.map .released ++ [.destroyed ks.length head])) := by
  cases hn : a.store.lookup head with
  | error f => exact .inl ⟨_, destroy_of_error hn⟩
  | ok n =>
    cases howned : n.owned with
    | true => exact .inl ⟨.notHead head, destroy_of_owned hn howned⟩
    | false =>
      obtain ⟨ks, _, hc, _⟩ := hs.exists_chain hn
      exact .inr ⟨ks, Store.not_owned hn howned, hc, destroy_of_head hs hn howned hc⟩

end ArenaM

/-- A question about all values of a list leaves the arena as it is. -/
theorem Op.perform_all (head : Option Handle) (p : Nat → α → Bool) (a : Arena α) :
    (Op.all head p).perform a = match a.store.all head (numbered p) 0 with
      | .ok holds asked => .ok (.verdict holds asked) a
      | .error e _ => .error e a := by
  rw [perform, ArenaM.bind_of_ok (ArenaM.store_apply a)]
  cases a.store.all head (numbered p) 0 <;> rfl

end CheckedLists
