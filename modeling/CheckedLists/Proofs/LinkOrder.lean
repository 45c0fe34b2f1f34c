import CheckedLists.Proofs.Concatenation

/-!
# The order of links

Some links can be made one after the other exactly if their nodes are live and, together
with the links that are there already, they make up disjoint finite lists. This does not
ask for an order: a way back that one order would close at an early link is closed by a
later link in every other order. Links that can be made begin at different nodes, so each
of them writes its successor to a node of its own, and marks a node as owned whether or
not another one writes to that node. The store that they lead to is therefore the same.
-/

namespace CheckedLists

variable {α : Type}

namespace FormsLists

variable {links more : List (Handle × Handle)}

/-- Lists do not depend on the order of their links. -/
theorem perm (hf : FormsLists links) (hperm : more.Perm links) : FormsLists more where
  sources := (hperm.map Prod.fst).nodup_iff.mpr hf.sources
  targets := (hperm.map Prod.snd).nodup_iff.mpr hf.targets
  acyclic p := by
    simp only [hperm.mem_iff]
    exact hf.acyclic p

theorem perm_iff (hperm : more.Perm links) : FormsLists more ↔ FormsLists links :=
  ⟨fun hf => hf.perm hperm.symm, fun hf => hf.perm hperm⟩

/-- Lists from which links are taken away are lists. -/
theorem sublist (hf : FormsLists links) (hsub : more.Sublist links) : FormsLists more where
  sources := hf.sources.sublist (hsub.map Prod.fst)
  targets := hf.targets.sublist (hsub.map Prod.snd)
  acyclic p hp := hf.acyclic p (.mono (fun _ _ hl => hsub.subset hl) _ _ hp)

end FormsLists

namespace Store

variable {s : Store α} {a b c d h p x y : Handle} {links more : List (Handle × Handle)}

/-- What is put into one slot twice is there as it was put in last. -/
theorem put_put (s : Store α) (i : Nat) (first second : Slot α) :
    (s.put i first).put i second = s.put i second := by
  simp only [put, Array.setIfInBounds_setIfInBounds]

/-- It does not matter which one of two slots is written to first. -/
theorem put_comm {i j : Nat} (hne : i ≠ j) (s : Store α) (first second : Slot α) :
    (s.put i first).put j second = (s.put j second).put i first := by
  simp only [put, Array.setIfInBounds_comm first second hne]

theorem alter_of_error {f : Fault} (hf : s.lookup h = .error f) (g : Node α → Node α) :
    s.alter h g = s := by
  rw [alter, hf]

/-- Two changes of one node are one change. -/
theorem alter_alter {f g : Node α → Node α} (hf : ∀ n, (f n).generation = n.generation)
    (s : Store α) (h : Handle) : (s.alter h f).alter h g = s.alter h (g ∘ f) := by
  cases hl : s.lookup h with
  | error e => rw [alter_of_error hl, alter_of_error hl, alter_of_error hl]
  | ok n =>
    have hnew : (s.alter h f).lookup h = .ok (f n) := by
      rw [lookup_alter hf, if_pos rfl, hl]
      rfl
    rw [alter_of_lookup hnew, alter_of_lookup hl, alter_of_lookup hl, put_put]
    rfl

/-- Changes of different nodes can be made in either order. -/
theorem alter_comm_of_ne {f g : Node α → Node α} (hf : ∀ n, (f n).generation = n.generation)
    (hg : ∀ n, (g n).generation = n.generation) (hne : h ≠ p) (s : Store α) :
    (s.alter h f).alter p g = (s.alter p g).alter h f := by
  have hp : (s.alter h f).lookup p = s.lookup p := by rw [lookup_alter hf, if_neg hne.symm]
  have hh : (s.alter p g).lookup h = s.lookup h := by rw [lookup_alter hg, if_neg hne]
  cases hn : s.lookup h with
  | error e => rw [alter_of_error hn, alter_of_error (hh.trans hn)]
  | ok n =>
    cases hm : s.lookup p with
    | error e => rw [alter_of_error hm, alter_of_error (hp.trans hm)]
    | ok m =>
      have hslot : h.slot ≠ p.slot := fun hs => hne (eq_of_slot_eq hn hm hs)
      rw [alter_of_lookup (hp.trans hm), alter_of_lookup hn, alter_of_lookup (hh.trans hn),
        alter_of_lookup hm, put_comm hslot]

/-- Changes that can be made in either order on one node can be made so on two. -/
theorem alter_comm {f g : Node α → Node α} (hf : ∀ n, (f n).generation = n.generation)
    (hg : ∀ n, (g n).generation = n.generation) (hcomm : g ∘ f = f ∘ g) (s : Store α)
    (h p : Handle) : (s.alter h f).alter p g = (s.alter p g).alter h f := by
  by_cases hne : h = p
  · rw [hne, alter_alter hf, alter_alter hg, hcomm]
  · exact alter_comm_of_ne hf hg hne s

/-- Joins that begin at different nodes can be made in either order. -/
theorem join_comm (hne : a ≠ c) (s : Store α) (b d : Handle) :
    (s.join a b).join c d = (s.join c d).join a b := by
  have hmixed (t : Store α) (p q r : Handle) :
      (t.alter p fun n => { n with owned := true }).alter q (fun n => { n with next := some r }) =
        (t.alter q fun n => { n with next := some r }).alter p fun n => { n with owned := true } := by
    apply alter_comm <;> intros <;> rfl
  have howned (t : Store α) :
      (t.alter b fun n => { n with owned := true }).alter d (fun n => { n with owned := true }) =
        (t.alter d fun n => { n with owned := true }).alter b fun n => { n with owned := true } := by
    apply alter_comm <;> intros <;> rfl
  have hnexts := alter_comm_of_ne (f := fun n : Node α => { n with next := some b })
    (g := fun n => { n with next := some d }) (by intro; rfl) (by intro; rfl) hne s
  unfold join
  rw [hmixed _ b c d, hnexts, howned, hmixed _ d a b]

/-- Make some links, one after the other. -/
def joinAll (s : Store α) (links : List (Handle × Handle)) : Store α :=
  links.foldl (fun s l => s.join l.1 l.2) s

/-- Links that begin at different nodes lead to the same store in every order. -/
theorem joinAll_perm (hperm : more.Perm links) (hsources : (links.map Prod.fst).Nodup)
    (s : Store α) : s.joinAll more = s.joinAll links := by
  refine (hperm.symm.foldl_eq' ?_ s).symm
  intro l hl k hk t
  by_cases hfirst : l.1 = k.1
  · rw [List.inj_on_of_nodup_map hsources hl hk hfirst]
  · exact join_comm hfirst t l.2 k.2

/-- A link that can be made keeps a store coherent. -/
theorem Coherent.join_of_linkable (hs : s.Coherent) (hl : s.Linkable x y) :
    (s.join x y).Coherent := by
  obtain ⟨ks, hks, hoff, _⟩ := hl.exists_chain hs
  exact hs.join hl.next_eq hks (hs.linked.not_owned_of_isHead hl.isHead) hoff

/-- A link that is made is one link more. -/
theorem Coherent.links_join (hs : s.Coherent) (hl : s.Linkable x y) :
    (s.join x y).links.Perm ((x, y) :: s.links) := by
  obtain ⟨_, _, _, hne⟩ := hl.exists_chain hs
  have hjoin := hs.join_of_linkable hl
  have hnew : (x, y) ∉ s.links := fun hmem => hl.last y (hs.slotted.mem_links.mp hmem)
  rw [List.perm_ext_iff_of_nodup hjoin.slotted.nodup_links
    (List.nodup_cons.mpr ⟨hnew, hs.slotted.nodup_links⟩)]
  rintro ⟨p, q⟩
  rw [hjoin.slotted.mem_links, leads_join hl.next_eq hne, List.mem_cons, Prod.mk.injEq,
    hs.slotted.mem_links]

/-- The nodes of these links are live, and with the links that are there they make up lists. -/
def AllLinkable (s : Store α) (links : List (Handle × Handle)) : Prop :=
  (∀ l ∈ links, s.isLive l.1 = true ∧ s.isLive l.2 = true) ∧ FormsLists (links ++ s.links)

theorem AllLinkable.perm (hall : s.AllLinkable links) (hperm : more.Perm links) :
    s.AllLinkable more :=
  ⟨fun l hl => hall.1 l (hperm.mem_iff.mp hl), hall.2.perm (hperm.append_right s.links)⟩

/-- Some links can be made exactly if the first one can, and the others behind it. -/
theorem Coherent.allLinkable_cons (hs : s.Coherent) :
    s.AllLinkable ((x, y) :: links) ↔ s.Linkable x y ∧ (s.join x y).AllLinkable links := by
  have hbehind (hl : s.Linkable x y) :
      FormsLists (links ++ (s.join x y).links) ↔ FormsLists ((x, y) :: links ++ s.links) :=
    FormsLists.perm_iff (((hs.links_join hl).append_left links).trans List.perm_middle)
  constructor
  · rintro ⟨hlive, hlists⟩
    obtain ⟨⟨hx, hy⟩, hrest⟩ := List.forall_mem_cons.mp hlive
    have hfirst : FormsLists ((x, y) :: s.links) :=
      hlists.sublist ((List.sublist_append_right links s.links).cons_cons (x, y))
    have hl := hs.linkable_iff.mpr ⟨hx, hy, hfirst⟩
    refine ⟨hl, fun l hmem => ?_, (hbehind hl).mpr hlists⟩
    rw [isLive_join, isLive_join]
    exact hrest l hmem
  · rintro ⟨hl, hlive, hlists⟩
    refine ⟨List.forall_mem_cons.mpr ⟨⟨hl.first_live, hl.second_live⟩, fun l hmem => ?_⟩,
      (hbehind hl).mp hlists⟩
    have hjoined := hlive l hmem
    rwa [isLive_join, isLive_join] at hjoined

end Store

namespace ArenaM

variable {a b : Arena α} {links : List (Handle × Handle)}

/-- Make some links, one after the other, as long as none of them is refused. -/
def linkAll (links : List (Handle × Handle)) : ArenaM α Unit :=
  links.forM fun l => link l.1 l.2

theorem linkAll_cons (x y : Handle) (links : List (Handle × Handle)) :
    (linkAll ((x, y) :: links) : ArenaM α Unit) = link x y >>= fun _ => linkAll links := rfl

/-- Links that can be made are made. -/
theorem linkAll_of_allLinkable (hs : a.store.Coherent) (hall : a.store.AllLinkable links) :
    linkAll links a = .ok () (a.updated (a.store.joinAll links)
      (links.map fun l => .linked l.1 l.2)) := by
  induction links generalizing a with
  | nil => simp [linkAll, Arena.updated, Store.joinAll]
  | cons l links ih =>
    obtain ⟨x, y⟩ := l
    obtain ⟨hl, hrest⟩ := hs.allLinkable_cons.mp hall
    have hbehind := ih (a := a.updated (a.store.join x y) [.linked x y])
      (hs.join_of_linkable hl) hrest
    rw [linkAll_cons, bind_of_ok (link_of_linkable hs hl), hbehind, Arena.updated_updated]
    rfl

/-- Links are made one after the other exactly if they can be. -/
theorem linkAll_ok_iff (hs : a.store.Coherent) :
    (∃ b, linkAll links a = .ok () b) ↔ a.store.AllLinkable links := by
  refine ⟨?_, fun hall => ⟨_, linkAll_of_allLinkable hs hall⟩⟩
  induction links generalizing a with
  | nil => exact fun _ => ⟨nofun, hs.formsLists⟩
  | cons l links ih =>
    obtain ⟨x, y⟩ := l
    rintro ⟨b, hok⟩
    by_cases hl : a.store.Linkable x y
    · rw [linkAll_cons, bind_of_ok (link_of_linkable hs hl)] at hok
      have hrest := ih (a := a.updated (a.store.join x y) [.linked x y])
        (hs.join_of_linkable hl) ⟨b, hok⟩
      exact hs.allLinkable_cons.mpr ⟨hl, hrest⟩
    · obtain ⟨f, i, ho, hfirst⟩ := (a.store.linkable_or_obstacle x y).resolve_left hl
      rw [linkAll_cons, bind_of_error (link_of_obstacle hs ho hfirst)] at hok
      cases hok

end ArenaM

variable {a : Arena α}

/-- In a reachable arena some links are made one after the other exactly if their nodes are live
and, together with the links that are there, they make up disjoint finite lists. If they are made
in one order, they are made in every other one, and leave the same store and allocator; only the
records stand in the order of the links. -/
theorem links_are_made_in_every_order (ha : a.Reachable) (links : List (Handle × Handle)) :
    ((∃ b, ArenaM.linkAll links a = .ok () b) ↔
      (∀ l ∈ links, a.store.isLive l.1 = true ∧ a.store.isLive l.2 = true) ∧
        FormsLists (links ++ a.store.links)) ∧
    ∀ b, ArenaM.linkAll links a = .ok () b →
      b.journal = a.journal ++ (links.map fun l => .linked l.1 l.2).toArray ∧
      ∀ more : List (Handle × Handle), more.Perm links →
        ∃ c, ArenaM.linkAll more a = .ok () c ∧ c.store = b.store ∧ c.allocator = b.allocator ∧
          c.journal = a.journal ++ (more.map fun l => .linked l.1 l.2).toArray := by
  have hs := ha.coherent
  refine ⟨ArenaM.linkAll_ok_iff hs, fun b hok => ?_⟩
  have hall := (ArenaM.linkAll_ok_iff hs).mp ⟨b, hok⟩
  cases (ArenaM.linkAll_of_allLinkable hs hall).symm.trans hok
  refine ⟨rfl, fun more hperm => ⟨_, ArenaM.linkAll_of_allLinkable hs (hall.perm hperm), ?_⟩⟩
  have hsources := hall.2.sources
  rw [List.map_append] at hsources
  exact ⟨Store.joinAll_perm hperm (hsources.sublist (List.sublist_append_left _ _)) a.store,
    rfl, rfl⟩

/-- Four lists of one node each. -/
def fourHeads : Arena Nat :=
  (Arena.empty .global).run ([10, 20, 30, 40].map fun v => .call (.create v))

/-- The four nodes are linked from both ends or from the middle on, and make up the same list. Three
links that close a cycle are not all made, whichever comes last. -/
theorem fourHeads_linked :
    fourHeads.Reachable ∧
    (∃ b c, ArenaM.linkAll [(⟨0, 0⟩, ⟨1, 0⟩), (⟨2, 0⟩, ⟨3, 0⟩), (⟨1, 0⟩, ⟨2, 0⟩)] fourHeads =
        .ok () b ∧
      ArenaM.linkAll [(⟨1, 0⟩, ⟨2, 0⟩), (⟨2, 0⟩, ⟨3, 0⟩), (⟨0, 0⟩, ⟨1, 0⟩)] fourHeads =
        .ok () c ∧
      c.store = b.store ∧
      b.store.Chain (some ⟨0, 0⟩) [⟨0, 0⟩, ⟨1, 0⟩, ⟨2, 0⟩, ⟨3, 0⟩]) ∧
    ∀ links, links.Perm [(⟨0, 0⟩, ⟨1, 0⟩), (⟨1, 0⟩, ⟨2, 0⟩), (⟨2, 0⟩, ⟨0, 0⟩)] →
      ¬ ∃ b, ArenaM.linkAll links fourHeads = .ok () b := by
  have ha : fourHeads.Reachable := ⟨.global, _, rfl⟩
  refine ⟨ha, ?_, fun links hperm hok => ?_⟩
  · obtain ⟨_, hmade⟩ := links_are_made_in_every_order ha
      [(⟨0, 0⟩, ⟨1, 0⟩), (⟨2, 0⟩, ⟨3, 0⟩), (⟨1, 0⟩, ⟨2, 0⟩)]
    obtain ⟨_, hagain⟩ := hmade _ rfl
    obtain ⟨c, hc, hstore, _⟩ :=
      hagain [(⟨1, 0⟩, ⟨2, 0⟩), (⟨2, 0⟩, ⟨3, 0⟩), (⟨0, 0⟩, ⟨1, 0⟩)] (by decide)
    exact ⟨_, c, rfl, hc, hstore, .cons rfl (.cons rfl (.cons rfl (.cons rfl .nil)))⟩
  · obtain ⟨hiff, _⟩ := links_are_made_in_every_order ha links
    have hmem (l : Handle × Handle)
        (hl : l ∈ [(⟨0, 0⟩, ⟨1, 0⟩), (⟨1, 0⟩, ⟨2, 0⟩), (⟨2, 0⟩, ⟨0, 0⟩)]) :
        l ∈ links ++ fourHeads.store.links :=
      List.mem_append_left _ (hperm.mem_iff.mpr hl)
    apply (hiff.mp hok).2.acyclic ⟨0, 0⟩
    exact .head (hmem (⟨0, 0⟩, ⟨1, 0⟩) (by decide)) (.head (hmem (⟨1, 0⟩, ⟨2, 0⟩) (by decide))
      (.single (hmem (⟨2, 0⟩, ⟨0, 0⟩) (by decide))))

end CheckedLists
