import CheckedLists.Proofs.Generation
import CheckedLists.Proofs.Release

/-!
# Permanence of links

A link is not undone while its nodes are live. One event puts further nodes behind
a list at most, or it releases the list as a whole. Over a run the nodes behind a
live node therefore stay in their places, where only the end of the list can grow,
and nodes that are on one list at some stage are released by the same operation.
-/

namespace CheckedLists

variable {α : Type}

namespace Store

variable {s t : Store α} {place : Option Handle} {a b h p q : Handle} {hs ks : List Handle}
  {records : List Record}

/-- Two nodes are on one list. -/
def Together (s : Store α) (p q : Handle) : Prop :=
  ∃ h ks, s.Chain (some h) ks ∧ p ∈ ks ∧ q ∈ ks

theorem Together.symm (ht : s.Together p q) : s.Together q p := by
  obtain ⟨h, ks, hc, hp, hq⟩ := ht
  exact ⟨h, ks, hc, hq, hp⟩

theorem Together.isLive (ht : s.Together p q) : s.isLive q = true := by
  obtain ⟨_, _, hc, _, hq⟩ := ht
  exact hc.isLive hq

/-- Joining two lists puts nodes behind a list at most. -/
theorem Chain.exists_join (hc : s.Chain place hs) (ha : s.next a = .ok none)
    (hb : s.Chain (some b) ks) (hab : a ∉ ks) : ∃ more, (s.join a b).Chain place (hs ++ more) := by
  have hjoin := hc.join ha hb hab
  by_cases hmem : a ∈ hs
  · rw [if_pos hmem] at hjoin
    exact ⟨ks, hjoin⟩
  · rw [if_neg hmem] at hjoin
    exact ⟨[], by rwa [List.append_nil]⟩

/-- An effect puts nodes behind a list at most, or it releases all nodes of the list. -/
theorem Effect.chain_extended_or_released (he : s.Effect t records) (hs : s.Coherent)
    (hc : s.Chain (some h) ks) :
    (∃ more, t.Chain (some h) (ks ++ more)) ∨ ∀ p ∈ ks, t.isLive p = false := by
  have hkeep {u : Store α} (hu : u.Chain (some h) ks) : ∃ more, u.Chain (some h) (ks ++ more) :=
    ⟨[], by rwa [List.append_nil]⟩
  cases he with
  | idle => exact .inl (hkeep hc)
  | write p g =>
    have hnext (q : Handle) := next_alter (s := s) (h := p) (p := q)
      (f := fun n => { n with value := g n }) (by intro; rfl) (by intro; rfl)
    exact .inl (hkeep (hc.congr fun q _ => hnext q))
  | bound limit => exact .inl (hkeep (hc.congr fun _ _ => rfl))
  | create hcreated => exact .inl (hkeep (hc.created hcreated))
  | @append v new last u hlast hcreated =>
    have hend : u.next last = .ok none := hcreated.next_eq_ok_iff.mpr (.inr hlast)
    have hnew : u.Chain (some new) [new] :=
      .cons (hcreated.next_eq_ok_iff.mpr (.inl ⟨rfl, rfl⟩)) .nil
    have hne : last ∉ [new] := by
      rw [List.mem_singleton]
      exact hcreated.ne_of_next hlast
    exact .inl ((hc.created hcreated).exists_join hend hnew hne)
  | link hx hy hhead hoff => exact .inl (hc.exists_join hx hy hoff)
  | @destroy first ps hhead hps =>
    by_cases hmem : h ∈ ps
    · -- What comes behind a node of the destroyed list is on that list.
      obtain ⟨before, rfl⟩ := hps.suffix_of_mem hmem hc
      refine .inr fun p hp => ?_
      rw [← Bool.not_eq_true, isLive_vacateAll hps.nodup fun _ => hps.isLive]
      rintro ⟨hoff, _⟩
      exact hoff (List.mem_append_right before hp)
    · exact .inl (hkeep (hs.linked.chain_vacateAll hhead hps hc hmem))

end Store

/-- Performing the operation releases the node `p`. -/
def Op.Releases (op : Op (Option Handle) Handle α) (a : Arena α) (p : Handle) : Prop :=
  a.store.isLive p = true ∧ (op.perform.after a).store.isLive p = false

namespace Arena

variable {allocator : Allocator} {events : List (Event α)} {m n : Nat} {h p q : Handle}
  {ks : List Handle}

/-- An event puts nodes behind a list at most, or it releases all nodes of the list. -/
theorem chain_step {a : Arena α} (hs : a.store.Coherent) (e : Event α)
    (hc : a.store.Chain (some h) ks) :
    (∃ more, (a.step e).store.Chain (some h) (ks ++ more)) ∨
      ∀ p ∈ ks, (a.step e).store.isLive p = false := by
  obtain ⟨t, records, he, ht, _⟩ := leaves_step hs e
  rw [ht]
  exact he.chain_extended_or_released hs hc

/-- A list of a stage has got nodes at its end at most by a later stage, or all its nodes are
released by then. -/
theorem chain_stage (hbound : ∀ i, releases allocator events i events.length < 2 ^ 32)
    (hmn : m ≤ n) (hlast : n ≤ events.length)
    (hc : (stage allocator events m).store.Chain (some h) ks) :
    (∃ more, (stage allocator events n).store.Chain (some h) (ks ++ more)) ∨
      ∀ p ∈ ks, (stage allocator events n).store.isLive p = false := by
  induction n, hmn using Nat.le_induction with
  | base => exact .inl ⟨[], by rwa [List.append_nil]⟩
  | succ n hmn ih =>
    obtain ⟨e, he⟩ : ∃ e, events[n]? = some e := ⟨_, List.getElem?_eq_getElem hlast⟩
    obtain ⟨more, hext⟩ | hreleased := ih (Nat.le_of_succ_le hlast)
    · rw [stage_succ he]
      obtain ⟨further, hext'⟩ | hreleased := chain_step (coherent_stage allocator events n) e hext
      · exact .inl ⟨more ++ further, by rwa [List.append_assoc] at hext'⟩
      · exact .inr fun p hp => hreleased p (List.mem_append_left more hp)
    · -- A node that is released once is not live again.
      refine .inr fun p hp => ?_
      by_contra hlive
      rw [Bool.not_eq_false] at hlive
      have hbetween := isLive_of_between (hbound _) (hc.isLive hp) hlive hmn (Nat.le_succ n) hlast
      rw [hreleased p hp] at hbetween
      cases hbetween

/-- The list behind a node that is live at two stages only grows at its end. -/
theorem chain_stage_of_live (hbound : ∀ i, releases allocator events i events.length < 2 ^ 32)
    (hmn : m ≤ n) (hlast : n ≤ events.length)
    (hc : (stage allocator events m).store.Chain (some p) ks)
    (hlive : (stage allocator events n).store.isLive p = true) :
    ∃ more, (stage allocator events n).store.Chain (some p) (ks ++ more) := by
  obtain hext | hreleased := chain_stage hbound hmn hlast hc
  · exact hext
  · rw [hreleased p hc.head_mem] at hlive
    cases hlive

/-- Nodes that are on one list at some stage are both live at a later one or both released. -/
theorem isLive_eq_of_together
    (hbound : ∀ i, releases allocator events i events.length < 2 ^ 32)
    (hmn : m ≤ n) (hlast : n ≤ events.length)
    (ht : (stage allocator events m).store.Together p q) :
    (stage allocator events n).store.isLive p = (stage allocator events n).store.isLive q := by
  obtain ⟨h, ks, hc, hp, hq⟩ := ht
  obtain ⟨more, hext⟩ | hreleased := chain_stage hbound hmn hlast hc
  · rw [hext.isLive (List.mem_append_left more hp), hext.isLive (List.mem_append_left more hq)]
  · rw [hreleased p hp, hreleased q hq]

/-- An operation that releases one of two nodes that were on one list before releases both. -/
theorem releases_of_together (hbound : ∀ i, releases allocator events i events.length < 2 ^ 32)
    (hmn : m ≤ n) (hlast : n ≤ events.length)
    (ht : (stage allocator events m).store.Together p q) {op : Op (Option Handle) Handle α}
    (hp : op.Releases (stage allocator events n) p) :
    op.Releases (stage allocator events n) q := by
  obtain ⟨hlive, hafter⟩ := hp
  have hq := (isLive_eq_of_together hbound hmn hlast ht).symm.trans hlive
  refine ⟨hq, ?_⟩
  obtain ⟨h, ks, hc, hp, hq⟩ := ht
  obtain ⟨more, hext⟩ | hreleased := chain_stage hbound hmn hlast hc
  · obtain ⟨further, hext'⟩ | hreleased :=
      chain_step (coherent_stage allocator events n) (.call op) hext
    · have hstill := hext'.isLive (List.mem_append_left further (List.mem_append_left more hp))
      exact absurd (hafter.symm.trans hstill) nofun
    · exact hreleased q (List.mem_append_left more hq)
  · rw [hreleased p hp] at hlive
    cases hlive

/-- In every run in which no slot is released more often than a generation can count, and for every
two stages of it, links are permanent and lists are released whole. The handles met from a node that
is live at both stages are at the later stage the same ones, with others behind them at most. The
successor of such a node stays its successor, and is live at the later stage. Two nodes that are on
one list at the earlier stage are both live or both released at the later one, and an operation
performed there releases both of them or none. -/
theorem links_are_permanent_and_lists_released_whole (allocator : Allocator)
    (events : List (Event α)) (hbound : ∀ i, releases allocator events i events.length < 2 ^ 32)
    (hmn : m ≤ n) (hlast : n ≤ events.length) :
    (∀ p, (stage allocator events m).store.isLive p = true →
      (stage allocator events n).store.isLive p = true →
      ∃ hs ks, (stage allocator events m).store.Chain (some p) hs ∧
        (stage allocator events n).store.Chain (some p) ks ∧ hs <+: ks) ∧
    (∀ p q, (stage allocator events m).store.next p = .ok (some q) →
      (stage allocator events n).store.isLive p = true →
      (stage allocator events n).store.next p = .ok (some q) ∧
        (stage allocator events n).store.isLive q = true) ∧
    ∀ p q, (stage allocator events m).store.Together p q →
      (stage allocator events n).store.isLive p = (stage allocator events n).store.isLive q ∧
        ∀ op : Op (Option Handle) Handle α,
          op.Releases (stage allocator events n) p ↔ op.Releases (stage allocator events n) q := by
  have hlinked := (coherent_stage allocator events m).linked
  refine ⟨fun p hm hn => ?_, fun p q hnext hn => ?_, fun p q ht => ⟨?_, fun op => ⟨?_, ?_⟩⟩⟩
  · obtain ⟨hs, hc⟩ := hlinked.exists_chain hm
    obtain ⟨more, hext⟩ := chain_stage_of_live hbound hmn hlast hc hn
    exact ⟨hs, hs ++ more, hc, hext, List.prefix_append hs more⟩
  · obtain ⟨ks, hks⟩ := hlinked.exists_chain (hlinked.isLive_of_leads hnext)
    obtain ⟨more, hext⟩ := chain_stage_of_live hbound hmn hlast (.cons hnext hks) hn
    obtain ⟨_, rest, rfl, _, _⟩ := hks.eq_cons
    cases hext with
    | cons hnext' hrest =>
      cases hrest with
      | cons hq hrest => exact ⟨hnext', Store.isLive_of_next hq⟩
  · exact isLive_eq_of_together hbound hmn hlast ht
  · exact releases_of_together hbound hmn hlast ht
  · exact releases_of_together hbound hmn hlast ht.symm

/-- In the run `slotReuse` the list of two nodes at slot 2 grows by a third one while the other list
is released and one of its slots is used again. The nodes of that other list are released by one
operation. -/
theorem slotReuse_lists :
    (∀ i, releases .global slotReuse i slotReuse.length < 2 ^ 32) ∧
    (stage .global slotReuse 5).store.Chain (some ⟨2, 0⟩) [⟨2, 0⟩, ⟨3, 0⟩] ∧
    (∃ ks, (stage .global slotReuse 8).store.Chain (some ⟨2, 0⟩) ks ∧
      [⟨2, 0⟩, ⟨3, 0⟩] <+: ks) ∧
    (stage .global slotReuse 8).store.next ⟨2, 0⟩ = .ok (some ⟨3, 0⟩) ∧
    (stage .global slotReuse 3).store.Together ⟨0, 0⟩ ⟨1, 0⟩ ∧
    (Op.destroy (some ⟨0, 0⟩)).Releases (stage .global slotReuse 5) ⟨1, 0⟩ := by
  have hbound : ∀ i, releases .global slotReuse i slotReuse.length < 2 ^ 32 :=
    releases_lt (by decide)
  obtain ⟨hgrowth, hnext, _⟩ := links_are_permanent_and_lists_released_whole (m := 5) (n := 8)
    .global slotReuse hbound (by decide) (by decide)
  obtain ⟨_, _, hwhole⟩ := links_are_permanent_and_lists_released_whole (m := 3) (n := 5)
    .global slotReuse hbound (by decide) (by decide)
  have hlist : (stage .global slotReuse 5).store.Chain (some ⟨2, 0⟩) [⟨2, 0⟩, ⟨3, 0⟩] :=
    .cons rfl (.cons rfl .nil)
  have htogether : (stage .global slotReuse 3).store.Together ⟨0, 0⟩ ⟨1, 0⟩ :=
    ⟨_, _, .cons rfl (.cons rfl .nil), List.mem_cons_self, List.mem_cons_of_mem _ (.head _)⟩
  refine ⟨hbound, hlist, ?_, (hnext _ _ rfl rfl).1, htogether, ?_⟩
  · obtain ⟨hs, ks, hhs, hks, hgrows⟩ := hgrowth _ (hlist.isLive (.head _)) rfl
    rw [hhs.unique hlist] at hgrows
    exact ⟨ks, hks, hgrows⟩
  · exact ((hwhole _ _ htogether).2 _).mp ⟨rfl, rfl⟩

end Arena

end CheckedLists
