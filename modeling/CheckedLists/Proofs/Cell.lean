import CheckedLists.Proofs.Head
import CheckedLists.Proofs.Issue

/-!
# Nodes as memory cells

A live node keeps its value until it is written through its own handle. Creations
fill other slots, links change successors, destructions take nodes away as a whole,
and writes through other handles meet other nodes. What a handle reads is therefore
what was last written through it, from the creation of its node on. A write in turn
changes one value and nothing else; in the values of a list it is seen at the one
place that the node has there, if it is on the list.
-/

namespace CheckedLists

variable {α : Type}

namespace Store

variable {s t : Store α} {h p : Handle} {place : Option Handle} {ks : List Handle} {f : α → α}
  {v : α} {i : Nat}

/-- Nodes that are live in both stores have the same value in both. -/
def KeepsValues (s t : Store α) : Prop :=
  ∀ p v, s.get p = .ok v → t.isLive p = true → t.get p = .ok v

theorem KeepsValues.refl (s : Store α) : s.KeepsValues s := fun _ _ hv _ => hv

theorem Created.keepsValues (hc : s.Created v h t) : s.KeepsValues t :=
  fun _ _ hw _ => hc.get_eq_ok_iff.mpr (.inr hw)

/-- A joined store has the values of the store before. -/
theorem KeepsValues.join (hk : s.KeepsValues t) (a b : Handle) : s.KeepsValues (t.join a b) := by
  intro p v hv hp
  rw [isLive_join] at hp
  rw [get_join]
  exact hk p v hv hp

/-- Releasing nodes keeps the values of those that stay. -/
theorem keepsValues_vacateAll (hnodup : ks.Nodup) (hlive : ∀ h ∈ ks, s.isLive h = true) :
    s.KeepsValues (s.vacateAll ks) := by
  intro p v hv hp
  obtain ⟨hoff, _⟩ := (isLive_vacateAll hnodup hlive).mp hp
  exact (get_vacateAll_eq_ok_iff hnodup hlive).mpr ⟨hoff, hv⟩

theorem isHead_revise : (s.revise h f).IsHead p ↔ s.IsHead p := by
  simp only [IsHead, Leads, next_revise, isLive_revise]

theorem Coherent.revise (hs : s.Coherent) (h : Handle) (f : α → α) : (s.revise h f).Coherent :=
  hs.alter_value h fun n => f n.value

theorem Chain.revise (hc : s.Chain place ks) : (s.revise h f).Chain place ks :=
  hc.congr fun _ _ => next_revise

/-- A revision is not seen on a chain without the node. -/
theorem valuesOf_revise_of_notMem (hp : p ∉ ks) : (s.revise p f).valuesOf ks = s.valuesOf ks := by
  refine valuesOf_congr fun h hh => ?_
  have hne : h ≠ p := by
    rintro rfl
    exact hp hh
  rw [get_revise, if_neg hne]

/-- A revision is seen at the place that the node has on a chain, and nowhere else. -/
theorem Chain.valuesOf_revise (hc : s.Chain place ks) (hi : ks[i]? = some p)
    (hv : s.get p = .ok v) : (s.revise p f).valuesOf ks = (s.valuesOf ks).set i (f v) := by
  have hlt : i < (s.valuesOf ks).length := by
    rw [hc.length_valuesOf]
    exact (List.getElem?_eq_some_iff.mp hi).choose
  apply List.ext_getElem?
  intro j
  rw [getElem?_valuesOf (fun _ => hc.revise.isLive), List.getElem?_set]
  by_cases hij : i = j
  · subst hij
    rw [if_pos rfl, if_pos hlt, hi, Option.bind_some, get_revise, if_pos rfl, hv]
    rfl
  · rw [if_neg hij, getElem?_valuesOf fun _ => hc.isLive]
    cases hj : ks[j]? with
    | none => rfl
    | some q =>
      have hne : q ≠ p := by
        rintro rfl
        have hin := (List.getElem?_eq_some_iff.mp hi).choose
        exact hij ((List.getElem?_inj hin hc.nodup).mp (hi.trans hj.symm))
      rw [Option.bind_some, Option.bind_some, get_revise, if_neg hne]

/-- `t` differs from `s` in the value of the node `p` alone, of which `f` makes the new one. -/
structure Revises (s : Store α) (p : Handle) (f : α → α) (t : Store α) : Prop where
  /-- All links are as before. -/
  next_eq : ∀ q, t.next q = s.next q
  /-- The same handles are live. -/
  isLive_eq : ∀ q, t.isLive q = s.isLive q
  /-- The same nodes are heads. -/
  isHead_iff : ∀ q, t.IsHead q ↔ s.IsHead q
  /-- The number of live nodes is as before. -/
  live_eq : t.live = s.live
  /-- The bound is as before. -/
  limit_eq : t.limit = s.limit
  /-- The counts over the whole life are as before. -/
  stats_eq : t.stats = s.stats
  /-- The values of a list are as before, but for the one place of the node if it is on the list. -/
  values_eq : ∀ h, s.isLive h = true → ∃ ks vs, s.Chain (some h) ks ∧
    s.values (some h) = .ok vs ∧ vs.length = ks.length ∧
    (p ∉ ks → t.values (some h) = .ok vs) ∧
    ∀ i, ks[i]? = some p → (∀ j, ks[j]? = some p → j = i) ∧
      ∃ v, vs[i]? = some v ∧ t.values (some h) = .ok (vs.set i (f v))

/-- A revision changes the value of one node and nothing else. -/
theorem Coherent.revises (hs : s.Coherent) (p : Handle) (f : α → α) :
    s.Revises p f (s.revise p f) := by
  obtain ⟨hlive, hstats, hlimit, _⟩ := s.counters_alter p fun n => { n with value := f n.value }
  refine ⟨fun q => next_revise, fun q => isLive_revise, fun q => isHead_revise, hlive, hlimit,
    hstats, fun h hh => ?_⟩
  obtain ⟨ks, hc⟩ := hs.linked.exists_chain hh
  have hvalues : (s.revise p f).values (some h) = .ok ((s.revise p f).valuesOf ks) :=
    (hs.revise p f).values_eq hc.revise
  refine ⟨ks, s.valuesOf ks, hc, hs.values_eq hc, hc.length_valuesOf, fun hoff => ?_,
    fun i hi => ⟨fun j hj => ?_, ?_⟩⟩
  · rw [hvalues, valuesOf_revise_of_notMem hoff]
  · have hlt := (List.getElem?_eq_some_iff.mp hj).choose
    exact (List.getElem?_inj hlt hc.nodup).mp (hj.trans hi.symm)
  · obtain ⟨v, hv⟩ := isLive_iff_get.mp (hc.isLive (List.mem_of_getElem? hi))
    refine ⟨v, ?_, ?_⟩
    · rw [getElem?_valuesOf fun _ => hc.isLive, hi, Option.bind_some, hv]
      rfl
    · rw [hvalues, hc.valuesOf_revise hi hv]

end Store

/-- The value of the node `p` behind an operation that finds the value `v` there. -/
def Op.overwrite (op : Op (Option Handle) Handle α) (p : Handle) (v : α) : α :=
  if op.cell? = some p then op.revised v else v

/-- The value of the node `p` behind an event that finds the value `v` there. -/
def Event.overwrite (p : Handle) : Event α → α → α
  | .call op, v => op.overwrite p v
  | .supply _, v => v

/-- The value that is last written through `p` by some events, starting from the value `v`. -/
def lastWritten (p : Handle) (v : α) (events : List (Event α)) : α :=
  events.foldl (fun v e => e.overwrite p v) v

namespace Op

variable {a : Arena α} {op : Op (Option Handle) Handle α} {p : Handle} {v : α} {t : Store α}

/-- An operation that writes no value keeps all values. -/
theorem Makes.keepsValues (hm : op.Makes a t) (hcell : op.cell? = none) :
    a.store.KeepsValues t := by
  cases hm with
  | idle => exact .refl _
  | write hc => cases hcell.symm.trans hc
  | bound limit => exact .refl _
  | create _ _ hc => exact hc.keepsValues
  | append _ _ _ hc => exact hc.keepsValues.join _ _
  | link => exact (Store.KeepsValues.refl _).join _ _
  | destroy _ hc => exact Store.keepsValues_vacateAll hc.nodup fun _ => hc.isLive

/-- A node that survives an operation keeps its value, unless the operation writes to it. -/
theorem get_perform (hs : a.store.Coherent) (hv : a.store.get p = .ok v)
    (hp : (op.perform.after a).store.isLive p = true) :
    (op.perform.after a).store.get p = .ok (op.overwrite p v) := by
  unfold overwrite
  cases hc : op.cell? with
  | none =>
    rw [if_neg nofun]
    exact (op.makes_perform hs).keepsValues hc p v hv hp
  | some h =>
    rw [after_of_cell hc, Store.get_revise, hv]
    by_cases he : p = h
    · rw [if_pos he, if_pos (by rw [he])]
      rfl
    · rw [if_neg he, if_neg]
      rintro ⟨⟩
      exact he rfl

/-- The node that an operation issues a handle for has the value that the operation gives it. -/
theorem Issues.get_eq (hs : a.store.Coherent) (hi : op.Issues a p) :
    ∃ v, op.payload? = some v ∧ (op.perform.after a).store.get p = .ok v := by
  obtain ⟨⟨hbefore, _⟩, hstamp⟩ := hi.fills hs
  have hold : a.store.isLive p ≠ true := by
    intro hlive
    obtain ⟨n, hn⟩ := Store.isLive_iff.mp hlive
    rw [Store.holds_eq, Store.stamp_of_lookup hn] at hbefore
    cases hbefore
  have hnew := Store.isLive_of_stamp hstamp
  have hmakes := op.makes_perform hs
  generalize (op.perform.after a).store = t at hmakes hnew
  -- Only a creation makes a handle live that was not live before.
  cases hmakes with
  | idle => exact absurd hnew hold
  | write hc =>
    rw [Store.isLive_revise] at hnew
    exact absurd hnew hold
  | bound limit => exact absurd hnew hold
  | create _ hv hc =>
    obtain rfl | hlive := hc.isLive_iff.mp hnew
    · exact ⟨_, hv, hc.get_eq_ok_iff.mpr (.inl ⟨rfl, rfl⟩)⟩
    · exact absurd hlive hold
  | append _ hv _ hc =>
    rw [Store.isLive_join] at hnew
    rw [Store.get_join]
    obtain rfl | hlive := hc.isLive_iff.mp hnew
    · exact ⟨_, hv, hc.get_eq_ok_iff.mpr (.inl ⟨rfl, rfl⟩)⟩
    · exact absurd hlive hold
  | link =>
    rw [Store.isLive_join] at hnew
    exact absurd hnew hold
  | destroy _ hc =>
    have hlive := (Store.isLive_vacateAll hc.nodup fun _ => hc.isLive).mp hnew
    exact absurd hlive.2 hold

end Op

namespace Arena

variable {allocator : Allocator} {events : List (Event α)} {m n : Nat} {p : Handle} {v : α}

/-- A node that survives an event keeps its value, unless the event writes to it. -/
theorem get_step {a : Arena α} (hs : a.store.Coherent) (e : Event α) (hv : a.store.get p = .ok v)
    (hp : (a.step e).store.isLive p = true) :
    (a.step e).store.get p = .ok (e.overwrite p v) := by
  cases e with
  | call op => exact op.get_perform hs hv hp
  | supply other => exact hv

/-- From one stage on, a node that is live still has the value that is last written through its
handle. -/
theorem get_stage (hbound : ∀ i, releases allocator events i events.length < 2 ^ 32)
    (hmn : m ≤ n) (hlast : n ≤ events.length) (hv : (stage allocator events m).store.get p = .ok v)
    (hp : (stage allocator events n).store.isLive p = true) :
    (stage allocator events n).store.get p =
      .ok (lastWritten p v ((events.take n).drop m)) := by
  induction n, hmn using Nat.le_induction with
  | base =>
    rw [List.drop_eq_nil_of_le (List.length_take_le m events)]
    exact hv
  | succ n hmn ih =>
    have hstart : (stage allocator events m).store.isLive p = true :=
      Store.isLive_iff_get.mpr ⟨v, hv⟩
    have hbetween := isLive_of_between (hbound _) hstart hp hmn (Nat.le_succ n) hlast
    have hvalue := ih (Nat.le_of_succ_le hlast) hbetween
    obtain ⟨e, he⟩ : ∃ e, events[n]? = some e := ⟨_, List.getElem?_eq_getElem hlast⟩
    have hsplit : (events.take (n + 1)).drop m = (events.take n).drop m ++ [e] := by
      rw [List.take_add_one, he, List.drop_append_of_le_length]
      · rfl
      · rw [List.length_take]
        omega
    rw [stage_succ he] at hp ⊢
    rw [hsplit, lastWritten, List.foldl_append]
    exact get_step (coherent_stage allocator events n) e hvalue hp

/-- Handles behave as memory cells that are not aliased, in every run in which no slot is released
more often than a generation can count. At every stage at which the node of an issued handle is
live, its value is what was last written through the handle since the creation of the node, whatever
else happened meanwhile. A write through a handle changes no link, no handle's liveness, no head and
no counter, and it is seen in the values of a list at the one place of the node on it. -/
theorem handles_behave_as_memory_cells (allocator : Allocator) (events : List (Event α))
    (hbound : ∀ i, releases allocator events i events.length < 2 ^ 32) :
    (∀ m n op p, events[m]? = some (.call op) → op.Issues (stage allocator events m) p →
      n ≤ events.length → (stage allocator events n).store.isLive p = true →
      m < n ∧ ∃ v, op.payload? = some v ∧ (stage allocator events n).store.get p =
        .ok (lastWritten p v ((events.take n).drop (m + 1)))) ∧
    ∀ n (op : Op (Option Handle) Handle α) p, op.cell? = some p →
      (stage allocator events n).store.Revises p op.revised
        (op.perform.after (stage allocator events n)).store := by
  refine ⟨fun m n op p he hi hlast hp => ?_, fun n op p hc => ?_⟩
  · have hissued : IssuedAt allocator events m p := ⟨op, he, hi⟩
    obtain ⟨hcount, _⟩ := hissued.generation_eq (hbound _)
    obtain ⟨hfilled, hgen⟩ := counts_of_isLive hp
    have hmn : m < n := by
      -- At an earlier stage the slot was not filled as often as its generation says.
      by_contra hle
      have hmono := creations_mono allocator events p.slot (Nat.le_of_not_lt hle)
      have hfew : releases allocator events p.slot n ≤ _ :=
        releases_mono allocator events p.slot hlast
      have hfit := hbound p.slot
      omega
    obtain ⟨v, hpayload, hv⟩ := hi.get_eq (coherent_stage allocator events m)
    have hstart : (stage allocator events (m + 1)).store.get p = .ok v := by
      rw [stage_succ he]
      exact hv
    exact ⟨hmn, v, hpayload, get_stage hbound hmn hlast hstart hp⟩
  · rw [Op.after_of_cell hc]
    exact (coherent_stage allocator events n).revises p op.revised

/-- The run `slotReuse` with writes to the second node of the list at slot 2 and to the node that
takes a released slot, and with a write that is refused. -/
def cellWrites : List (Event Nat) :=
  slotReuse ++ [.call (.amend ⟨3, 0⟩ (· + 1)), .call (.set ⟨1, 1⟩ 60), .call (.set ⟨0, 0⟩ 70)]

/-- The second node of the list was written once since its creation, and a further write to it
changes the second value of the list. -/
theorem cellWrites_values :
    (∀ i, releases .global cellWrites i cellWrites.length < 2 ^ 32) ∧
    IssuedAt .global cellWrites 4 ⟨3, 0⟩ ∧
    (stage .global cellWrites 11).store.get ⟨3, 0⟩ = .ok 41 ∧
    ((Op.set ⟨3, 0⟩ 7).perform.after (stage .global cellWrites 11)).store.values (some ⟨2, 0⟩) =
      .ok [30, 7, 60] := by
  have hbound : ∀ i, releases .global cellWrites i cellWrites.length < 2 ^ 32 :=
    releases_lt (by decide)
  obtain ⟨hread, hwrite⟩ := handles_behave_as_memory_cells .global cellWrites hbound
  have hissues : (Op.append (some ⟨2, 0⟩) 40).Issues (stage .global cellWrites 4) ⟨3, 0⟩ :=
    .behind rfl rfl rfl rfl
  have hlist : (stage .global cellWrites 11).store.Chain (some ⟨2, 0⟩) [⟨2, 0⟩, ⟨3, 0⟩, ⟨1, 1⟩] :=
    .cons rfl (.cons rfl (.cons rfl .nil))
  refine ⟨hbound, ⟨_, rfl, hissues⟩, ?_, ?_⟩
  · obtain ⟨_, v, hv, hget⟩ := hread 4 11 _ _ rfl hissues (by decide) rfl
    obtain rfl := Option.some.inj hv
    exact hget
  · obtain ⟨ks, vs, hks, hvs, _, _, hat⟩ := (hwrite 11 (.set ⟨3, 0⟩ 7) _ rfl).values_eq ⟨2, 0⟩ rfl
    obtain rfl := hks.unique hlist
    obtain ⟨_, v, _, hvalues⟩ := hat 1 rfl
    have hbefore : (stage .global cellWrites 11).store.values (some ⟨2, 0⟩) = .ok [30, 41, 60] :=
      (coherent_stage .global cellWrites 11).values_eq hlist
    obtain rfl := Except.ok.inj (hbefore.symm.trans hvs)
    exact hvalues

end Arena

end CheckedLists
