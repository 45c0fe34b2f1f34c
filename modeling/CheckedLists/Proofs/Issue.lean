import CheckedLists.Proofs.Generation
import CheckedLists.Proofs.Inversion

/-!
# Handles over whole runs

A created node is named by the handle that its operation answers with, or that it
links the last node of a list to. The generation of the handle counts the nodes
that were created in its slot before. As long as no slot is released more often
than a generation can count, no handle is therefore issued twice, and a handle
whose node was released is refused by all operations that use it.
-/

namespace CheckedLists

variable {α : Type} {a b : Arena α} {s t : Store α} {head : Option Handle}
  {first h k p last : Handle} {v : α} {i : Nat}

namespace Store

/-- The handle of the next node that is created. -/
def fresh (s : Store α) : Handle :=
  match s.free with
  | none => ⟨s.slots.size.toUInt32, 0⟩
  | some i => ⟨i, (s.stamp i.toNat).elim 0 Stamp.generation⟩

theorem Created.eq_fresh (hc : s.Created v h t) : h = s.fresh := by
  cases hc with
  | @reuse i place g hfree hslot =>
    have hstamp : s.stamp i.toNat = some ⟨false, g⟩ := by
      rw [Store.stamp, hslot]
      rfl
    simp [fresh, hfree, hstamp]
  | grow hfree => simp [fresh, hfree]

/-- The next handle is not live yet. -/
theorem Slotted.not_isLive_fresh (hs : s.Slotted) : s.isLive s.fresh ≠ true := by
  intro hlive
  obtain ⟨n, hn⟩ := isLive_iff.mp hlive
  obtain ⟨is, hfree, _, hmem⟩ := hs.exists_freeList
  cases htop : s.free with
  | none =>
    have hlt := slot_lt_of_lookup hn
    simp only [fresh, htop, Handle.slot] at hlt
    rw [toNat_toUInt32_of_le hs.size_le] at hlt
    exact Nat.lt_irrefl _ hlt
  | some i =>
    rw [htop] at hfree
    cases hfree with
    | cons g hslot _ =>
      have hvacant : s.Vacant s.fresh.slot := by
        simp only [fresh, htop]
        exact ⟨_, g, hslot⟩
      exact not_vacant hn hvacant

end Store

namespace Op

variable {op : Op (Option Handle) Handle α}

/-- An operation creates a node and issues a handle for it. A node on its own is answered with;
a node behind others becomes the successor of the node that was the last one. -/
inductive Issues (a : Arena α) (op : Op (Option Handle) Handle α) (h : Handle) : Prop where
  | alone {b : Arena α} (ht : op.target? = some none) (hop : op.perform a = .ok (.node h) b)
  | behind {head last : Handle} {b : Arena α} (ht : op.target? = some (some head))
      (hop : op.perform a = .ok (.node head) b) (hlast : a.store.last head = .ok last)
      (hnext : b.store.next last = .ok (some h))

/-- An operation that adds a node is refused and leaves the store, or a node is created, its handle
and no other one is issued, and the slots show what the creation leaves. -/
def Adds (a : Arena α) (op : Op (Option Handle) Handle α) : Prop :=
  ((op.perform.after a).store = a.store ∧ ∀ h, ¬ op.Issues a h) ∨
    ∃ (v : α) (h : Handle) (t : Store α), a.store.Created v h t ∧ (∀ k, op.Issues a k ↔ k = h) ∧
      ∀ i, (op.perform.after a).store.stamp i = t.stamp i

/-- Operations that create a node on its own issue the handle that they answer with. -/
theorem issues_alone_iff (ht : op.target? = some none) :
    op.Issues a h ↔ ∃ b, op.perform a = .ok (.node h) b := by
  constructor
  · intro hi
    cases hi with
    | alone _ hop => exact ⟨_, hop⟩
    | behind ht' => cases ht.symm.trans ht'
  · rintro ⟨b, hop⟩
    exact .alone ht hop

/-- Operations that create a node behind others issue the new successor of the last one. -/
theorem issues_behind_iff (ht : op.target? = some (some first)) :
    op.Issues a h ↔ ∃ last b, op.perform a = .ok (.node first) b ∧
      a.store.last first = .ok last ∧ b.store.next last = .ok (some h) := by
  constructor
  · intro hi
    cases hi with
    | alone ht' => cases ht.symm.trans ht'
    | behind ht' hop hlast hnext =>
      cases ht.symm.trans ht'
      exact ⟨_, _, hop, hlast, hnext⟩
  · rintro ⟨last, b, hop, hlast, hnext⟩
    exact .behind ht hop hlast hnext

/-- Operations that create a node on its own add it. -/
theorem adds_alone (hs : a.store.Coherent) (ht : op.target? = some none) : op.Adds a := by
  obtain ⟨v, _, hafter, hanswer⟩ := perform_of_target ht a
  have hissues (h : Handle) : op.Issues a h ↔ ∃ b, ArenaM.create v a = .ok h b := by
    rw [issues_alone_iff ht]
    exact exists_congr fun b => hanswer
  have hcreate : op.perform.after a = (ArenaM.create v).after a := hafter
  by_cases hx : a.Exhausted
  · obtain ⟨allocator, _, hrefused⟩ := ArenaM.create_of_exhausted hx v
    refine .inl ⟨?_, fun h hi => ?_⟩
    · rw [hcreate, ArenaM.after, hrefused]
    · obtain ⟨b, hb⟩ := (hissues h).mp hi
      cases hrefused.symm.trans hb
  · obtain ⟨h, t, hc, hok⟩ := ArenaM.create_of_not_exhausted hs.slotted hx v
    refine .inr ⟨v, h, t, hc, fun k => (hissues k).trans ⟨?_, ?_⟩, fun i => ?_⟩
    · rintro ⟨b, hb⟩
      cases hok.symm.trans hb
      rfl
    · rintro rfl
      exact ⟨_, hok⟩
    · rw [hcreate, ArenaM.after, hok, Arena.updated_store]

/-- Operations that create a node behind others add it. -/
theorem adds_behind (hs : a.store.Coherent) (ht : op.target? = some (some first)) :
    op.Adds a := by
  obtain ⟨v, _, hafter, hanswer⟩ := perform_of_target ht a
  obtain ⟨f, allocator, hrefused⟩ | ⟨ks, last, h, t, hc, hlast, hcreated, hok⟩ :=
    ArenaM.append_cases hs first v
  · refine .inl ⟨?_, fun h hi => ?_⟩
    · rw [hafter, ArenaM.after, hrefused]
    · obtain ⟨last, b, hop, _⟩ := (issues_behind_iff ht).mp hi
      cases hrefused.symm.trans (hanswer.mp hop)
  · have hend := hs.last_eq hc hlast
    have hnext := hcreated.next_join (hc.next_of_getLast? hlast)
    refine .inr ⟨v, h, t, hcreated, fun k => (issues_behind_iff ht).trans ⟨?_, ?_⟩, fun i => ?_⟩
    · rintro ⟨last', b, hop, hend', hnext'⟩
      cases hend.symm.trans hend'
      cases hok.symm.trans (hanswer.mp hop)
      cases hnext.symm.trans hnext'
      rfl
    · rintro rfl
      exact ⟨last, _, hanswer.mpr hok, hend, hnext⟩
    · rw [hafter, ArenaM.after, hok, Arena.updated_store]
      exact Store.stamp_join last h

theorem adds_of_target (hs : a.store.Coherent) (ht : op.target? = some head) : op.Adds a := by
  cases head with
  | none => exact adds_alone hs ht
  | some head => exact adds_behind hs ht

/-- An operation that adds no node fills no slot. -/
theorem not_fills (hs : a.store.Coherent) (ht : op.target? = none) (i : Nat) :
    ¬ a.Fills (op.perform.after a) i := by
  -- Where the stamps stay, no slot is filled.
  have hstay {b : Arena α} (hb : b.store.stamp i = a.store.stamp i) : ¬ a.Fills b i := by
    rintro ⟨hbefore, hafter⟩
    rw [Store.holds_eq, hb, ← Store.holds_eq, hbefore] at hafter
    cases hafter
  have hmakes := op.makes_perform hs
  generalize hafter : (op.perform.after a).store = t at hmakes
  cases hmakes with
  | idle => exact hstay (by rw [hafter])
  | write hc => exact hstay (by rw [hafter, Store.revise, Store.stamp_alter (by intro; rfl)])
  | bound limit => exact hstay (by rw [hafter]; rfl)
  | create ht' => cases ht.symm.trans ht'
  | append ht' => cases ht.symm.trans ht'
  | link => exact hstay (by rw [hafter, Store.stamp_join])
  | destroy hhead hc =>
    obtain hkeep | ⟨g, _, hclear⟩ := Store.stamp_vacateAll hc.nodup (fun _ => hc.isLive) i
    · exact hstay (by rw [hafter, hkeep])
    · rintro ⟨_, htaken⟩
      rw [Store.holds_eq, hafter, hclear] at htaken
      cases htaken

/-- Handles are issued by operations that add a node. -/
theorem Issues.exists_target (hi : op.Issues a h) : ∃ head, op.target? = some head := by
  cases hi with
  | alone ht => exact ⟨_, ht⟩
  | behind ht => exact ⟨_, ht⟩

/-- The handle that an operation issues has the generation that its slot shows, and its slot is
filled. -/
theorem Issues.fills (hs : a.store.Coherent) (hi : op.Issues a h) :
    a.Fills (op.perform.after a) h.slot ∧
      (op.perform.after a).store.stamp h.slot = some ⟨true, h.generation⟩ := by
  obtain ⟨head, ht⟩ := hi.exists_target
  obtain ⟨_, hnone⟩ | ⟨v, k, t, hc, hissues, hstamp⟩ := adds_of_target hs ht
  · exact absurd hi (hnone h)
  · obtain rfl := (hissues h).mp hi
    have hafter : (op.perform.after a).store.stamp h.slot = some ⟨true, h.generation⟩ := by
      rw [hstamp, hc.stamp, if_pos rfl]
    refine ⟨⟨?_, ?_⟩, hafter⟩
    · rw [Store.holds_eq]
      obtain ⟨hbefore, _⟩ | hbefore := hc.stamp_before <;> rw [hbefore] <;> rfl
    · rw [Store.holds_eq, hafter]
      rfl

/-- An operation that adds a node issues the next handle, provided that it makes it live. -/
theorem issues_iff (hs : a.store.Coherent) (ht : op.target? = some head) :
    op.Issues a h ↔ h = a.store.fresh ∧ (op.perform.after a).store.isLive h = true := by
  constructor
  · intro hi
    refine ⟨?_, Store.isLive_of_stamp (hi.fills hs).2⟩
    obtain ⟨_, hnone⟩ | ⟨v, k, t, hc, hissues, _⟩ := adds_of_target hs ht
    · exact absurd hi (hnone h)
    · rw [← hc.eq_fresh]
      exact (hissues h).mp hi
  · rintro ⟨rfl, hlive⟩
    obtain ⟨hstore, _⟩ | ⟨v, k, t, hc, hissues, _⟩ := adds_of_target hs ht
    · rw [hstore] at hlive
      exact absurd hlive hs.slotted.not_isLive_fresh
    · exact (hissues _).mpr hc.eq_fresh.symm

/-- An operation that fills a slot issues a handle for it. -/
theorem issues_of_fills (hs : a.store.Coherent) (hfill : a.Fills (op.perform.after a) i) :
    ∃ h, op.Issues a h ∧ h.slot = i := by
  cases ht : op.target? with
  | none => exact absurd hfill (not_fills hs ht i)
  | some head =>
    obtain ⟨hbefore, hafter⟩ := hfill
    obtain ⟨hstore, _⟩ | ⟨v, h, t, hc, hissues, hstamp⟩ := adds_of_target hs ht
    · rw [hstore, hbefore] at hafter
      cases hafter
    · refine ⟨h, (hissues h).mpr rfl, ?_⟩
      by_contra hne
      rw [Store.holds_eq, hstamp, hc.stamp, if_neg (Ne.symm hne), ← Store.holds_eq,
        hbefore] at hafter
      cases hafter

/-- An operation looks the node `p` up: it is given `p` as a node or as the head of a list, or as
the second node of a link after a live one without successor. -/
inductive Uses (s : Store α) (p : Handle) : Op (Option Handle) Handle α → Prop where
  | next : Uses s p (.next p)
  | get : Uses s p (.get p)
  | set (v : α) : Uses s p (.set p v)
  | amend (f : α → α) : Uses s p (.amend p f)
  | iterate (steps : Nat) : Uses s p (.iterate (some p) steps)
  | all (q : Nat → α → Bool) : Uses s p (.all (some p) q)
  | length : Uses s p (.length (some p))
  | values : Uses s p (.values (some p))
  | append (v : α) : Uses s p (.append (some p) v)
  | linkFirst (y : Handle) : Uses s p (.link p y)
  | linkSecond {x : Handle} {n : Node α} (hn : s.lookup x = .ok n) (hnext : n.next = none) :
      Uses s p (.link x p)

/-- An operation that looks the node of a dangling handle up is refused and changes nothing. -/
theorem Uses.perform_of_error {f : Fault} (hu : op.Uses a.store p)
    (hf : a.store.lookup p = .error f) : op.perform a = .error (.error f) a := by
  cases hu with
  | next => rw [perform, ArenaM.map_apply, ArenaM.read_apply, Store.next, hf]; rfl
  | get => rw [perform, ArenaM.map_apply, ArenaM.read_apply, Store.get, hf]; rfl
  | set v => rw [perform, ArenaM.map_apply, ArenaM.set_of_error hf]
  | amend g => rw [perform, ArenaM.map_apply, ArenaM.amend_of_error hf]
  | iterate steps =>
    rw [perform, ArenaM.map_apply, ArenaM.walk_apply, Store.iterate_of_error hf steps]
  | all q => rw [perform_all, Store.all_of_error hf]
  | length => rw [perform, ArenaM.map_apply, ArenaM.walk_apply, Store.length_of_error hf]
  | values => rw [perform, ArenaM.map_apply, ArenaM.walk_apply, Store.values_of_error hf]
  | append v => rw [perform, ArenaM.map_apply, ArenaM.append_of_error hf]
  | linkFirst y => rw [perform, ArenaM.map_apply, ArenaM.link_of_error_left hf]
  | linkSecond hn hnext =>
    rw [perform, ArenaM.map_apply, ArenaM.link_of_error_right hn hnext hf]

end Op

namespace Arena

variable {allocator : Allocator} {events : List (Event α)} {op : Op (Option Handle) Handle α}
  {n : Nat}

/-- A handle dangles: it is not live, and it is refused wherever it is used. -/
structure Dangling (a : Arena α) (p : Handle) : Prop where
  /-- The handle names no live node. -/
  isLive_eq : (Op.isLive p).perform a = .ok (.flag false) a
  /-- Operations that use the handle are refused and change nothing. -/
  perform_eq : ∀ {op : Op (Option Handle) Handle α}, op.Uses a.store p →
    op.perform a = .error (.error (.useAfterRelease p)) a
  /-- A destruction from the handle on is refused and changes nothing. -/
  destroy_eq : (Op.destroy (some p)).perform a = .error (.error (.doubleRelease p)) a

/-- A handle whose lookup says so dangles. -/
theorem dangling_of_lookup (hf : a.store.lookup p = .error (.useAfterRelease p)) :
    a.Dangling p where
  isLive_eq := by
    change EStateM.Result.ok (Reply.flag (a.store.lookup p).isOk) a = _
    rw [hf]
    rfl
  perform_eq hu := hu.perform_of_error hf
  destroy_eq := by
    rw [Op.perform, ArenaM.map_apply, ArenaM.destroy_of_error hf]
    rfl

/-- Event `n` of a run is an operation that issues the handle `h`. -/
def IssuedAt (allocator : Allocator) (events : List (Event α)) (n : Nat) (h : Handle) : Prop :=
  ∃ op, events[n]? = some (.call op) ∧ op.Issues (stage allocator events n) h

/-- An event that fills a slot issues a handle for it. -/
theorem FilledAt.exists_issuedAt (hfill : FilledAt allocator events i n) :
    ∃ h, IssuedAt allocator events n h ∧ h.slot = i := by
  unfold FilledAt at hfill
  cases he : events[n]? with
  | none =>
    rw [stage_succ_of_none he] at hfill
    exact absurd (hfill.1.symm.trans hfill.2) nofun
  | some e =>
    rw [stage_succ he] at hfill
    cases e with
    | supply other => exact absurd (hfill.1.symm.trans hfill.2) nofun
    | call op =>
      obtain ⟨h, hi, hslot⟩ := Op.issues_of_fills (coherent_stage allocator events n) hfill
      exact ⟨h, ⟨op, he, hi⟩, hslot⟩

namespace IssuedAt

/-- An event that issues a handle fills its slot, and the slot then shows its generation. -/
theorem filledAt (hi : IssuedAt allocator events n h) :
    FilledAt allocator events h.slot n ∧
      (stage allocator events (n + 1)).store.stamp h.slot = some ⟨true, h.generation⟩ := by
  obtain ⟨op, he, hi⟩ := hi
  unfold FilledAt
  rw [stage_succ he]
  exact hi.fills (coherent_stage allocator events n)

/-- Handles are issued within a run. -/
theorem lt_length (hi : IssuedAt allocator events n h) : n < events.length := by
  obtain ⟨op, he, _⟩ := hi
  exact (List.getElem?_eq_some_iff.mp he).choose

/-- The generation of an issued handle is the number of nodes that were created in its slot before,
and the number of nodes that were released there. -/
theorem generation_eq (hi : IssuedAt allocator events n h)
    (hbound : releases allocator events h.slot events.length < 2 ^ 32) :
    h.generation.toNat = creations allocator events h.slot n ∧
      h.generation.toNat = releases allocator events h.slot (n + 1) := by
  obtain ⟨hfill, hstamp⟩ := hi.filledAt
  have haged := aged_stage allocator events h.slot (n + 1)
  rw [hstamp, creations_succ, if_pos hfill] at haged
  obtain ⟨hc, hg⟩ := haged.of_taken
  have hle : releases allocator events h.slot (n + 1) ≤ _ :=
    releases_mono allocator events h.slot hi.lt_length
  rw [Nat.mod_eq_of_lt (Nat.lt_of_le_of_lt hle hbound)] at hg
  exact ⟨by omega, hg⟩

/-- Handles that are issued one after the other differ. -/
theorem ne_of_lt {m n : Nat} (hh : IssuedAt allocator events m h)
    (hk : IssuedAt allocator events n k) (hmn : m < n)
    (hbound : ∀ i, releases allocator events i events.length < 2 ^ 32) : h ≠ k := by
  rintro rfl
  obtain ⟨hfirst, _⟩ := hh.generation_eq (hbound _)
  obtain ⟨hsecond, _⟩ := hk.generation_eq (hbound _)
  have hmono : creations allocator events h.slot (m + 1) ≤ creations allocator events h.slot n :=
    creations_mono allocator events h.slot hmn
  rw [creations_succ, if_pos hh.filledAt.1] at hmono
  omega

/-- Once its slot was cleared after it was issued, a handle dangles. -/
theorem dangling {m n k : Nat} (hp : IssuedAt allocator events m p) (hmn : m < n)
    (hclear : ClearedAt allocator events p.slot n) (hnk : n < k) (hk : k ≤ events.length)
    (hbound : releases allocator events p.slot events.length < 2 ^ 32) :
    (stage allocator events k).Dangling p := by
  obtain ⟨_, hg⟩ := hp.generation_eq hbound
  have hmono := releases_mono allocator events p.slot
  have hearlier : releases allocator events p.slot (m + 1) ≤ _ := hmono hmn
  have hlater : releases allocator events p.slot (n + 1) ≤ _ := hmono hnk
  have hlast := hmono hk
  rw [releases_succ, if_pos hclear] at hlater
  obtain ⟨b, g, hstamp, hgen⟩ :=
    (aged_stage allocator events p.slot k).exists_stamp (by omega)
  refine dangling_of_lookup (Store.lookup_of_stamp hstamp ?_)
  rintro rfl
  rw [Nat.mod_eq_of_lt (by omega)] at hgen
  omega

end IssuedAt

/-- In every run in which no slot is released more often than a generation can count, each event
that fills a slot issues a handle for it; an issued handle is live, and its generation is the number
of nodes that were created in its slot before; no handle is issued twice; and from the release of
the node of an issued handle on, the handle dangles at every later stage. -/
theorem handles_are_issued_once_and_dangle (allocator : Allocator) (events : List (Event α))
    (hbound : ∀ i, releases allocator events i events.length < 2 ^ 32) :
    (∀ n i, FilledAt allocator events i n →
      ∃ h, IssuedAt allocator events n h ∧ h.slot = i) ∧
    (∀ n h, IssuedAt allocator events n h →
      FilledAt allocator events h.slot n ∧
      h.generation.toNat = creations allocator events h.slot n ∧
      (stage allocator events (n + 1)).store.isLive h = true) ∧
    (∀ m n h, IssuedAt allocator events m h → IssuedAt allocator events n h → m = n) ∧
    ∀ m n k p, IssuedAt allocator events m p → m < n → ClearedAt allocator events p.slot n →
      n < k → k ≤ events.length → (stage allocator events k).Dangling p := by
  refine ⟨fun n i hfill => hfill.exists_issuedAt, fun n h hi => ?_, fun m n h hm hn => ?_,
    fun m n k p hp hmn hclear hnk hk => ?_⟩
  · obtain ⟨hfill, hstamp⟩ := hi.filledAt
    exact ⟨hfill, (hi.generation_eq (hbound _)).1, Store.isLive_of_stamp hstamp⟩
  · by_contra hne
    rcases Nat.lt_or_gt_of_ne hne with hlt | hlt
    · exact hm.ne_of_lt hn hlt hbound rfl
    · exact hn.ne_of_lt hm hlt hbound rfl
  · exact hp.dangling hmn hclear hnk hk (hbound _)

/-- In the run `slotReuse` the second node of slot 1 gets the handle of generation 1, and the handle
of the first one dangles from its release on. -/
theorem slotReuse_handles :
    (∀ i, releases .global slotReuse i slotReuse.length < 2 ^ 32) ∧
    creations .global slotReuse 1 6 = 1 ∧
    IssuedAt .global slotReuse 6 ⟨1, 1⟩ ∧ IssuedAt .global slotReuse 1 ⟨1, 0⟩ ∧
    ClearedAt .global slotReuse 1 5 ∧
    (stage .global slotReuse 7).Dangling ⟨1, 0⟩ ∧ (stage .global slotReuse 8).Dangling ⟨1, 0⟩ := by
  have hbound (i : Nat) : releases .global slotReuse i slotReuse.length < 2 ^ 32 :=
    Nat.lt_of_le_of_lt (releases_le _ _ i _) (by decide)
  obtain ⟨_, hissued, _, hdangling⟩ := handles_are_issued_once_and_dangle .global slotReuse hbound
  have hfirst : IssuedAt .global slotReuse 1 ⟨1, 0⟩ := ⟨.create 20, rfl, .alone rfl rfl⟩
  have hsecond : IssuedAt .global slotReuse 6 ⟨1, 1⟩ :=
    ⟨.append (some ⟨2, 0⟩) 50, rfl, .behind rfl rfl rfl rfl⟩
  have hclear : ClearedAt .global slotReuse 1 5 := ⟨rfl, rfl⟩
  refine ⟨hbound, (hissued 6 _ hsecond).2.1.symm, hsecond, hfirst, hclear, ?_, ?_⟩
  · exact hdangling 1 5 7 _ hfirst (by decide) hclear (by decide) (by decide)
  · exact hdangling 1 5 8 _ hfirst (by decide) hclear (by decide) (by decide)

end Arena

end CheckedLists
