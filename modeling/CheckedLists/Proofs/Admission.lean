import CheckedLists.Proofs.Append
import CheckedLists.Proofs.Capacity
import CheckedLists.Proofs.Destruction

/-!
# Admission of nodes

Over the global allocator a node is created exactly while fewer nodes are live than the
bound allows. That slots can run out of numbers never matters: a slot is made only where
all slots hold live nodes, and the bound is at most the number of slots that handles can
name. The number of live nodes may lie above a bound that was lowered, but as long as the
bound is left alone it rises to the bound at most.

Nothing else looks at the bound. An operation that creates no node does on a store what
its store determines, and the same under every bound, whatever has been written into the
journal before.
-/

namespace CheckedLists

variable {α β γ : Type}

/-- Where the bound is not reached and no slot is free, a further slot can be numbered. -/
theorem Store.Slotted.size_lt_maxNodes {s : Store α} (hs : s.Slotted) (hroom : s.live < s.limit)
    (hfree : s.free = none) : s.slots.size < maxNodes := by
  have hfull := hs.free_eq_none_iff.mp hfree
  have hle := hs.limit_le
  omega

/-- Over the global allocator nodes are created exactly below the bound. -/
theorem ArenaM.create_ok_iff {a : Arena α} (hs : a.store.Slotted) (hg : a.allocator = .global)
    (v : α) : (∃ p b, create v a = .ok p b) ↔ a.store.live < a.store.limit := by
  rw [← Nat.not_le, ← Arena.exhausted_iff hs hg]
  constructor
  · rintro ⟨p, b, hok⟩
    exact (created_of_create hs hok).1
  · intro hx
    obtain ⟨p, t, _, hcreate⟩ := create_of_not_exhausted hs hx v
    exact ⟨p, _, hcreate⟩

/-! Between two settings of the bound it stays, and the live nodes grow to it at most. -/

namespace Op

variable {a : Arena α} {t : Store α} {op : Op (Option Handle) Handle α} {head : Option Handle}

/-- Whether an operation sets the bound. -/
def setsBound {μ η : Type} : Op μ η α → Bool
  | setLimit _ => true
  | _ => false

/-- Only an operation that sets the bound changes it. -/
theorem Makes.limit_eq (hm : op.Makes a t) (hop : op.setsBound = false) :
    t.limit = a.store.limit := by
  cases hm with
  | idle => rfl
  | write => exact (Store.counters_alter _ _ _).2.2.1
  | bound limit => cases hop
  | create _ _ hc => exact hc.counters.2.2
  | append _ _ _ hc => exact (Store.counters_join _ _ _).2.2.1.trans hc.counters.2.2
  | link => exact (Store.counters_join _ _ _).2.2.1
  | destroy => exact (Store.counters_vacateAll _ _).2.2.1

/-- An operation that creates no node does not raise the number of live nodes. -/
theorem Makes.live_le (hm : op.Makes a t) (ht : op.target? = none) : t.live ≤ a.store.live := by
  cases hm with
  | idle => exact Nat.le_refl _
  | write => exact (Store.counters_alter _ _ _).1.le
  | bound limit => exact Nat.le_refl _
  | create ht' => cases ht.symm.trans ht'
  | append ht' => cases ht.symm.trans ht'
  | link => exact (Store.counters_join _ _ _).1.le
  | destroy =>
    rw [(Store.counters_vacateAll _ _).1]
    exact Nat.sub_le _ _

/-- An operation raises the number of live nodes to the bound at most. -/
theorem live_perform_le (hs : a.store.Coherent) (op : Op (Option Handle) Handle α) :
    (op.perform.after a).store.live ≤ max a.store.limit a.store.live := by
  cases ht : op.target? with
  | none => exact ((op.makes_perform hs).live_le ht).trans (Nat.le_max_right _ _)
  | some head =>
    obtain ⟨v, _, hafter, _⟩ := perform_of_target ht a
    rw [hafter, ArenaM.after]
    obtain ⟨f, allocator, _, hrefused⟩ | ⟨hx, h, t, u, r, records, hc, hu, hok⟩ :=
      ArenaM.append_refused_or_grown hs head v
    · rw [hrefused]
      exact Nat.le_max_right _ _
    · rw [hok]
      have hroom : a.store.live < a.store.limit := Nat.lt_of_not_le fun hle => hx (.inl hle)
      have hlive : u.live = t.live := by
        obtain rfl | ⟨last, _, rfl⟩ := hu
        · rfl
        · exact (t.counters_join last h).1
      rw [Arena.updated_store, hlive, hc.counters.1]
      omega

end Op

/-- Whether an event sets the bound. -/
def Event.setsBound : Event α → Bool
  | .call op => op.setsBound
  | .supply _ => false

namespace Arena

variable {a : Arena α} {events : List (Event α)}

/-- As long as no event sets the bound it is as it was, and the number of live nodes rises to it at
most. -/
theorem run_within (hs : a.store.Coherent) (hevents : ∀ e ∈ events, e.setsBound = false) :
    (a.run events).store.limit = a.store.limit ∧
      (a.run events).store.live ≤ max a.store.limit a.store.live := by
  induction events generalizing a with
  | nil => exact ⟨rfl, Nat.le_max_right _ _⟩
  | cons e events ih =>
    obtain ⟨he, hrest⟩ := List.forall_mem_cons.mp hevents
    obtain ⟨hlimit, hlive⟩ := ih (coherent_step e hs) hrest
    have hstep : (a.step e).store.limit = a.store.limit ∧
        (a.step e).store.live ≤ max a.store.limit a.store.live := by
      cases e with
      | supply allocator => exact ⟨rfl, Nat.le_max_right _ _⟩
      | call op => exact ⟨(op.makes_perform hs).limit_eq he, op.live_perform_le hs⟩
    change ((a.step e).run events).store.limit = _ ∧ ((a.step e).run events).store.live ≤ _
    omega

/-- An arena with its own store and no further records is unchanged. -/
theorem updated_self (a : Arena α) : a.updated a.store [] = a := by
  simp [updated]

end Arena

/-! What an operation does that creates no node is determined by the store. -/

namespace ArenaM

variable {s t : Store α} {c : ArenaM α β} {b : β} {e : Abort Fault} {records : List Record}

/-- On every arena with the store `s` a computation has the result `r`, leaves the store `t` and
writes these records. -/
def Yields (c : ArenaM α β) (s : Store α) (r : Except (Abort Fault) β) (t : Store α)
    (records : List Record) : Prop :=
  ∀ a : Arena α, a.store = s → c a = match r with
    | .ok b => .ok b (a.updated t records)
    | .error e => .error e (a.updated t records)

/-- What a computation does on an arena with the store `s` is determined by the store. -/
def Determined (c : ArenaM α β) (s : Store α) : Prop := ∃ r t records, c.Yields s r t records

theorem Yields.answer_eq {r : Except (Abort Fault) β} (hy : c.Yields s r t records) {a : Arena α}
    (ha : a.store = s) : c.answer a = r := by
  rw [answer, hy a ha]
  cases r <;> rfl

theorem Yields.after_eq {r : Except (Abort Fault) β} (hy : c.Yields s r t records) {a : Arena α}
    (ha : a.store = s) : c.after a = a.updated t records := by
  rw [after, hy a ha]
  cases r <;> rfl

/-- A computation that only reads the store is determined. -/
theorem determined_of_reading {g : Store α → Except (Abort Fault) β}
    (hc : ∀ a : Arena α, c a = match g a.store with
      | .ok b => .ok b a
      | .error e => .error e a)
    (s : Store α) : c.Determined s := by
  refine ⟨g s, s, [], ?_⟩
  rintro a rfl
  rw [Arena.updated_self]
  exact hc a

/-- A computation that is refused and changes nothing is determined. -/
theorem determined_of_error (e : Abort Fault)
    (hc : ∀ a : Arena α, a.store = s → c a = .error e a) : c.Determined s := by
  refine ⟨.error e, s, [], ?_⟩
  rintro a rfl
  rw [Arena.updated_self]
  exact hc a rfl

theorem Determined.map (hc : c.Determined s) (g : β → γ) : (g <$> c).Determined s := by
  obtain ⟨r, t, records, hy⟩ := hc
  refine ⟨r.map g, t, records, fun a ha => ?_⟩
  rw [map_apply, hy a ha]
  cases r <;> rfl

theorem determined_look (g : Store α → β) (s : Store α) :
    (do return g (← store) : ArenaM α β).Determined s :=
  determined_of_reading (g := fun s => .ok (g s)) (fun _ => rfl) s

theorem determined_read (f : Store α → Except Fault β) (s : Store α) :
    (read f).Determined s := by
  refine determined_of_reading (g := fun s => Store.checked (f s)) (fun a => ?_) s
  rw [read_apply]
  cases f a.store <;> rfl

theorem determined_walk (f : Store α → Except (Abort Fault) β) (s : Store α) :
    (walk f).Determined s :=
  determined_of_reading (walk_apply f) s

theorem determined_set (h : Handle) (v : α) (s : Store α) : (set h v).Determined s := by
  cases hn : s.lookup h with
  | ok n =>
    refine ⟨.ok (), s.alter h fun n => { n with value := v }, [], ?_⟩
    rintro a rfl
    exact set_of_lookup hn v
  | error f =>
    refine determined_of_error (.error f) ?_
    rintro a rfl
    exact set_of_error hn v

theorem determined_amend (h : Handle) (g : α → α) (s : Store α) :
    (amend h g).Determined s := by
  cases hn : s.lookup h with
  | ok n =>
    refine ⟨.ok (g n.value), s.alter h fun n => { n with value := g n.value }, [], ?_⟩
    rintro a rfl
    exact amend_of_lookup hn g
  | error f =>
    refine determined_of_error (.error f) ?_
    rintro a rfl
    exact amend_of_error hn g

theorem determined_link (hs : s.Coherent) (x y : Handle) : (link x y).Determined s := by
  rcases s.linkable_or_obstacle x y with hl | ⟨f, i, ho, hfirst⟩
  · refine ⟨.ok (), s.join x y, [.linked x y], ?_⟩
    rintro a rfl
    exact link_of_linkable hs hl
  · refine determined_of_error (.error f) ?_
    rintro a rfl
    exact link_of_obstacle hs ho hfirst

theorem determined_destroy (hs : s.Coherent) (head : Option Handle) :
    (destroy head).Determined s := by
  cases head with
  | none => exact determined_of_reading (g := fun _ => .ok 0) (fun _ => rfl) s
  | some h =>
    rcases s.isHead_or_undestroyable h with hh | ⟨f, hf⟩
    · obtain ⟨ks, hks⟩ := hs.linked.exists_chain hh.1
      refine ⟨.ok ks.length, s.vacateAll ks, ks.map .released ++ [.destroyed ks.length h], ?_⟩
      rintro a rfl
      exact destroy_of_isHead hs hh hks
    · refine determined_of_error (.error f) ?_
      rintro a rfl
      exact destroy_of_undestroyable hs hf

end ArenaM

namespace Op

variable {a b : Arena α} {s : Store α} {op : Op (Option Handle) Handle α}

theorem determined_all (head : Option Handle) (p : Nat → α → Bool) (s : Store α) :
    (all head p).perform.Determined s := by
  cases hall : s.all head (numbered p) 0 with
  | ok holds asked =>
    refine ⟨.ok (.verdict holds asked), s, [], ?_⟩
    rintro a rfl
    rw [perform_all, hall, Arena.updated_self]
  | error e asked =>
    refine ArenaM.determined_of_error e ?_
    rintro a rfl
    rw [perform_all, hall]

/-- What an operation does that creates no node is determined by the store. -/
theorem determined_perform (hs : s.Coherent) (ht : op.target? = none) :
    op.perform.Determined s := by
  cases op with
  | create v | createOrPanic v | append head v | appendOrPanic head v => cases ht
  | destroy head => exact (ArenaM.determined_destroy hs head).map _
  | link x y => exact (ArenaM.determined_link hs x y).map _
  | set h v => exact (ArenaM.determined_set h v s).map _
  | amend h f => exact (ArenaM.determined_amend h f s).map _
  | next h | get h => exact (ArenaM.determined_read _ s).map _
  | iterate head steps | length head | values head => exact (ArenaM.determined_walk _ s).map _
  | all head p => exact determined_all head p s
  | setLimit limit =>
    refine ⟨.ok (.count (s.setLimit limit).limit), s.setLimit limit, [], ?_⟩
    rintro a rfl
    rfl
  | isLive h | live | stats | liveSince n | limit | describe tall =>
    exact ArenaM.determined_look _ s

/-- An operation answers alike on two arenas, leaves stores that differ in the bound only, and
writes the same records. -/
structure AlikeButBound (op : Op (Option Handle) Handle α) (a b : Arena α) : Prop where
  /-- The answers are the same. -/
  answer_eq : op.perform.answer b = op.perform.answer a
  /-- The stores that are left differ in the bound only. -/
  store_eq : (op.perform.after b).store = (op.perform.after a).store.bounded b.store.limit
  /-- The records that are written are the same. -/
  journal_eq : ∃ records : Array Record, (op.perform.after a).journal = a.journal ++ records ∧
    (op.perform.after b).journal = b.journal ++ records

/-- Operations that create no node and do not tell the bound do the same on stores that differ in
the bound only. -/
theorem alikeButBound (hb : b.store.Coherent) (hstore : b.store = a.store.bounded b.store.limit)
    (ht : op.target? = none) (hop : op.tellsBound = false) : op.AlikeButBound a b := by
  -- An arena between the two has the store of `b` and the journal of `a`.
  have hblind := blind_perform ht hop b.store.limit b.allocator a
  obtain ⟨r, t, records, hy⟩ := determined_perform hb ht
  have hbetween : (a.rebound b.store.limit b.allocator).store = b.store := hstore.symm
  have hafter : (op.perform.after a).rebound b.store.limit b.allocator =
      (a.rebound b.store.limit b.allocator).updated t records :=
    hblind.after_eq.symm.trans (hy.after_eq hbetween)
  refine ⟨?_, ?_, records.toArray, congrArg Arena.journal hafter, ?_⟩
  · rw [hy.answer_eq rfl, ← hblind.answer_eq, hy.answer_eq hbetween]
  · rw [hy.after_eq rfl]
    exact (congrArg Arena.store hafter).symm
  · rw [hy.after_eq rfl]
    rfl

end Op

variable {a : Arena α}

/-- In a reachable arena over the global allocator a node is created exactly if fewer nodes are live
than the bound allows. Whatever the allocator is, a further slot can be numbered wherever one would
be made below the bound. A bound that is asked for is in force until the next one is, but at most
the greatest number of slots, which is in force from the beginning; the number of live nodes rises
above it at no time, unless it was above when the bound was set and has not fallen since. A node that
is created starts a list of its own and leaves all others. An operation that creates no node and does
not tell the bound does the same on every reachable arena whose store differs in the bound only. -/
theorem creations_are_admitted_below_the_bound (ha : a.Reachable) :
    (a.allocator = .global → ∀ v : α,
      (∃ p b, ArenaM.create v a = .ok p b) ↔ a.store.live < a.store.limit) ∧
    (a.store.live < a.store.limit → a.store.free = none → a.store.slots.size < maxNodes) ∧
    (∀ (l : Option Nat) (events : List (Event α)), (∀ e ∈ events, e.setsBound = false) →
      ((a.step (.call (.setLimit l))).run events).store.limit =
          (match l with
            | none => 2 ^ 32 - 1
            | some n => min n (2 ^ 32 - 1)) ∧
        ((a.step (.call (.setLimit l))).run events).store.live ≤
          max ((a.step (.call (.setLimit l))).run events).store.limit a.store.live) ∧
    (∀ (allocator : Allocator) (events : List (Event α)), (∀ e ∈ events, e.setsBound = false) →
      ((Arena.empty allocator).run events).store.limit = 2 ^ 32 - 1 ∧
        ((Arena.empty allocator).run events).store.live ≤ 2 ^ 32 - 1) ∧
    (∀ v p b, ArenaM.create v a = .ok p b →
      a.store.Starts v p b.store ∧ b = a.updated b.store [.created p]) ∧
    ∀ b : Arena α, b.Reachable → b.store = a.store.bounded b.store.limit →
      ∀ op : Op (Option Handle) Handle α, op.target? = none → op.tellsBound = false →
        op.AlikeButBound a b := by
  have hs := ha.coherent
  refine ⟨fun hg => ArenaM.create_ok_iff hs.slotted hg, hs.slotted.size_lt_maxNodes, ?_, ?_,
    fun v p b => ArenaM.starts_of_create hs,
    fun b hb hstore op => Op.alikeButBound hb.coherent hstore⟩
  · intro l events hevents
    obtain ⟨hlimit, hlive⟩ := Arena.run_within (ha.step (.call (.setLimit l))).coherent hevents
    rw [hlimit]
    exact ⟨by cases l <;> rfl, hlive⟩
  · intro allocator events hevents
    exact Arena.run_within (a := Arena.empty allocator) .empty hevents

/-- The arena `reusedSlot` has room for a further node, and `fullSlots` has none, although a slot is
free. Under a bound of one node the three that are live stay, and no other one comes to them. The
two arenas destroy their list alike. -/
theorem reusedSlot_admits :
    reusedSlot.Reachable ∧ fullSlots.Reachable ∧
    (∃ p b, ArenaM.create 60 reusedSlot = .ok p b) ∧
    (¬ ∃ p b, ArenaM.create 60 fullSlots = .ok p b) ∧
    ((reusedSlot.step (.call (.setLimit (some 1)))).run [.call (.create 60)]).store.live ≤ 3 ∧
    (Op.destroy (some ⟨2, 0⟩)).AlikeButBound reusedSlot fullSlots := by
  have ha : reusedSlot.Reachable := ⟨.global, _, rfl⟩
  have hfull : fullSlots.Reachable := ⟨.global, slotReuse ++ [.call (.setLimit (some 3))], rfl⟩
  obtain ⟨hadmits, _, hbound, _, _, halike⟩ := creations_are_admitted_below_the_bound ha
  obtain ⟨hadmits', _⟩ := creations_are_admitted_below_the_bound hfull
  refine ⟨ha, hfull, (hadmits rfl 60).mpr (by decide), fun hok => ?_, ?_, ?_⟩
  · exact absurd ((hadmits' rfl 60).mp hok) (by decide)
  · exact (hbound (some 1) [.call (.create 60)] (by simp [Event.setsBound, Op.setsBound])).2
  · exact halike fullSlots hfull rfl _ rfl rfl

end CheckedLists
