import CheckedLists.Proofs.Admission
import CheckedLists.Proofs.Construction
import CheckedLists.Proofs.Leak
import CheckedLists.Proofs.Termination

/-!
# Building a list in a scenario

A scenario over the global allocator that builds a list, node by node, goes on while the
bound on live nodes leaves room and faults for want of memory at the first node for which
there is none. This holds of single steps and of the loop that appends a node for each yes.
In either case what has been built up to then is known, and so is how many answers were
drawn. A list that is built can be destroyed, and then no node of the scenario is left.
-/

namespace CheckedLists

variable {σ α β γ : Type}

/-- How many nodes can be created until the bound on live nodes is reached. -/
def Store.room (s : Store α) : Nat := s.limit - s.live

/-- At the bound no node is created, and nothing is changed. -/
theorem ArenaM.create_of_full {a : Arena α} (hfull : a.store.limit ≤ a.store.live) (v : α) :
    create v a = .error (.error .outOfMemory) a := by
  simp [create, bind_apply, abortIf_apply, hfull]

namespace Stage

variable {s t : Stage σ α} {new : List Handle} {created released taken : Nat}

/-- The same stage with another arena. -/
def withArena (s : Stage σ α) (a : Arena α) : Stage σ α :=
  { s with harness := { s.harness with arena := a } }

/-- From `s` to `t` so many answers were drawn. -/
structure Advances (s : Stage σ α) (taken : Nat) (t : Stage σ α) : Prop where
  /-- The answers are counted. -/
  taken_eq : t.harness.taken = s.harness.taken + taken
  /-- The source is left as so many answers leave it. -/
  choices_eq : t.harness.choices = s.harness.choices.behind taken

/-- From `s` to `t` a list of the new nodes `ks` with the values `vs` has been built over the global
allocator, and so many answers have been drawn. -/
structure Builds (s : Stage σ α) (ks : List Handle) (vs : List α) (taken : Nat)
    (t : Stage σ α) : Prop extends s.Advances taken t where
  /-- The list is built beside the nodes that were there before. -/
  store : s.store.Builds ks vs t.store
  /-- Nodes come from the global allocator. -/
  allocator_eq : t.harness.arena.allocator = .global

/-- From `s` to `t` so many nodes have been created and so many released, and so many answers have
been drawn. The nodes `new` are left, and the nodes that were live before are as they were. -/
structure Leaves (s : Stage σ α) (new : List Handle) (created released taken : Nat)
    (t : Stage σ α) : Prop extends s.Advances taken t where
  /-- The new nodes are told apart. -/
  nodup : new.Nodup
  /-- They are live beside the others. -/
  store : s.store.Extends new created released t.store
  /-- The others keep their values, their successors, and whether they are heads. -/
  keeps : s.store.Keeps t.store

theorem Advances.refl (s : Stage σ α) : s.Advances 0 s :=
  ⟨rfl, (Choices.behind_zero _).symm⟩

theorem Advances.drawn (ha : s.Advances taken t) : s.Advances (taken + 1) t.drawn where
  taken_eq := congrArg (· + 1) ha.taken_eq
  choices_eq := by rw [Stage.drawn, ha.choices_eq, Choices.behind_behind]

/-- The next answer of the source is the one that stands there in the stream. -/
theorem Advances.stream_eq (ha : s.Advances taken t) (i : Nat) :
    t.harness.choices.stream i = s.harness.choices.stream (i + taken) := by
  rw [ha.choices_eq, Choices.stream_behind, Nat.add_comm]

theorem Leaves.noting (hl : s.Leaves new created released taken t) (records : List Record) :
    s.Leaves new created released taken (t.noting records) :=
  ⟨⟨hl.taken_eq, hl.choices_eq⟩, hl.nodup, hl.store, hl.keeps⟩

end Stage

namespace ScenarioM

variable {s t : Stage σ α} {x : ScenarioM σ α β} {f : β → ScenarioM σ α γ} {c : ArenaM α β}
  {b : β} {e : Abort Stop}

theorem bind_of_ok (hx : x s = .ok b t) : (x >>= f) s = f b t := by
  rw [bind_apply, hx]

theorem bind_of_error (hx : x s = .error e t) : (x >>= f) s = .error e t := by
  rw [bind_apply, hx]

theorem map_of_ok (hx : x s = .ok b t) (g : β → γ) : (g <$> x) s = .ok (g b) t := by
  rw [← bind_pure_comp, bind_of_ok hx]
  rfl

theorem map_of_error (hx : x s = .error e t) (g : β → γ) : (g <$> x) s = .error e t := by
  rw [← bind_pure_comp, bind_of_error hx]

theorem lists_of_ok {a : Arena α} (hc : c s.harness.arena = .ok b a) :
    (lists c : ScenarioM σ α β) s = .ok b (s.withArena a) := by
  rw [lists, hc]
  rfl

theorem read_of_ok {g : Store α → Except Fault β} (hg : g s.store = .ok b) :
    (lists (ArenaM.read g) : ScenarioM σ α β) s = .ok b s :=
  lists_of_ok (ArenaM.read_of_ok hg)

/-- A fault of an operation that leaves the arena stops the scenario where it is. -/
theorem lists_of_fault {g : Fault} (hc : c s.harness.arena = .error (.error g) s.harness.arena) :
    (lists c : ScenarioM σ α β) s = .error (.error (.fault g)) s := by
  rw [lists, hc]
  rfl

end ScenarioM

open ScenarioM

namespace Stage.Builds

variable {s t : Stage σ α} {ks : List Handle} {vs : List α} {taken i : Nat} {a last p : Handle}

/-- At first the list is empty. -/
theorem nil (hs : s.store.Coherent) (hg : s.harness.arena.allocator = .global) :
    s.Builds [] [] 0 s :=
  ⟨.refl s, hs.builds_nil, hg⟩

/-- An operation that leaves the allocator may change the list. -/
theorem withArena (hb : s.Builds ks vs taken t) {b : Arena α} {ms : List Handle} {ws : List α}
    (hstore : s.store.Builds ms ws b.store) (hg : b.allocator = .global) :
    s.Builds ms ws taken (t.withArena b) :=
  ⟨⟨hb.taken_eq, hb.choices_eq⟩, hstore, hg⟩

theorem drawn (hb : s.Builds ks vs taken t) : s.Builds ks vs (taken + 1) t.drawn :=
  ⟨hb.toAdvances.drawn, hb.store, hb.allocator_eq⟩

/-- What is built can be left. -/
theorem leaves (hb : s.Builds ks vs taken t) (hs : s.store.Coherent) :
    s.Leaves ks ks.length 0 taken t :=
  ⟨hb.toAdvances, hb.store.chain.nodup, hb.store.toExtends,
    hb.store.toExtends.keeps hs hb.store.coherent⟩

/-- While there is room beside the list, a node is created. -/
theorem create_of_room (hb : s.Builds ks vs taken t) (hroom : ks.length < s.store.room) (v : α) :
    ∃ p b, ArenaM.create v t.harness.arena = .ok p b ∧ t.store.Created v p b.store ∧
      b.allocator = .global := by
  have hslots := hb.store.coherent.slotted
  have hlive : t.store.live < t.store.limit := by
    rw [hb.store.live_eq, hb.store.limit_eq]
    unfold Store.room at hroom
    omega
  obtain ⟨p, b, hok⟩ := (ArenaM.create_ok_iff hslots hb.allocator_eq v).mpr hlive
  obtain ⟨_, hc, hb'⟩ := ArenaM.created_of_create hslots hok
  refine ⟨p, b, hok, hc, ?_⟩
  rw [hb']
  exact hb.allocator_eq

/-- Where there is no room beside the list, no node is created. -/
theorem create_of_full (hb : s.Builds ks vs taken t) (hfull : s.store.room ≤ ks.length) (v : α) :
    ArenaM.create v t.harness.arena = .error (.error .outOfMemory) t.harness.arena := by
  refine ArenaM.create_of_full ?_ v
  change t.store.limit ≤ t.store.live
  rw [hb.store.live_eq, hb.store.limit_eq]
  unfold Store.room at hfull
  omega

/-- Where there is room at all, a list can be begun. -/
theorem begin_of_room (hs : s.store.Coherent) (hg : s.harness.arena.allocator = .global)
    (hroom : 0 < s.store.room) (v : α) :
    ∃ p u, lists (ArenaM.create v) s = .ok p u ∧ s.Builds [p] [v] 0 u := by
  have hb := nil hs hg
  obtain ⟨p, b, hok, hc, hg'⟩ := hb.create_of_room hroom v
  exact ⟨p, _, lists_of_ok hok, hb.withArena (hs.builds_created hc) hg'⟩

/-- While there is room, a node can be appended to the list. -/
theorem append_of_room (hb : s.Builds (a :: ks) vs taken t)
    (hroom : (a :: ks).length < s.store.room) (v : α) :
    ∃ p u, lists (ArenaM.append (some a) v) t = .ok a u ∧
      s.Builds (a :: ks ++ [p]) (vs ++ [v]) taken u := by
  obtain ⟨p, b, hok, hc, hg⟩ := hb.create_of_room hroom v
  have hlast := List.getLast?_eq_some_getLast (List.cons_ne_nil a ks)
  obtain ⟨happend, _⟩ :=
    ArenaM.append_and_link_of_create hb.store.coherent hb.store.chain hlast hok
  exact ⟨p, _, lists_of_ok happend, hb.withArena (hb.store.append hlast hc) hg⟩

/-- While there is room, a node can be created and linked to the end of the list. -/
theorem link_of_room (hb : s.Builds (a :: ks) vs taken t)
    (hroom : (a :: ks).length < s.store.room)
    (hlast : (a :: ks).getLast? = some last) (v : α) :
    ∃ p b u, lists (ArenaM.create v) t = .ok p b ∧ lists (ArenaM.link last p) b = .ok () u ∧
      s.Builds (a :: ks ++ [p]) (vs ++ [v]) taken u := by
  obtain ⟨p, b, hok, hc, hg⟩ := hb.create_of_room hroom v
  obtain ⟨_, hlink⟩ :=
    ArenaM.append_and_link_of_create hb.store.coherent hb.store.chain hlast hok
  exact ⟨p, t.withArena b, _, lists_of_ok hok, lists_of_ok hlink,
    hb.withArena (hb.store.append hlast hc) hg⟩

/-- Where there is no room, nothing can be appended to the list. -/
theorem append_of_full (hb : s.Builds (a :: ks) vs taken t)
    (hfull : s.store.room ≤ (a :: ks).length) (v : α) :
    lists (ArenaM.append (some a) v) t = .error (.error (.fault .outOfMemory)) t := by
  have hlive := hb.store.chain.isLive List.mem_cons_self
  refine lists_of_fault ((ArenaM.append_eq_error_iff hb.store.coherent hlive).mpr ?_)
  exact hb.create_of_full hfull v

/-- A value can be written into a node of the list. -/
theorem set (hb : s.Builds ks vs taken t) (hi : ks[i]? = some p) (w : α) :
    ∃ u, lists (ArenaM.set p w) t = .ok () u ∧ s.Builds ks (vs.set i w) taken u := by
  have hlive := hb.store.chain.isLive (List.mem_of_getElem? hi)
  obtain ⟨n, hn⟩ := Store.isLive_iff.mp hlive
  exact ⟨_, lists_of_ok (ArenaM.set_of_lookup hn w),
    hb.withArena (hb.store.revise hi w) hb.allocator_eq⟩

/-- The list can be destroyed, and then no new node is left. -/
theorem destroy (hb : s.Builds (a :: ks) vs taken t) (hs : s.store.Coherent) :
    ∃ u, lists (ArenaM.destroy (some a)) t = .ok (a :: ks).length u ∧
      s.Leaves [] (a :: ks).length (a :: ks).length taken u ∧ u.store.Coherent := by
  have hhead := hb.store.isHead a rfl
  have hextends := hb.store.toExtends.vacateAll hb.store.chain.nodup
  rw [Nat.zero_add] at hextends
  have hcoherent := hb.store.coherent.vacateAll
    (hb.store.coherent.linked.not_owned_of_isHead hhead) hb.store.chain
  exact ⟨_, lists_of_ok (ArenaM.destroy_of_isHead hb.store.coherent hhead hb.store.chain),
    ⟨⟨hb.taken_eq, hb.choices_eq⟩, List.nodup_nil, hextends, hextends.keeps hs hcoherent⟩,
    hcoherent⟩

end Stage.Builds

namespace ScenarioM

variable {s t u : Stage σ α} {turn : β → ScenarioM σ α β} {f : Handle → β} {ks new : List Handle}
  {vs : List α} {created released taken m : Nat} {a : Handle} {d : α} {x : ScenarioM σ α Unit}
  {outcome : Outcome}

/-- A loop whose turn is an append goes round at a yes, if the append is carried out. -/
theorem whileDrawn_of_append (hcomposed : ∀ b, (turn b).Composed)
    (hturn : turn (f a) = f <$> lists (ArenaM.append (some a) d))
    (hyes : t.harness.choices.stream 0 = true)
    (happend : lists (ArenaM.append (some a) d) t.drawn = .ok a u) :
    whileDrawn turn (f a) t = whileDrawn turn (f a) u := by
  rw [whileDrawn_of_yes hcomposed hyes, hturn, bind_of_ok (map_of_ok happend f)]

/-- At so many yeses for whose nodes there is room, the loop appends these nodes and goes on. -/
theorem whileDrawn_of_yeses (hcomposed : ∀ b, (turn b).Composed)
    (hturn : turn (f a) = f <$> lists (ArenaM.append (some a) d))
    (hb : s.Builds (a :: ks) vs taken t)
    (hyes : ∀ i < m, s.harness.choices.stream (i + taken) = true)
    (hroom : (a :: ks).length + m ≤ s.store.room) :
    ∃ ms u, ms.length = m ∧ whileDrawn turn (f a) t = whileDrawn turn (f a) u ∧
      s.Builds (a :: (ks ++ ms)) (vs ++ List.replicate m d) (taken + m) u := by
  -- Each turn leaves the same situation with one node more and one answer fewer.
  induction m generalizing ks vs taken t with
  | zero =>
    refine ⟨[], t, rfl, rfl, ?_⟩
    rw [List.append_nil, List.replicate_zero, List.append_nil]
    exact hb
  | succ m ih =>
    have hfirst := (hb.stream_eq 0).trans (hyes 0 (Nat.succ_pos m))
    obtain ⟨p, u, happend, hu⟩ := hb.drawn.append_of_room (by omega) d
    rw [List.cons_append] at hu
    obtain ⟨ms, w, hms, hloop, hw⟩ := ih hu
      (fun i hi => Nat.add_right_comm i 1 taken ▸ hyes (i + 1) (by omega))
      (by rw [← List.cons_append, List.length_append, List.length_singleton]; omega)
    rw [← List.append_cons, Nat.add_right_comm taken 1 m, List.append_assoc] at hw
    refine ⟨p :: ms, w, congrArg (· + 1) hms, ?_, hw⟩
    rw [whileDrawn_of_append hcomposed hturn hfirst happend, hloop]

/-- Where there is room for a node for each yes up to the next no, the loop appends these nodes and
ends there. -/
theorem whileDrawn_of_room (hcomposed : ∀ b, (turn b).Composed)
    (hturn : turn (f a) = f <$> lists (ArenaM.append (some a) d))
    (hb : s.Builds (a :: ks) vs taken t)
    (hyes : ∀ i < m, s.harness.choices.stream (i + taken) = true)
    (hno : s.harness.choices.stream (m + taken) = false)
    (hroom : (a :: ks).length + m ≤ s.store.room) :
    ∃ ms u, ms.length = m ∧ whileDrawn turn (f a) t = .ok (f a) u ∧
      s.Builds (a :: (ks ++ ms)) (vs ++ List.replicate m d) (taken + m + 1) u := by
  obtain ⟨ms, u, hms, hloop, hu⟩ := whileDrawn_of_yeses hcomposed hturn hb hyes hroom
  have hend : u.harness.choices.stream 0 = false := by
    rw [hu.stream_eq, Nat.zero_add, Nat.add_comm]
    exact hno
  exact ⟨ms, u.drawn, hms, hloop.trans (whileDrawn_of_no hend), hu.drawn⟩

/-- Where there is no room for a node for each yes, the loop appends nodes as long as there is, and
then stops with a fault. -/
theorem whileDrawn_of_full (hcomposed : ∀ b, (turn b).Composed)
    (hturn : turn (f a) = f <$> lists (ArenaM.append (some a) d))
    (hb : s.Builds (a :: ks) vs taken t)
    (hyes : ∀ i < m, s.harness.choices.stream (i + taken) = true)
    (hle : (a :: ks).length ≤ s.store.room) (hfull : s.store.room < (a :: ks).length + m) :
    ∃ ms ws u, (a :: (ks ++ ms)).length = s.store.room ∧
      whileDrawn turn (f a) t = .error (.error (.fault .outOfMemory)) u ∧
      s.Builds (a :: (ks ++ ms)) ws (taken + ms.length + 1) u := by
  -- There is room for `n` further nodes, and the yes behind these asks for one too many.
  obtain ⟨n, hn⟩ := Nat.exists_eq_add_of_le hle
  obtain ⟨ms, u, hms, hloop, hu⟩ := whileDrawn_of_yeses hcomposed hturn hb
    (fun i hi => hyes i (by omega)) (Nat.le_of_eq hn.symm)
  have hlength : (a :: (ks ++ ms)).length = s.store.room := by
    rw [hn, ← List.cons_append, List.length_append, hms]
  have hnext : u.harness.choices.stream 0 = true := by
    rw [hu.stream_eq, Nat.zero_add, Nat.add_comm]
    exact hyes n (by omega)
  have happend := hu.drawn.append_of_full (Nat.le_of_eq hlength.symm) d
  refine ⟨ms, _, u.drawn, hlength, ?_, hms.symm ▸ hu.drawn⟩
  rw [hloop, whileDrawn_of_yes hcomposed hnext, hturn, bind_of_error (map_of_error happend f)]

/-- A question that does not count is asked about each value by itself. -/
theorem askEach_numbered (q : α → Bool) (vs : List α) (n : Nat) :
    (Store.askEach (numbered fun _ v => q v) vs n).1 = vs.all q := by
  induction vs generalizing n with
  | nil => rfl
  | cons v vs ih =>
    rw [Store.askEach, numbered, List.all_cons]
    cases q v with
    | true => exact ih (n + 1)
    | false => rfl

/-- A question about all values of the list is answered from the values that it was built with. -/
theorem all_of_builds (hb : s.Builds (a :: ks) vs taken t) (q : α → Bool) :
    all (some a) (fun _ v => q v) t = .ok (vs.all q) t := by
  have hchain : t.store.Chain (some a) (a :: ks) := hb.store.chain
  have hasked : t.harness.arena.store.all (some a) (numbered fun _ v => q v) 0 = _ :=
    hb.store.coherent.all_eq hchain (numbered fun _ v => q v) 0
  rw [hb.store.values_eq] at hasked
  have hget : (get : ScenarioM σ α (Stage σ α)) t = .ok t t := rfl
  rw [all, bind_of_ok hget, hasked, askEach_numbered]
  rfl

theorem assumeAll_of_builds (hb : s.Builds (a :: ks) vs taken t) (q : α → Bool) :
    assumeAll (some a) (fun _ v => q v) t = assume (vs.all q) t := by
  rw [assumeAll, bind_of_ok (all_of_builds hb q)]

theorem checkAll_of_builds (hb : s.Builds (a :: ks) vs taken t) (label : String) (q : α → Bool) :
    checkAll (some a) label (fun _ v => q v) t = check (vs.all q) label t := by
  rw [checkAll, bind_of_ok (all_of_builds hb q)]

/-- What a scenario leaves its run leaves too. -/
theorem Concludes.leaves (hx : x.Concludes s outcome t)
    (hl : s.Leaves new created released taken t) :
    ∃ u, runScenario x s = .ok outcome u ∧ u.store = t.store ∧
      s.Leaves new created released taken u := by
  obtain ⟨records, hrun⟩ := hx
  exact ⟨_, hrun, rfl, hl.noting records⟩

/-- A run whose scenario reaches its end and leaves no new node is completed. -/
theorem completed_of_leaves (hx : x s = .ok () t) (hl : s.Leaves [] created released taken t)
    (hs : s.store.Counted) (ht : t.store.Coherent) :
    ∃ u, runScenario x s = .ok .completed u ∧ u.store = t.store ∧
      s.Leaves [] created released taken u := by
  have hleak := hl.store.liveSince_eq_zero hs ht.slotted
  have hrun : Concludes x s (Outcome.classify _ (.ok ())).1 t := Ends.concludes hx
  rw [hleak] at hrun
  exact hrun.leaves hl

/-- A run whose scenario ends with the destruction of what it has built is completed. -/
theorem completed_of_destroy (hs : s.store.Reachable) (hb : s.Builds (a :: ks) vs taken t)
    (hx : x s = (discard (lists (ArenaM.destroy (some a))) : ScenarioM σ α Unit) t) :
    ∃ u, runScenario x s = .ok .completed u ∧
      s.Leaves [] (a :: ks).length (a :: ks).length taken u := by
  obtain ⟨u, hdestroy, hleaves, hu⟩ := hb.destroy hs.coherent
  have hend := hx.trans (map_of_ok hdestroy fun _ => ())
  obtain ⟨v, hrun, _, hleft⟩ := completed_of_leaves hend hleaves hs.counted hu
  exact ⟨v, hrun, hleft⟩

/-- A run whose scenario stops leaves what has been built. -/
theorem stopped_of_builds {stop : Stop} (hs : s.store.Reachable) (hb : s.Builds ks vs taken t)
    (hx : x s = .error (.error stop) t) :
    ∃ u, runScenario x s =
        .ok (Outcome.classify (t.store.liveSince s.store.stats.created) (.error stop)).1 u ∧
      u.store = t.store ∧ s.Leaves ks ks.length 0 taken u := by
  have hend : Ends x s t (.error stop) := hx
  exact hend.concludes.leaves (hb.leaves hs.coherent)

/-- A run whose scenario faults leaves what has been built. -/
theorem faulted_of_builds {f : Fault} {r : Nat} (hs : s.store.Reachable)
    (hx : ∃ ks vs t, ks.length = r ∧ x s = .error (.error (.fault f)) t ∧
      s.Builds ks vs taken t) :
    ∃ u ks, runScenario x s = .ok (.fault f) u ∧ ks.length = r ∧ s.Leaves ks r 0 taken u := by
  obtain ⟨ks, vs, t, hlength, hx, hb⟩ := hx
  obtain ⟨u, hrun, _, hleaves⟩ := stopped_of_builds hs hb hx
  rw [hlength] at hleaves
  exact ⟨u, ks, hrun, hlength, hleaves⟩

end ScenarioM

end CheckedLists
