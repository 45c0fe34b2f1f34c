import CheckedLists.Proofs.Building

/-!
# Fixtures from end to end

On a harness over the global allocator the outcome of each fixture is known beforehand,
whatever lists and vacant slots the store has. It depends on the values, on the room up to
the bound on live nodes, and on the number of yeses before the next no. A fixture faults if
there is no room for all of its nodes, at the first node that is one too many. No check of
it fails, no other operation is refused, and no node is leaked. Nodes from before are never
touched.
-/

namespace CheckedLists

variable {σ α β : Type}

open ScenarioM

namespace Fixture

variable {s t : Stage σ α} {ks ms : List Handle} {us vs : List α} {taken : Nat} {d : α}

/-- Where there is room for two nodes, the pair is built. -/
theorem pair_of_room (hs : s.store.Coherent) (hg : s.harness.arena.allocator = .global)
    (hroom : 2 ≤ s.store.room) (first second : α) :
    ∃ a b t, pair first second s = .ok a t ∧ s.Builds [a, b] [first, second] 0 t := by
  obtain ⟨a, t, ha, hb⟩ := Stage.Builds.begin_of_room hs hg (by omega) first
  have hlast : [a].getLast? = some a := rfl
  obtain ⟨b, u, w, hcreate, hlink, hw⟩ := hb.link_of_room hroom hlast second
  refine ⟨a, b, w, ?_, hw⟩
  rw [pair, bind_of_ok ha, bind_of_ok hcreate, bind_of_ok hlink]
  rfl

/-- Where there is no room for two nodes, the pair is built as far as there is, and the scenario
stops with a fault. -/
theorem pair_of_full (hs : s.store.Coherent) (hg : s.harness.arena.allocator = .global)
    (hfull : s.store.room < 2) (first second : α) :
    ∃ ks vs t, ks.length = s.store.room ∧
      pair first second s = .error (.error (.fault .outOfMemory)) t ∧ s.Builds ks vs 0 t := by
  rcases Nat.eq_zero_or_pos s.store.room with hnone | hone
  · have hb := Stage.Builds.nil hs hg
    have hcreate := lists_of_fault (hb.create_of_full (by rw [hnone]; exact Nat.le_refl 0) first)
    exact ⟨[], [], s, hnone.symm, by rw [pair, bind_of_error hcreate], hb⟩
  · obtain ⟨a, t, ha, hb⟩ := Stage.Builds.begin_of_room hs hg hone first
    have hcreate := lists_of_fault (hb.create_of_full (Nat.le_of_lt_succ hfull) second)
    refine ⟨[a], [first], t, ?_, ?_, hb⟩
    · rw [List.length_singleton]
      omega
    · rw [pair, bind_of_ok ha, bind_of_error hcreate]

/-! A pair is built, and a node is appended for each yes up to the next no. -/

section Growth

variable (turn : Handle → β → ScenarioM σ α β) (f : Handle → β)

/-- Where there is room for all nodes, all of them are built. -/
theorem growth_of_room (hs : s.store.Coherent) (hg : s.harness.arena.allocator = .global)
    (hcomposed : ∀ a b, (turn a b).Composed)
    (hturn : ∀ a, turn a (f a) = f <$> lists (ArenaM.append (some a) d))
    (hroom : s.harness.choices.yeses + 2 ≤ s.store.room) (first second : α) :
    ∃ a ks t u, (a :: ks).length = s.harness.choices.yeses + 2 ∧
      pair first second s = .ok a t ∧ whileDrawn (turn a) (f a) t = .ok (f a) u ∧
      s.Builds (a :: ks) (first :: second :: List.replicate s.harness.choices.yeses d)
        (s.harness.choices.yeses + 1) u := by
  obtain ⟨hyes, hno⟩ := s.harness.choices.stream_yeses
  obtain ⟨a, b, t, hpair, hb⟩ := pair_of_room hs hg (by omega) first second
  obtain ⟨ms, u, hms, hloop, hu⟩ := whileDrawn_of_room (hcomposed a) (hturn a) hb hyes hno
    (by rw [List.length_cons, List.length_singleton]; omega)
  rw [Nat.zero_add] at hu
  refine ⟨a, b :: ms, t, u, ?_, hpair, hloop, hu⟩
  rw [List.length_cons, List.length_cons, hms]

/-- Where there is no room for all nodes, as many are built as there is room for, and the scenario
stops with a fault, whatever would come behind. -/
theorem growth_of_full (hs : s.store.Coherent) (hg : s.harness.arena.allocator = .global)
    (hcomposed : ∀ a b, (turn a b).Composed)
    (hturn : ∀ a, turn a (f a) = f <$> lists (ArenaM.append (some a) d))
    (hfull : s.store.room < s.harness.choices.yeses + 2) (first second : α)
    (rest : Handle → β → ScenarioM σ α Unit) :
    ∃ ks vs t, ks.length = s.store.room ∧
      (pair first second >>= fun a => whileDrawn (turn a) (f a) >>= rest a) s =
        .error (.error (.fault .outOfMemory)) t ∧
      s.Builds ks vs (s.store.room - 1) t := by
  rcases Nat.lt_or_ge s.store.room 2 with hpairless | hroom
  · obtain ⟨ks, vs, t, hks, hpair, hb⟩ := pair_of_full hs hg hpairless first second
    refine ⟨ks, vs, t, hks, bind_of_error hpair, ?_⟩
    rwa [show s.store.room - 1 = 0 by omega]
  · obtain ⟨hyes, _⟩ := s.harness.choices.stream_yeses
    obtain ⟨a, b, t, hpair, hb⟩ := pair_of_room hs hg hroom first second
    obtain ⟨ms, ws, u, hms, hloop, hu⟩ := whileDrawn_of_full (hcomposed a) (hturn a) hb hyes hroom
      (by rw [List.length_cons, List.length_singleton]; omega)
    refine ⟨_, ws, u, hms, ?_, ?_⟩
    · rw [bind_of_ok hpair, bind_of_error hloop]
    · have hlength : s.store.room - 1 = 0 + ms.length + 1 := by
        rw [← hms]
        simp
      rw [hlength]
      exact hu

end Growth

/-! Nodes are overwritten one after the other, each on the way to its successor. -/

/-- From one stage to the next one the nodes `hs` are overwritten: the one at the place first, then
its successor, and so on until there is none. -/
inductive Overwrites (value : α) :
    Option Handle → Stage σ α → List Handle → Stage σ α → Prop where
  | done (s : Stage σ α) : Overwrites value none s [] s
  | turn {h : Handle} {place : Option Handle} {hs : List Handle} {s t u w : Stage σ α} :
      lists (ArenaM.set h value) s = .ok () t →
      lists (ArenaM.read fun x => x.next h) t = .ok place u →
      Overwrites value place u hs w → Overwrites value (some h) s (h :: hs) w

/-- The loop overwrites these nodes and no others, and then ends. -/
theorem Overwrites.overwriteFrom_eq {hs : List Handle} (ho : Overwrites value place s hs t)
    {fuel : Nat} (hfuel : hs.length ≤ fuel) : overwriteFrom value fuel place s = .ok () t := by
  induction ho generalizing fuel with
  | done s => cases fuel <;> rfl
  | turn hset hnext _ ih =>
    obtain ⟨fuel, rfl⟩ := Nat.exists_eq_add_one_of_ne_zero (Nat.ne_zero_of_lt hfuel)
    rw [overwriteFrom, bind_of_ok hset, bind_of_ok hnext]
    exact ih (Nat.le_of_succ_le_succ hfuel)

/-- From one of its nodes on the rest of the list is overwritten, in the order of the links. -/
theorem exists_overwrites (hb : s.Builds (ms ++ ks) (us ++ vs) taken t)
    (hlength : us.length = ms.length) (value : α) :
    ∃ u, Overwrites value ks.head? t ks u ∧
      s.Builds (ms ++ ks) (us ++ List.replicate ks.length value) taken u := by
  have hall := hb.store.length_eq
  rw [List.length_append, List.length_append, hlength] at hall
  -- The nodes `ms` have been visited and `ks` have not; a turn takes the first one of `ks` over.
  induction ks generalizing ms us vs t with
  | nil =>
    obtain rfl : vs = [] := List.length_eq_zero_iff.mp (by simpa using hall)
    exact ⟨t, .done t, hb⟩
  | cons h ks ih =>
    obtain ⟨v, vs, rfl⟩ := List.exists_cons_of_length_eq_add_one
      (show vs.length = ks.length + 1 by rw [List.length_cons] at hall; omega)
    have hplace : (ms ++ h :: ks)[ms.length]? = some h := by simp
    obtain ⟨w, hset, hw⟩ := hb.set hplace value
    obtain ⟨place, hnext, hrest⟩ : ∃ place, w.store.next h = .ok place ∧
        w.store.Chain place ks := by
      cases hw.store.chain.of_append with
      | cons hn hks => exact ⟨_, hn, hks⟩
    have hread : lists (ArenaM.read fun x => x.next h) w = .ok place w := read_of_ok hnext
    rw [← hlength, List.set_append_right _ _ (Nat.le_refl _), Nat.sub_self, List.set_cons_zero,
      List.append_cons us, List.append_cons ms] at hw
    obtain ⟨u, ho, hu⟩ := ih hw (by simp [hlength])
      (by simp only [List.length_append, List.length_cons, List.length_nil] at hall ⊢; omega)
    rw [hrest.head?_eq] at ho
    refine ⟨u, .turn hset hread ho, ?_⟩
    rw [List.append_cons ms, List.length_cons, List.replicate_succ, List.append_cons us]
    exact hu

/-- The whole list is overwritten in the order of its links, and then holds the value only. -/
theorem overwrite_of_builds {a : Handle} (hb : s.Builds (a :: ks) vs taken t) (value : α) :
    ∃ u, Overwrites value (some a) t (a :: ks) u ∧ overwrite value (some a) t = .ok () u ∧
      s.Builds (a :: ks) (List.replicate (a :: ks).length value) taken u := by
  have hwhole : s.Builds ([] ++ a :: ks) ([] ++ vs) taken t := hb
  obtain ⟨u, ho, hu⟩ := exists_overwrites hwhole rfl value
  refine ⟨u, ho, ?_, hu⟩
  rw [overwrite]
  exact ho.overwriteFrom_eq (hb.store.coherent.length_le_live hb.store.chain)

variable [DecidableEq α] [Payload α]

/-- Where there is room, the list is built, and destroyed if the assumption about it holds. -/
theorem appendToPair_of_room (hs : s.store.Coherent) (hg : s.harness.arena.allocator = .global)
    (hroom : s.harness.choices.yeses + 2 ≤ s.store.room) (first data : α) :
    ∃ a ks t, (a :: ks).length = s.harness.choices.yeses + 2 ∧
      s.Builds (a :: ks) (first :: first :: List.replicate s.harness.choices.yeses data)
        (s.harness.choices.yeses + 1) t ∧
      (first ≠ data → (appendToPair first data).scenario s = .error (.error .pruned) t) ∧
      (first = data → (appendToPair first data).scenario s =
        (discard (lists (ArenaM.destroy (some a))) : ScenarioM σ α Unit) t) := by
  obtain ⟨a, ks, t, u, hlength, hpair, hloop, hu⟩ :=
    growth_of_room (fun _ head => some <$> lists (ArenaM.append head data)) some hs hg
      (fun _ head => .map (.call (.append head data) rfl) some) (fun _ => rfl) hroom first first
  have hvalues : (first :: first :: List.replicate s.harness.choices.yeses data).all
      (fun v => decide (v = data)) = decide (first = data) := by
    simp [List.all_replicate]
  have hassume := assumeAll_of_builds hu fun v => decide (v = data)
  rw [hvalues] at hassume
  refine ⟨a, ks, u, hlength, hu, fun hne => ?_, fun heq => ?_⟩
  · rw [decide_eq_false hne] at hassume
    rw [scenario, bind_of_ok hpair, bind_of_ok hloop, bind_of_error hassume]
  · rw [decide_eq_true heq] at hassume
    rw [scenario, bind_of_ok hpair, bind_of_ok hloop, bind_of_ok hassume]

/-- Where there is no room, the scenario faults. -/
theorem appendToPair_of_full (hs : s.store.Coherent) (hg : s.harness.arena.allocator = .global)
    (hfull : s.store.room < s.harness.choices.yeses + 2) (first data : α) :
    ∃ ks vs t, ks.length = s.store.room ∧
      (appendToPair first data).scenario s = .error (.error (.fault .outOfMemory)) t ∧
      s.Builds ks vs (s.store.room - 1) t :=
  growth_of_full (fun _ head => some <$> lists (ArenaM.append head data)) some hs hg
    (fun _ head => .map (.call (.append head data) rfl) some) (fun _ => rfl) hfull first first _

/-- The loop that appends to a list as long as the answers are yes. -/
def appendDrawn (h : Handle) (data : α) : ScenarioM σ α Unit :=
  whileDrawn (fun _ => discard <| lists (ArenaM.append (some h) data)) ()

/-- The check that every node of a list has been overwritten. -/
def checkOverwritten (h : Handle) (value : α) : ScenarioM σ α Unit :=
  checkAll (some h) "every node holds the overwritten value" fun _ v => v = value

/-- The destruction of a list. -/
def destroyAll (h : Handle) : ScenarioM σ α Unit := discard <| lists (ArenaM.destroy (some h))

/-- A list is built, overwritten and destroyed part by part, each part from the stage that the one
before it leaves. -/
structure BuiltAndOverwritten (data value : α) (h : Handle) (ks : List Handle)
    (s t u v w : Stage σ α) : Prop where
  /-- First the pair is built. -/
  pair_eq : pair (Payload.ofInt 0) (Payload.ofInt 0) s = .ok h t
  /-- Then nodes are appended to it. -/
  append_eq : appendDrawn h data t = .ok () u
  /-- The list then has these nodes. -/
  chain : u.store.Chain (some h) ks
  /-- They are overwritten one after the other. -/
  overwrites : Overwrites value (some h) u ks v
  /-- The loop that does so ends behind the last one. -/
  overwrite_eq : overwrite value (some h) u = .ok () v
  /-- They all hold the value then. -/
  values_eq : v.store.values (some h) = .ok (List.replicate ks.length value)
  /-- So the check passes. -/
  check_eq : checkOverwritten h value v = .ok () v
  /-- Last, they are released. -/
  destroy_eq : destroyAll h v = .ok () w

/-- Where there is room, the list is built, overwritten and destroyed. -/
theorem appendOverwrite_of_room (hs : s.store.Coherent)
    (hg : s.harness.arena.allocator = .global)
    (hroom : s.harness.choices.yeses + 2 ≤ s.store.room) (data value : α) :
    ∃ h ks t u v w, ks.length = s.harness.choices.yeses + 2 ∧
      BuiltAndOverwritten data value h ks s t u v w ∧
      (appendOverwrite data value).scenario s = .ok () w ∧
      s.Leaves [] ks.length ks.length (s.harness.choices.yeses + 1) w ∧ w.store.Coherent := by
  obtain ⟨a, ks, t, u, hlength, hpair, hloop, hu⟩ :=
    growth_of_room (fun a _ => discard (lists (ArenaM.append (some a) data))) (fun _ => ()) hs hg
      (fun a _ => .discard (.call (.append (some a) data) rfl)) (fun _ => rfl) hroom
      (Payload.ofInt 0) (Payload.ofInt 0)
  obtain ⟨v, ho, hover, hv⟩ := overwrite_of_builds hu value
  have hcheck := checkAll_of_builds hv "every node holds the overwritten value"
    fun v => decide (v = value)
  rw [List.all_replicate, decide_eq_true rfl, ite_self] at hcheck
  obtain ⟨w, hdestroy, hleaves, hw⟩ := hv.destroy hs
  have hend : destroyAll a v = .ok () w := map_of_ok hdestroy fun _ => ()
  refine ⟨a, a :: ks, t, u, v, w, hlength,
    ⟨hpair, hloop, hu.store.chain, ho, hover, hv.store.values_head, hcheck, hend⟩, ?_, hleaves, hw⟩
  rw [scenario, bind_of_ok hpair, bind_of_ok hloop, bind_of_ok hover, bind_of_ok hcheck]
  exact hend

/-- Where there is no room, the scenario faults. -/
theorem appendOverwrite_of_full (hs : s.store.Coherent)
    (hg : s.harness.arena.allocator = .global)
    (hfull : s.store.room < s.harness.choices.yeses + 2) (data value : α) :
    ∃ ks vs t, ks.length = s.store.room ∧
      (appendOverwrite data value).scenario s = .error (.error (.fault .outOfMemory)) t ∧
      s.Builds ks vs (s.store.room - 1) t :=
  growth_of_full (fun a _ => discard (lists (ArenaM.append (some a) data))) (fun _ => ()) hs hg
    (fun a _ => .discard (.call (.append (some a) data) rfl)) (fun _ => rfl) hfull _ _ _

/-- Where there is room, the pair is built, and destroyed with all checks passed. -/
theorem twoValues_of_room (hs : s.store.Coherent) (hg : s.harness.arena.allocator = .global)
    (hroom : 2 ≤ s.store.room) (first second : α) :
    ∃ a b t, s.Builds [a, b] [first, second] 0 t ∧
      (twoValues first second).scenario s =
        (discard (lists (ArenaM.destroy (some a))) : ScenarioM σ α Unit) t := by
  obtain ⟨a, b, t, hpair, hb⟩ := pair_of_room hs hg hroom first second
  obtain ⟨hfirst, hsecond⟩ : t.store.get a = .ok first ∧ t.store.get b = .ok second := by
    simpa using hb.store.map_get
  have hnext : t.store.next a = .ok (some b) := by
    cases hb.store.chain with
    | cons hn hrest => rw [hn, ← hrest.head?_eq]; rfl
  refine ⟨a, b, t, hb, ?_⟩
  have hcheck (label : String) (v : α) : check (decide (v = v)) label t = .ok () t := by
    rw [decide_eq_true rfl]
    rfl
  rw [scenario, bind_of_ok hpair, bind_of_ok (read_of_ok hfirst), bind_of_ok (hcheck _ first),
    bind_of_ok (read_of_ok hnext)]
  -- The second node is there, so the scenario goes on with it.
  exact (bind_of_ok (read_of_ok hsecond)).trans (bind_of_ok (hcheck _ second))

end Fixture

variable [DecidableEq α] [Payload α] {s : Stage σ α}

/-- On a harness over a reachable store and the global allocator, let `r` be the room up to the
bound and `k` the number of yeses before the next no. Where there is room for `k + 2` nodes, these
are created in one list with the values `first`, `first` and then `k` times `data`, and `k + 1`
answers are drawn; the run is completed with all of them released if the two values are the same,
and otherwise pruned with all of them left. Where there is no room for them, the run faults when
`r` nodes have been created, which are left, and `r - 1` answers have been drawn. -/
theorem append_to_pair_completes_or_is_pruned (hs : s.store.Reachable)
    (hg : s.harness.arena.allocator = .global) (first data : α) :
    let run := runScenario (Fixture.appendToPair first data).scenario s
    let r := s.store.room
    let k := s.harness.choices.yeses
    (k + 2 ≤ r → first = data →
      ∃ t, run = .ok .completed t ∧ s.Leaves [] (k + 2) (k + 2) (k + 1) t) ∧
    (k + 2 ≤ r → first ≠ data →
      ∃ t h ks, run = .ok .pruned t ∧ ks.length = k + 2 ∧ s.Leaves ks (k + 2) 0 (k + 1) t ∧
        t.store.IsHead h ∧ t.store.Chain (some h) ks ∧
        t.store.values (some h) = .ok (first :: first :: List.replicate k data)) ∧
    (r < k + 2 →
      ∃ t ks, run = .ok (.fault .outOfMemory) t ∧ ks.length = r ∧ s.Leaves ks r 0 (r - 1) t) := by
  intro run r k
  have hcoherent := hs.coherent
  refine ⟨fun hroom heq => ?_, fun hroom hne => ?_, fun hfull => ?_⟩
  · obtain ⟨a, ks, t, hlength, hb, _, hscenario⟩ :=
      Fixture.appendToPair_of_room hcoherent hg hroom first data
    rw [← hlength]
    exact completed_of_destroy hs hb (hscenario heq)
  · obtain ⟨a, ks, t, hlength, hb, hscenario, _⟩ :=
      Fixture.appendToPair_of_room hcoherent hg hroom first data
    obtain ⟨u, hrun, hstore, hleaves⟩ := stopped_of_builds hs hb (hscenario hne)
    refine ⟨u, a, a :: ks, hrun, hlength, hlength ▸ hleaves, ?_⟩
    rw [hstore]
    exact ⟨hb.store.isHead a rfl, hb.store.chain, hb.store.values_head⟩
  · exact faulted_of_builds hs (Fixture.appendToPair_of_full hcoherent hg hfull first data)

/-- A list of two nodes has been destroyed and one node is left, and five nodes may be live. -/
def crowded : List (Event Int32) :=
  [.call (.create 10), .call (.create 20), .call (.link ⟨0, 0⟩ ⟨1, 0⟩), .call (.create 30),
    .call (.destroy (some ⟨0, 0⟩)), .call (.setLimit (some 5))]

/-- A harness over this store. -/
def crowdedStage (choices : Choices) : Stage Unit Int32 :=
  ⟨.ofArena ((Arena.empty .global).run crowded) choices, ()⟩

/-- The store of such a harness is reachable. -/
theorem crowdedStage_reachable (choices : Choices) : (crowdedStage choices).store.Reachable :=
  Arena.Reachable.store ⟨.global, crowded, rfl⟩

/-- There is room for four nodes. Two yeses use it up, and with a third one there is one node too
many. -/
theorem crowdedStage_pair :
    let script := crowdedStage (.ofList [true, true, false, true])
    let three := crowdedStage (.count 3)
    script.store.Reachable ∧ script.harness.arena.allocator = .global ∧
    (script.harness.choices.yeses + 2 ≤ script.store.room ∧
      ∃ t, runScenario (Fixture.appendToPair 7 7).scenario script = .ok .completed t ∧
        t.store.stats = ⟨7, 6⟩ ∧ t.harness.taken = 3) ∧
    ((1 : Int32) ≠ 7 ∧
      ∃ t h, runScenario (Fixture.appendToPair 1 7).scenario script = .ok .pruned t ∧
        t.store.values (some h) = .ok [1, 1, 7, 7] ∧ t.store.live = 5 ∧
        t.store.get ⟨2, 0⟩ = .ok 30) ∧
    (three.store.room < three.harness.choices.yeses + 2 ∧
      ∃ t, runScenario (Fixture.appendToPair 7 7).scenario three = .ok (.fault .outOfMemory) t ∧
        t.store.live = 5 ∧ t.harness.taken = 3) := by
  intro script three
  have hs : script.store.Reachable := crowdedStage_reachable _
  obtain ⟨hcompleted, _, _⟩ := append_to_pair_completes_or_is_pruned hs rfl 7 7
  obtain ⟨_, hpruned, _⟩ := append_to_pair_completes_or_is_pruned hs rfl 1 7
  obtain ⟨_, _, hfault⟩ :=
    append_to_pair_completes_or_is_pruned (crowdedStage_reachable (.count 3)) rfl 7 7
  have hroom : script.harness.choices.yeses + 2 ≤ script.store.room := by decide
  have hfull : three.store.room < three.harness.choices.yeses + 2 := by decide
  have hne : (1 : Int32) ≠ 7 := by decide
  refine ⟨hs, rfl, ⟨hroom, ?_⟩, ⟨hne, ?_⟩, hfull, ?_⟩
  · obtain ⟨t, hrun, hleaves⟩ := hcompleted hroom rfl
    exact ⟨t, hrun, hleaves.store.stats_eq, hleaves.taken_eq⟩
  · obtain ⟨t, h, ks, hrun, hlength, hleaves, _, _, hvalues⟩ := hpruned hroom hne
    obtain ⟨_, hget, _⟩ := hleaves.keeps ⟨2, 0⟩ rfl
    exact ⟨t, h, hrun, hvalues, hleaves.store.live_eq.trans (congrArg (1 + ·) hlength), hget⟩
  · obtain ⟨t, ks, hrun, hlength, hleaves⟩ := hfault hfull
    exact ⟨t, hrun, hleaves.store.live_eq.trans (congrArg (1 + ·) hlength), hleaves.taken_eq⟩

/-- On a harness over a reachable store and the global allocator, let `r` be the room up to the
bound and `k` the number of yeses before the next no. The scenario builds a pair, appends to it,
overwrites the list, checks it and destroys it, and its second loop sets a node in each turn and
goes on with its successor. Where there is room for `k + 2` nodes, this loop finds a list of so
many, overwrites each of them once in the order of the links, and ends; the run is completed when
all of them have been released, and `k + 1` answers have been drawn. Where there is no room for them,
the run faults when `r` nodes have been created, which are left, and `r - 1` answers have been
drawn. -/
theorem append_overwrite_completes_within_the_room (hs : s.store.Reachable)
    (hg : s.harness.arena.allocator = .global) (data value : α) :
    let scenario : ScenarioM σ α Unit := (Fixture.appendOverwrite data value).scenario
    let r := s.store.room
    let k := s.harness.choices.yeses
    (scenario = do
      let h ← Fixture.pair (Payload.ofInt 0) (Payload.ofInt 0)
      Fixture.appendDrawn h data
      Fixture.overwrite value (some h)
      Fixture.checkOverwritten h value
      Fixture.destroyAll h) ∧
    (∀ n h, (Fixture.overwriteFrom value (n + 1) (some h) : ScenarioM σ α Unit) = do
      lists (ArenaM.set h value)
      Fixture.overwriteFrom value n (← lists (ArenaM.read fun x => x.next h))) ∧
    (k + 2 ≤ r →
      ∃ h ks t u v w, Fixture.BuiltAndOverwritten data value h ks s t u v w ∧
        ks.length = k + 2 ∧ ks.Nodup ∧
        ∃ z, runScenario scenario s = .ok .completed z ∧ z.store = w.store ∧
          s.Leaves [] (k + 2) (k + 2) (k + 1) z) ∧
    (r < k + 2 →
      ∃ t ks, runScenario scenario s = .ok (.fault .outOfMemory) t ∧ ks.length = r ∧
        s.Leaves ks r 0 (r - 1) t) := by
  intro scenario r k
  refine ⟨rfl, fun n h => rfl, fun hroom => ?_, fun hfull => ?_⟩
  · obtain ⟨h, ks, t, u, v, w, hlength, hcourse, hscenario, hleaves, hw⟩ :=
      Fixture.appendOverwrite_of_room hs.coherent hg hroom data value
    obtain ⟨z, hrun, hleft⟩ := completed_of_leaves hscenario hleaves hs.counted hw
    rw [hlength] at hleft
    exact ⟨h, ks, t, u, v, w, hcourse, hlength, hcourse.chain.nodup, z, hrun, hleft⟩
  · exact faulted_of_builds hs (Fixture.appendOverwrite_of_full hs.coherent hg hfull data value)

/-- Four nodes are overwritten and released, or there is one node too many. -/
theorem crowdedStage_overwritten :
    let script := crowdedStage (.ofList [true, true, false, true])
    let three := crowdedStage (.count 3)
    script.store.Reachable ∧ script.harness.arena.allocator = .global ∧
    (script.harness.choices.yeses + 2 ≤ script.store.room ∧
      ∃ h ks t u v w, Fixture.BuiltAndOverwritten 7 9 h ks script t u v w ∧ ks.length = 4 ∧
        v.store.values (some h) = .ok [9, 9, 9, 9] ∧
        ∃ z, runScenario (Fixture.appendOverwrite 7 9).scenario script = .ok .completed z ∧
          z.store.stats = ⟨7, 6⟩ ∧ z.harness.taken = 3) ∧
    (three.store.room < three.harness.choices.yeses + 2 ∧
      ∃ t, runScenario (Fixture.appendOverwrite 7 9).scenario three =
          .ok (.fault .outOfMemory) t ∧
        t.store.live = 5 ∧ t.harness.taken = 3) := by
  intro script three
  have hs : script.store.Reachable := crowdedStage_reachable _
  obtain ⟨_, _, hcompleted, _⟩ := append_overwrite_completes_within_the_room hs rfl 7 9
  obtain ⟨_, _, _, hfault⟩ :=
    append_overwrite_completes_within_the_room (crowdedStage_reachable (.count 3)) rfl 7 9
  have hroom : script.harness.choices.yeses + 2 ≤ script.store.room := by decide
  have hfull : three.store.room < three.harness.choices.yeses + 2 := by decide
  refine ⟨hs, rfl, ⟨hroom, ?_⟩, hfull, ?_⟩
  · obtain ⟨h, ks, t, u, v, w, hcourse, hlength, _, z, hrun, _, hleaves⟩ := hcompleted hroom
    have hvalues := hcourse.values_eq
    rw [hlength] at hvalues
    exact ⟨h, ks, t, u, v, w, hcourse, hlength, hvalues, z, hrun, hleaves.store.stats_eq,
      hleaves.taken_eq⟩
  · obtain ⟨t, ks, hrun, hlength, hleaves⟩ := hfault hfull
    exact ⟨t, hrun, hleaves.store.live_eq.trans (congrArg (1 + ·) hlength), hleaves.taken_eq⟩

/-- On a harness over a reachable store and the global allocator, whatever its choices are, let `r`
be the room up to the bound. Where there is room for two nodes, the run is completed when both have
been created and released. Where there is none for them, it faults when `r` nodes have been created,
which are left. No answer is drawn. -/
theorem two_values_completes_within_the_room (hs : s.store.Reachable)
    (hg : s.harness.arena.allocator = .global) (first second : α) :
    let run := runScenario (Fixture.twoValues first second).scenario s
    let r := s.store.room
    (2 ≤ r → ∃ t, run = .ok .completed t ∧ s.Leaves [] 2 2 0 t ∧
      t.harness.choices = s.harness.choices) ∧
    (r < 2 → ∃ t ks, run = .ok (.fault .outOfMemory) t ∧ ks.length = r ∧ s.Leaves ks r 0 0 t ∧
      t.harness.choices = s.harness.choices) := by
  intro run r
  have hkept {new : List Handle} {created released : Nat} {t : Stage σ α}
      (hl : s.Leaves new created released 0 t) : t.harness.choices = s.harness.choices := by
    rw [hl.choices_eq, Choices.behind_zero]
  refine ⟨fun hroom => ?_, fun hfull => ?_⟩
  · obtain ⟨a, b, t, hb, hscenario⟩ := Fixture.twoValues_of_room hs.coherent hg hroom first second
    obtain ⟨u, hrun, hleaves⟩ := completed_of_destroy hs hb hscenario
    exact ⟨u, hrun, hleaves, hkept hleaves⟩
  · obtain ⟨ks, vs, t, hlength, hpair, hb⟩ :=
      Fixture.pair_of_full hs.coherent hg hfull first second
    have hscenario : (Fixture.twoValues first second).scenario s =
        .error (.error (.fault .outOfMemory)) t := bind_of_error hpair
    obtain ⟨u, ms, hrun, hms, hleaves⟩ :=
      faulted_of_builds hs ⟨ks, vs, t, hlength, hscenario, hb⟩
    exact ⟨u, ms, hrun, hms, hleaves, hkept hleaves⟩

/-- There is room for two nodes, but no longer once the bound has been lowered. -/
theorem crowdedStage_twoValues :
    let wide := crowdedStage .never
    let narrow := wide.withArena (wide.harness.arena.step (.call (.setLimit (some 2))))
    wide.store.Reachable ∧ narrow.store.Reachable ∧ wide.harness.arena.allocator = .global ∧
    (2 ≤ wide.store.room ∧
      ∃ t, runScenario (Fixture.twoValues 1 2).scenario wide = .ok .completed t ∧
        t.store.stats = ⟨5, 4⟩ ∧ t.store.get ⟨2, 0⟩ = .ok 30) ∧
    (narrow.store.room < 2 ∧
      ∃ t, runScenario (Fixture.twoValues 1 2).scenario narrow = .ok (.fault .outOfMemory) t ∧
        t.store.live = 2 ∧ t.harness.choices = .never) := by
  intro wide narrow
  have hwide : wide.store.Reachable := crowdedStage_reachable _
  have hnarrow : narrow.store.Reachable := hwide.step (.call (.setLimit (some 2)))
  obtain ⟨hcompleted, _⟩ := two_values_completes_within_the_room hwide rfl 1 2
  obtain ⟨_, hfault⟩ := two_values_completes_within_the_room hnarrow rfl 1 2
  have hroom : 2 ≤ wide.store.room := by decide
  have hfull : narrow.store.room < 2 := by decide
  refine ⟨hwide, hnarrow, rfl, ⟨hroom, ?_⟩, hfull, ?_⟩
  · obtain ⟨t, hrun, hleaves, _⟩ := hcompleted hroom
    obtain ⟨_, hget, _⟩ := hleaves.keeps ⟨2, 0⟩ rfl
    exact ⟨t, hrun, hleaves.store.stats_eq, hget⟩
  · obtain ⟨t, ks, hrun, hlength, hleaves, hchoices⟩ := hfault hfull
    exact ⟨t, hrun, hleaves.store.live_eq.trans (congrArg (1 + ·) hlength), hchoices⟩

end CheckedLists
