import CheckedLists.Proofs.Run

/-!
# Traversals agree

One can go along a list from node to successor or with a cursor, count its nodes,
collect its values, or ask about each of them. All of this meets the nodes of one
chain in the order of their links, from whichever node on. A question may keep a
state of its own, so that it shows how often it is asked and about what: it is asked
about one value after the other, and no more once it has been denied.
-/

namespace CheckedLists

variable {α σ : Type} {vs : List α} {calls : List (α × Bool)} {b : Bool}

/-- The question `p` is asked about one value after the other and answered as stands beside each of
them. This leads from the first state to the second one. -/
inductive Asked (p : α → StateM σ Bool) : σ → List (α × Bool) → σ → Prop where
  | nil {t : σ} : Asked p t [] t
  | cons {v : α} {b : Bool} {t u w : σ} {calls : List (α × Bool)} :
      p v t = (b, u) → Asked p u calls w → Asked p t ((v, b) :: calls) w

/-- These are answers about the values `vs` up to the first denial, with the answer about all. -/
inductive UpToDenial : List α → List (α × Bool) → Bool → Prop where
  /-- No value is denied. -/
  | holds (vs : List α) : UpToDenial vs (vs.map (·, true)) true
  /-- The values before `v` pass and `v` is denied. -/
  | denied (before : List α) (v : α) (after : List α) :
      UpToDenial (before ++ v :: after) (before.map (·, true) ++ [(v, false)]) false

/-- The question `p` with a log of what it is asked about and how it is answered. -/
def logged (p : α → StateM σ Bool) (v : α) : StateM (σ × List (α × Bool)) Bool :=
  fun (t, log) =>
    let (b, u) := p v t
    (b, (u, log ++ [(v, b)]))

/-- A value that passes comes before the others. -/
theorem UpToDenial.cons (hq : UpToDenial vs calls b) (v : α) :
    UpToDenial (v :: vs) ((v, true) :: calls) b := by
  cases hq with
  | holds vs => exact .holds (v :: vs)
  | denied before w after => exact .denied (v :: before) w after

namespace Store

/-- Asking about some values up to the first denial asks about these and no others. -/
theorem exists_calls (p : α → StateM σ Bool) (vs : List α) (t : σ) :
    ∃ calls, Asked p t calls (askEach p vs t).2 ∧ UpToDenial vs calls (askEach p vs t).1 ∧
      ∀ log, askEach (logged p) vs (t, log) =
        ((askEach p vs t).1, ((askEach p vs t).2, log ++ calls)) := by
  induction vs generalizing t with
  | nil => exact ⟨[], .nil, .holds [], fun log => by simp [askEach]⟩
  | cons v vs ih =>
    rcases hp : p v t with ⟨_ | _, u⟩
    · exact ⟨[(v, false)], by simpa [askEach, hp] using .cons hp .nil,
        by simpa [askEach, hp] using .denied [] v vs, fun log => by simp [askEach, logged, hp]⟩
    · obtain ⟨calls, hasked, hq, hlog⟩ := ih u
      exact ⟨(v, true) :: calls, by simpa [askEach, hp] using .cons hp hasked,
        by simpa [askEach, hp] using hq.cons v, fun log => by simp [askEach, logged, hp, hlog]⟩

variable {s : Store α} {place : Option Handle} {h : Handle} {ks : List Handle} {f : Fault}

/-- Whoever goes along the list from `place` on meets the nodes `ks` and their values `vs`. -/
structure Traversed (s : Store α) (place : Option Handle) (ks : List Handle) (vs : List α) :
    Prop where
  /-- These nodes are met from successor to successor. -/
  chain : s.Chain place ks
  /-- The first of them is the given one. -/
  first : ks.head? = place
  /-- No node is met twice. -/
  nodup : ks.Nodup
  /-- All of them are live. -/
  isLive : ∀ k ∈ ks, s.isLive k = true
  /-- They are at most as many as are live. -/
  length_le : ks.length ≤ s.live
  /-- These are their values. -/
  get_eq : ks.map s.get = vs.map .ok
  /-- A cursor answers with these values and then with none, however often it is asked. -/
  iterate_eq : ∀ steps, ∃ answers, s.iterate place steps = .ok (⟨place⟩, answers) ∧
    answers.map Prod.fst = (List.range steps).map fun i => vs[i]?
  /-- The nodes are counted. -/
  length_eq : s.length place = .ok ks.length
  /-- The values are collected. -/
  values_eq : s.values place = .ok vs
  /-- A question is asked about these values up to the first denial, and its log shows it. -/
  all_eq : ∀ (σ : Type) (p : α → StateM σ Bool) (t : σ), ∃ calls b u,
    s.all place p t = .ok b u ∧ Asked p t calls u ∧ UpToDenial vs calls b ∧
      s.all place (logged p) (t, []) = .ok b (u, calls)

/-- From `h` on there is nothing to go along, and each attempt ends with the fault of the look at
`h`. No question is asked. -/
structure Untraversable (s : Store α) (h : Handle) (f : Fault) : Prop where
  /-- There is no value at `h`. -/
  get_eq : s.get h = .error f
  /-- There is no cursor. -/
  iterate_eq : ∀ steps, s.iterate (some h) steps = .error (.error f)
  /-- Nothing is counted. -/
  length_eq : s.length (some h) = .error (.error f)
  /-- Nothing is collected. -/
  values_eq : s.values (some h) = .error (.error f)
  /-- Nothing is asked. -/
  all_eq : ∀ (σ : Type) (p : α → StateM σ Bool) (t : σ),
    s.all (some h) p t = .error (.error f) t

/-- The values along a chain are those of its nodes. -/
theorem Chain.map_get (hc : s.Chain place ks) : ks.map s.get = (s.valuesOf ks).map .ok := by
  induction hc with
  | nil => rfl
  | cons hn _ ih =>
    obtain ⟨n, hl, _⟩ := next_eq_ok_iff.mp hn
    rw [valuesOf_cons hl, List.map_cons, List.map_cons, ih]
    simp [get, hl, Except.map]

/-- All that goes along a list of a coherent store meets its chain. -/
theorem Coherent.traversed (hs : s.Coherent) (hc : s.Chain place ks) :
    s.Traversed place ks (s.valuesOf ks) where
  chain := hc
  first := hc.head?_eq
  nodup := hc.nodup
  isLive _ := hc.isLive
  length_le := hs.length_le_live hc
  get_eq := hc.map_get
  iterate_eq := iterate_of_chain hc
  length_eq := hs.length_eq hc
  values_eq := hs.values_eq hc
  all_eq := by
    intro σ p t
    obtain ⟨calls, hasked, hq, hlog⟩ := exists_calls p (s.valuesOf ks) t
    refine ⟨calls, _, _, hs.all_eq hc p t, hasked, hq, ?_⟩
    rw [hs.all_eq hc, hlog, List.nil_append]

theorem untraversable_of_lookup (hf : s.lookup h = .error f) : s.Untraversable h f where
  get_eq := by simp [get, hf, Except.map]
  iterate_eq := iterate_of_error hf
  length_eq := length_of_error hf
  values_eq := values_of_error hf
  all_eq _ := all_of_error hf

end Store

variable {a : Arena α}

/-- In a reachable arena all ways along a list agree, from each live node on: following successors,
stepping a cursor, counting, collecting, and asking about the values. The empty list is gone along
at once, and nothing is asked about it. From a handle that is not live each of them ends with the
fault with which its value is not found, and nothing is asked. -/
theorem traversals_agree (ha : a.Reachable) :
    (∀ h, a.store.isLive h = true → ∃ ks vs, a.store.Traversed (some h) ks vs) ∧
    a.store.Traversed none [] [] ∧
    (∀ (σ : Type) (p : α → StateM σ Bool) (t : σ), a.store.all none p t = .ok true t) ∧
    ∀ h, a.store.isLive h = false → ∃ f, a.store.Untraversable h f := by
  have hs := ha.coherent
  refine ⟨fun h hh => ?_, hs.traversed .nil, fun σ p t => hs.all_eq .nil p t, fun h hh => ?_⟩
  · obtain ⟨ks, hc⟩ := hs.linked.exists_chain hh
    exact ⟨ks, _, hs.traversed hc⟩
  · exact ⟨_, Store.untraversable_of_lookup (Store.lookup_eq_error_iff.mpr ⟨hh, rfl⟩)⟩

/-- From its second node on the list of `reusedSlot` has two nodes, and a cursor that is asked three
times answers with their values and then with none. A node of the destroyed list leads nowhere. -/
theorem reusedSlot_traversed :
    reusedSlot.Reachable ∧
    reusedSlot.store.isLive ⟨3, 0⟩ = true ∧
    reusedSlot.store.Traversed (some ⟨3, 0⟩) [⟨3, 0⟩, ⟨1, 1⟩] [40, 50] ∧
    (∃ answers, reusedSlot.store.iterate (some ⟨3, 0⟩) 3 = .ok (⟨some ⟨3, 0⟩⟩, answers) ∧
      answers.map Prod.fst = [some 40, some 50, none]) ∧
    reusedSlot.store.isLive ⟨0, 0⟩ = false ∧
    reusedSlot.store.Untraversable ⟨0, 0⟩ (.useAfterRelease ⟨0, 0⟩) := by
  have ha : reusedSlot.Reachable := ⟨.global, _, rfl⟩
  obtain ⟨hlive, _, _, hdead⟩ := traversals_agree ha
  obtain ⟨ks, vs, hlist⟩ := hlive ⟨3, 0⟩ rfl
  have hks : [⟨3, 0⟩, ⟨1, 1⟩] = ks :=
    Store.Chain.unique (.cons rfl (.cons rfl .nil)) hlist.chain
  subst hks
  have hvs : [40, 50] = vs := List.map_injective_iff.mpr (fun _ _ => Except.ok.inj) hlist.get_eq
  subst hvs
  obtain ⟨f, hgone⟩ := hdead ⟨0, 0⟩ rfl
  cases hgone.get_eq
  exact ⟨ha, rfl, hlist, hlist.iterate_eq 3, rfl, hgone⟩

end CheckedLists
