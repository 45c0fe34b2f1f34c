import CheckedLists.Proofs.Capacity
import CheckedLists.Proofs.Renaming

/-!
# Operations on renamed nodes

Where two arenas hold the same lists under a renaming of their handles and are
exhausted at once, an operation on live nodes of the first one and the same operation
on the corresponding nodes of the second one end alike. Either both are carried out,
with corresponding results, or both are refused for corresponding nodes, and the
arenas again hold the same lists. The operations that tell the history of a store are
left out.
-/

namespace CheckedLists

variable {α β γ : Type}

/-- The same fault of renamed nodes. -/
def Fault.rename (ρ : Handle → Handle) : Fault → Fault
  | outOfMemory => outOfMemory
  | invalidHandle h => invalidHandle (ρ h)
  | useAfterRelease h => useAfterRelease (ρ h)
  | doubleRelease h => doubleRelease (ρ h)
  | alreadyLinked h => alreadyLinked (ρ h)
  | notHead h => notHead (ρ h)
  | cycle h => cycle (ρ h)
  | leak count => leak count

/-- The same panic about renamed nodes. -/
def Panic.rename (ρ : Handle → Handle) : Panic → Panic
  | refused f => refused (f.rename ρ)
  | defect d => defect d

/-- The same abort about renamed nodes. -/
def Abort.rename (ρ : Handle → Handle) : Abort Fault → Abort Fault
  | error f => error (f.rename ρ)
  | panic p => panic (p.rename ρ)

/-- The same reply with renamed nodes. -/
def Reply.rename (ρ : Handle → Handle) : Reply α → Reply α
  | node h => node (ρ h)
  | list head => list (head.map ρ)
  | steps start answers => steps (start.rename ρ) (answers.map fun x => (x.1, x.2.rename ρ))
  | r => r

/-- Two computations on arenas end alike: both are carried out with corresponding results, or both
end early for corresponding reasons, and their arenas hold the same lists under the renaming. -/
inductive Corresponds (ρ : Handle → Handle) (g : β → γ) :
    EStateM.Result (Abort Fault) (Arena α) β → EStateM.Result (Abort Fault) (Arena α) γ →
      Prop where
  | ok {x : β} {a b : Arena α} (hr : a.store.Renamed ρ b.store) :
      Corresponds ρ g (.ok x a) (.ok (g x) b)
  | error {e : Abort Fault} {a b : Arena α} (hr : a.store.Renamed ρ b.store) :
      Corresponds ρ g (.error e a) (.error (e.rename ρ) b)

namespace Corresponds

variable {ρ : Handle → Handle} {g : β → γ} {c : ArenaM α β} {d : ArenaM α γ} {a b : Arena α}

/-- The results may be changed in corresponding ways. -/
theorem map {β' γ' : Type} {f : β → β'} {f' : γ → γ'} {k : β' → γ'}
    (hc : Corresponds ρ g (c a) (d b)) (hk : ∀ x, f' (g x) = k (f x)) :
    Corresponds ρ k ((f <$> c) a) ((f' <$> d) b) := by
  rw [ArenaM.map_apply, ArenaM.map_apply]
  generalize c a = x at hc
  generalize d b = y at hc
  cases hc with
  | ok hr =>
    simp only [hk]
    exact .ok hr
  | error hr => exact .error hr

/-- Refusals may be panics. -/
theorem orPanic (hc : Corresponds ρ g (c a) (d b)) :
    Corresponds ρ g (c.orPanic a) (d.orPanic b) := by
  unfold ArenaM.orPanic
  generalize c a = x at hc
  generalize d b = y at hc
  cases hc with
  | ok hr => exact .ok hr
  | @error e _ _ hr => cases e <;> exact .error hr

/-- The answers correspond. -/
theorem answer_eq (hc : Corresponds ρ g (c a) (d b)) :
    d.answer b = ((c.answer a).map g).mapError (Abort.rename ρ) := by
  unfold ArenaM.answer
  generalize c a = x at hc
  generalize d b = y at hc
  cases hc <;> rfl

/-- The arenas that are left hold the same lists. -/
theorem renamed (hc : Corresponds ρ g (c a) (d b)) :
    (c.after a).store.Renamed ρ (d.after b).store := by
  unfold ArenaM.after
  generalize c a = x at hc
  generalize d b = y at hc
  cases hc with
  | ok hr => exact hr
  | error hr => exact hr

end Corresponds

namespace ArenaM

variable {a b : Arena α} {ρ : Handle → Handle}

section

variable (ha : a.store.Coherent) (hb : b.store.Coherent) (hr : a.store.Renamed ρ b.store)

include hr

theorem corresponds_read {f : Store α → Except Fault β} {f' : Store α → Except Fault γ}
    {g : β → γ} {x : β} (hx : f a.store = .ok x) (hx' : f' b.store = .ok (g x)) :
    Corresponds ρ g (read f a) (read f' b) := by
  rw [read_of_ok hx, read_of_ok hx']
  exact .ok hr

theorem corresponds_walk {f : Store α → Except (Abort Fault) β}
    {f' : Store α → Except (Abort Fault) γ} {g : β → γ} {x : β} (hx : f a.store = .ok x)
    (hx' : f' b.store = .ok (g x)) : Corresponds ρ g (walk f a) (walk f' b) := by
  rw [walk_of_ok hx, walk_of_ok hx']
  exact .ok hr

include ha hb

theorem corresponds_destroy {head : Option Handle}
    (hhead : ∀ h ∈ head, a.store.isLive h = true) :
    Corresponds ρ id (destroy head a) (destroy (head.map ρ) b) := by
  cases head with
  | none =>
    change Corresponds ρ id (.ok 0 a) (.ok 0 b)
    exact .ok hr
  | some h =>
    obtain ⟨n, hn⟩ := Store.isLive_iff.mp (hhead h rfl)
    obtain ⟨m, hm, _, _, howned⟩ := hr.lookup ha.linked hb.linked hn
    rw [Option.map_some]
    cases hcase : n.owned with
    | true =>
      rw [destroy_of_owned hn hcase, destroy_of_owned hm (howned.trans hcase)]
      exact .error hr
    | false =>
      obtain ⟨ks, _, hc, _⟩ := ha.exists_chain hn
      rw [destroy_of_head ha hn hcase hc,
        destroy_of_head hb hm (howned.trans hcase) (hr.chain hc), List.length_map]
      exact .ok (hr.vacateAll hc.nodup fun _ => hc.isLive)

theorem corresponds_link {x y : Handle} (hx : a.store.isLive x = true)
    (hy : a.store.isLive y = true) : Corresponds ρ id (link x y a) (link (ρ x) (ρ y) b) := by
  obtain ⟨n, hn⟩ := Store.isLive_iff.mp hx
  obtain ⟨n', hn', _, hnext, _⟩ := hr.lookup ha.linked hb.linked hn
  obtain ⟨m, hm⟩ := Store.isLive_iff.mp hy
  obtain ⟨m', hm', _, _, howned⟩ := hr.lookup ha.linked hb.linked hm
  cases hlast : n.next with
  | some q =>
    have hlinked : n.next ≠ none := by simp [hlast]
    have hlinked' : n'.next ≠ none := by simp [hnext, hlast]
    rw [link_of_linked hn hlinked, link_of_linked hn' hlinked']
    exact .error hr
  | none =>
    have hlast' : n'.next = none := by rw [hnext, hlast]; rfl
    cases hcase : m.owned with
    | true =>
      rw [link_of_owned hn hlast hm hcase, link_of_owned hn' hlast' hm' (howned.trans hcase)]
      exact .error hr
    | false =>
      obtain ⟨ks, _, hc, _⟩ := ha.exists_chain hm
      rw [link_of_head ha hn hlast hm hcase hc,
        link_of_head hb hn' hlast' hm' (howned.trans hcase) (hr.chain hc)]
      have hmem := hr.mem_map_iff (fun _ => hc.isLive) hx
      by_cases hcycle : x ∈ ks
      · rw [if_pos hcycle, if_pos (hmem.mpr hcycle)]
        exact .error hr
      · rw [if_neg hcycle, if_neg (fun hcycle' => hcycle (hmem.mp hcycle'))]
        refine .ok (hr.join hx hy ?_)
        rintro rfl
        exact hcycle hc.head_mem

theorem corresponds_set {h : Handle} (hh : a.store.isLive h = true) (v : α) :
    Corresponds ρ id (set h v a) (set (ρ h) v b) := by
  obtain ⟨n, hn⟩ := Store.isLive_iff.mp hh
  obtain ⟨m, hm, _⟩ := hr.lookup ha.linked hb.linked hn
  rw [set_of_lookup hn, set_of_lookup hm]
  exact .ok (hr.revise hh fun _ => v)

theorem corresponds_amend {h : Handle} (hh : a.store.isLive h = true) (f : α → α) :
    Corresponds ρ id (amend h f a) (amend (ρ h) f b) := by
  obtain ⟨n, hn⟩ := Store.isLive_iff.mp hh
  obtain ⟨m, hm, hvalue, _⟩ := hr.lookup ha.linked hb.linked hn
  rw [amend_of_lookup hn, amend_of_lookup hm, hvalue]
  exact .ok (hr.revise hh f)

/-- Creations add the pair of the next handles to the renaming. -/
theorem corresponds_create (hexhausted : b.Exhausted ↔ a.Exhausted) (v : α) :
    Corresponds (a.store.extend ρ b.store) (a.store.extend ρ b.store) (create v a)
      (create v b) := by
  by_cases hx : a.Exhausted
  · obtain ⟨_, _, hrefused⟩ := create_of_exhausted hx v
    obtain ⟨_, _, hrefused'⟩ := create_of_exhausted (hexhausted.mpr hx) v
    rw [hrefused, hrefused']
    exact .error (hr.extend ha)
  · have hx' := mt hexhausted.mp hx
    obtain ⟨h, t, hc, hok⟩ := create_of_not_exhausted ha.slotted hx v
    obtain ⟨h', t', hc', hok'⟩ := create_of_not_exhausted hb.slotted hx' v
    rw [hok, hok', ← hc.extend_eq hc']
    exact .ok (hr.created ha hc hc')

/-- Appends add the pair of the next handles to the renaming. -/
theorem corresponds_append (hexhausted : b.Exhausted ↔ a.Exhausted) {head : Option Handle}
    (hhead : ∀ h ∈ head, a.store.isLive h = true) (v : α) :
    Corresponds (a.store.extend ρ b.store) (a.store.extend ρ b.store) (append head v a)
      (append (head.map ρ) v b) := by
  cases head with
  | none => exact corresponds_create ha hb hr hexhausted v
  | some head =>
    have hkept {p : Handle} (hp : a.store.isLive p = true) :
        a.store.extend ρ b.store p = ρ p := ha.slotted.extend_of_isLive hp
    have hlive := hhead head rfl
    obtain ⟨n, hn⟩ := Store.isLive_iff.mp hlive
    obtain ⟨m, hm, _⟩ := hr.lookup ha.linked hb.linked hn
    rw [Option.map_some]
    by_cases hx : a.Exhausted
    · obtain ⟨_, _, hrefused⟩ := append_of_exhausted ha hn hx v
      obtain ⟨_, _, hrefused'⟩ := append_of_exhausted hb hm (hexhausted.mpr hx) v
      rw [hrefused, hrefused']
      exact .error (hr.extend ha)
    · have hx' := mt hexhausted.mp hx
      obtain ⟨ks, last, hks, hlast⟩ := ha.exists_chain hn
      have hlast' : (ks.map ρ).getLast? = some (ρ last) := by rw [List.getLast?_map, hlast]; rfl
      obtain ⟨h, t, hc, hok⟩ := append_of_not_exhausted ha hks hlast hx v
      obtain ⟨h', t', hc', hok'⟩ := append_of_not_exhausted hb (hr.chain hks) hlast' hx' v
      have hend : a.store.isLive last = true := hks.isLive (List.mem_of_getLast? hlast)
      have hne : last ≠ h := hc.ne_of_next (hks.next_of_getLast? hlast)
      have hjoined := (hr.created ha hc hc').join (hc.isLive_iff.mpr (.inr hend))
        (hc.isLive_iff.mpr (.inl rfl)) hne
      rw [hkept hend, hc.extend_eq hc'] at hjoined
      rw [hok, hok', ← hkept hlive]
      exact .ok hjoined

end

end ArenaM

namespace Op

variable {a b : Arena α} {ρ : Handle → Handle} {op : Op (Option Handle) Handle α}
  {head : Option Handle} {h : Handle}

/-- The same operation on renamed nodes. -/
def rename (ρ : Handle → Handle) (op : Op (Option Handle) Handle α) :
    Op (Option Handle) Handle α :=
  op.resolve (m := Id) (Option.map ρ) ρ

/-- The handles that an operation is given. -/
def handles : Op (Option Handle) Handle α → List Handle
  | append head _ | appendOrPanic head _ | destroy head | iterate head _ | all head _
  | length head | values head => head.toList
  | link x y => [x, y]
  | next h | get h | set h _ | amend h _ | isLive h => [h]
  | _ => []

/-- Whether the answer of an operation tells what happened to a store before. -/
def tellsHistory : Op (Option Handle) Handle α → Bool
  | stats | liveSince _ | describe _ => true
  | _ => false

/-- The renaming behind an operation: operations that add a node add the pair of its handles. -/
def extend (op : Op (Option Handle) Handle α) (s : Store α) (ρ : Handle → Handle) (t : Store α) :
    Handle → Handle :=
  match op.target? with
  | some _ => s.extend ρ t
  | none => ρ

theorem target?_rename (ρ : Handle → Handle) (op : Op (Option Handle) Handle α) :
    (op.rename ρ).target? = op.target?.map (Option.map ρ) := by
  cases op <;> rfl

/-- Live handles keep their names. -/
theorem extend_of_isLive (hs : a.store.Slotted) (hh : a.store.isLive h = true) :
    op.extend a.store ρ b.store h = ρ h := by
  unfold extend
  cases op.target? with
  | none => rfl
  | some head => exact hs.extend_of_isLive hh

/-- An operation that does not tell the history ends alike on two arenas with the same lists, if it
is given corresponding live handles. -/
theorem corresponds_perform (ha : a.store.Coherent) (hb : b.store.Coherent)
    (hr : a.store.Renamed ρ b.store) (hexhausted : b.Exhausted ↔ a.Exhausted)
    (hop : op.tellsHistory = false) (hargs : ∀ h ∈ op.handles, a.store.isLive h = true) :
    Corresponds (op.extend a.store ρ b.store) (Reply.rename (op.extend a.store ρ b.store))
      (op.perform a) ((op.rename ρ).perform b) := by
  have hlist {head : Option Handle} (hhead : ∀ h ∈ head.toList, a.store.isLive h = true) :
      ∀ h ∈ head, a.store.isLive h = true := by
    simpa using hhead
  cases op with
  | stats | liveSince first | describe tall => cases hop
  | create v => exact (ArenaM.corresponds_create ha hb hr hexhausted v).map fun _ => rfl
  | createOrPanic v =>
    exact (ArenaM.corresponds_create ha hb hr hexhausted v).orPanic.map fun _ => rfl
  | append head v =>
    exact (ArenaM.corresponds_append ha hb hr hexhausted (hlist hargs) v).map fun _ => rfl
  | appendOrPanic head v =>
    exact (ArenaM.corresponds_append ha hb hr hexhausted (hlist hargs) v).orPanic.map fun _ => rfl
  | destroy head =>
    exact (ArenaM.corresponds_destroy ha hb hr (hlist hargs)).map fun _ => rfl
  | link x y =>
    have hx := hargs x List.mem_cons_self
    have hy := hargs y (List.mem_cons_of_mem x List.mem_cons_self)
    exact (ArenaM.corresponds_link ha hb hr hx hy).map fun _ => rfl
  | next h =>
    obtain ⟨n, hn⟩ := Store.isLive_iff.mp (hargs h List.mem_cons_self)
    have hnext := Store.next_eq_ok_iff.mpr ⟨n, hn, rfl⟩
    exact (ArenaM.corresponds_read hr hnext (hr.next_eq hnext)).map fun _ => rfl
  | get h =>
    obtain ⟨v, hv⟩ := Store.isLive_iff_get.mp (hargs h List.mem_cons_self)
    exact (ArenaM.corresponds_read hr (g := id) hv (hr.get_eq hv)).map fun _ => rfl
  | set h v =>
    exact (ArenaM.corresponds_set ha hb hr (hargs h List.mem_cons_self) v).map fun _ => rfl
  | amend h f =>
    exact (ArenaM.corresponds_amend ha hb hr (hargs h List.mem_cons_self) f).map fun _ => rfl
  | iterate head steps =>
    obtain ⟨ks, hc⟩ := ha.exists_chain_of_live (hlist hargs)
    obtain ⟨answers, hanswers, hrenamed⟩ := hr.iterate_eq ha.linked hb.linked hc steps
    refine (ArenaM.corresponds_walk hr (g := fun w => (w.1.rename ρ, w.2.map fun x =>
      (x.1, x.2.rename ρ))) hanswers hrenamed).map fun _ => rfl
  | all head p =>
    obtain ⟨ks, hc⟩ := ha.exists_chain_of_live (hlist hargs)
    change Corresponds ρ _ ((all head p).perform a) ((all (head.map ρ) p).perform b)
    rw [perform_all, perform_all, ha.all_eq hc, hb.all_eq (hr.chain hc),
      hr.valuesOf_eq fun _ => hc.isLive]
    exact .ok hr
  | length head =>
    obtain ⟨ks, hc⟩ := ha.exists_chain_of_live (hlist hargs)
    have hlength := hb.length_eq (hr.chain hc)
    rw [List.length_map] at hlength
    exact (ArenaM.corresponds_walk hr (g := id) (ha.length_eq hc) hlength).map fun _ => rfl
  | values head =>
    obtain ⟨ks, hc⟩ := ha.exists_chain_of_live (hlist hargs)
    have hvalues := hb.values_eq (hr.chain hc)
    rw [hr.valuesOf_eq fun _ => hc.isLive] at hvalues
    exact (ArenaM.corresponds_walk hr (g := id) (ha.values_eq hc) hvalues).map fun _ => rfl
  | isLive h =>
    have hh := hargs h List.mem_cons_self
    change Corresponds ρ _ (.ok (Reply.flag (a.store.isLive h)) a)
      (.ok (Reply.flag (b.store.isLive (ρ h))) b)
    rw [hh, hr.isLive hh]
    exact .ok hr
  | live =>
    change Corresponds ρ _ (.ok (Reply.count a.store.live) a) (.ok (Reply.count b.store.live) b)
    rw [hr.live_eq ha.slotted hb.slotted]
    exact .ok hr
  | limit =>
    change Corresponds ρ _ (.ok (Reply.count a.store.limit) a)
      (.ok (Reply.count b.store.limit) b)
    rw [hr.limit_eq]
    exact .ok hr
  | setLimit limit => exact .ok (hr.setLimit limit)

end Op

end CheckedLists
