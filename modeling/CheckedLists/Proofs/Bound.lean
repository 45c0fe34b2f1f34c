import CheckedLists.Proofs.Issue

/-!
# What the bound and the allocator decide

Creations aside, no operation looks at the bound on live nodes or at the
allocator: under another bound and with another allocator it answers the same
and does the same. Such computations are blind, and sequences of blind ones are.
A creation looks at both, but only to see whether the arena is exhausted.

An allocator that grants `c` slots therefore acts as a bound of `c` live nodes.
No slot is made while one is vacant, so that the last granted slot is in use
exactly when `c` nodes are live.
-/

namespace CheckedLists

variable {α β γ : Type}

namespace Store

variable {s t t' : Store α} {h h' p : Handle} {l : Nat} {v : α}

/-- The store under another bound. -/
def bounded (s : Store α) (l : Nat) : Store α := { s with limit := l }

@[simp] theorem lookup_bounded : (s.bounded l).lookup p = s.lookup p := rfl

theorem last_bounded (h : Handle) : (s.bounded l).last h = s.last h :=
  lastFrom_congr (fun _ => lookup_bounded) s.live h

theorem reaches_bounded (h target : Handle) : (s.bounded l).reaches h target = s.reaches h target :=
  reachesFrom_congr (fun _ => lookup_bounded) target s.live (some h)

theorem cursor_bounded (head : Option Handle) : (s.bounded l).cursor head = s.cursor head :=
  cursor_congr (fun _ => lookup_bounded) head

theorem length_bounded (head : Option Handle) : (s.bounded l).length head = s.length head := by
  simp only [length, cursor_bounded, countFrom_congr fun _ => lookup_bounded]
  rfl

theorem values_bounded (head : Option Handle) : (s.bounded l).values head = s.values head := by
  simp only [values, cursor_bounded, collectFrom_congr fun _ => lookup_bounded]
  rfl

theorem iterate_bounded (head : Option Handle) (steps : Nat) :
    (s.bounded l).iterate head steps = s.iterate head steps := by
  simp only [iterate, cursor_bounded, advances_congr fun _ => lookup_bounded]

theorem all_bounded {σ : Type} (head : Option Handle) (p : α → StateM σ Bool) :
    (s.bounded l).all head p = s.all head p := by
  simp only [all, cursor_bounded, allFrom_congr fun _ => lookup_bounded]
  rfl

theorem alter_bounded (h : Handle) (f : Node α → Node α) :
    (s.bounded l).alter h f = (s.alter h f).bounded l := by
  unfold alter
  rw [lookup_bounded]
  cases s.lookup h <;> rfl

theorem update_bounded (h : Handle) (f : Node α → Node α) :
    (s.bounded l).update h f = (s.update h f).map fun t => t.bounded l := by
  rw [update_eq, update_eq, lookup_bounded, alter_bounded]
  cases s.lookup h <;> rfl

/-- A bound that handles can reach keeps a store coherent. -/
theorem Coherent.bounded (hs : s.Coherent) (hl : l ≤ maxNodes) : (s.bounded l).Coherent := by
  have hlimit : s.bounded l = s.setLimit (some l) := by
    rw [Store.bounded, Store.setLimit, boundedBy, Nat.min_eq_left hl]
  rw [hlimit]
  exact hs.setLimit _

/-- The bound has no part in what a creation does. -/
theorem Created.bounded (hc : s.Created v h t) (l : Nat) :
    (s.bounded l).Created v h (t.bounded l) := by
  cases hc with
  | reuse hfree hslot => exact .reuse (s := s.bounded l) hfree hslot
  | grow hfree hsize => exact .grow (s := s.bounded l) hfree hsize

/-- What a creation does is determined. -/
theorem Created.unique (hc : s.Created v h t) (hc' : s.Created v h' t') : h = h' ∧ t = t' := by
  cases hc with
  | reuse hfree hslot =>
    cases hc' with
    | reuse hfree' hslot' =>
      cases hfree.symm.trans hfree'
      cases hslot.symm.trans hslot'
      exact ⟨rfl, rfl⟩
    | grow hfree' => cases hfree.symm.trans hfree'
  | grow hfree =>
    cases hc' with
    | reuse hfree' => cases hfree.symm.trans hfree'
    | grow => exact ⟨rfl, rfl⟩

/-- No slot is free exactly if all slots hold live nodes. -/
theorem Slotted.free_eq_none_iff (hs : s.Slotted) : s.free = none ↔ s.live = s.slots.size := by
  obtain ⟨is, hfree, _, hmem⟩ := hs.exists_freeList
  rw [hs.live_eq, Array.countP_eq_size]
  constructor
  · intro hnone slot hslot
    rw [hnone] at hfree
    cases hfree
    obtain ⟨i, hi⟩ := Array.getElem?_of_mem hslot
    cases slot with
    | occupied n => rfl
    | vacant place g =>
      obtain ⟨j, hj, _⟩ := (hmem i).mp ⟨place, g, hi⟩
      cases hj
  · intro hall
    cases htop : s.free with
    | none => rfl
    | some i =>
      rw [htop] at hfree
      cases hfree with
      | cons g hslot _ => cases hall _ (Array.mem_of_getElem? hslot)

/-- At most all slots hold live nodes. -/
theorem Slotted.live_le_size (hs : s.Slotted) : s.live ≤ s.slots.size := by
  rw [hs.live_eq]
  exact Array.countP_le_size

end Store

namespace Arena

variable {a : Arena α} {l : Nat} {g : Allocator}

/-- The arena under another bound and with another allocator. -/
def rebound (a : Arena α) (l : Nat) (g : Allocator) : Arena α :=
  { a with store := a.store.bounded l, allocator := g }

theorem rebound_self (a : Arena α) : a.rebound a.store.limit a.allocator = a := rfl

/-- Over the global allocator an arena is exhausted exactly if its bound is reached: slots run out
at the greatest bound only. -/
theorem exhausted_iff (hs : a.store.Slotted) (hg : a.allocator = .global) :
    a.Exhausted ↔ a.store.limit ≤ a.store.live := by
  constructor
  · rintro (hlimit | ⟨hfree, hsize | hrefused⟩)
    · exact hlimit
    · have hfull := hs.free_eq_none_iff.mp hfree
      have hle := hs.limit_le
      omega
    · rw [hg] at hrefused
      cases hrefused
  · exact .inl

end Arena

namespace ArenaM

variable {a : Arena α} {l : Nat} {g : Allocator} {c : ArenaM α β} {k : β → ArenaM α γ}

/-- Under the bound `l` and with the allocator `g` a computation does on `a` what it does under the
bound and with the allocator of `a`. -/
def BlindAt (c : ArenaM α β) (l : Nat) (g : Allocator) (a : Arena α) : Prop :=
  c (a.rebound l g) = match c a with
    | .ok b a' => .ok b (a'.rebound l g)
    | .error e a' => .error e (a'.rebound l g)

/-- A computation does the same under every bound and with every allocator. -/
def Blind (c : ArenaM α β) : Prop := ∀ l g a, c.BlindAt l g a

theorem BlindAt.bind (hc : c.BlindAt l g a)
    (hk : ∀ b a', c a = .ok b a' → (k b).BlindAt l g a') : (c >>= k).BlindAt l g a := by
  unfold BlindAt at *
  rw [bind_apply, hc, bind_apply]
  cases hresult : c a with
  | ok b a' => exact hk b a' hresult
  | error e a' => rfl

theorem Blind.bind (hc : c.Blind) (hk : ∀ b, (k b).Blind) : (c >>= k).Blind :=
  fun l g a => (hc l g a).bind fun b a' _ => hk b l g a'

theorem BlindAt.map (hc : c.BlindAt l g a) (f : β → γ) : (f <$> c).BlindAt l g a := by
  unfold BlindAt at *
  rw [map_apply, hc, map_apply]
  cases c a <;> rfl

theorem BlindAt.orPanic (hc : c.BlindAt l g a) : c.orPanic.BlindAt l g a := by
  unfold BlindAt ArenaM.orPanic at *
  rw [hc]
  rcases c a with _ | ⟨_ | _, _⟩ <;> rfl

theorem Blind.orDefect (hc : c.Blind) (d : Defect) : (orDefect d c).Blind := by
  intro l g a
  have hblind := hc l g a
  unfold BlindAt ArenaM.orDefect at *
  rw [hblind]
  rcases c a with _ | ⟨_ | _, _⟩ <;> rfl

/-- A blind computation leaves the bound and the allocator. -/
theorem Blind.keeps (hc : c.Blind) (a : Arena α) :
    (c.after a).store.limit = a.store.limit ∧ (c.after a).allocator = a.allocator := by
  have hself := hc a.store.limit a.allocator a
  unfold BlindAt at hself
  rw [Arena.rebound_self] at hself
  unfold after
  cases hresult : c a with
  | ok b a' =>
    rw [hresult] at hself
    obtain ⟨_, ha⟩ := EStateM.Result.ok.inj hself
    rw [ha]
    exact ⟨rfl, rfl⟩
  | error e a' =>
    rw [hresult] at hself
    obtain ⟨_, ha⟩ := EStateM.Result.error.inj hself
    rw [ha]
    exact ⟨rfl, rfl⟩

theorem blind_pure (b : β) : (pure b : ArenaM α β).Blind := fun _ _ _ => rfl

theorem blind_throw (e : Abort Fault) : (throw e : ArenaM α β).Blind := fun _ _ _ => rfl

theorem blind_emit (r : Record) : (emit r : ArenaM α Unit).Blind := fun _ _ _ => rfl

theorem blind_abortIf (p : Prop) [Decidable p] (e : Abort Fault) :
    (abortIf p e : ArenaM α Unit).Blind := by
  intro l g a
  unfold BlindAt
  rw [abortIf_apply, abortIf_apply]
  split <;> rfl

/-- What is read off a store may not depend on its bound. -/
theorem blind_store_bind {k : Store α → ArenaM α β} (hk : ∀ s l, k (s.bounded l) = k s)
    (hblind : ∀ s, (k s).Blind) : (store >>= k).Blind := by
  intro l g a
  have hrest := hblind a.store l g a
  unfold BlindAt at *
  rw [bind_apply, bind_apply, store_apply, store_apply]
  simp only
  rw [← hrest, Arena.rebound, hk]

theorem blind_modifyStore {f : Store α → Store α}
    (hf : ∀ s l, f (s.bounded l) = (f s).bounded l) : (modifyStore f).Blind := by
  intro l g a
  unfold BlindAt
  rw [modifyStore_apply, modifyStore_apply]
  simp only [Arena.rebound, hf]

theorem blind_read {f : Store α → Except Fault β} (hf : ∀ s l, f (s.bounded l) = f s) :
    (read f).Blind := by
  intro l g a
  unfold BlindAt
  rw [read_apply, read_apply, Arena.rebound, hf]
  cases f a.store <;> rfl

theorem blind_walk {f : Store α → Except (Abort Fault) β} (hf : ∀ s l, f (s.bounded l) = f s) :
    (walk f).Blind := by
  intro l g a
  unfold BlindAt
  rw [walk_apply, walk_apply, Arena.rebound, hf]
  cases f a.store <;> rfl

theorem blind_update (h : Handle) (f : Node α → Node α) : (update h f).Blind := by
  intro l g a
  unfold BlindAt
  rw [update_apply, update_apply]
  simp only [Arena.rebound, Store.update_bounded]
  cases a.store.update h f <;> rfl

theorem blind_link (x y : Handle) : (link x y : ArenaM α Unit).Blind := by
  refine (blind_read fun _ _ => rfl).bind fun n => ?_
  refine (blind_abortIf _ _).bind fun _ => ?_
  refine (blind_read fun _ _ => rfl).bind fun m => ?_
  refine (blind_abortIf _ _).bind fun _ => ?_
  refine (blind_walk fun s l => Store.reaches_bounded y x).bind fun closed => ?_
  refine (blind_abortIf _ _).bind fun _ => ?_
  refine (blind_update x _).bind fun _ => ?_
  exact (blind_update y _).bind fun _ => blind_emit _

theorem blind_amend (h : Handle) (f : α → α) : (amend h f).Blind := by
  refine (blind_read fun _ _ => rfl).bind fun n => ?_
  exact (blind_modifyStore fun _ _ => rfl).bind fun _ => blind_pure _

theorem blind_release (h : Handle) : (release h : ArenaM α (Option Handle)).Blind := by
  refine blind_store_bind (fun s l => rfl) fun s => ?_
  split
  · exact blind_throw _
  · refine (blind_modifyStore fun _ _ => rfl).bind fun _ => ?_
    split
    · exact blind_throw _
    · refine (blind_modifyStore fun _ _ => rfl).bind fun _ => ?_
      refine (blind_abortIf _ _).bind fun _ => ?_
      refine (blind_modifyStore fun _ _ => rfl).bind fun _ => ?_
      exact (blind_emit _).bind fun _ => blind_pure _

theorem blind_releaseFrom (fuel : Nat) (place : Option Handle) :
    (releaseFrom fuel place : ArenaM α Nat).Blind := by
  induction fuel generalizing place with
  | zero =>
    cases place with
    | none => exact blind_pure _
    | some h => exact blind_throw _
  | succ fuel ih =>
    cases place with
    | none => exact blind_pure _
    | some h =>
      refine (blind_release h).bind fun behind => ?_
      exact (ih behind).bind fun _ => blind_pure _

theorem blind_destroy (head : Option Handle) : (destroy head : ArenaM α Nat).Blind := by
  cases head with
  | none => exact blind_pure _
  | some head =>
    refine blind_store_bind (fun s l => rfl) fun s => ?_
    split
    · exact blind_throw _
    · refine (blind_abortIf _ _).bind fun _ => ?_
      refine (blind_releaseFrom _ _).bind fun _ => ?_
      exact (blind_emit _).bind fun _ => blind_pure _

/-- A creation does the same as long as the arena is exhausted under both bounds or under none. The
allocator `g` may not count its refusals, since it need not be asked at the same time. -/
theorem create_blindAt (hs : a.store.Coherent) (hl : l ≤ maxNodes) (hg : g.refuse = g)
    (hx : (a.rebound l g).Exhausted ↔ a.Exhausted) (v : α) : (create v).BlindAt l g a := by
  unfold BlindAt
  by_cases hfull : a.Exhausted
  · obtain ⟨_, _, hrefused⟩ := create_of_exhausted hfull v
    obtain ⟨other, hother, hrefused'⟩ := create_of_exhausted (hx.mpr hfull) v
    have heq : other = g := by
      obtain rfl | rfl := hother
      · rfl
      · exact hg
    rw [hrefused, hrefused', heq]
    rfl
  · obtain ⟨h, t, hc, hok⟩ := create_of_not_exhausted hs.slotted hfull v
    have hroom : ¬ (a.rebound l g).Exhausted := fun hfull' => hfull (hx.mp hfull')
    obtain ⟨h', t', hc', hok'⟩ := create_of_not_exhausted (hs.bounded hl).slotted hroom v
    obtain ⟨rfl, rfl⟩ := hc'.unique (hc.bounded l)
    rw [hok, hok']
    rfl

theorem append_blindAt (hs : a.store.Coherent) (hl : l ≤ maxNodes) (hg : g.refuse = g)
    (hx : (a.rebound l g).Exhausted ↔ a.Exhausted) (head : Option Handle) (v : α) :
    (append head v).BlindAt l g a := by
  cases head with
  | none => exact create_blindAt hs hl hg hx v
  | some head =>
    refine (blind_walk (fun _ _ => Store.last_bounded head) l g a).bind fun last a' hlast => ?_
    obtain rfl : a' = a := by
      rw [walk_apply] at hlast
      cases hresult : a.store.last head <;> rw [hresult] at hlast <;> cases hlast
      rfl
    refine (create_blindAt hs hl hg hx v).bind fun h a'' _ => ?_
    refine Blind.bind ((blind_update last _).orDefect _) (fun _ => ?_) l g a''
    refine ((blind_update h _).orDefect _).bind fun _ => ?_
    exact (blind_emit _).bind fun _ => blind_pure _

end ArenaM

namespace Op

variable {op : Op (Option Handle) Handle α} {a : Arena α} {l : Nat} {g : Allocator}

/-- Whether the answer of an operation tells the bound. -/
def tellsBound {μ η : Type} : Op μ η α → Bool
  | limit | setLimit _ => true
  | _ => false

/-- Operations that create no node and do not tell the bound are blind. -/
theorem blind_perform (ht : op.target? = none) (hb : op.tellsBound = false) :
    op.perform.Blind := by
  cases op with
  | create v | createOrPanic v | append head v | appendOrPanic head v => cases ht
  | limit | setLimit limit => cases hb
  | destroy head => exact fun l g a => (ArenaM.blind_destroy head l g a).map _
  | link x y => exact fun l g a => (ArenaM.blind_link x y l g a).map _
  | set h v => exact fun l g a => (ArenaM.blind_update h _ l g a).map _
  | amend h f => exact fun l g a => (ArenaM.blind_amend h f l g a).map _
  | next h | get h => exact fun l g a => (ArenaM.blind_read (fun _ _ => rfl) l g a).map _
  | iterate head steps =>
    exact fun l g a => (ArenaM.blind_walk (fun _ _ => Store.iterate_bounded head steps) l g a).map _
  | length head =>
    exact fun l g a => (ArenaM.blind_walk (fun _ _ => Store.length_bounded head) l g a).map _
  | values head =>
    exact fun l g a => (ArenaM.blind_walk (fun _ _ => Store.values_bounded head) l g a).map _
  | all head p =>
    refine ArenaM.blind_store_bind (fun s l => ?_) fun s => ?_
    · rw [Store.all_bounded]
    · split
      · exact ArenaM.blind_pure _
      · exact ArenaM.blind_throw _
  | isLive h | live | stats | liveSince n | describe tall => exact fun _ _ _ => rfl

/-- Operations that create a node do the same as long as the arena is exhausted under both bounds
or under none. -/
theorem perform_blindAt (hs : a.store.Coherent) (hl : l ≤ maxNodes) (hg : g.refuse = g)
    (hx : (a.rebound l g).Exhausted ↔ a.Exhausted) {head : Option Handle}
    (ht : op.target? = some head) : op.perform.BlindAt l g a := by
  cases op <;> cases ht
  case create v => exact (ArenaM.create_blindAt hs hl hg hx v).map _
  case createOrPanic v => exact (ArenaM.create_blindAt hs hl hg hx v).orPanic.map _
  case append v => exact (ArenaM.append_blindAt hs hl hg hx head v).map _
  case appendOrPanic v => exact (ArenaM.append_blindAt hs hl hg hx head v).orPanic.map _

end Op

end CheckedLists
