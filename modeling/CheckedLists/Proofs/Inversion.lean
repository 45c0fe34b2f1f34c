import CheckedLists.Proofs.Run

/-!
# What operations make of a store

An operation adds a node to a list, writes a value, sets the bound, links two lists
or destroys one, and else it only reads. Whatever its arguments are, it is carried
out in its own way or leaves the store as it is. This says once what one operation
can do; what operations keep follows case by case.
-/

namespace CheckedLists

variable {α : Type} {a : Arena α}

namespace Op

variable {op : Op (Option Handle) Handle α} {head : Option Handle} {p : Handle}

/-- The list that an operation adds a node to, if it adds one. -/
def target? : Op (Option Handle) Handle α → Option (Option Handle)
  | create _ | createOrPanic _ => some none
  | append head _ | appendOrPanic head _ => some head
  | _ => none

/-- The value of the node that an operation creates, if it creates one. -/
def payload? : Op (Option Handle) Handle α → Option α
  | create v | createOrPanic v | append _ v | appendOrPanic _ v => some v
  | _ => none

/-- The node that an operation writes a value to, if it writes one. -/
def cell? : Op (Option Handle) Handle α → Option Handle
  | set h _ | amend h _ => some h
  | _ => none

/-- What an operation that writes a value makes of the value that it finds. -/
def revised : Op (Option Handle) Handle α → α → α
  | set _ w, _ => w
  | amend _ f, v => f v
  | _, v => v

/-- An operation that adds a node to a list is an append to it. -/
theorem perform_of_target (ht : op.target? = some head) (a : Arena α) :
    ∃ v, op.payload? = some v ∧ op.perform.after a = (ArenaM.append head v).after a ∧
      ∀ {h b}, op.perform a = .ok (.node h) b ↔ ArenaM.append head v a = .ok h b := by
  have hnode : Function.Injective (Reply.node : Handle → Reply α) := fun _ _ => Reply.node.inj
  cases op <;> cases ht
  case create v => exact ⟨v, rfl, ArenaM.after_map _ _ _, ArenaM.map_eq_ok_iff hnode⟩
  case append v => exact ⟨v, rfl, ArenaM.after_map _ _ _, ArenaM.map_eq_ok_iff hnode⟩
  case createOrPanic v =>
    refine ⟨v, rfl, (ArenaM.after_map _ _ _).trans (ArenaM.after_orPanic _ _), ?_⟩
    exact (ArenaM.map_eq_ok_iff hnode).trans ArenaM.orPanic_eq_ok_iff
  case appendOrPanic v =>
    refine ⟨v, rfl, (ArenaM.after_map _ _ _).trans (ArenaM.after_orPanic _ _), ?_⟩
    exact (ArenaM.map_eq_ok_iff hnode).trans ArenaM.orPanic_eq_ok_iff

/-- An operation that writes a value revises the value of its node. -/
theorem after_of_cell (hc : op.cell? = some p) (a : Arena α) :
    (op.perform.after a).store = a.store.revise p op.revised := by
  cases op <;> cases hc
  case set w =>
    rw [perform, ArenaM.after_map, ArenaM.after, Store.revise]
    cases hn : a.store.lookup p with
    | error f => rw [ArenaM.set_of_error hn, Store.alter, hn]
    | ok n =>
      rw [ArenaM.set_of_lookup hn]
      rfl
  case amend f =>
    rw [perform, ArenaM.after_map, ArenaM.after, Store.revise]
    cases hn : a.store.lookup p with
    | error f => rw [ArenaM.amend_of_error hn, Store.alter, hn]
    | ok n =>
      rw [ArenaM.amend_of_lookup hn]
      rfl

/-- An operation that adds a node writes to no other node. -/
theorem cell?_of_target (ht : op.target? = some head) : op.cell? = none := by
  cases op <;> cases ht <;> rfl

/-- `t` is what an operation makes of the store of `a`. -/
inductive Makes (a : Arena α) : Op (Option Handle) Handle α → Store α → Prop where
  /-- The operation reads or is refused. -/
  | idle {op : Op (Option Handle) Handle α} (hc : op.cell? = none) : Makes a op a.store
  /-- A value is written, if the node is live. -/
  | write {op : Op (Option Handle) Handle α} {p : Handle} (hc : op.cell? = some p) :
      Makes a op (a.store.revise p op.revised)
  /-- The number of live nodes is bounded. -/
  | bound (limit : Option Nat) : Makes a (.setLimit limit) (a.store.setLimit limit)
  /-- A node is created on its own. -/
  | create {op : Op (Option Handle) Handle α} {head : Option Handle} {v : α} {h : Handle}
      {t : Store α} (ht : op.target? = some head) (hv : op.payload? = some v)
      (hc : a.store.Created v h t) : Makes a op t
  /-- A node is created behind the end of a list. -/
  | append {op : Op (Option Handle) Handle α} {head : Option Handle} {v : α} {h last : Handle}
      {t : Store α} (ht : op.target? = some head) (hv : op.payload? = some v)
      (hlast : a.store.next last = .ok none) (hc : a.store.Created v h t) :
      Makes a op (t.join last h)
  /-- The end of one list is linked to the head of another one. -/
  | link {x y : Handle} {ks : List Handle} (hx : a.store.next x = .ok none)
      (hc : a.store.Chain (some y) ks) (hhead : ¬ a.store.Owned y) (hoff : x ∉ ks) :
      Makes a (.link x y) (a.store.join x y)
  /-- A list is destroyed from its head. -/
  | destroy {h : Handle} {ks : List Handle} (hhead : ¬ a.store.Owned h)
      (hc : a.store.Chain (some h) ks) : Makes a (.destroy (some h)) (a.store.vacateAll ks)

/-- An operation that adds a node is refused, or it creates the node. -/
theorem makes_of_target (hs : a.store.Coherent) (ht : op.target? = some head) :
    op.Makes a (op.perform.after a).store := by
  obtain ⟨v, hv, hafter, _⟩ := perform_of_target ht a
  rw [hafter, ArenaM.after]
  obtain ⟨f, allocator, _, hrefused⟩ | ⟨_, h, t, u, r, records, hc, hu, hok⟩ :=
    ArenaM.append_refused_or_grown hs head v
  · rw [hrefused]
    exact .idle (cell?_of_target ht)
  · rw [hok, Arena.updated_store]
    obtain rfl | ⟨last, hlast, rfl⟩ := hu
    · exact .create ht hv hc
    · exact .append ht hv hlast hc

/-- Every operation on a coherent arena makes something of its store. -/
theorem makes_perform (hs : a.store.Coherent) (op : Op (Option Handle) Handle α) :
    op.Makes a (op.perform.after a).store := by
  cases op with
  | create v => exact makes_of_target hs rfl
  | createOrPanic v => exact makes_of_target hs rfl
  | append head v => exact makes_of_target hs rfl
  | appendOrPanic head v => exact makes_of_target hs rfl
  | set h v =>
    rw [after_of_cell rfl]
    exact .write rfl
  | amend h f =>
    rw [after_of_cell rfl]
    exact .write rfl
  | setLimit limit => exact .bound limit
  | destroy head =>
    rw [perform, ArenaM.after_map, ArenaM.after]
    cases head with
    | none => exact .idle rfl
    | some head =>
      obtain ⟨f, hdestroy⟩ | ⟨ks, hhead, hc, hdestroy⟩ := ArenaM.destroy_cases hs head
      · rw [hdestroy]
        exact .idle rfl
      · rw [hdestroy, Arena.updated_store]
        exact .destroy hhead hc
  | link x y =>
    rw [perform, ArenaM.after_map, ArenaM.after]
    obtain ⟨f, hlink⟩ | ⟨ks, hx, hc, hhead, hoff, hlink⟩ := ArenaM.link_cases hs x y
    · rw [hlink]
      exact .idle rfl
    · rw [hlink, Arena.updated_store]
      exact .link hx hc hhead hoff
  | next h | get h =>
    rw [perform, ArenaM.after_map, ArenaM.after_read]
    exact .idle rfl
  | length head | values head | iterate head steps =>
    rw [perform, ArenaM.after_map, ArenaM.after_walk]
    exact .idle rfl
  | all head q =>
    rw [ArenaM.after, perform_all]
    cases a.store.all head (numbered q) 0 <;> exact .idle rfl
  | isLive h => exact .idle rfl
  | live => exact .idle rfl
  | stats => exact .idle rfl
  | liveSince n => exact .idle rfl
  | limit => exact .idle rfl
  | describe tall => exact .idle rfl

end Op

end CheckedLists
