import CheckedLists.Proofs.Operation

/-!
# Effects of operations

Whatever operation is performed on a coherent arena, with whatever arguments and
whether or not it is carried out, its effect on the store is one of seven. Each
kind says what had to hold before and which records are written. An invariant of
stores is therefore kept by all operations if it is kept by all effects.
-/

namespace CheckedLists

variable {α β γ : Type} {a : Arena α} {s t : Store α}

/-- What an operation does to a store, with the records that it writes. -/
inductive Store.Effect (s : Store α) : Store α → List Record → Prop where
  /-- Nothing is changed. -/
  | idle : Effect s s []
  /-- The value of a node is changed. -/
  | write (h : Handle) (g : Node α → α) :
      Effect s (s.alter h fun n => { n with value := g n }) []
  /-- The number of live nodes is bounded. -/
  | bound (limit : Option Nat) : Effect s (s.setLimit limit) []
  /-- A node is created. -/
  | create {v : α} {h : Handle} {t : Store α} (hc : s.Created v h t) : Effect s t [.created h]
  /-- A node is created and put behind the last node of a list. -/
  | append {v : α} {h last : Handle} {t : Store α} (hlast : s.next last = .ok none)
      (hc : s.Created v h t) : Effect s (t.join last h) [.created h, .appended h last]
  /-- The end of one list is linked to the head of another one. -/
  | link {x y : Handle} {ks : List Handle} (hx : s.next x = .ok none)
      (hc : s.Chain (some y) ks) (hhead : ¬ s.Owned y) (hoff : x ∉ ks) :
      Effect s (s.join x y) [.linked x y]
  /-- A list is destroyed from its head. -/
  | destroy {h : Handle} {ks : List Handle} (hhead : ¬ s.Owned h) (hc : s.Chain (some h) ks) :
      Effect s (s.vacateAll ks) (ks.map .released ++ [.destroyed ks.length h])

/-- Every effect keeps a store coherent. -/
theorem Store.Effect.coherent {records : List Record} (he : s.Effect t records)
    (hs : s.Coherent) : t.Coherent := by
  cases he with
  | idle => exact hs
  | write h g => exact hs.alter_value h g
  | bound limit => exact hs.setLimit limit
  | create hc => exact hs.created hc
  | @append v h last t hlast hc =>
    have hnew : t.next h = .ok none := hc.next_eq_ok_iff.mpr (.inl ⟨rfl, rfl⟩)
    have hne := hc.ne_of_next hlast
    refine (hs.created hc).join (hc.next_eq_ok_iff.mpr (.inr hlast)) (.cons hnew .nil) ?_ ?_
    · rw [hc.owned_iff]
      rintro ⟨n, hn, _⟩
      exact hc.not_live rfl hn
    · simpa using hne
  | link hx hc hhead hoff => exact hs.join hx hc hhead hoff
  | destroy hhead hc => exact hs.vacateAll hhead hc

/-- `b` is what an effect on the store of `a` leaves of `a`. -/
def Arena.Leaves (a b : Arena α) : Prop :=
  ∃ t records, a.store.Effect t records ∧ b = a.updated t records

/-- The idle effect leaves an arena alone. -/
theorem Arena.leaves_self (a : Arena α) : a.Leaves a :=
  ⟨a.store, [], .idle, by simp [updated]⟩

/-- An abort by which an operation is refused, as an error or as a panic. -/
inductive Abort.Refusal : Abort Fault → Prop where
  | error (f : Fault) : Refusal (.error f)
  | panic (f : Fault) : Refusal (.panic (.refused f))

namespace ArenaM

/-- A computation on an arena arrives with an effect on it, or it is refused and leaves the store
and the journal as they are. The allocator may have counted the refusal. -/
def Settles (c : ArenaM α β) (a : Arena α) : Prop :=
  (∃ b a', c a = .ok b a' ∧ a.Leaves a') ∨
    ∃ e allocator, c a = .error e { a with allocator := allocator } ∧ e.Refusal

/-- A computation that arrives with an effect settles. -/
theorem settles_of_effect {c : ArenaM α β} {b : β} {records : List Record}
    (hc : c a = .ok b (a.updated t records)) (he : a.store.Effect t records) : c.Settles a :=
  .inl ⟨b, _, hc, t, records, he, rfl⟩

theorem settles_of_ok {c : ArenaM α β} {b : β} (hc : c a = .ok b a) : c.Settles a :=
  .inl ⟨b, a, hc, a.leaves_self⟩

/-- A computation that is refused settles. -/
theorem settles_of_error {c : ArenaM α β} {f : Fault} {allocator : Allocator}
    (hc : c a = .error (.error f) { a with allocator := allocator }) : c.Settles a :=
  .inr ⟨_, allocator, hc, .error f⟩

/-- A change of the result does not matter. -/
theorem Settles.map {c : ArenaM α β} (hc : c.Settles a) (g : β → γ) : (g <$> c).Settles a := by
  obtain ⟨b, a', hok, hl⟩ | ⟨e, allocator, herror, hr⟩ := hc
  · exact .inl ⟨g b, a', by rw [map_apply, hok], hl⟩
  · exact .inr ⟨e, allocator, by rw [map_apply, herror], hr⟩

/-- A refusal may be a panic. -/
theorem Settles.orPanic {c : ArenaM α β} (hc : c.Settles a) : c.orPanic.Settles a := by
  obtain ⟨b, a', hok, hl⟩ | ⟨e, allocator, herror, hr⟩ := hc
  · exact .inl ⟨b, a', by rw [ArenaM.orPanic, hok], hl⟩
  · cases hr with
    | error f => exact .inr ⟨_, allocator, by rw [ArenaM.orPanic, herror], .panic f⟩
    | panic f => exact .inr ⟨_, allocator, by rw [ArenaM.orPanic, herror], .panic f⟩

/-- Readings settle. -/
theorem settles_read (g : Store α → Except Fault β) (a : Arena α) : (read g).Settles a := by
  cases hg : g a.store with
  | ok b => exact settles_of_ok (read_of_ok hg)
  | error f => exact settles_of_error (f := f) (by rw [read_apply, hg])

/-- Walks along a list settle if they come to the end of its chain, and end with the fault of the
lookup where there is none. -/
theorem settles_walk (hs : a.store.Coherent) (head : Option Handle)
    {g : Store α → Except (Abort Fault) β}
    (hchain : ∀ {ks}, a.store.Chain head ks → ∃ b, g a.store = .ok b)
    (herror : ∀ {h f}, head = some h → a.store.lookup h = .error f →
      g a.store = .error (.error f)) : (walk g).Settles a := by
  obtain ⟨ks, hc⟩ | ⟨h, f, hhead, hf⟩ := hs.chain_or_error head
  · obtain ⟨b, hb⟩ := hchain hc
    exact settles_of_ok (walk_of_ok hb)
  · exact settles_of_error (f := f) (by rw [walk_apply, herror hhead hf])

/-- Counting, collecting and stepping through the values of a list settle. -/
theorem settles_walks (hs : a.store.Coherent) (head : Option Handle) :
    (walk fun s => s.length head).Settles a ∧ (walk fun s => s.values head).Settles a ∧
      ∀ steps, (walk fun s => s.iterate head steps).Settles a := by
  refine ⟨?_, ?_, fun steps => ?_⟩
  · refine settles_walk hs head (fun hc => ⟨_, hs.length_eq hc⟩) ?_
    rintro h f rfl hf
    exact Store.length_of_error hf
  · refine settles_walk hs head (fun hc => ⟨_, hs.values_eq hc⟩) ?_
    rintro h f rfl hf
    exact Store.values_of_error hf
  · refine settles_walk hs head (fun hc => ?_) ?_
    · obtain ⟨answers, hi, _⟩ := Store.iterate_of_chain hc steps
      exact ⟨_, hi⟩
    · rintro h f rfl hf
      exact Store.iterate_of_error hf steps

theorem settles_create (hs : a.store.Coherent) (v : α) : (create v).Settles a := by
  by_cases hx : a.Exhausted
  · obtain ⟨allocator, _, hcreate⟩ := create_of_exhausted hx v
    exact settles_of_error hcreate
  · obtain ⟨h, t, hc, hcreate⟩ := create_of_not_exhausted hs.slotted hx v
    exact settles_of_effect hcreate (.create hc)

theorem settles_append (hs : a.store.Coherent) (head : Option Handle) (v : α) :
    (append head v).Settles a := by
  cases head with
  | none => exact settles_create hs v
  | some head =>
    obtain ⟨f, allocator, happend⟩ | ⟨ks, last, h, t, hc, hlast, hcreated, happend⟩ :=
      append_cases hs head v
    · exact settles_of_error happend
    · exact settles_of_effect happend (.append (hc.next_of_getLast? hlast) hcreated)

theorem settles_link (hs : a.store.Coherent) (x y : Handle) : (link x y).Settles a := by
  obtain ⟨f, hlink⟩ | ⟨ks, hx, hc, hhead, hoff, hlink⟩ := link_cases hs x y
  · exact settles_of_error hlink
  · exact settles_of_effect hlink (.link hx hc hhead hoff)

theorem settles_destroy (hs : a.store.Coherent) (head : Option Handle) :
    (destroy head).Settles a := by
  cases head with
  | none => exact settles_of_ok rfl
  | some head =>
    obtain ⟨f, hdestroy⟩ | ⟨ks, hhead, hc, hdestroy⟩ := destroy_cases hs head
    · exact settles_of_error hdestroy
    · exact settles_of_effect hdestroy (.destroy hhead hc)

theorem settles_set (a : Arena α) (h : Handle) (v : α) : (set h v).Settles a := by
  cases hn : a.store.lookup h with
  | error f => exact settles_of_error (set_of_error hn v)
  | ok n => exact settles_of_effect (set_of_lookup hn v) (.write h fun _ => v)

theorem settles_amend (a : Arena α) (h : Handle) (g : α → α) : (amend h g).Settles a := by
  cases hn : a.store.lookup h with
  | error f => exact settles_of_error (amend_of_error hn g)
  | ok n => exact settles_of_effect (amend_of_lookup hn g) (.write h fun n => g n.value)

/-- Questions about all values of a list settle. -/
theorem settles_all (hs : a.store.Coherent) (head : Option Handle) (p : Nat → α → Bool) :
    (Op.all head p).perform.Settles a := by
  obtain ⟨ks, hc⟩ | ⟨h, f, rfl, hf⟩ := hs.chain_or_error head
  · exact settles_of_ok (by rw [Op.perform_all, hs.all_eq hc])
  · have hall := Store.all_of_error hf (numbered p) 0
    exact settles_of_error (f := f) (by rw [Op.perform_all, hall])

end ArenaM

/-- Every operation on a coherent arena settles. -/
theorem Op.settles_perform (hs : a.store.Coherent) (op : Op (Option Handle) Handle α) :
    op.perform.Settles a := by
  cases op with
  | create v => exact (ArenaM.settles_create hs v).map _
  | createOrPanic v => exact (ArenaM.settles_create hs v).orPanic.map _
  | append head v => exact (ArenaM.settles_append hs head v).map _
  | appendOrPanic head v => exact (ArenaM.settles_append hs head v).orPanic.map _
  | destroy head => exact (ArenaM.settles_destroy hs head).map _
  | link x y => exact (ArenaM.settles_link hs x y).map _
  | set h v => exact (ArenaM.settles_set a h v).map _
  | amend h g => exact (ArenaM.settles_amend a h g).map _
  | setLimit limit => exact ArenaM.settles_of_effect (by rfl) (.bound limit)
  | next h => exact (ArenaM.settles_read _ a).map _
  | get h => exact (ArenaM.settles_read _ a).map _
  | length head => exact (ArenaM.settles_walks hs head).1.map _
  | values head => exact (ArenaM.settles_walks hs head).2.1.map _
  | iterate head steps => exact ((ArenaM.settles_walks hs head).2.2 steps).map _
  | all head p => exact ArenaM.settles_all hs head p
  | isLive h => exact ArenaM.settles_of_ok rfl
  | live => exact ArenaM.settles_of_ok rfl
  | stats => exact ArenaM.settles_of_ok rfl
  | liveSince n => exact ArenaM.settles_of_ok rfl
  | limit => exact ArenaM.settles_of_ok rfl
  | describe tall => exact ArenaM.settles_of_ok rfl

end CheckedLists
