import CheckedLists.Arena.Create
import Mathlib.Tactic.ByContra

/-!
# Changes of a store

Every operation changes a store in a few ways: a node is created in a slot, a
live node is altered in place, two nodes are joined by a link, or a live node is
released and its slot vacated. The lemmas say what a lookup finds afterwards;
nothing else about slots is needed to reason about nodes and their links.
-/

namespace CheckedLists

/-- A handle is given by its slot and its generation. -/
theorem Handle.eq_of_slot_eq {p q : Handle} (hs : p.slot = q.slot)
    (hg : p.generation = q.generation) : p = q := by
  obtain ⟨i, g⟩ := p
  obtain ⟨j, k⟩ := q
  obtain rfl := UInt32.toNat_inj.mp hs
  obtain rfl : g = k := hg
  rfl

namespace Store

variable {α : Type} {s t : Store α} {a b h p q : Handle} {n m : Node α}

theorem lookup_congr (hs : s.slots[p.slot]? = t.slots[p.slot]?) : s.lookup p = t.lookup p := by
  unfold lookup
  rw [hs]

/-- In an occupied slot a handle finds the node if it has the node's generation. -/
theorem lookup_of_occupied (hs : s.slots[p.slot]? = some (.occupied n)) :
    s.lookup p =
      if n.generation = p.generation then .ok n else .error (.useAfterRelease p) := by
  unfold lookup
  rw [hs]

/-- In a vacant slot every handle is the handle of a released node. -/
theorem lookup_of_vacant {place : Option UInt32} {g : UInt32}
    (hs : s.slots[p.slot]? = some (.vacant place g)) :
    s.lookup p = .error (.useAfterRelease p) := by
  unfold lookup
  rw [hs]

theorem slot_lt_of_lookup (hn : s.lookup h = .ok n) : h.slot < s.slots.size :=
  (Array.getElem?_eq_some_iff.mp (lookup_eq_ok_iff.mp hn).1).choose

/-- Beside a live handle no other handle of its slot is live. -/
theorem lookup_of_slot_eq (hn : s.lookup h = .ok n) (hs : p.slot = h.slot) (hne : p ≠ h) :
    s.lookup p = .error (.useAfterRelease p) := by
  obtain ⟨ho, hg⟩ := lookup_eq_ok_iff.mp hn
  rw [← hs] at ho
  rw [lookup_of_occupied ho, if_neg]
  intro he
  exact hne (Handle.eq_of_slot_eq hs (he.symm.trans hg))

/-- Two live handles of one slot are the same. -/
theorem eq_of_slot_eq (hn : s.lookup p = .ok n) (hm : s.lookup q = .ok m)
    (hs : p.slot = q.slot) : p = q := by
  by_contra hne
  rw [lookup_of_slot_eq hm hs hne] at hn
  contradiction

theorem isLive_iff : s.isLive h = true ↔ ∃ n, s.lookup h = .ok n := by
  unfold isLive
  cases s.lookup h <;> simp [Except.isOk, Except.toBool]

/-- Where a handle names no live node, it is said whether it has a slot at all. -/
theorem lookup_eq_error_iff {f : Fault} : s.lookup h = .error f ↔
    s.isLive h = false ∧
      f = if h.slot < s.slots.size then .useAfterRelease h else .invalidHandle h := by
  unfold isLive lookup
  by_cases hslot : h.slot < s.slots.size
  · rw [Array.getElem?_eq_getElem hslot, if_pos hslot]
    cases s.slots[h.slot] with
    | vacant => simp [Except.isOk, Except.toBool, eq_comm]
    | occupied n =>
      by_cases hg : n.generation = h.generation <;>
        simp [hg, Except.isOk, Except.toBool, eq_comm]
  · rw [Array.getElem?_eq_none (Nat.le_of_not_lt hslot), if_neg hslot]
    simp [Except.isOk, Except.toBool, eq_comm]

/-- The successor of a node is read off the node. -/
theorem next_eq_ok_iff {place : Option Handle} :
    s.next h = .ok place ↔ ∃ n, s.lookup h = .ok n ∧ n.next = place := by
  unfold next
  cases s.lookup h <;> simp [Except.map]

/-- The value of a node is read off the node. -/
theorem get_eq_ok_iff {v : α} : s.get h = .ok v ↔ ∃ n, s.lookup h = .ok n ∧ n.value = v := by
  unfold get
  cases s.lookup h <;> simp [Except.map]

/-- Exactly the live nodes have a value. -/
theorem isLive_iff_get : s.isLive h = true ↔ ∃ v, s.get h = .ok v := by
  simp only [isLive_iff, get_eq_ok_iff, exists_comm, exists_and_left, exists_eq', and_true]

/-- A node with a known successor is live. -/
theorem isLive_of_next {place : Option Handle} (hn : s.next h = .ok place) :
    s.isLive h = true := by
  obtain ⟨n, hl, _⟩ := next_eq_ok_iff.mp hn
  exact isLive_iff.mpr ⟨n, hl⟩

/-- A handle finds the same in `t` as in `s` if it finds a node, and finds this node in `t` too. -/
theorem lookup_eq_of_isLive (hp : s.isLive p = true)
    (hkeep : ∀ m, s.lookup p = .ok m → t.lookup p = .ok m) : t.lookup p = s.lookup p := by
  obtain ⟨m, hm⟩ := isLive_iff.mp hp
  rw [hkeep m hm, hm]

theorem next_eq_of_lookup_eq (hl : t.lookup p = s.lookup p) : t.next p = s.next p := by
  rw [next, hl, next]

theorem get_eq_of_lookup_eq (hl : t.lookup p = s.lookup p) : t.get p = s.get p := by
  rw [get, hl, get]

/-- A live node that says that it is the successor of another one. -/
def Owned (s : Store α) (h : Handle) : Prop := ∃ n, s.lookup h = .ok n ∧ n.owned = true

/-- A live node that does not say so is not owned. -/
theorem not_owned (hn : s.lookup h = .ok n) (hhead : n.owned = false) : ¬ s.Owned h := by
  rintro ⟨m, hm, howned⟩
  obtain rfl := Except.ok.inj (hn.symm.trans hm)
  rw [hhead] at howned
  cases howned

/-- Change the node that a handle names, if it names one. -/
def alter (s : Store α) (h : Handle) (f : Node α → Node α) : Store α :=
  match s.lookup h with
  | .ok n => s.put h.slot (.occupied (f n))
  | .error _ => s

theorem alter_of_lookup (hn : s.lookup h = .ok n) (f : Node α → Node α) :
    s.alter h f = s.put h.slot (.occupied (f n)) := by
  rw [alter, hn]

/-- An update alters the node, or is refused for the reason that the lookup gives. -/
theorem update_eq (s : Store α) (h : Handle) (f : Node α → Node α) :
    s.update h f = (s.lookup h).map fun _ => s.alter h f := by
  unfold update alter
  cases s.lookup h <;> rfl

/-- Altering a node in its generation changes what its handle finds, and nothing else. -/
theorem lookup_alter {f : Node α → Node α} (hf : ∀ n, (f n).generation = n.generation) :
    (s.alter h f).lookup p = if p = h then (s.lookup h).map f else s.lookup p := by
  cases hl : s.lookup h with
  | error e =>
    simp only [alter, hl]
    split
    · rename_i he
      rw [he, hl]
      rfl
    · rfl
  | ok n =>
    rw [alter_of_lookup hl]
    by_cases hs : h.slot = p.slot
    · have hput : (s.put h.slot (.occupied (f n))).slots[p.slot]? = some (.occupied (f n)) := by
        rw [getElem?_put, if_pos hs, if_pos (slot_lt_of_lookup hl)]
      rw [lookup_of_occupied hput, hf, (lookup_eq_ok_iff.mp hl).2]
      by_cases he : p = h
      · rw [if_pos he, if_pos (by rw [he])]
        rfl
      · rw [if_neg he, lookup_of_slot_eq hl hs.symm he, if_neg]
        intro hg
        exact he (Handle.eq_of_slot_eq hs.symm hg.symm)
    · have hne : p ≠ h := by
        rintro rfl
        exact hs rfl
      rw [if_neg hne]
      apply lookup_congr
      rw [getElem?_put, if_neg hs]

/-- Altering a node without changing its links changes no links. -/
theorem next_alter {f : Node α → Node α} (hf : ∀ n, (f n).generation = n.generation)
    (hn : ∀ n, (f n).next = n.next) : (s.alter h f).next p = s.next p := by
  unfold next
  rw [lookup_alter hf]
  by_cases he : p = h
  · rw [if_pos he, he]
    cases s.lookup h with
    | error => rfl
    | ok n => exact congrArg Except.ok (hn n)
  · rw [if_neg he]

/-- Altering a node without changing its value changes no values. -/
theorem get_alter {f : Node α → Node α} (hf : ∀ n, (f n).generation = n.generation)
    (hv : ∀ n, (f n).value = n.value) : (s.alter h f).get p = s.get p := by
  unfold get
  rw [lookup_alter hf]
  by_cases he : p = h
  · rw [if_pos he, he]
    cases s.lookup h with
    | error => rfl
    | ok n => exact congrArg Except.ok (hv n)
  · rw [if_neg he]

/-- Altering a node in its generation leaves the live nodes. -/
theorem isLive_alter {f : Node α → Node α} (hf : ∀ n, (f n).generation = n.generation) :
    (s.alter h f).isLive p = s.isLive p := by
  unfold isLive
  rw [lookup_alter hf]
  by_cases he : p = h
  · rw [if_pos he, he]
    cases s.lookup h <;> rfl
  · rw [if_neg he]

theorem owned_alter {f : Node α → Node α} (hf : ∀ n, (f n).generation = n.generation)
    (ho : ∀ n, (f n).owned = n.owned) : (s.alter h f).Owned p ↔ s.Owned p := by
  unfold Owned
  rw [lookup_alter hf]
  by_cases he : p = h
  · subst he
    cases s.lookup p <;> simp [Except.map, ho]
  · rw [if_neg he]

/-- Altering a node moves no counter and makes no slot. -/
theorem counters_alter (s : Store α) (h : Handle) (f : Node α → Node α) :
    (s.alter h f).live = s.live ∧ (s.alter h f).stats = s.stats ∧
      (s.alter h f).limit = s.limit ∧ (s.alter h f).slots.size = s.slots.size := by
  unfold alter
  cases s.lookup h with
  | ok n => exact ⟨rfl, rfl, rfl, size_put s _ _⟩
  | error e => exact ⟨rfl, rfl, rfl, rfl⟩

/-- Revise the value of the node that a handle names, if it names one. -/
def revise (s : Store α) (h : Handle) (f : α → α) : Store α :=
  s.alter h fun n => { n with value := f n.value }

theorem next_revise {f : α → α} : (s.revise h f).next p = s.next p :=
  next_alter (by intro; rfl) (by intro; rfl)

theorem isLive_revise {f : α → α} : (s.revise h f).isLive p = s.isLive p :=
  isLive_alter (by intro; rfl)

/-- A revision changes the value of one node. -/
theorem get_revise {f : α → α} :
    (s.revise h f).get p = if p = h then (s.get p).map f else s.get p := by
  rw [get, revise, lookup_alter (by intro; rfl)]
  by_cases he : p = h
  · rw [if_pos he, if_pos he, he, get]
    cases s.lookup h <;> rfl
  · rw [if_neg he, if_neg he, get]

/-- Make `b` the successor of `a`. -/
def join (s : Store α) (a b : Handle) : Store α :=
  (s.alter a fun n => { n with next := some b }).alter b fun n => { n with owned := true }

/-- Joining changes what the two handles find, and nothing else. -/
theorem lookup_join (hne : a ≠ b) :
    (s.join a b).lookup p =
      if p = b then (s.lookup b).map fun n => { n with owned := true }
      else if p = a then (s.lookup a).map fun n => { n with next := some b }
      else s.lookup p := by
  rw [join, lookup_alter (by intro; rfl), lookup_alter (by intro; rfl),
    lookup_alter (by intro; rfl), if_neg hne.symm]

theorem isLive_join : (s.join a b).isLive p = s.isLive p :=
  (isLive_alter (by intro; rfl)).trans (isLive_alter (by intro; rfl))

/-- Joining two nodes changes no values. -/
theorem get_join : (s.join a b).get p = s.get p :=
  (get_alter (by intro; rfl) (by intro; rfl)).trans (get_alter (by intro; rfl) (by intro; rfl))

/-- Joining two live nodes gives the first its successor and leaves all other links. -/
theorem next_join (hne : a ≠ b) (ha : s.isLive a = true) :
    (s.join a b).next p = if p = a then .ok (some b) else s.next p := by
  unfold next
  rw [lookup_join hne]
  by_cases hpb : p = b
  · rw [if_pos hpb, if_neg (by rw [hpb]; exact hne.symm), hpb]
    cases s.lookup b <;> rfl
  · rw [if_neg hpb]
    by_cases hpa : p = a
    · obtain ⟨n, hn⟩ := isLive_iff.mp ha
      rw [if_pos hpa, if_pos hpa, hn]
      rfl
    · rw [if_neg hpa, if_neg hpa]

/-- After joining two live nodes the second one is owned, and the others as before. -/
theorem owned_join (hne : a ≠ b) (hb : s.isLive b = true) :
    (s.join a b).Owned p ↔ p = b ∨ s.Owned p := by
  obtain ⟨m, hm⟩ := isLive_iff.mp hb
  unfold Owned
  rw [lookup_join hne]
  by_cases hpb : p = b
  · simp [hpb, hm, Except.map]
  · by_cases hpa : p = a
    · subst hpa
      cases hl : s.lookup p <;> simp [hne, Except.map]
    · simp [hpa, hpb]

/-- Joining two nodes moves no counter and makes no slot. -/
theorem counters_join (s : Store α) (a b : Handle) :
    (s.join a b).live = s.live ∧ (s.join a b).stats = s.stats ∧
      (s.join a b).limit = s.limit ∧ (s.join a b).slots.size = s.slots.size := by
  obtain ⟨hlive, hstats, hlimit, hsize⟩ :=
    (s.alter a fun n => { n with next := some b }).counters_alter b fun n => { n with owned := true }
  obtain ⟨hlive', hstats', hlimit', hsize'⟩ :=
    s.counters_alter a fun n => { n with next := some b }
  exact ⟨hlive.trans hlive', hstats.trans hstats', hlimit.trans hlimit', hsize.trans hsize'⟩

/-- Release the node that a live handle names: its slot becomes the top of the free list, and
its next node will have the next generation. -/
def vacate (s : Store α) (h : Handle) : Store α :=
  { s.put h.slot (.vacant s.free (h.generation + 1)) with
    free := some h.index
    live := s.live - 1
    stats := { s.stats with released := s.stats.released + 1 } }

/-- A release changes the slot of the node and leaves the other slots. -/
theorem getElem?_vacate (hn : s.lookup h = .ok n) (i : Nat) :
    (s.vacate h).slots[i]? =
      if h.slot = i then some (.vacant s.free (h.generation + 1)) else s.slots[i]? := by
  change (s.put h.slot _).slots[i]? = _
  rw [getElem?_put, if_pos (slot_lt_of_lookup hn)]

/-- After a release no handle of the slot finds a node, and the others find what they found. -/
theorem lookup_vacate (hn : s.lookup h = .ok n) :
    (s.vacate h).lookup p =
      if p.slot = h.slot then .error (.useAfterRelease p) else s.lookup p := by
  have hslot := getElem?_vacate hn p.slot
  by_cases hs : h.slot = p.slot
  · rw [if_pos hs] at hslot
    rw [lookup_of_vacant hslot, if_pos hs.symm]
  · rw [if_neg hs] at hslot
    rw [if_neg (Ne.symm hs)]
    exact lookup_congr hslot

/-- A release takes away the node that is released, and no other one. -/
theorem lookup_vacate_eq_ok_iff (hn : s.lookup h = .ok n) :
    (s.vacate h).lookup p = .ok m ↔ p ≠ h ∧ s.lookup p = .ok m := by
  rw [lookup_vacate hn]
  constructor
  · intro hp
    split at hp
    · contradiction
    · rename_i hs
      refine ⟨?_, hp⟩
      rintro rfl
      exact hs rfl
  · rintro ⟨hne, hp⟩
    rw [if_neg, hp]
    intro hs
    exact hne (eq_of_slot_eq hp hn hs)

/-- A release takes away the link of the node that is released, and no other link. -/
theorem next_vacate_eq_ok_iff (hn : s.lookup h = .ok n) {place : Option Handle} :
    (s.vacate h).next p = .ok place ↔ p ≠ h ∧ s.next p = .ok place := by
  simp only [next_eq_ok_iff, lookup_vacate_eq_ok_iff hn, and_assoc, exists_and_left]

theorem owned_vacate (hn : s.lookup h = .ok n) :
    (s.vacate h).Owned p ↔ p ≠ h ∧ s.Owned p := by
  simp only [Owned, lookup_vacate_eq_ok_iff hn, and_assoc, exists_and_left]

theorem isLive_vacate (hn : s.lookup h = .ok n) :
    (s.vacate h).isLive p = true ↔ p ≠ h ∧ s.isLive p = true := by
  simp only [isLive_iff, lookup_vacate_eq_ok_iff hn, exists_and_left]

/-- Of live nodes that are told apart the first one can be released, and the others are then live
still. -/
theorem live_behind {ks : List Handle} (hnodup : (h :: ks).Nodup)
    (hlive : ∀ p ∈ h :: ks, s.isLive p = true) :
    ∃ n, s.lookup h = .ok n ∧ ks.Nodup ∧ ∀ p ∈ ks, (s.vacate h).isLive p = true := by
  obtain ⟨hh, hks⟩ := List.nodup_cons.mp hnodup
  obtain ⟨n, hn⟩ := isLive_iff.mp (hlive h List.mem_cons_self)
  refine ⟨n, hn, hks, fun p hp => (isLive_vacate hn).mpr ⟨?_, ?_⟩⟩
  · rintro rfl
    exact hh hp
  · exact hlive p (List.mem_cons_of_mem _ hp)

/-- `t` is what `s` becomes when a node with value `v` is created and named `h`: the node takes
the slot on top of the free list, or a new slot behind the others if no slot is free. -/
inductive Created (s : Store α) (v : α) : Handle → Store α → Prop where
  | reuse {i : UInt32} {place : Option UInt32} {g : UInt32} (hfree : s.free = some i)
      (hslot : s.slots[i.toNat]? = some (.vacant place g)) :
      Created s v ⟨i, g⟩
        { s.put i.toNat (.occupied (ArenaM.freshNode v g s.stats.created)) with
          free := place
          live := s.live + 1
          stats := { s.stats with created := s.stats.created + 1 } }
  | grow (hfree : s.free = none) (hsize : s.slots.size < maxNodes) :
      Created s v ⟨s.slots.size.toUInt32, 0⟩
        { s with
          slots := s.slots.push (.occupied (ArenaM.freshNode v 0 s.stats.created))
          live := s.live + 1
          stats := { s.stats with created := s.stats.created + 1 } }

/-- A position that a handle can have is not cut when it is written with 32 bits. -/
theorem toNat_toUInt32_of_le {i : Nat} (hi : i ≤ maxNodes) : i.toUInt32.toNat = i := by
  have hsize : i < 2 ^ 32 := by
    unfold maxNodes UInt32.size at hi
    omega
  exact UInt32.toNat_ofNat_of_lt' hsize

namespace Created

variable {v : α}

/-- A creation is counted, and leaves the bound. -/
theorem counters (hc : s.Created v h t) :
    t.live = s.live + 1 ∧ t.stats = ⟨s.stats.created + 1, s.stats.released⟩ ∧
      t.limit = s.limit := by
  cases hc <;> exact ⟨rfl, rfl, rfl⟩

/-- Before a creation the slot of the new handle holds no node. -/
theorem not_live (hc : s.Created v h t) (hs : p.slot = h.slot) : s.lookup p ≠ .ok n := by
  intro hn
  have ho := (Store.lookup_eq_ok_iff.mp hn).1
  have hlt := slot_lt_of_lookup hn
  rw [hs] at ho hlt
  cases hc with
  | reuse _ hslot =>
    change s.slots[UInt32.toNat _]? = _ at ho
    rw [hslot] at ho
    cases ho
  | grow _ hsize =>
    change UInt32.toNat _ < _ at hlt
    rw [toNat_toUInt32_of_le (Nat.le_of_lt hsize)] at hlt
    omega

/-- A creation fills the slot of the new handle and leaves the other slots. -/
theorem getElem?_slots (hc : s.Created v h t) (j : Nat) :
    t.slots[j]? =
      if j = h.slot then some (.occupied (ArenaM.freshNode v h.generation s.stats.created))
      else s.slots[j]? := by
  cases hc with
  | @reuse i place g _ hslot =>
    have hlt : i.toNat < s.slots.size := (Array.getElem?_eq_some_iff.mp hslot).choose
    change (s.put i.toNat _).slots[j]? = if j = i.toNat then _ else _
    rw [getElem?_put, if_pos hlt]
    by_cases hj : j = i.toNat
    · rw [if_pos hj, if_pos hj.symm]
    · rw [if_neg hj, if_neg (Ne.symm hj)]
  | grow _ hsize =>
    have hslot : Handle.slot ⟨s.slots.size.toUInt32, 0⟩ = s.slots.size :=
      toNat_toUInt32_of_le (Nat.le_of_lt hsize)
    rw [hslot]
    exact Array.getElem?_push

/-- After a creation the new handle finds the new node, other handles of its slot find none, and
handles of other slots find what they found. -/
theorem lookup (hc : s.Created v h t) :
    t.lookup p =
      if p = h then .ok (ArenaM.freshNode v h.generation s.stats.created)
      else if p.slot = h.slot then .error (.useAfterRelease p)
      else s.lookup p := by
  have hslots := hc.getElem?_slots p.slot
  by_cases hs : p.slot = h.slot
  · rw [if_pos hs] at hslots
    rw [lookup_of_occupied hslots, if_pos hs]
    by_cases he : p = h
    · rw [if_pos he, if_pos (by rw [he]; rfl)]
    · rw [if_neg he, if_neg]
      intro hg
      exact he (Handle.eq_of_slot_eq hs hg.symm)
  · have hne : p ≠ h := by
      rintro rfl
      exact hs rfl
    rw [if_neg hs] at hslots
    rw [if_neg hs, if_neg hne]
    exact lookup_congr hslots

/-- After a creation the new node is live, and the others as before. -/
theorem lookup_eq_ok_iff (hc : s.Created v h t) :
    t.lookup p = .ok m ↔
      p = h ∧ ArenaM.freshNode v h.generation s.stats.created = m ∨ s.lookup p = .ok m := by
  rw [hc.lookup]
  by_cases he : p = h
  · subst he
    simp [hc.not_live rfl]
  · rw [if_neg he]
    by_cases hs : p.slot = h.slot
    · simp [he, hs, hc.not_live hs]
    · simp [he, hs]

/-- A creation leaves all live nodes. -/
theorem lookup_of_isLive (hc : s.Created v h t) (hp : s.isLive p = true) :
    t.lookup p = s.lookup p :=
  lookup_eq_of_isLive hp fun _ hm => hc.lookup_eq_ok_iff.mpr (.inr hm)

/-- A creation adds a node without successor and changes no links. -/
theorem next_eq_ok_iff (hc : s.Created v h t) {place : Option Handle} :
    t.next p = .ok place ↔ p = h ∧ none = place ∨ s.next p = .ok place := by
  simp only [Store.next_eq_ok_iff, hc.lookup_eq_ok_iff, or_and_right, exists_or, and_assoc,
    exists_and_left, exists_eq_left']
  rfl

/-- A creation adds a node with its value and changes no values. -/
theorem get_eq_ok_iff (hc : s.Created v h t) {w : α} :
    t.get p = .ok w ↔ p = h ∧ v = w ∨ s.get p = .ok w := by
  simp only [Store.get_eq_ok_iff, hc.lookup_eq_ok_iff, or_and_right, exists_or, and_assoc,
    exists_and_left, exists_eq_left']
  rfl

/-- A node with a known successor is not the one that is created. -/
theorem ne_of_next (hc : s.Created v h t) {place : Option Handle} (hp : s.next p = .ok place) :
    p ≠ h := by
  rintro rfl
  obtain ⟨n, hn, _⟩ := Store.next_eq_ok_iff.mp hp
  exact hc.not_live rfl hn

/-- After a node is created and joined to the end of a list, it is the successor of that end. -/
theorem next_join (hc : s.Created v h t) {last : Handle} (hlast : s.next last = .ok none) :
    (t.join last h).next last = .ok (some h) := by
  have hend := hc.next_eq_ok_iff.mpr (.inr hlast)
  rw [Store.next_join (hc.ne_of_next hlast) (isLive_of_next hend), if_pos rfl]

theorem owned_iff (hc : s.Created v h t) : t.Owned p ↔ s.Owned p := by
  simp only [Owned, hc.lookup_eq_ok_iff, or_and_right, exists_or, and_assoc, exists_and_left,
    exists_eq_left']
  simp [ArenaM.freshNode]

theorem isLive_iff (hc : s.Created v h t) : t.isLive p = true ↔ p = h ∨ s.isLive p = true := by
  simp only [Store.isLive_iff, hc.lookup_eq_ok_iff, exists_or, exists_and_left, exists_eq',
    and_true]

end Created

end Store

end CheckedLists
