import CheckedLists.Proofs.Recorded
import Mathlib.Data.List.Nodup

/-!
# Nodes by serial

Nodes are numbered in the order of their creation, and each keeps its serial while it
is live. Whoever knows which nodes a store held and what was recorded since knows
which nodes it holds now: the old ones that were not released, and the newcomers,
which were created and not released behind their creation. The serials tell the two
apart, also where a newcomer has taken the slot of an old node.
-/

namespace CheckedLists

variable {α : Type}

/-- How many nodes are created. -/
def births (records : List Record) : Nat :=
  records.countP fun r => r matches .created _

/-- The nodes that are created and not released behind their creation, oldest first and with their
serials. The node that is created first has the serial `first`. -/
def newcomers : Nat → List Record → List (Handle × Nat)
  | _, [] => []
  | first, .created h :: records =>
    if .released h ∈ records then newcomers (first + 1) records
    else (h, first) :: newcomers (first + 1) records
  | first, _ :: records => newcomers first records

theorem births_append (records more : List Record) :
    births (records ++ more) = births records + births more :=
  List.countP_append

/-- Later records take away the newcomers that they release and bring newcomers of their own. -/
theorem newcomers_append (first : Nat) (records more : List Record) :
    newcomers first (records ++ more) =
      (newcomers first records).filter (fun e => .released e.1 ∉ more) ++
        newcomers (first + births records) more := by
  induction records generalizing first with
  | nil => rfl
  | cons r records ih =>
    cases r with
    | created h =>
      have hcount : first + births (.created h :: records) = first + 1 + births records := by
        simp only [births, List.countP_cons_of_pos]
        omega
      rw [List.cons_append, newcomers, newcomers, ih, hcount]
      by_cases hr : .released h ∈ records
      · simp [hr]
      · by_cases hm : .released h ∈ more <;> simp [hr, hm]
    | _ => exact ih first

/-- Newcomers have serials of nodes that were created meanwhile. -/
theorem serial_of_mem_newcomers {first : Nat} {records : List Record} {e : Handle × Nat}
    (he : e ∈ newcomers first records) : first ≤ e.2 ∧ e.2 < first + births records := by
  induction records generalizing first with
  | nil => cases he
  | cons r records ih =>
    cases r with
    | created h =>
      have hcount : births (.created h :: records) = births records + 1 := by simp [births]
      have hbehind (hb : e ∈ newcomers (first + 1) records) :
          first ≤ e.2 ∧ e.2 < first + births (.created h :: records) := by
        have hbounds := ih hb
        omega
      rw [newcomers] at he
      split at he
      · exact hbehind he
      · obtain rfl | hb := List.mem_cons.mp he
        · simp only [hcount]
          omega
        · exact hbehind hb
    | _ => exact ih he

/-- No two newcomers have the same serial. -/
theorem nodup_newcomers (first : Nat) (records : List Record) :
    (newcomers first records).Nodup := by
  induction records generalizing first with
  | nil => exact List.nodup_nil
  | cons r records ih =>
    cases r with
    | created h =>
      rw [newcomers]
      split
      · exact ih _
      · refine List.nodup_cons.mpr ⟨fun hmem => ?_, ih _⟩
        have hserial : first + 1 ≤ first := (serial_of_mem_newcomers hmem).1
        omega
    | _ => exact ih first

/-- A newcomer is one still unless it is released later. -/
theorem mem_newcomers_append_left {first : Nat} {records more : List Record} {e : Handle × Nat}
    (he : e ∈ newcomers first records) :
    e ∈ newcomers first (records ++ more) ↔ .released e.1 ∉ more := by
  rw [newcomers_append, List.mem_append, List.mem_filter, decide_eq_true_eq]
  constructor
  · rintro (⟨_, hm⟩ | hmore)
    · exact hm
    · have hlt := (serial_of_mem_newcomers he).2
      have hle := (serial_of_mem_newcomers hmore).1
      omega
  · exact fun hm => .inl ⟨he, hm⟩

/-- A node that is created later is a newcomer if it is one among those that are created later. -/
theorem mem_newcomers_append_right {first : Nat} {records more : List Record} {e : Handle × Nat}
    (he : first + births records ≤ e.2) :
    e ∈ newcomers first (records ++ more) ↔ e ∈ newcomers (first + births records) more := by
  rw [newcomers_append, List.mem_append, List.mem_filter]
  constructor
  · rintro (⟨hold, _⟩ | hmore)
    · have hlt := (serial_of_mem_newcomers hold).2
      omega
    · exact hmore
  · exact .inr

namespace Store

variable {s t : Store α} {r : Record} {records : List Record} {a b h p : Handle} {n : Node α}
  {v : α} {k : Nat}

/-- The live node `h` has the serial `k`. -/
def HasSerial (s : Store α) (h : Handle) (k : Nat) : Prop :=
  ∃ n, s.lookup h = .ok n ∧ n.serial = k

/-- Every live node was counted when it was created. -/
def Counted (s : Store α) : Prop := ∀ h k, s.HasSerial h k → k < s.stats.created

theorem isLive_iff_hasSerial : s.isLive h = true ↔ ∃ k, s.HasSerial h k := by
  simp only [isLive_iff, HasSerial, exists_comm, exists_and_left, exists_eq', and_true]

theorem Created.hasSerial_iff (hc : s.Created v h t) :
    t.HasSerial p k ↔ p = h ∧ s.stats.created = k ∨ s.HasSerial p k := by
  simp only [HasSerial, hc.lookup_eq_ok_iff, or_and_right, exists_or, and_assoc, exists_and_left,
    exists_eq_left']
  rfl

/-- Altering a node that keeps its serial changes no serials. -/
theorem hasSerial_alter {f : Node α → Node α} (hf : ∀ n, (f n).generation = n.generation)
    (hk : ∀ n, (f n).serial = n.serial) : (s.alter h f).HasSerial p k ↔ s.HasSerial p k := by
  unfold HasSerial
  rw [lookup_alter hf]
  by_cases he : p = h
  · subst he
    cases s.lookup p <;> simp [Except.map, hk]
  · rw [if_neg he]

theorem hasSerial_join : (s.join a b).HasSerial p k ↔ s.HasSerial p k :=
  (hasSerial_alter (by intro; rfl) (by intro; rfl)).trans
    (hasSerial_alter (by intro; rfl) (by intro; rfl))

theorem hasSerial_vacate (hn : s.lookup h = .ok n) :
    (s.vacate h).HasSerial p k ↔ p ≠ h ∧ s.HasSerial p k := by
  simp only [HasSerial, lookup_vacate_eq_ok_iff hn, and_assoc, exists_and_left]

/-- What the live nodes and the count of created nodes become while these records are written. -/
structure Renews (s : Store α) (records : List Record) (t : Store α) : Prop where
  /-- Every creation is counted. -/
  created_eq : t.stats.created = s.stats.created + births records
  /-- The live nodes are the newcomers and the old nodes that are not released. -/
  hasSerial_iff : ∀ {h k}, t.HasSerial h k ↔
    (h, k) ∈ newcomers s.stats.created records ∨ s.HasSerial h k ∧ .released h ∉ records

theorem Renews.refl (s : Store α) : s.Renews [] s where
  created_eq := rfl
  hasSerial_iff := by simp [newcomers]

theorem Renews.trans {u : Store α} {more : List Record} (hs : s.Renews records t)
    (ht : t.Renews more u) : s.Renews (records ++ more) u where
  created_eq := by rw [ht.created_eq, hs.created_eq, births_append, Nat.add_assoc]
  hasSerial_iff := by
    intro h k
    rw [ht.hasSerial_iff, hs.hasSerial_iff, hs.created_eq, newcomers_append]
    simp only [List.mem_append, List.mem_filter, decide_eq_true_eq]
    grind

/-- A change renews the live nodes as its record tells. -/
theorem Reports.renews (hr : s.Reports r t) : s.Renews [r] t := by
  cases hr with
  | created hc =>
    refine ⟨by rw [hc.counters.2.1]; rfl, fun {p k} => ?_⟩
    simp [hc.hasSerial_iff, newcomers, eq_comm]
  | appended | linked =>
    refine ⟨by rw [(counters_join _ _ _).2.1]; rfl, fun {p k} => ?_⟩
    simp [hasSerial_join, newcomers]
  | released hn =>
    refine ⟨rfl, fun {p k} => ?_⟩
    simp [hasSerial_vacate hn, newcomers, and_comm]
  | destroyed | leaked | faulted | ended => exact ⟨rfl, by simp [newcomers]⟩

theorem Unreported.renews (hu : s.Unreported t) : s.Renews [] t := by
  cases hu with
  | write h g =>
    refine ⟨by rw [(counters_alter _ _ _).2.1]; rfl, fun {p k} => ?_⟩
    rw [hasSerial_alter (by intro; rfl) (by intro; rfl)]
    simp [newcomers]
  | bound limit => exact ⟨rfl, (Renews.refl s).hasSerial_iff⟩

/-- The live nodes are renewed as the records tell. -/
theorem Recorded.renews (hr : s.Recorded records t) : s.Renews records t := by
  induction hr with
  | nil => exact .refl s
  | quiet _ hu ih => simpa using ih.trans hu.renews
  | snoc _ hr ih => exact ih.trans hr.renews

theorem counted_empty : (empty : Store α).Counted := by
  rintro h k ⟨n, hn, _⟩
  cases hn

/-- Serials stay below the count of created nodes. -/
theorem Renews.counted (hr : s.Renews records t) (hs : s.Counted) : t.Counted := by
  intro h k hk
  rw [hr.created_eq]
  obtain hnew | ⟨hold, _⟩ := hr.hasSerial_iff.mp hk
  · exact (serial_of_mem_newcomers hnew).2
  · exact Nat.lt_add_right _ (hs h k hold)

/-- A node is live afterwards if it is a newcomer, or if it was live and is not released. -/
theorem Renews.isLive_iff (hr : s.Renews records t) :
    t.isLive h = true ↔ (∃ k, (h, k) ∈ newcomers s.stats.created records) ∨
      s.isLive h = true ∧ .released h ∉ records := by
  simp only [isLive_iff_hasSerial, hr.hasSerial_iff, exists_or, exists_and_right]

/-- The live nodes in the order of their slots, with their serials. -/
def census (s : Store α) : List (Handle × Nat) :=
  s.slots.toList.zipIdx.filterMap fun e =>
    e.1.node?.map fun n => (⟨e.2.toUInt32, n.generation⟩, n.serial)

/-- The census has an entry for every live node, with its serial, and no other entries. -/
theorem Slotted.mem_census (hs : s.Slotted) : (h, k) ∈ s.census ↔ s.HasSerial h k := by
  simp only [census, List.mem_filterMap, Prod.exists, List.mem_zipIdx_iff_getElem?,
    Array.getElem?_toList, Option.map_eq_some_iff, Prod.mk.injEq]
  constructor
  · rintro ⟨slot, i, hi, n, hn, rfl, rfl⟩
    cases slot with
    | vacant => cases hn
    | occupied m =>
      cases hn
      obtain ⟨p, rfl, hp⟩ := hs.exists_lookup hi
      refine ⟨n, ?_, rfl⟩
      have hself : (⟨p.slot.toUInt32, n.generation⟩ : Handle) = p :=
        Handle.eq_of_slot_eq (by simp [Handle.slot]) (lookup_eq_ok_iff.mp hp).2
      rw [hself, hp]
  · rintro ⟨n, hn, rfl⟩
    obtain ⟨ho, hg⟩ := lookup_eq_ok_iff.mp hn
    exact ⟨_, h.slot, ho, n, rfl, Handle.eq_of_slot_eq (by simp [Handle.slot]) hg, rfl⟩

/-- No node is met twice in the census. -/
theorem Slotted.nodup_census (hs : s.Slotted) : s.census.Nodup := by
  have hindex : s.slots.toList.zipIdx.Pairwise fun e e' => e.2 ≠ e'.2 := by
    rw [← List.pairwise_map, List.zipIdx_map_snd]
    exact List.nodup_range'
  have hplace {e : Slot α × Nat} (he : e ∈ s.slots.toList.zipIdx) : e.2.toUInt32.toNat = e.2 := by
    have hi := List.mem_zipIdx_iff_getElem?.mp he
    rw [Array.getElem?_toList] at hi
    have hlt := (Array.getElem?_eq_some_iff.mp hi).choose
    exact toNat_toUInt32_of_le (Nat.le_trans (Nat.le_of_lt hlt) hs.size_le)
  refine List.pairwise_filterMap.mpr (hindex.imp_of_mem fun {e e'} he he' hne => ?_)
  rintro _ hb _ hb' rfl
  obtain ⟨n, _, rfl⟩ := Option.map_eq_some_iff.mp hb
  obtain ⟨m, _, heq⟩ := Option.map_eq_some_iff.mp hb'
  have hsame : e'.2.toUInt32.toNat = e.2.toUInt32.toNat :=
    congrArg (fun b : Handle × Nat => b.1.index.toNat) heq
  rw [hplace he, hplace he'] at hsame
  exact hne hsame.symm

/-- A property of slots that nodes decide by their serials is counted along the census. -/
theorem countP_slots (s : Store α) (p : Nat → Bool) :
    s.slots.countP (fun slot => slot.node?.any fun n => p n.serial) =
      s.census.countP fun e => p e.2 := by
  have hslots (q : Slot α → Bool) :
      s.slots.countP q = (s.slots.toList.zipIdx.map Prod.fst).countP q := by
    rw [List.zipIdx_map_fst, Array.countP_toList]
  rw [census, List.countP_filterMap, hslots, List.countP_map]
  refine List.countP_congr fun e _ => ?_
  cases h : e.1.node? <;> simp [h]

/-- The nodes that are live since a serial are counted along the census. -/
theorem liveSince_eq (s : Store α) (first : Nat) :
    s.liveSince first = s.census.countP fun e => first ≤ e.2 := by
  rw [← countP_slots s fun k => decide (first ≤ k)]
  unfold liveSince
  congr 1
  funext slot
  cases slot <;> simp [Slot.node?]

/-- The census has as many entries as nodes are counted as live. -/
theorem Slotted.length_census (hs : s.Slotted) : s.census.length = s.live := by
  rw [hs.live_eq, ← List.countP_true, ← countP_slots s fun _ => true]
  congr 1
  funext slot
  cases slot <;> rfl

/-- The handles of the live nodes in the order of their slots. -/
def handles (s : Store α) : List Handle := s.census.map Prod.fst

theorem Slotted.mem_handles (hs : s.Slotted) : h ∈ s.handles ↔ s.isLive h = true := by
  rw [isLive_iff_hasSerial, handles, List.mem_map]
  constructor
  · rintro ⟨⟨p, k⟩, he, rfl⟩
    exact ⟨k, hs.mem_census.mp he⟩
  · rintro ⟨k, hk⟩
    exact ⟨(h, k), hs.mem_census.mpr hk, rfl⟩

/-- No handle is met twice: a live node has one serial. -/
theorem Slotted.nodup_handles (hs : s.Slotted) : s.handles.Nodup := by
  refine hs.nodup_census.map_on ?_
  rintro ⟨p, k⟩ hp ⟨q, l⟩ hq rfl
  obtain ⟨n, hn, rfl⟩ := hs.mem_census.mp hp
  obtain ⟨m, hm, rfl⟩ := hs.mem_census.mp hq
  rw [Except.ok.inj (hn.symm.trans hm)]

theorem Slotted.length_handles (hs : s.Slotted) : s.handles.length = s.live := by
  rw [handles, List.length_map, hs.length_census]

/-- The census after some records consists of the newcomers and of the old nodes that are not
released. -/
theorem Renews.census_perm (hr : s.Renews records t) (hc : s.Counted) (hs : s.Slotted)
    (ht : t.Slotted) :
    t.census.Perm (newcomers s.stats.created records ++
      s.census.filter fun e => .released e.1 ∉ records) := by
  refine (List.perm_ext_iff_of_nodup ht.nodup_census ?_).mpr fun ⟨h, k⟩ => ?_
  · refine List.nodup_append.mpr ⟨nodup_newcomers _ _, hs.nodup_census.filter _, ?_⟩
    rintro e hnew _ hold rfl
    have hle := (serial_of_mem_newcomers hnew).1
    have hlt := hc _ _ (hs.mem_census.mp (List.mem_filter.mp hold |>.1))
    omega
  · rw [ht.mem_census, hr.hasSerial_iff, List.mem_append, List.mem_filter, hs.mem_census,
      decide_eq_true_eq]

/-- The nodes that are live since the count of created nodes was taken are the newcomers. -/
theorem Renews.liveSince_eq (hr : s.Renews records t) (hc : s.Counted) (hs : s.Slotted)
    (ht : t.Slotted) :
    t.liveSince s.stats.created = (newcomers s.stats.created records).length := by
  rw [Store.liveSince_eq, (hr.census_perm hc hs ht).countP_eq, List.countP_append,
    List.countP_eq_length.mpr, List.countP_eq_zero.mpr, Nat.add_zero]
  · intro e he
    have hlt := hc _ _ (hs.mem_census.mp (List.mem_filter.mp he |>.1))
    rw [decide_eq_true_eq]
    omega
  · intro e he
    exact decide_eq_true (serial_of_mem_newcomers he).1

/-- The number of live nodes grows by the newcomers and shrinks by the old nodes that are
released. -/
theorem Renews.live_eq (hr : s.Renews records t) (hc : s.Counted) (hs : s.Slotted)
    (ht : t.Slotted) :
    t.live + s.census.countP (fun e => .released e.1 ∈ records) =
      s.live + (newcomers s.stats.created records).length := by
  have hlength := (hr.census_perm hc hs ht).length_eq
  have hsplit := List.length_eq_countP_add_countP (fun e : Handle × Nat => .released e.1 ∈ records)
    (l := s.census)
  rw [List.length_append, ht.length_census, ← List.countP_eq_length_filter] at hlength
  rw [hs.length_census] at hsplit
  simp only [decide_not, Bool.decide_eq_true] at hlength hsplit
  omega

end Store

end CheckedLists
