import CheckedLists.Proofs.Census
import CheckedLists.Proofs.Issue
import CheckedLists.Proofs.Release

/-!
# Nodes that survive

The nodes that a run creates are numbered in the order of their creation. A node survives
until its slot is cleared for the first time after that, whatever comes into the slot
later. At every stage of a run the survivors are the live nodes, and each of them has the
number of its creation as its serial, on a new slot as on one that is used again.

Counting the live nodes from a serial on therefore counts survivors. Since refused
creations have no number, the count of created nodes tells at every stage which number
comes next, and a count that was taken as a mark parts the nodes that were there from those
that came later.
-/

namespace CheckedLists

variable {α : Type}

namespace Store

variable {s t : Store α} {records : List Record} {h p : Handle} {k l : Nat} {v : α}

/-- The slot of a live node holds a node. -/
theorem HasSerial.holds (hk : s.HasSerial p k) : s.holds p.slot = true := by
  obtain ⟨n, hn, _⟩ := hk
  rw [holds_eq, stamp_of_lookup hn]
  rfl

/-- A live node has one serial. -/
theorem HasSerial.unique (hk : s.HasSerial p k) (hl : s.HasSerial p l) : k = l := by
  obtain ⟨n, hn, rfl⟩ := hk
  obtain ⟨m, hm, rfl⟩ := hl
  rw [Except.ok.inj (hn.symm.trans hm)]

/-- The node `h` is created, and no other one. -/
structure Gains (s : Store α) (h : Handle) (t : Store α) : Prop where
  /-- The creation is counted. -/
  created_eq : t.stats.created = s.stats.created + 1
  /-- The slot of the node held none. -/
  vacant : s.holds h.slot = false
  /-- The slot holds the node. -/
  taken : t.holds h.slot = true
  /-- The serial of the node is the count before, and the others keep theirs. -/
  hasSerial : ∀ {p k}, t.HasSerial p k → s.HasSerial p k ∨ p = h ∧ s.stats.created = k

/-- No node is created. -/
structure GainsNone (s t : Store α) : Prop where
  /-- Nothing is counted. -/
  created_eq : t.stats.created = s.stats.created
  /-- No slot is filled. -/
  vacant : ∀ {i}, s.holds i = false → t.holds i = false
  /-- Nodes keep their serials. -/
  hasSerial : ∀ {p k}, t.HasSerial p k → s.HasSerial p k

theorem Created.gains (hc : s.Created v h t) : s.Gains h t where
  created_eq := by rw [hc.counters.2.1]
  vacant := by
    rw [holds_eq]
    obtain ⟨hbefore, _⟩ | hbefore := hc.stamp_before <;> rw [hbefore] <;> rfl
  taken := by
    rw [holds_eq, hc.stamp, if_pos rfl]
    rfl
  hasSerial hk := (hc.hasSerial_iff.mp hk).symm

/-- Where a node is put does not matter. -/
theorem Gains.join (hg : s.Gains h t) (x y : Handle) : s.Gains h (t.join x y) where
  created_eq := by rw [(counters_join _ _ _).2.1, hg.created_eq]
  vacant := hg.vacant
  taken := by rw [holds_eq, stamp_join, ← holds_eq, hg.taken]
  hasSerial hk := hg.hasSerial (hasSerial_join.mp hk)

/-- Where the slots show what they showed, no node is created if none has a new serial. -/
theorem gainsNone_of_stamp (hcreated : t.stats.created = s.stats.created)
    (hstamp : ∀ i, t.stamp i = s.stamp i)
    (hserial : ∀ {p k}, t.HasSerial p k → s.HasSerial p k) : s.GainsNone t where
  created_eq := hcreated
  vacant {i} hi := by rw [holds_eq, hstamp i, ← holds_eq, hi]
  hasSerial := hserial

/-- Releasing live nodes creates none. -/
theorem gainsNone_vacateAll {ks : List Handle} (hnodup : ks.Nodup)
    (hlive : ∀ h ∈ ks, s.isLive h = true) : s.GainsNone (s.vacateAll ks) where
  created_eq := by rw [(s.counters_vacateAll ks).2.1]
  vacant {i} hi := by
    rw [holds_eq] at hi ⊢
    obtain hstay | ⟨g, _, hclear⟩ := stamp_vacateAll hnodup hlive i
    · rw [hstay, hi]
    · rw [hclear]
      rfl
  hasSerial := by
    rintro p k ⟨n, hn, hk⟩
    exact ⟨n, ((lookup_vacateAll_eq_ok_iff hnodup hlive).mp hn).2, hk⟩

/-- An effect creates no node or one. -/
theorem Effect.gains (he : s.Effect t records) : s.GainsNone t ∨ ∃ h, s.Gains h t := by
  cases he with
  | idle => exact .inl (gainsNone_of_stamp rfl (fun _ => rfl) id)
  | write h g =>
    refine .inl (gainsNone_of_stamp ?_ (fun i => ?_) ?_)
    · rw [(counters_alter _ _ _).2.1]
    · exact stamp_alter (by intro; rfl)
    · exact (hasSerial_alter (by intro; rfl) (by intro; rfl)).mp
  | bound limit => exact .inl (gainsNone_of_stamp rfl (fun _ => rfl) id)
  | create hc => exact .inr ⟨_, hc.gains⟩
  | append hlast hc => exact .inr ⟨_, hc.gains.join _ _⟩
  | link hx hc hhead hoff =>
    refine .inl (gainsNone_of_stamp ?_ (fun i => stamp_join _ _) hasSerial_join.mp)
    rw [(counters_join _ _ _).2.1]
  | destroy hhead hc => exact .inl (gainsNone_vacateAll hc.nodup fun _ => hc.isLive)

/-- A live node whose slot still holds a node after an effect is still live: no effect both clears
and fills a slot. -/
theorem Effect.isLive_of_holds (he : s.Effect t records) (hlive : s.isLive p = true)
    (htaken : t.holds p.slot = true) : t.isLive p = true := by
  obtain ⟨n, hn⟩ := isLive_iff.mp hlive
  have hturn := he.turn p.slot
  rw [stamp_of_lookup hn] at hturn
  rw [holds_eq] at htaken
  generalize hstamp : t.stamp p.slot = x at hturn htaken
  cases hturn with
  | stay => exact isLive_of_stamp hstamp
  | clear => cases htaken

/-- After an effect the live nodes are the old ones whose slots were not cleared, with their
serials, and the one in a slot that held none, with the count of created nodes as its serial. -/
theorem Effect.hasSerial_iff (he : s.Effect t records) :
    t.HasSerial p k ↔ s.HasSerial p k ∧ t.holds p.slot = true ∨
      s.holds p.slot = false ∧ t.isLive p = true ∧ s.stats.created = k := by
  have hbefore {k : Nat} (hk : t.HasSerial p k) :
      s.HasSerial p k ∨ s.holds p.slot = false ∧ s.stats.created = k := by
    obtain hnone | ⟨h, hgains⟩ := he.gains
    · exact .inl (hnone.hasSerial hk)
    · refine (hgains.hasSerial hk).imp_right ?_
      rintro ⟨rfl, hk⟩
      exact ⟨hgains.vacant, hk⟩
  constructor
  · intro hk
    refine (hbefore hk).imp (fun hold => ⟨hold, hk.holds⟩) ?_
    rintro ⟨hvacant, hcount⟩
    exact ⟨hvacant, isLive_iff_hasSerial.mpr ⟨k, hk⟩, hcount⟩
  · rintro (⟨hold, htaken⟩ | ⟨hvacant, hlive, rfl⟩)
    · have hlive := he.isLive_of_holds (isLive_iff_hasSerial.mpr ⟨k, hold⟩) htaken
      obtain ⟨l, hl⟩ := isLive_iff_hasSerial.mp hlive
      obtain hsame | ⟨hvacant, _⟩ := hbefore hl
      · rwa [hold.unique hsame]
      · cases hvacant.symm.trans hold.holds
    · obtain ⟨l, hl⟩ := isLive_iff_hasSerial.mp hlive
      obtain hold | ⟨_, rfl⟩ := hbefore hl
      · cases hvacant.symm.trans hold.holds
      · exact hl

end Store

namespace Arena

variable {allocator : Allocator} {events : List (Event α)} {n j k m : Nat} {p : Handle}

/-- Event `n` of a run creates a node. -/
def CreatesAt (allocator : Allocator) (events : List (Event α)) (n : Nat) : Prop :=
  ∃ h, IssuedAt allocator events n h

/-- An event creates a node where it fills a slot. -/
theorem createsAt_iff_filledAt :
    CreatesAt allocator events n ↔ ∃ i, FilledAt allocator events i n := by
  constructor
  · rintro ⟨h, hi⟩
    exact ⟨h.slot, hi.filledAt.1⟩
  · rintro ⟨i, hfill⟩
    obtain ⟨h, hi, _⟩ := hfill.exists_issuedAt
    exact ⟨h, hi⟩

/-- An event issues the handle that comes next. -/
theorem IssuedAt.eq_fresh (hi : IssuedAt allocator events n p) :
    p = (stage allocator events n).store.fresh := by
  obtain ⟨op, _, hi⟩ := hi
  obtain ⟨head, ht⟩ := hi.exists_target
  exact ((Op.issues_iff (coherent_stage allocator events n) ht).mp hi).1

theorem createsAt_iff :
    CreatesAt allocator events n ↔
      FilledAt allocator events (stage allocator events n).store.fresh.slot n := by
  rw [createsAt_iff_filledAt]
  refine ⟨fun ⟨i, hfill⟩ => ?_, fun hfill => ⟨_, hfill⟩⟩
  obtain ⟨h, hi, rfl⟩ := hfill.exists_issuedAt
  rwa [← hi.eq_fresh]

instance : DecidablePred (CreatesAt allocator events) :=
  fun _ => decidable_of_iff _ createsAt_iff.symm

/-- The number of the node that event `n` of a run creates: how many were created before. -/
def serialAt (allocator : Allocator) (events : List (Event α)) (n : Nat) : Nat :=
  Nat.count (CreatesAt allocator events) n

/-- Refused creations are not counted. -/
theorem created_stage (allocator : Allocator) (events : List (Event α)) (n : Nat) :
    (stage allocator events n).store.stats.created = serialAt allocator events n := by
  induction n with
  | zero => rfl
  | succ n ih =>
    obtain ⟨records, heffect⟩ := effect_stage allocator events n
    unfold serialAt at ih ⊢
    rw [Nat.count_succ]
    obtain hnone | ⟨h, hgains⟩ := heffect.gains
    · rw [if_neg, hnone.created_eq, ih]
      · rfl
      · rw [createsAt_iff_filledAt]
        rintro ⟨i, hvacant, htaken⟩
        cases (hnone.vacant hvacant).symm.trans htaken
    · rw [if_pos, hgains.created_eq, ih]
      exact createsAt_iff_filledAt.mpr ⟨h.slot, hgains.vacant, hgains.taken⟩

/-- A handle is issued where its slot is filled and it becomes live. -/
theorem issuedAt_iff :
    IssuedAt allocator events n p ↔ FilledAt allocator events p.slot n ∧
      (stage allocator events (n + 1)).store.isLive p = true := by
  constructor
  · intro hi
    exact ⟨hi.filledAt.1, Store.isLive_of_stamp hi.filledAt.2⟩
  · rintro ⟨hfill, hlive⟩
    obtain ⟨h, hi, hslot⟩ := hfill.exists_issuedAt
    obtain ⟨m, hm⟩ := Store.isLive_iff.mp hlive
    have hstamp := hi.filledAt.2
    rw [hslot, Store.stamp_of_lookup hm] at hstamp
    have hgeneration := congrArg Stamp.generation (Option.some.inj hstamp)
    rwa [Handle.eq_of_slot_eq hslot.symm hgeneration]

/-- The nodes at the next stage are those whose slot is not cleared, and the one that is created. -/
theorem hasSerial_stage_succ :
    (stage allocator events (n + 1)).store.HasSerial p k ↔
      (stage allocator events n).store.HasSerial p k ∧ ¬ ClearedAt allocator events p.slot n ∨
      IssuedAt allocator events n p ∧ serialAt allocator events n = k := by
  obtain ⟨records, heffect⟩ := effect_stage allocator events n
  rw [heffect.hasSerial_iff, issuedAt_iff, created_stage, ← and_assoc]
  refine or_congr (and_congr_right fun hold => ?_) (and_congr_left fun _ =>
    and_congr_left fun hlive => ?_)
  · rw [ClearedAt, Clears, hold.holds]
    simp
  · obtain ⟨l, hl⟩ := Store.isLive_iff_hasSerial.mp hlive
    exact ⟨fun hvacant => ⟨hvacant, hl.holds⟩, And.left⟩

/-- Event `j` of a run creates the node `p`, and no event between `j` and `n` clears its slot. -/
def Lasts (allocator : Allocator) (events : List (Event α)) (n j : Nat) (p : Handle) : Prop :=
  IssuedAt allocator events j p ∧ ∀ l, j < l → l < n → ¬ ClearedAt allocator events p.slot l

/-- The live nodes at a stage are those that were created and whose slots were not cleared since,
with the numbers of their creations as serials. -/
theorem hasSerial_stage_iff :
    (stage allocator events n).store.HasSerial p k ↔
      ∃ j < n, Lasts allocator events n j p ∧ serialAt allocator events j = k := by
  induction n with
  | zero =>
    constructor
    · rintro ⟨m, hm, _⟩
      cases hm
    · rintro ⟨j, hj, _⟩
      cases hj
  | succ n ih =>
    rw [hasSerial_stage_succ, ih]
    constructor
    · rintro (⟨⟨j, hj, ⟨hi, hkept⟩, hk⟩, hstay⟩ | ⟨hi, hk⟩)
      · refine ⟨j, by omega, ⟨hi, fun l hjl hln => ?_⟩, hk⟩
        obtain hl | rfl := Nat.lt_succ_iff_lt_or_eq.mp hln
        · exact hkept l hjl hl
        · exact hstay
      · exact ⟨n, by omega, ⟨hi, fun l hjl hln => by omega⟩, hk⟩
    · rintro ⟨j, hj, ⟨hi, hkept⟩, hk⟩
      obtain hj | rfl := Nat.lt_succ_iff_lt_or_eq.mp hj
      · have hlasts : Lasts allocator events n j p := ⟨hi, fun l hjl hln => hkept l hjl (by omega)⟩
        exact .inl ⟨⟨j, hj, hlasts, hk⟩, hkept n hj (by omega)⟩
      · exact .inr ⟨hi, hk⟩

/-- Event `j` of a run creates a node that is not released before event `n`. -/
def Survives (allocator : Allocator) (events : List (Event α)) (n j : Nat) : Prop :=
  ∃ p, Lasts allocator events n j p

theorem survives_iff :
    Survives allocator events n j ↔ CreatesAt allocator events j ∧ ∀ l < n, j < l →
      ¬ ClearedAt allocator events (stage allocator events j).store.fresh.slot l := by
  constructor
  · rintro ⟨p, hi, hkept⟩
    obtain rfl := hi.eq_fresh
    exact ⟨⟨_, hi⟩, fun l hln hjl => hkept l hjl hln⟩
  · rintro ⟨⟨p, hi⟩, hkept⟩
    obtain rfl := hi.eq_fresh
    exact ⟨_, hi, fun l hjl hln => hkept l hln hjl⟩

instance : DecidablePred (Survives allocator events n) :=
  fun _ => decidable_of_iff _ survives_iff.symm

/-- Only events that create a node have survivors. -/
theorem Survives.createsAt (hj : Survives allocator events n j) : CreatesAt allocator events j :=
  hj.imp fun _ hp => hp.1

/-- Nodes are numbered in the order of their creation. -/
theorem serialAt_le_iff (hj : CreatesAt allocator events j) :
    serialAt allocator events k ≤ serialAt allocator events j ↔ k ≤ j := by
  constructor
  · intro hle
    by_contra hlt
    exact absurd (Nat.count_strict_mono hj (Nat.lt_of_not_le hlt)) (Nat.not_lt_of_le hle)
  · exact fun hle => Nat.count_monotone _ hle

/-- The census at a stage consists of the survivors, with the numbers of their creations. -/
theorem census_stage_perm (allocator : Allocator) (events : List (Event α)) (n : Nat) :
    (stage allocator events n).store.census.Perm
      (((List.range n).filter fun j => Survives allocator events n j).map fun j =>
        ((stage allocator events j).store.fresh, serialAt allocator events j)) := by
  have hslotted := (coherent_stage allocator events n).slotted
  refine (List.perm_ext_iff_of_nodup hslotted.nodup_census ?_).mpr fun ⟨p, k⟩ => ?_
  · refine (List.nodup_range.filter _).map_on fun i hi j hj heq => ?_
    simp only [List.mem_filter, decide_eq_true_eq] at hi hj
    exact Nat.count_injective hi.2.createsAt hj.2.createsAt (congrArg Prod.snd heq)
  · rw [hslotted.mem_census, hasSerial_stage_iff]
    simp only [List.mem_map, List.mem_filter, List.mem_range, decide_eq_true_eq, Prod.mk.injEq]
    constructor
    · rintro ⟨j, hj, hp, hk⟩
      exact ⟨j, ⟨hj, p, hp⟩, hp.1.eq_fresh.symm, hk⟩
    · rintro ⟨j, ⟨hj, q, hq⟩, rfl, hk⟩
      exact ⟨j, hj, hq.1.eq_fresh ▸ hq, hk⟩

/-- The nodes that are live since a serial are counted among the survivors. -/
theorem liveSince_stage (allocator : Allocator) (events : List (Event α)) (n m : Nat) :
    (stage allocator events n).store.liveSince m =
      Nat.count (fun j => Survives allocator events n j ∧ m ≤ serialAt allocator events j) n := by
  rw [Store.liveSince_eq, (census_stage_perm allocator events n).countP_eq, List.countP_map,
    List.countP_filter, Nat.count_eq_card_filter_range, List.countP_eq_length_filter]
  change _ = (List.filter _ (List.range n)).length
  congr 2
  funext j
  rw [Bool.decide_and]
  exact Bool.and_comm _ _

/-- At every stage of a run the nodes that are live since a serial are the survivors whose creation
has this number or a later one. Since serial 0 all live nodes are counted, and since the count
of created nodes, none. Since the count that an earlier stage had, only survivors that were created
from that stage on are counted, whichever slots they are in. -/
theorem liveSince_counts_survivors (allocator : Allocator) (events : List (Event α)) (n : Nat) :
    (∀ m, (stage allocator events n).store.liveSince m =
      Nat.count (fun j => Survives allocator events n j ∧ m ≤ serialAt allocator events j) n) ∧
    (stage allocator events n).store.liveSince 0 = (stage allocator events n).store.live ∧
    (∀ m, (stage allocator events n).store.stats.created ≤ m →
      (stage allocator events n).store.liveSince m = 0) ∧
    ∀ k, (stage allocator events n).store.liveSince (stage allocator events k).store.stats.created =
      Nat.count (fun j => Survives allocator events n j ∧ k ≤ j) n := by
  refine ⟨liveSince_stage allocator events n, ?_, fun m hm => ?_, fun k => ?_⟩
  · rw [Store.liveSince_eq, ← (coherent_stage allocator events n).slotted.length_census]
    exact List.countP_eq_length.mpr fun e _ => decide_eq_true (Nat.zero_le _)
  · rw [liveSince_stage, Nat.count_iff_forall_not]
    rintro j hj ⟨hsurvives, hle⟩
    rw [created_stage] at hm
    exact absurd (Nat.count_strict_mono hsurvives.createsAt hj) (Nat.not_lt_of_le (hm.trans hle))
  · rw [liveSince_stage, created_stage]
    have hsame (j : Nat) : Survives allocator events n j ∧
        serialAt allocator events k ≤ serialAt allocator events j ↔
          Survives allocator events n j ∧ k ≤ j :=
      and_congr_right fun hj => serialAt_le_iff hj.createsAt
    simp only [hsame]

/-- In the run `slotReuse` a mark is taken when four nodes were created. The node that was in slot 1
then is released by the next event, and the one that comes into the slot after it is the only one
that is counted since the mark. Since the count of all five creations none is counted. -/
theorem slotReuse_survivors :
    (stage .global slotReuse 5).store.stats.created = 4 ∧
    ClearedAt .global slotReuse 1 5 ∧ IssuedAt .global slotReuse 6 ⟨1, 1⟩ ∧
    (stage .global slotReuse 8).store.liveSince 4 = 1 ∧
    (stage .global slotReuse 8).store.stats.created ≤ 5 ∧
    (stage .global slotReuse 8).store.liveSince 5 = 0 := by
  obtain ⟨_, _, hlater, hmark⟩ := liveSince_counts_survivors .global slotReuse 8
  have hsecond : IssuedAt .global slotReuse 6 ⟨1, 1⟩ :=
    ⟨.append (some ⟨2, 0⟩) 50, rfl, .behind rfl rfl rfl rfl⟩
  have hcount : Nat.count (fun j => Survives .global slotReuse 8 j ∧ 5 ≤ j) 8 = 1 := by
    decide +kernel
  have hcreated : (stage .global slotReuse 8).store.stats.created ≤ 5 := by decide
  exact ⟨rfl, ⟨rfl, rfl⟩, hsecond, (hmark 5).trans hcount, hcreated, hlater 5 hcreated⟩

end Arena

end CheckedLists
