import CheckedLists.Proofs.Generation
import CheckedLists.Proofs.Recorded

/-!
# Replaying the journal

Whoever hears all records of a run knows which nodes are live and which successor
each of them has. The replay of the records starts from no node, adds and removes
nodes and gives them successors as the records say, and arrives at the links of
the store. No record on the way contradicts the ones before it.

The record of a destroyed list comes right behind the records of its nodes, which
are written in the order of the list.
-/

namespace CheckedLists

variable {α : Type}

/-- For every live node its successor, if it has one, and nothing for other handles. -/
abbrev LinkMap := Handle → Option (Option Handle)

namespace LinkMap

/-- No node is live. -/
def empty : LinkMap := fun _ => none

/-- The links after what a record tells of. -/
def apply (l : LinkMap) : Record → LinkMap
  | .created h => Function.update l h (some none)
  | .appended h last => Function.update l last (some (some h))
  | .linked a b => Function.update l a (some (some b))
  | .released h => Function.update l h none
  | .destroyed _ _ | .leaked _ | .faulted _ | .ended _ _ => l

/-- The links after what some records tell of, one after the other. -/
def replay (l : LinkMap) (records : List Record) : LinkMap := records.foldl apply l

/-- `b` can become the successor of `a`: `a` is live and has no successor, and `b` is live and is no
successor. -/
def Joins (l : LinkMap) (a b : Handle) : Prop :=
  l a = some none ∧ l b ≠ none ∧ ∀ p, l p ≠ some (some b)

/-- A record does not contradict the links before it. -/
def Admits (l : LinkMap) : Record → Prop
  | .created h => l h = none
  | .appended h last => l.Joins last h
  | .linked a b => l.Joins a b
  | .released h => l h ≠ none
  | .destroyed _ _ | .leaked _ | .faulted _ | .ended _ _ => True

theorem replay_append (l : LinkMap) (records more : List Record) :
    l.replay (records ++ more) = (l.replay records).replay more :=
  List.foldl_append

end LinkMap

namespace Store

variable {s t : Store α} {r : Record} {records : List Record} {a b p : Handle}

/-- The links of a store. -/
def linkMap (s : Store α) : LinkMap := fun p => (s.next p).toOption

theorem linkMap_eq_some_iff {place : Option Handle} :
    s.linkMap p = some place ↔ s.next p = .ok place := by
  unfold linkMap
  cases s.next p <;> simp [Except.toOption]

theorem linkMap_eq_none_iff : s.linkMap p = none ↔ s.isLive p = false := by
  unfold linkMap next isLive
  cases s.lookup p <;> simp [Except.toOption, Except.map, Except.isOk, Except.toBool]

theorem linkMap_empty : (empty : Store α).linkMap = LinkMap.empty := rfl

theorem Joinable.joins (hj : s.Joinable a b) : s.linkMap.Joins a b := by
  refine ⟨linkMap_eq_some_iff.mpr hj.next_eq, ?_, fun p hp => ?_⟩
  · rw [Ne, linkMap_eq_none_iff, hj.live]
    decide
  · exact hj.head p (linkMap_eq_some_iff.mp hp)

theorem Joinable.linkMap_join (hj : s.Joinable a b) :
    (s.join a b).linkMap = Function.update s.linkMap a (some (some b)) := by
  funext p
  unfold linkMap
  rw [next_join hj.ne (isLive_of_next hj.next_eq), Function.update_apply]
  split <;> rfl

/-- A record fits the links of the store, and tells how they change. -/
theorem Reports.linkMap (hr : s.Reports r t) :
    s.linkMap.Admits r ∧ s.linkMap.apply r = t.linkMap := by
  cases hr with
  | @created v h t hc =>
    have hfresh : s.linkMap h = none := by
      rw [linkMap_eq_none_iff, ← Bool.not_eq_true, isLive_iff]
      rintro ⟨n, hn⟩
      exact hc.not_live rfl hn
    refine ⟨hfresh, ?_⟩
    funext p
    refine Option.ext fun place => ?_
    rw [linkMap_eq_some_iff, hc.next_eq_ok_iff, LinkMap.apply, Function.update_apply]
    by_cases hp : p = h
    · subst hp
      simp [← linkMap_eq_some_iff, hfresh]
    · simp [hp, linkMap_eq_some_iff]
  | appended hj => exact ⟨hj.joins, hj.linkMap_join.symm⟩
  | linked hj => exact ⟨hj.joins, hj.linkMap_join.symm⟩
  | @released h n hn =>
    have hlive : s.isLive h = true := isLive_iff.mpr ⟨n, hn⟩
    refine ⟨by rw [LinkMap.Admits, Ne, linkMap_eq_none_iff, hlive]; decide, ?_⟩
    funext p
    refine Option.ext fun place => ?_
    rw [linkMap_eq_some_iff, next_vacate_eq_ok_iff hn, LinkMap.apply, Function.update_apply]
    by_cases hp : p = h
    · simp [hp]
    · simp [hp, linkMap_eq_some_iff]
  | destroyed | leaked | faulted | ended => exact ⟨trivial, rfl⟩

/-- What is not recorded does not change the links. -/
theorem Unreported.linkMap (hu : s.Unreported t) : t.linkMap = s.linkMap := by
  cases hu with
  | write h g =>
    funext p
    unfold Store.linkMap
    rw [next_alter (by intro; rfl) (by intro; rfl)]
  | bound limit => rfl

/-- The replay of what was recorded arrives at the links of the store, and every record fits the
links that the records before it arrive at. -/
theorem Recorded.replay (hr : s.Recorded records t) :
    s.linkMap.replay records = t.linkMap ∧
      ∀ k r, records[k]? = some r → (s.linkMap.replay (records.take k)).Admits r := by
  induction hr with
  | nil => exact ⟨rfl, by simp⟩
  | quiet _ hu ih => exact ⟨ih.1.trans hu.linkMap.symm, ih.2⟩
  | @snoc records r t u _ hr ih =>
    obtain ⟨hadmits, happly⟩ := hr.linkMap
    refine ⟨?_, fun k r' hk => ?_⟩
    · rw [LinkMap.replay_append, ih.1]
      exact happly
    · obtain hlt | heq | hgt := Nat.lt_trichotomy k records.length
      · rw [List.getElem?_append_left hlt] at hk
        rw [List.take_append_of_le_length hlt.le]
        exact ih.2 k r' hk
      · subst heq
        obtain rfl : r = r' := by simpa using hk
        rw [List.take_left' rfl, ih.1]
        exact hadmits
      · rw [List.getElem?_eq_none (by simpa using Nat.succ_le_of_lt hgt)] at hk
        cases hk

/-- The record of a destroyed list comes behind the records of its nodes, and ends what the effect
writes. -/
theorem Effect.destroyed (he : s.Effect t records) {i count : Nat} {h : Handle}
    (hi : records[i]? = some (.destroyed count h)) :
    ∃ ps, s.Chain (some h) ps ∧ ps.length = count ∧ i = count ∧
      records = ps.map .released ++ [.destroyed count h] := by
  have hmem := List.mem_of_getElem? hi
  cases he with
  | destroy hhead hc =>
    rename_i ks
    obtain hlt | hge := Nat.lt_or_ge i ks.length
    · rw [List.getElem?_append_left (by simpa using hlt), List.getElem?_map] at hi
      obtain ⟨_, _, hr⟩ := Option.map_eq_some_iff.mp hi
      cases hr
    · have hlast : i = ks.length := by
        have hbound := (List.getElem?_eq_some_iff.mp hi).choose
        simp only [List.length_append, List.length_map, List.length_singleton] at hbound
        omega
      rw [hlast, List.getElem?_append_right (by simp)] at hi
      simp only [List.length_map, Nat.sub_self, List.getElem?_cons_zero, Option.some.injEq,
        Record.destroyed.injEq] at hi
      obtain ⟨rfl, rfl⟩ := hi
      exact ⟨ks, hc, rfl, hlast, rfl⟩
  | idle | write | bound | create | append | link => simp at hmem

end Store

namespace Arena

variable {allocator : Allocator} {events : List (Event α)} {n k count : Nat} {h : Handle}

/-- Everything that was recorded up to a stage of a run, as it is heard at the lowest level. -/
def heard (allocator : Allocator) (events : List (Event α)) (n : Nat) : List Record :=
  (audible .trace (stage allocator events n).journal).toList

theorem heard_eq (allocator : Allocator) (events : List (Event α)) (n : Nat) :
    heard allocator events n = (stage allocator events n).journal.toList := by
  have hall (r : Record) : r.level.rank ≤ Level.trace.rank := by
    cases r <;> simp [Record.level, Level.rank]
  rw [heard, audible, Array.filter_eq_self.mpr fun r _ => by simpa using hall r]

/-- From a stage to the next one nothing is recorded, or a call adds the records of its effect. -/
theorem heard_succ (allocator : Allocator) (events : List (Event α)) (n : Nat) :
    heard allocator events (n + 1) = heard allocator events n ∨
    ∃ op t records, events[n]? = some (.call op) ∧
      (stage allocator events n).store.Effect t records ∧
      heard allocator events (n + 1) = heard allocator events n ++ records := by
  rw [heard_eq, heard_eq]
  cases he : events[n]? with
  | none =>
    left
    rw [stage_succ_of_none he]
  | some e =>
    rw [stage_succ he]
    cases e with
    | supply other => exact .inl rfl
    | call op =>
      right
      obtain ⟨t, records, heffect, _, hjournal⟩ :=
        leaves_step (coherent_stage allocator events n) (.call op)
      refine ⟨op, t, records, rfl, heffect, ?_⟩
      rw [hjournal, Array.toList_append]

/-- The record of a destroyed list ends what was recorded by one call, which released the nodes of
the list one after the other. -/
theorem exists_destruction
    (hk : (heard allocator events n)[k]? = some (.destroyed count h)) :
    ∃ m ps op, m < n ∧ events[m]? = some (.call op) ∧
      (stage allocator events m).store.Chain (some h) ps ∧ ps.length = count ∧
      heard allocator events (m + 1) =
        heard allocator events m ++ (ps.map .released ++ [.destroyed count h]) ∧
      (heard allocator events n).take (k + 1) = heard allocator events (m + 1) := by
  induction n with
  | zero =>
    rw [heard_eq] at hk
    cases hk
  | succ n ih =>
    obtain hsame | ⟨op, t, records, he, heffect, hheard⟩ := heard_succ allocator events n
    · rw [hsame] at hk ⊢
      obtain ⟨m, ps, op, hm, hrest⟩ := ih hk
      exact ⟨m, ps, op, Nat.lt_succ_of_lt hm, hrest⟩
    · rw [hheard] at hk
      obtain hlt | hge := Nat.lt_or_ge k (heard allocator events n).length
      · rw [List.getElem?_append_left hlt] at hk
        obtain ⟨m, ps, op, hm, hop, hc, hcount, hcall, htake⟩ := ih hk
        refine ⟨m, ps, op, Nat.lt_succ_of_lt hm, hop, hc, hcount, hcall, ?_⟩
        rw [hheard, List.take_append_of_le_length (Nat.succ_le_of_lt hlt), htake]
      · rw [List.getElem?_append_right hge] at hk
        obtain ⟨ps, hc, hcount, hi, hrecords⟩ := heffect.destroyed hk
        refine ⟨n, ps, op, Nat.lt_succ_self n, he, hc, hcount, ?_, ?_⟩
        · rw [hheard, hrecords]
        · have hlength : records.length = count + 1 := by simp [hrecords, hcount]
          rw [hheard, List.take_of_length_le]
          rw [List.length_append, hlength]
          omega

/-- At every stage of a run the records that were heard so far replay to the live nodes of the store
and their successors. None of them contradicts the ones before it: a node is created only where it
is not live, it is given a successor only if it has none, and only one that is no successor yet, and
it is released only while it is live. A destroyed list is recorded right behind the releases of its
nodes, by the call that destroyed it, in the order in which they follow each other. -/
theorem journal_replays_to_links (allocator : Allocator) (events : List (Event α)) (n : Nat) :
    (∀ p place, LinkMap.empty.replay (heard allocator events n) p = some place ↔
      (stage allocator events n).store.next p = .ok place) ∧
    (∀ k r, (heard allocator events n)[k]? = some r →
      (LinkMap.empty.replay ((heard allocator events n).take k)).Admits r) ∧
    ∀ k count h, (heard allocator events n)[k]? = some (.destroyed count h) →
      ∃ m ps op, m < n ∧ events[m]? = some (.call op) ∧
        (stage allocator events m).store.Chain (some h) ps ∧ ps.length = count ∧
        heard allocator events (m + 1) =
          heard allocator events m ++ (ps.map .released ++ [.destroyed count h]) ∧
        (heard allocator events n).take (k + 1) = heard allocator events (m + 1) := by
  have hrecorded := recorded_run allocator (events.take n)
  obtain ⟨hlinks, hadmits⟩ := hrecorded.replay
  rw [Store.linkMap_empty] at hlinks hadmits
  refine ⟨fun p place => ?_, fun k r hk => ?_, fun k count h hk => exists_destruction hk⟩
  · rw [heard_eq, stage, hlinks]
    exact Store.linkMap_eq_some_iff
  · rw [heard_eq] at hk ⊢
    exact hadmits k r hk

end Arena

end CheckedLists
