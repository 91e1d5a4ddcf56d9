import Mathlib.Data.List.Nodup
import TopicConsumer.Proofs.HighWaterMarks

namespace TopicConsumer

/-- The high water marks in the statistics of a client, topic by topic. -/
structure Statistics where
  topics : Table String (Table Int Int)
  topics_once : (topics.map Prod.fst).Nodup
  partitions_once : ∀ t ∈ topics, (t.2.map Prod.fst).Nodup

def Statistics.marks (s : Statistics) : Table PartitionKey Int :=
  s.topics.flatMap fun t => t.2.map fun p => ((t.1, p.1), p.2)

theorem Statistics.keys_nodup (s : Statistics) : (s.marks.map Prod.fst).Nodup := by
  have hkeys : s.marks.map Prod.fst = s.topics.flatMap fun t => (t.2.map Prod.fst).map (Prod.mk t.1) := by
    simp [marks, List.map_flatMap, Function.comp_def]
  rw [hkeys, List.nodup_flatMap]
  refine ⟨fun t ht => (s.partitions_once t ht).map fun _ _ he => (Prod.mk.inj he).2, ?_⟩
  refine (List.pairwise_map.mp s.topics_once).imp fun {t u} hne key ht hu => ?_
  obtain ⟨_, _, rfl⟩ := List.mem_map.mp ht
  obtain ⟨_, _, he⟩ := List.mem_map.mp hu
  exact hne (Prod.mk.inj he).1.symm

/-- What a client is told: the mark of one partition, or its statistics. -/
inductive Telling where
  | update (key : PartitionKey) (high : Int)
  | report (statistics : Statistics)

/-- The marks that are told, known or not. -/
def Telling.told : Telling → List (PartitionKey × Int)
  | update key high => [(key, high)]
  | report s => s.marks

theorem Table.perm_of_get? {κ β : Type} [DecidableEq κ] {table other : Table κ β}
    (ht : (table.map Prod.fst).Nodup) (ho : (other.map Prod.fst).Nodup) (h : ∀ key, table.get? key = other.get? key) :
    table.Perm other := by
  refine (List.perm_ext_iff_of_nodup (.of_map _ ht) (.of_map _ ho)).mpr fun p => ?_
  rw [show p = (p.1, p.2) from rfl, Table.mem_iff_get? ht, Table.mem_iff_get? ho, h]

namespace Watermarks

def hear (marks : Watermarks) : Telling → Watermarks
  | .update key high => update marks key high
  | .report s => record marks s.marks

def hearAll (marks : Watermarks) (tellings : List Telling) : Watermarks := tellings.foldl hear marks

/-- The reported marks that are known, of partitions that there are. -/
def known (reports : List (PartitionKey × Int)) : List (PartitionKey × Int) :=
  reports.filter fun p => 0 ≤ p.1.2 ∧ 0 ≤ p.2

/-- What is known of the one is not of a partition of which something is known of the other. -/
def Apart (reports others : List (PartitionKey × Int)) : Prop :=
  ∀ p ∈ known reports, ∀ q ∈ known others, p.1 ≠ q.1

/-- The same marks, held in whatever order, so that all readers see the same. -/
def Same (marks others : Watermarks) : Prop :=
  marks.Perm others ∧ ∀ key position, mark marks key position = mark others key position

variable {marks : Watermarks} {reports others : List (PartitionKey × Int)} {key : PartitionKey} {high : Int}

theorem hearAll_eq (marks : Watermarks) (tellings : List Telling) :
    hearAll marks tellings = record marks (tellings.flatMap Telling.told) := by
  rw [record, List.foldl_flatMap]
  refine congrArg (fun f => tellings.foldl f marks) (funext fun marks => funext fun t => ?_)
  cases t <;> rfl

/-- Only known marks are taken. -/
theorem record_known (marks : Watermarks) (reports : List (PartitionKey × Int)) :
    record marks (known reports) = record marks reports := by
  rw [record, record, known, List.foldl_filter]
  refine congrArg (fun f => reports.foldl f marks) (funext fun marks => funext fun p => ?_)
  split
  next => rfl
  next hp =>
    rw [decide_eq_true_eq] at hp
    rw [update, if_pos (by omega)]

theorem keys_nodup_record (h : (marks.map Prod.fst).Nodup) (reports : List (PartitionKey × Int)) :
    ((record marks reports).map Prod.fst).Nodup := by
  induction reports generalizing marks with
  | nil => exact h
  | cons p rest ih =>
    have hfirst : ((update marks p.1 p.2).map Prod.fst).Nodup := by
      unfold update
      split
      next => exact h
      next => exact Table.nodup_set h
    exact ih hfirst

theorem accepted_append (reports more : List (PartitionKey × Int)) (key : PartitionKey) :
    accepted (reports ++ more) key = (accepted more key).or (accepted reports key) := by
  simp [accepted, List.filter_append, List.getLast?_append, Option.map_or]

theorem mem_of_accepted (h : accepted reports key = some high) : (key, high) ∈ known reports := by
  obtain ⟨p, hp, rfl⟩ := Option.map_eq_some_iff.mp h
  obtain ⟨hm, hkept⟩ := List.mem_filter.mp (List.mem_of_getLast? hp)
  obtain ⟨rfl, hknown⟩ := of_decide_eq_true hkept
  exact List.mem_filter.mpr ⟨hm, decide_eq_true hknown⟩

/-- If no partition is reported twice, what is known of one is accepted. -/
theorem accepted_eq_some_iff (h : (reports.map Prod.fst).Nodup) :
    accepted reports key = some high ↔ (key, high) ∈ known reports := by
  refine ⟨mem_of_accepted, fun hm => ?_⟩
  have hin := List.mem_filter.mp hm
  cases ha : accepted reports key with
  | none =>
    have hempty := List.getLast?_eq_none_iff.mp (Option.map_eq_none_iff.mp ha)
    have hmem : (key, high) ∈ reports.filter fun p => p.1 = key ∧ 0 ≤ key.2 ∧ 0 ≤ p.2 :=
      List.mem_filter.mpr ⟨hin.1, by simpa using hin.2⟩
    exact absurd (hempty ▸ hmem) List.not_mem_nil
  | some other =>
    have hother := (List.mem_filter.mp (mem_of_accepted ha)).1
    exact ((Table.mem_iff_get? h).mp hother).symm.trans ((Table.mem_iff_get? h).mp hin.1)

theorem accepted_perm (h : (reports.map Prod.fst).Nodup) (hp : reports.Perm others) (key : PartitionKey) :
    accepted reports key = accepted others key := by
  refine Option.ext fun high => ?_
  rw [accepted_eq_some_iff h, accepted_eq_some_iff ((hp.map Prod.fst).nodup_iff.mp h)]
  exact (hp.filter _).mem_iff

/-- Of a partition only one of two reports tells something, so it does not matter which comes first. -/
theorem Apart.accepted_comm (h : Apart reports others) (key : PartitionKey) :
    accepted (reports ++ others) key = accepted (others ++ reports) key := by
  rw [accepted_append, accepted_append]
  cases hr : accepted reports key with
  | none => simp
  | some high =>
    cases ho : accepted others key with
    | none => simp
    | some other => exact absurd rfl (h (key, high) (mem_of_accepted hr) (key, other) (mem_of_accepted ho))

theorem get?_hearAll (tellings : List Telling) (key : PartitionKey) :
    (hearAll [] tellings).get? key = accepted (tellings.flatMap Telling.told) key := by
  rw [hearAll_eq, get?_record, Table.get?, Option.or_none]

theorem keys_nodup_hearAll (tellings : List Telling) : ((hearAll [] tellings).map Prod.fst).Nodup := by
  rw [hearAll_eq]
  exact keys_nodup_record (by simp) _

theorem same_of_accepted {tellings tellings' : List Telling}
    (h : ∀ key, accepted (tellings.flatMap Telling.told) key = accepted (tellings'.flatMap Telling.told) key) :
    Same (hearAll [] tellings) (hearAll [] tellings') := by
  have hget : ∀ key, (hearAll [] tellings).get? key = (hearAll [] tellings').get? key := fun key => by
    rw [get?_hearAll, get?_hearAll, h]
  refine ⟨Table.perm_of_get? (keys_nodup_hearAll _) (keys_nodup_hearAll _) hget, fun key position => ?_⟩
  rw [mark, mark, hget]

/-- What is told between two lots of tellings counts only by what is accepted of it. -/
theorem same_between (earlier later : List Telling) {first second : List Telling}
    (h : ∀ key, accepted (first.flatMap Telling.told) key = accepted (second.flatMap Telling.told) key) :
    Same (hearAll [] (earlier ++ first ++ later)) (hearAll [] (earlier ++ second ++ later)) := by
  refine same_of_accepted fun key => ?_
  simp only [List.flatMap_append, accepted_append, h]

end Watermarks

open Watermarks in
/-- The table of marks after any tellings. Readers see the mark that was accepted last of their partition, but never
one behind the record that they have read. No negative mark or partition is held, and what is told of one changes
nothing: tellings with the same known marks in the same order leave the same table. Tellings of different partitions
may change places, and statistics may be gone through in any order. -/
theorem marks_accepted_last (tellings : List Telling) :
    let marks := hearAll [] tellings
    let told := tellings.flatMap Telling.told
    (∀ key position, position < maxOffset → mark marks key position = .ok (match accepted told key with
      | some high => max (position + 1) high
      | none => position + 1)) ∧
    (∀ p ∈ marks, 0 ≤ p.1.2 ∧ 0 ≤ p.2) ∧
    (∀ others, known (others.flatMap Telling.told) = known told → hearAll [] others = marks) ∧
    (∀ earlier s t later, tellings = earlier ++ s :: t :: later → Apart s.told t.told →
      Same marks (hearAll [] (earlier ++ t :: s :: later))) ∧
    ∀ earlier s t later, tellings = earlier ++ .report s :: later → s.marks.Perm t.marks →
      Same marks (hearAll [] (earlier ++ .report t :: later)) := by
  intro marks told
  refine ⟨fun key position hp => ?_, fun p hp => ?_, fun others ho => ?_, ?_, ?_⟩
  · rw [mark_eq marks key hp, get?_hearAll]
    cases accepted told key with
    | none => simp
    | some high => rfl
  · have hget := (Table.mem_iff_get? (keys_nodup_hearAll tellings)).mp (show (p.1, p.2) ∈ marks from hp)
    rw [get?_hearAll] at hget
    exact of_decide_eq_true (List.mem_filter.mp (mem_of_accepted hget)).2
  · have hsame : record [] (known (others.flatMap Telling.told)) = record [] (known told) := congrArg _ ho
    rwa [record_known, record_known, ← hearAll_eq, ← hearAll_eq] at hsame
  · rintro earlier s t later rfl hapart
    have hswap : ∀ key, accepted ([s, t].flatMap Telling.told) key = accepted ([t, s].flatMap Telling.told) key :=
      fun key => by simpa using hapart.accepted_comm key
    simpa using same_between earlier later hswap
  · rintro earlier s t later rfl hperm
    have hreport : ∀ key, accepted ([Telling.report s].flatMap Telling.told) key =
        accepted ([Telling.report t].flatMap Telling.told) key :=
      fun key => by simpa [Telling.told] using accepted_perm s.keys_nodup hperm key
    simpa using same_between earlier later hreport

/-- A report with two marks that are not known leaves what was told before it. It may as well come before the last mark
or be gone through backwards. -/
theorem unknown_marks_erase_nothing :
    let statistics : Statistics := ⟨[("orders", [(0, -1), (1, 7)]), ("audit", [(-1, 4)])], by decide, by decide⟩
    let backwards : Statistics := ⟨[("audit", [(-1, 4)]), ("orders", [(1, 7), (0, -1)])], by decide, by decide⟩
    let tellings : List Telling := [.update ("orders", 0) 90, .update ("orders", 0) 100, .report statistics]
    let marks := Watermarks.hearAll [] tellings
    marks.mark ("orders", 0) 41 = .ok 100 ∧ marks.mark ("orders", 0) 120 = .ok 121 ∧
      marks.mark ("audit", 0) 7 = .ok 8 ∧
      Watermarks.hearAll [] [.update ("orders", 0) 90, .update ("orders", 0) 100, .update ("orders", 1) 7] = marks ∧
      Watermarks.Same marks
        (Watermarks.hearAll [] [.update ("orders", 0) 90, .report statistics, .update ("orders", 0) 100]) ∧
      Watermarks.Same marks
        (Watermarks.hearAll [] [.update ("orders", 0) 90, .update ("orders", 0) 100, .report backwards]) := by
  intro statistics backwards tellings marks
  obtain ⟨hmark, _, hknown, hswap, horder⟩ := marks_accepted_last tellings
  refine ⟨hmark ("orders", 0) 41 (by decide), hmark ("orders", 0) 120 (by decide), hmark ("audit", 0) 7 (by decide),
    hknown _ (by decide), ?_, ?_⟩
  · refine hswap [.update ("orders", 0) 90] (.update ("orders", 0) 100) (.report statistics) [] rfl ?_
    unfold Watermarks.Apart
    decide
  · exact horder [.update ("orders", 0) 90, .update ("orders", 0) 100] statistics backwards [] rfl (by decide)

end TopicConsumer
