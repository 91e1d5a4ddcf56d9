import Mathlib.Data.List.Induction
import TopicConsumer.RoutedClaim

namespace TopicConsumer

namespace Watermarks

/-- The mark of a partition that was accepted last. -/
def accepted (reports : List (PartitionKey × Int)) (key : PartitionKey) : Option Int :=
  (reports.filter fun p => p.1 = key ∧ 0 ≤ key.2 ∧ 0 ≤ p.2).getLast?.map Prod.snd

theorem accepted_concat (reports : List (PartitionKey × Int)) (p : PartitionKey × Int) (key : PartitionKey) :
    accepted (reports ++ [p]) key = if p.1 = key ∧ 0 ≤ key.2 ∧ 0 ≤ p.2 then some p.2 else accepted reports key := by
  unfold accepted
  rw [List.filter_append]
  by_cases hp : p.1 = key ∧ 0 ≤ key.2 ∧ 0 ≤ p.2
  · rw [if_pos hp, List.filter_cons, if_pos (decide_eq_true hp), List.filter_nil, List.getLast?_concat]
    rfl
  · rw [if_neg hp, List.filter_cons, if_neg (by simpa using hp), List.filter_nil, List.append_nil]

theorem accepted_nonneg {reports : List (PartitionKey × Int)} {key : PartitionKey} {high : Int}
    (h : accepted reports key = some high) : 0 ≤ high := by
  obtain ⟨p, hp, rfl⟩ := Option.map_eq_some_iff.mp h
  have hm := List.mem_filter.mp (List.mem_of_getLast? hp)
  exact (of_decide_eq_true hm.2).2.2

theorem get?_update (marks : Watermarks) (p : PartitionKey × Int) (key : PartitionKey) :
    (update marks p.1 p.2).get? key = if p.1 = key ∧ 0 ≤ key.2 ∧ 0 ≤ p.2 then some p.2 else marks.get? key := by
  unfold update
  split
  next hn =>
    rw [if_neg]
    rintro ⟨rfl, hpartition, hmark⟩
    omega
  next hn =>
    rw [Table.get?_set]
    by_cases hk : p.1 = key
    · subst hk
      rw [if_pos rfl, if_pos ⟨rfl, by omega, by omega⟩]
    · rw [if_neg (Ne.symm hk), if_neg fun h => hk h.1]

theorem get?_record (marks : Watermarks) (reports : List (PartitionKey × Int)) (key : PartitionKey) :
    (record marks reports).get? key = (accepted reports key).or (marks.get? key) := by
  induction reports using List.reverseRecOn with
  | nil => rfl
  | append_singleton reports p ih =>
    rw [record, List.foldl_append, List.foldl_cons, List.foldl_nil, get?_update, ← record, ih, accepted_concat]
    split <;> rfl

theorem mark_eq (marks : Watermarks) (key : PartitionKey) {position : Int} (h : position < maxOffset) :
    mark marks key position = .ok (max (position + 1) ((marks.get? key).getD (position + 1))) := by
  unfold mark
  rw [show nextOffset position = .ok (position + 1) from if_pos h]
  cases marks.get? key with
  | none => simp
  | some high => simp [Int.max_comm]

end Watermarks

/-- A claim with its resume point and the marks that its client was told. -/
structure FedClaim where
  claim : RoutedClaim
  point : ResumePoint := {}
  marks : Watermarks := []
  asking : Bool := false

inductive ClaimAct where
  | update (key : PartitionKey) (high : Int)
  | report (marks : Table PartitionKey Int)
  | note (offset : Int)
  | send (record : Record)
  | shut
  | ask
  | take (record : Record)
  | finish
  | abandon
deriving DecidableEq

namespace ClaimAct

def told : ClaimAct → List (PartitionKey × Int)
  | .update key high => [(key, high)]
  | .report marks => marks
  | _ => []

/-- The offset that a claim keeps of the record handed over last. -/
def keeps (kept : Option Int) : ClaimAct → Option Int
  | .ask => none
  | .take record => some record.offset
  | _ => kept

end ClaimAct

namespace FedClaim

def new (key : PartitionKey) (capacity : Nat) : FedClaim := { claim := { key := key, capacity := capacity } }

def highWaterMark (c : FedClaim) : Except Overflow Int := c.claim.highWaterMark c.marks

/-- What an act makes of a claim; `none` if it cannot happen. -/
def act? (c : FedClaim) : ClaimAct → Option FedClaim
  | .update key high => some { c with marks := Watermarks.update c.marks key high }
  | .report marks => some { c with marks := Watermarks.record c.marks marks }
  | .note offset => some { c with point := c.point.routed offset }
  | .send record =>
    match c.claim.send record with
    | .sent claim => some { c with claim := claim }
    | .full => none
    | .closed => some c
  | .shut => some { c with claim := { c.claim with fed := false } }
  | .ask =>
    if c.asking then none
    else
      match c.claim.ask c.point with
      | .ok (claim, point) => some { c with claim := claim, point := point, asking := true }
      | .error _ => none
  | .take record =>
    match c.asking, c.claim.receive with
    | true, .record r claim point =>
      if r = record then some { c with claim := claim, point := point, asking := false } else none
    | _, _ => none
  | .finish =>
    match c.asking, c.claim.receive with
    | true, .ended => some { c with asking := false }
    | _, _ => none
  | .abandon => if c.asking then some { c with asking := false } else none

def run (c : FedClaim) : List ClaimAct → Option FedClaim
  | [] => some c
  | a :: rest => (c.act? a).bind (·.run rest)

/-- What counts for the mark of a claim: its partition, what its client was told, and the record that it keeps. -/
structure Passes (c d : FedClaim) (told : List (PartitionKey × Int)) (kept : Option Int) : Prop where
  key : d.claim.key = c.claim.key
  marks : d.marks = Watermarks.record c.marks told
  taken : d.claim.taken = kept

variable {c d : FedClaim}

theorem send_same {claim after : RoutedClaim} {record : Record} (h : claim.send record = .sent after) :
    after.key = claim.key ∧ after.taken = claim.taken := by
  unfold RoutedClaim.send at h
  split at h
  next => cases h
  next =>
    split at h <;> cases h
    exact ⟨rfl, rfl⟩

theorem receive_record {claim after : RoutedClaim} {record : Record} {point : ResumePoint}
    (h : claim.receive = .record record after point) : after.key = claim.key ∧ after.taken = some record.offset := by
  unfold RoutedClaim.receive at h
  split at h
  next =>
    cases h
    exact ⟨rfl, rfl⟩
  next => split at h <;> cases h

theorem ask_ok {claim after : RoutedClaim} {point moved : ResumePoint} (h : claim.ask point = .ok (after, moved)) :
    after.key = claim.key ∧ after.taken = none := by
  unfold RoutedClaim.ask at h
  split at h
  next hnone =>
    cases h
    exact ⟨rfl, hnone⟩
  next =>
    split at h <;> cases h
    exact ⟨rfl, rfl⟩

theorem act_passes {a : ClaimAct} (h : c.act? a = some d) : c.Passes d a.told (a.keeps c.claim.taken) := by
  cases a with
  | update | report | note | shut =>
    cases h
    exact ⟨rfl, rfl, rfl⟩
  | send record =>
    simp only [act?] at h
    split at h <;> cases h
    next hs =>
      obtain ⟨hkey, htaken⟩ := send_same hs
      exact ⟨hkey, rfl, htaken⟩
    next => exact ⟨rfl, rfl, rfl⟩
  | ask =>
    simp only [act?] at h
    split at h
    next => simp at h
    next =>
      split at h <;> cases h
      next hask =>
        obtain ⟨hkey, htaken⟩ := ask_ok hask
        exact ⟨hkey, rfl, htaken⟩
  | take record =>
    simp only [act?] at h
    split at h
    next hr =>
      split at h <;> cases h
      next he =>
        obtain ⟨hkey, htaken⟩ := receive_record hr
        exact ⟨hkey, rfl, he ▸ htaken⟩
    next => simp at h
  | finish =>
    simp only [act?] at h
    split at h <;> cases h
    exact ⟨rfl, rfl, rfl⟩
  | abandon =>
    simp only [act?] at h
    split at h <;> cases h
    exact ⟨rfl, rfl, rfl⟩

theorem run_passes {acts : List ClaimAct} (h : c.run acts = some d) :
    c.Passes d (acts.flatMap ClaimAct.told) (acts.foldl ClaimAct.keeps c.claim.taken) := by
  induction acts generalizing c with
  | nil =>
    cases Option.some.inj h
    exact ⟨rfl, rfl, rfl⟩
  | cons a rest ih =>
    obtain ⟨next, ha, hrest⟩ := Option.bind_eq_some_iff.mp h
    have hfirst := act_passes ha
    have hlater := ih hrest
    refine ⟨hlater.key.trans hfirst.key, ?_, ?_⟩
    · rw [hlater.marks, hfirst.marks, List.flatMap_cons, Watermarks.record, Watermarks.record, Watermarks.record,
        List.foldl_append]
    · rw [hlater.taken, hfirst.taken, List.foldl_cons]

end FedClaim

/-- As long as no record is handed over, the record before is kept until the next one is asked for. -/
theorem ClaimAct.keeps_until_asked {acts : List ClaimAct} (ht : ∀ record, .take record ∉ acts) (kept : Option Int) :
    acts.foldl keeps kept = if .ask ∈ acts then none else kept := by
  induction acts using List.reverseRecOn with
  | nil => simp
  | append_singleton acts a ih =>
    have hbefore := ih fun record hm => ht record (List.mem_append_left _ hm)
    have hlast : ∀ record, a ≠ .take record := fun record he => ht record (he ▸ by simp)
    rw [List.foldl_append, List.foldl_cons, List.foldl_nil, hbefore]
    cases a with
    | take record => exact absurd rfl (hlast record)
    | ask => simp [keeps]
    | update | report | note | send | shut | finish | abandon => simp [keeps]

/-- The mark of a claim after its last record was handed over: it is ahead of the record until the next call for a
record begins. From then on it is what was reported, which may be behind the record or not there at all. -/
theorem mark_covers_record_until_next_call (key : PartitionKey) (capacity : Nat) {past later : List ClaimAct}
    {record : Record} {c : FedClaim} (h : (FedClaim.new key capacity).run (past ++ .take record :: later) = some c)
    (hlast : ∀ other, .take other ∉ later) (hlow : 0 ≤ record.offset) (hhigh : record.offset < maxOffset) :
    let next := record.offset + 1
    let reported := Watermarks.accepted ((past ++ later).flatMap ClaimAct.told) key
    (.ask ∉ later → c.highWaterMark = .ok (max next (reported.getD next))) ∧
      (.ask ∈ later → c.highWaterMark = .ok (reported.getD 0)) ∧
      ∃ mark, c.highWaterMark = .ok mark ∧
        (next ≤ mark ↔ .ask ∉ later ∨ ∃ high, reported = some high ∧ next ≤ high) := by
  intro next reported
  obtain ⟨hkey, hmarks, htaken⟩ := FedClaim.run_passes h
  have hreported : c.marks.get? c.claim.key = reported := by
    rw [hmarks, hkey, Watermarks.get?_record]
    simp [FedClaim.new, Table.get?, reported, ClaimAct.told]
  have hkept : c.claim.taken = if .ask ∈ later then none else some record.offset := by
    rw [htaken, List.foldl_append, List.foldl_cons]
    exact ClaimAct.keeps_until_asked hlast _
  have hheld : .ask ∉ later → c.highWaterMark = .ok (max next (reported.getD next)) := by
    intro hask
    rw [FedClaim.highWaterMark, RoutedClaim.highWaterMark, hkept, if_neg hask, Option.getD_some,
      Watermarks.mark_eq _ _ hhigh, hreported]
  have hcleared : .ask ∈ later → c.highWaterMark = .ok (reported.getD 0) := by
    intro hask
    rw [FedClaim.highWaterMark, RoutedClaim.highWaterMark, hkept, if_pos hask, Option.getD_none,
      Watermarks.mark_eq _ _ (by decide), hreported]
    cases hr : reported with
    | none => rfl
    | some high =>
      have hnonneg := Watermarks.accepted_nonneg hr
      exact congrArg _ (Int.max_eq_right hnonneg)
  refine ⟨hheld, hcleared, ?_⟩
  by_cases hask : .ask ∈ later
  · refine ⟨_, hcleared hask, ?_⟩
    cases hr : reported with
    | none =>
      have hpositive : ¬ next ≤ 0 := by omega
      simp [hask, hpositive]
    | some high => simp [hask]
  · exact ⟨_, hheld hask, iff_of_true (Int.le_max_left _ _) (.inl hask)⟩

/-- A report behind the record in hand, one of another partition, and one that comes while the next call waits. -/
theorem stale_report_passed_on :
    let order : Record := { topic := "orders", partition := 0, offset := 5 }
    let past : List ClaimAct := [.update ("orders", 0) 3, .note 5, .send order, .ask]
    let later : List ClaimAct := [.update ("orders", 1) 90, .ask, .report [(("orders", 0), -1), (("orders", 0), 9)]]
    ∃ c, (FedClaim.new ("orders", 0) 4).run (past ++ .take order :: later) = some c ∧ c.highWaterMark = .ok 9 := by
  intro order past later
  have hrun : ((FedClaim.new ("orders", 0) 4).run (past ++ .take order :: later)).isSome = true := by rfl
  obtain ⟨c, hc⟩ := Option.isSome_iff_exists.mp hrun
  obtain ⟨_, hasked, _⟩ := mark_covers_record_until_next_call ("orders", 0) 4 hc (by simp [later])
    (by decide) (by decide)
  exact ⟨c, hc, (hasked (by decide)).trans rfl⟩

/-- Once a next record is asked for, the mark of a claim is no longer ahead of the record that it handed over:
not while the call waits, not after it was given up, and not after it has learned that there are no more. -/
theorem waiting_call_lowers_mark :
    let order : Record := { topic := "orders", partition := 0, offset := 5 }
    let marks (acts : List ClaimAct) : Option (Except Overflow Int) :=
      ((FedClaim.new ("orders", 0) 4).run ([.send order, .ask, .take order] ++ acts)).map (·.highWaterMark)
    marks [] = some (.ok 6) ∧ marks [.ask] = some (.ok 0) ∧ marks [.ask, .abandon] = some (.ok 0) ∧
      marks [.shut, .ask, .finish] = some (.ok 0) := by
  exact ⟨rfl, rfl, rfl, rfl⟩

end TopicConsumer
