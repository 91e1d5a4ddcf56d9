import Mathlib.Data.List.Perm.Basic
import TopicConsumer.Gauge

namespace TopicConsumer

/-- A record in the hands of a consumer: the series of the gauge that it counts for, and its offset. -/
structure Held where
  labels : GaugeLabels
  offset : Int
deriving DecidableEq

/-- How far a task is with the record in its hands. -/
inductive Handling where
  | waiting
  | taken (held : Held)
  | measured (held : Held)
  | past
deriving DecidableEq

/-- Each record that a consumer takes is taken, measured and decoded, in this order. -/
inductive LagEvent (ω : Type) where
  | taken (owner : ω) (held : Held)
  | measured (owner : ω) (held : Held) (high : Int)
  | decoded (owner : ω) (held : Held)

namespace Handling

def unmeasured : Handling → List Held
  | taken held => [held]
  | _ => []

def undecoded : Handling → List Held
  | measured held => [held]
  | _ => []

def noted {ω : Type} (owner : ω) (mark : Held → Int) : Handling → Handling → List (LagEvent ω)
  | waiting, taken held => [.taken owner held]
  | taken _, measured held => [.measured owner held (mark held)]
  | measured held, past => [.decoded owner held]
  | _, _ => []

end Handling

namespace LagEvent

variable {ω : Type}

def takes [DecidableEq ω] (owner : ω) : LagEvent ω → Option Held
  | taken o held => if o = owner then some held else none
  | _ => none

def measures [DecidableEq ω] (owner : ω) : LagEvent ω → Option Held
  | measured o held _ => if o = owner then some held else none
  | _ => none

def decodes [DecidableEq ω] (owner : ω) : LagEvent ω → Option Held
  | decoded o held => if o = owner then some held else none
  | _ => none

/-- What an event does to the gauge: a measurement sets the series of its record, and no other event sets any. -/
def write (gauge : Gauge) : LagEvent ω → Gauge
  | measured _ held high => Table.set held.labels (high - held.offset) gauge
  | _ => gauge

end LagEvent

/-- What the events tell of a gauge and of the records in the hands of some owners. -/
structure Lagging {ω : Type} [DecidableEq ω] (start gauge : Gauge) (hands : ω → List Handling)
    (events : List (LagEvent ω)) : Prop where
  /-- A record that was taken is measured, once, or still in hand and to be measured. -/
  measured : ∀ owner, (events.filterMap (LagEvent.takes owner)).Perm
    (events.filterMap (LagEvent.measures owner) ++ (hands owner).flatMap Handling.unmeasured)
  /-- A record that was measured is decoded, once, or still in hand and to be decoded. -/
  decoded : ∀ owner, (events.filterMap (LagEvent.measures owner)).Perm
    (events.filterMap (LagEvent.decodes owner) ++ (hands owner).flatMap Handling.undecoded)
  /-- Whenever a record is decoded, it was measured before. -/
  before : ∀ past later owner held, events = past ++ .decoded owner held :: later →
    (past.filterMap (LagEvent.decodes owner)).count held < (past.filterMap (LagEvent.measures owner)).count held
  gauge : gauge = events.foldl LagEvent.write start
  bounded : ∀ owner held high, .measured owner held high ∈ events →
    0 ≤ held.offset ∧ 1 ≤ high - held.offset ∧ high ≤ maxOffset

/-- What a step of a task may do to the record in its hands and to the gauge. -/
inductive Handling.Turn (mark : Held → Int) (gauge : Gauge) : Handling → Handling → Gauge → Prop where
  | idle {old new} : (old = .waiting ∨ old = .past) → (new = .waiting ∨ new = .past) → Turn mark gauge old new gauge
  | taken held : Turn mark gauge .waiting (.taken held) gauge
  | measured held : 0 ≤ held.offset → held.offset < mark held → mark held ≤ maxOffset →
      Turn mark gauge (.taken held) (.measured held) (Table.set held.labels (mark held - held.offset) gauge)
  | decoded held : Turn mark gauge (.measured held) .past gauge

/-- An event is one of its owner, and carries a record from one handling to another. -/
structure LagEvent.Moves {ω : Type} [DecidableEq ω] (owner : ω) (e : LagEvent ω) (old new : Handling) : Prop where
  others : ∀ o, o ≠ owner → e.takes o = none ∧ e.measures o = none ∧ e.decodes o = none
  unmeasured : (e.takes owner).toList ++ old.unmeasured = (e.measures owner).toList ++ new.unmeasured
  undecoded : (e.measures owner).toList ++ old.undecoded = (e.decodes owner).toList ++ new.undecoded

variable {ω : Type} [DecidableEq ω] {start gauge later : Gauge} {hands next : ω → List Handling}
  {events : List (LagEvent ω)}

theorem Handling.Turn.moves {owner : ω} {mark : Held → Int} {old new : Handling} {e : LagEvent ω}
    (ht : Turn mark gauge old new later) (he : old.noted owner mark new = [e]) : e.Moves owner old new := by
  cases ht with
  | idle ho hn => rcases ho with rfl | rfl <;> rcases hn with rfl | rfl <;> cases he
  | taken | measured | decoded =>
    cases he
    refine ⟨fun o ho => ?_, ?_, ?_⟩
    · simp [LagEvent.takes, LagEvent.measures, LagEvent.decodes, Ne.symm ho]
    · simp [LagEvent.takes, LagEvent.measures, unmeasured]
    · simp [LagEvent.measures, LagEvent.decodes, undecoded]

namespace Lagging

theorem new (start : Gauge) (hu : ∀ owner, (hands owner).flatMap Handling.unmeasured = [])
    (hd : ∀ owner, (hands owner).flatMap Handling.undecoded = []) : Lagging start start hands [] where
  measured owner := by simp [hu]
  decoded owner := by simp [hd]
  before past later owner held h := by simp at h
  gauge := rfl
  bounded owner held high h := by simp at h

theorem same (h : Lagging start gauge hands events)
    (hu : ∀ owner, ((next owner).flatMap Handling.unmeasured).Perm ((hands owner).flatMap Handling.unmeasured))
    (hd : ∀ owner, ((next owner).flatMap Handling.undecoded).Perm ((hands owner).flatMap Handling.undecoded)) :
    Lagging start gauge next events where
  measured owner := (h.measured owner).trans ((hu owner).symm.append_left _)
  decoded owner := (h.decoded owner).trans ((hd owner).symm.append_left _)
  before := h.before
  gauge := h.gauge
  bounded := h.bounded

theorem before_concat (h : Lagging start gauge hands events) {e : LagEvent ω}
    (he : ∀ owner held, e = .decoded owner held → held ∈ (hands owner).flatMap Handling.undecoded) :
    ∀ past later owner held, events ++ [e] = past ++ .decoded owner held :: later →
      (past.filterMap (LagEvent.decodes owner)).count held < (past.filterMap (LagEvent.measures owner)).count held := by
  intro past later owner held hsplit
  -- What is decoded is the record of the event that is added, or of an earlier one.
  rcases List.eq_nil_or_concat later with rfl | ⟨later, last, rfl⟩
  · obtain ⟨rfl, hlast⟩ := List.append_inj' hsplit rfl
    have hm := he owner held (List.singleton_inj.mp hlast)
    have hcount := (h.decoded owner).count_eq held
    have hpos := List.count_pos_iff.mpr hm
    rw [List.count_append] at hcount
    omega
  · have hsplit : events ++ [e] = (past ++ .decoded owner held :: later) ++ [last] := by simpa using hsplit
    exact h.before past later owner held (List.append_inj' hsplit rfl).1

/-- One event more is noted of an owner, who gets on with a record. -/
theorem concat (h : Lagging start gauge hands events) {owner : ω} {e : LagEvent ω} {old new : Handling}
    (he : e.Moves owner old new) (hothers : ∀ o, o ≠ owner → next o = hands o)
    (hmine : ∀ f : Handling → List Held, ((next owner).flatMap f ++ f old).Perm ((hands owner).flatMap f ++ f new))
    (hb : ∀ owner held high, e = .measured owner held high →
      0 ≤ held.offset ∧ 1 ≤ high - held.offset ∧ high ≤ maxOffset) :
    Lagging start (e.write gauge) next (events ++ [e]) := by
  have hlast (f : LagEvent ω → Option Held) : (events ++ [e]).filterMap f = events.filterMap f ++ (f e).toList := by
    cases hf : f e <;> simp [hf]
  have hunmeasured (o : ω) (held : Held) :
      (e.takes o).toList.count held + ((hands o).flatMap Handling.unmeasured).count held =
        (e.measures o).toList.count held + ((next o).flatMap Handling.unmeasured).count held := by
    by_cases ho : o = owner
    · have hmoved := congrArg (List.count held) he.unmeasured
      have hcount := (hmine Handling.unmeasured).count_eq held
      rw [List.count_append, List.count_append] at hmoved hcount
      rw [ho]
      omega
    · obtain ⟨ht, hm, _⟩ := he.others o ho
      rw [hothers o ho, ht, hm]
  have hundecoded (o : ω) (held : Held) :
      (e.measures o).toList.count held + ((hands o).flatMap Handling.undecoded).count held =
        (e.decodes o).toList.count held + ((next o).flatMap Handling.undecoded).count held := by
    by_cases ho : o = owner
    · have hmoved := congrArg (List.count held) he.undecoded
      have hcount := (hmine Handling.undecoded).count_eq held
      rw [List.count_append, List.count_append] at hmoved hcount
      rw [ho]
      omega
    · obtain ⟨_, hm, hd⟩ := he.others o ho
      rw [hothers o ho, hm, hd]
  refine ⟨fun o => List.perm_iff_count.mpr fun held => ?_, fun o => List.perm_iff_count.mpr fun held => ?_, ?_, ?_, ?_⟩
  · have hcount := (h.measured o).count_eq held
    have hone := hunmeasured o held
    simp only [hlast, List.count_append] at hcount ⊢
    omega
  · have hcount := (h.decoded o).count_eq held
    have hone := hundecoded o held
    simp only [hlast, List.count_append] at hcount ⊢
    omega
  · refine h.before_concat fun o held he => List.count_pos_iff.mp ?_
    have hone := hundecoded o held
    simp only [he, LagEvent.measures, LagEvent.decodes, if_true, Option.toList_none, Option.toList_some,
      List.count_nil, List.count_singleton_self] at hone
    omega
  · rw [h.gauge, List.foldl_append]
    rfl
  · intro o held high hm
    rcases List.mem_append.mp hm with hm | hm
    · exact h.bounded o held high hm
    · exact hb o held high (List.mem_singleton.mp hm).symm

/-- One task gets on with the record in its hands. -/
theorem turn (h : Lagging start gauge hands events) {owner : ω} {mark : Held → Int} {old new : Handling}
    (ht : Handling.Turn mark gauge old new later) (hothers : ∀ o, o ≠ owner → next o = hands o)
    (hmine : ∀ f : Handling → List Held, ((next owner).flatMap f ++ f old).Perm ((hands owner).flatMap f ++ f new)) :
    Lagging start later next (events ++ old.noted owner mark new) := by
  have hmoves {e : LagEvent ω} (he : old.noted owner mark new = [e]) := ht.moves he
  cases ht with
  | idle ho hn =>
    have hnone : old.noted owner mark new = [] := by
      rcases ho with rfl | rfl <;> rcases hn with rfl | rfl <;> rfl
    have hsame (f : Handling → List Held) (hf : f .waiting = [] ∧ f .past = []) (o : ω) :
        ((next o).flatMap f).Perm ((hands o).flatMap f) := by
      by_cases he : o = owner
      · subst he
        have hp := hmine f
        rcases ho with rfl | rfl <;> rcases hn with rfl | rfl <;> simpa [hf] using hp
      · rw [hothers o he]
    rw [hnone, List.append_nil]
    exact h.same (hsame _ ⟨rfl, rfl⟩) (hsame _ ⟨rfl, rfl⟩)
  | taken held => exact h.concat (hmoves rfl) hothers hmine (fun _ _ _ he => nomatch he)
  | measured held h0 hlt hmax =>
    refine h.concat (hmoves rfl) hothers hmine ?_
    rintro _ _ _ ⟨⟩
    exact ⟨h0, by omega, hmax⟩
  | decoded held => exact h.concat (hmoves rfl) hothers hmine (fun _ _ _ he => nomatch he)

end Lagging

end TopicConsumer
