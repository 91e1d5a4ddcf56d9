import Mathlib.Data.List.Induction
import TopicConsumer.RoutedSession

namespace TopicConsumer

def Record.place (r : Record) : PartitionKey := (r.topic, r.partition)

/-- What can happen in a session, in any order. Routing a record is two events, so that handlers may run between the note
of its offset and its arrival. -/
inductive SessionEvent where
  | claim (key : PartitionKey)
  /-- A route begins: the offset is noted, and the record waits to be sent. -/
  | fetch (record : Record)
  /-- The route is over: the record is queued, or its claim takes no more. -/
  | send (record : Record)
  | giveUp (record : Record)
  | ask (i : Nat)
  | take (i : Nat) (record : Record)
  | abandon (i : Nat)
  | finish (i : Nat) (result : Except Failure Unit)
  | cancel
  | forget (key : PartitionKey)
  | stop

/-- A session with the record that is being routed. -/
structure SessionPlay where
  session : RoutedSession
  routing : Option Record := none
  stopped : Bool := false

namespace RoutedSession

def new (cancelled : Bool) (marks : Watermarks) : RoutedSession := { cancelled := cancelled, marks := marks }

def isFull (s : RoutedSession) (record : Record) : Bool :=
  match (s.senders.get? record.place).bind (s.claims[·]?) with
  | none => false
  | some c =>
    match c.claim.send record with
    | .full => true
    | _ => false

def fetch (s : RoutedSession) (record : Record) : RoutedSession :=
  (s.claim record.place).noteFetched record.place record.offset

end RoutedSession

namespace SessionPlay

/-- What an event makes of a session; `none` if it cannot happen. A handler that fails by an overflow
while it asks is one that returns instead. -/
def step? (p : SessionPlay) : SessionEvent → Option SessionPlay
  | .claim key =>
    if p.stopped || p.routing.isSome then none else some { p with session := p.session.claim key }
  | .fetch record =>
    if p.stopped || p.routing.isSome then none
    else some { p with session := p.session.fetch record, routing := some record }
  | .send record =>
    if p.routing = some record ∧ p.session.isFull record = false then
      match p.session.sendNow record with
      | .routed session => some { p with session := session, routing := none }
      | .blocked _ => none
    else none
  | .giveUp record => if p.routing = some record then some { p with routing := none } else none
  | .ask i =>
    match p.session.claims[i]? with
    | none => none
    | some c =>
      if c.result.isSome || c.asking then none
      else
        match p.session.ask i with
        | .ok session => some { p with session := session }
        | .error _ => none
  | .take i record =>
    match p.session.claims[i]? with
    | none => none
    | some c =>
      if c.result.isNone && c.asking then
        match p.session.take i with
        | some (r, session) => if r = record then some { p with session := session } else none
        | none => none
      else none
  | .abandon i =>
    match p.session.claims[i]? with
    | none => none
    | some c => if c.asking then some { p with session := p.session.abandon i } else none
  | .finish i result =>
    match p.session.claims[i]? with
    | none => none
    | some c =>
      if c.result.isSome then none else some { p with session := p.session.finishClaim i result }
  | .cancel => some { p with session := p.session.cancel }
  | .forget key =>
    if p.stopped || p.routing.isSome then none else some { p with session := p.session.forget key }
  | .stop =>
    if p.stopped || p.routing.isSome then none
    else some { p with session := p.session.stop, stopped := true }

def run (p : SessionPlay) : List SessionEvent → Option SessionPlay
  | [] => some p
  | e :: rest => (p.step? e).bind (·.run rest)

/-- What ending the session returns, once every handler has returned. -/
def finished? (p : SessionPlay) : Option (List (PartitionKey × Int)) :=
  if p.stopped && p.session.claims.all (·.result.isSome) then some p.session.resumeOffsets else none

theorem run_concat (p : SessionPlay) (events : List SessionEvent) (e : SessionEvent) :
    p.run (events ++ [e]) = (p.run events).bind (·.step? e) := by
  induction events generalizing p with
  | nil => simp [run]
  | cons f rest ih =>
    simp only [List.cons_append, run, Option.bind_assoc]
    exact congrArg _ (funext fun q => ih q)

end SessionPlay

/-- The records routed to a partition, whatever became of the routes. -/
def routedTo (events : List SessionEvent) (key : PartitionKey) : List Record :=
  events.filterMap fun e => match e with
    | .fetch r => if r.place = key then some r else none
    | _ => none

def takenFrom (events : List SessionEvent) (key : PartitionKey) : List Record :=
  events.filterMap fun e => match e with
    | .take _ r => if r.place = key then some r else none
    | _ => none

/-- The handler that took the record has asked for another one since. -/
def Handled (events : List SessionEvent) (r : Record) : Prop :=
  ∃ i past later, events = past ++ SessionEvent.take i r :: later ∧ SessionEvent.ask i ∈ later

/-- An event may follow a history: what is routed has an offset of 0 or more and above those routed to
its partition before, and no route to that partition was abandoned. -/
def Fits (past : List SessionEvent) : SessionEvent → Prop
  | .fetch r =>
    0 ≤ r.offset ∧ (∀ x ∈ routedTo past r.place, x.offset < r.offset) ∧
      ∀ x, SessionEvent.giveUp x ∈ past → x.place ≠ r.place
  | _ => True

def OrderlyFrom (past : List SessionEvent) : List SessionEvent → Prop
  | [] => True
  | e :: rest => Fits past e ∧ OrderlyFrom (past ++ [e]) rest

/-- The offsets routed to a partition grow, and nothing more is routed to it once a route to it was
abandoned. -/
def Orderly (events : List SessionEvent) : Prop := OrderlyFrom [] events

theorem orderlyFrom_concat {past events : List SessionEvent} {e : SessionEvent} :
    OrderlyFrom past (events ++ [e]) ↔ OrderlyFrom past events ∧ Fits (past ++ events) e := by
  induction events generalizing past with
  | nil => simp [OrderlyFrom]
  | cons f rest ih => simp [OrderlyFrom, ih, and_assoc]

theorem orderly_concat {events : List SessionEvent} {e : SessionEvent} :
    Orderly (events ++ [e]) ↔ Orderly events ∧ Fits events e :=
  orderlyFrom_concat

theorem mem_routedTo {events : List SessionEvent} {key : PartitionKey} {r : Record} :
    r ∈ routedTo events key ↔ SessionEvent.fetch r ∈ events ∧ r.place = key := by
  simp only [routedTo, List.mem_filterMap]
  constructor
  · rintro ⟨e, he, h⟩
    cases e <;> simp at h
    obtain ⟨hk, rfl⟩ := h
    exact ⟨he, hk⟩
  · rintro ⟨he, hk⟩
    exact ⟨_, he, by simp [hk]⟩

theorem mem_takenFrom {events : List SessionEvent} {key : PartitionKey} {r : Record} :
    r ∈ takenFrom events key ↔ (∃ i, SessionEvent.take i r ∈ events) ∧ r.place = key := by
  simp only [takenFrom, List.mem_filterMap]
  constructor
  · rintro ⟨e, he, h⟩
    cases e <;> simp at h
    obtain ⟨hk, rfl⟩ := h
    exact ⟨⟨_, he⟩, hk⟩
  · rintro ⟨⟨i, he⟩, hk⟩
    exact ⟨_, he, by simp [hk]⟩

theorem routedTo_fetch (events : List SessionEvent) (r : Record) (key : PartitionKey) :
    routedTo (events ++ [.fetch r]) key = routedTo events key ++ if r.place = key then [r] else [] := by
  by_cases h : r.place = key <;> simp [routedTo, h]

theorem routedTo_other {events : List SessionEvent} {e : SessionEvent} (he : ∀ r, e ≠ .fetch r)
    (key : PartitionKey) : routedTo (events ++ [e]) key = routedTo events key := by
  cases e <;> simp [routedTo] at he ⊢

theorem takenFrom_take (events : List SessionEvent) (i : Nat) (r : Record) (key : PartitionKey) :
    takenFrom (events ++ [.take i r]) key = takenFrom events key ++ if r.place = key then [r] else [] := by
  by_cases h : r.place = key <;> simp [takenFrom, h]

theorem takenFrom_other {events : List SessionEvent} {e : SessionEvent} (he : ∀ i r, e ≠ .take i r)
    (key : PartitionKey) : takenFrom (events ++ [e]) key = takenFrom events key := by
  cases e <;> simp [takenFrom] at he ⊢

theorem Handled.mem_takenFrom {events : List SessionEvent} {r : Record} (h : Handled events r) :
    r ∈ takenFrom events r.place := by
  obtain ⟨i, past, later, rfl, _⟩ := h
  exact TopicConsumer.mem_takenFrom.mpr ⟨⟨i, by simp⟩, rfl⟩

theorem handled_concat {events : List SessionEvent} {e : SessionEvent} {r : Record} :
    Handled (events ++ [e]) r ↔
      Handled events r ∨ ∃ i, e = .ask i ∧ SessionEvent.take i r ∈ events := by
  constructor
  · rintro ⟨i, past, later, h, ha⟩
    rcases List.eq_nil_or_concat later with rfl | ⟨later, f, rfl⟩
    · simp at ha
    · rw [List.concat_eq_append] at h ha
      have heq : events ++ [e] = (past ++ SessionEvent.take i r :: later) ++ [f] := by simpa using h
      obtain ⟨rfl, hf⟩ := List.append_inj' heq rfl
      cases hf
      rcases List.mem_append.mp ha with ha | ha
      · exact Or.inl ⟨i, past, later, rfl, ha⟩
      · exact Or.inr ⟨i, (List.mem_singleton.mp ha).symm, by simp⟩
  · rintro (⟨i, past, later, rfl, ha⟩ | ⟨i, rfl, hm⟩)
    · exact ⟨i, past, later ++ [e], by simp, List.mem_append_left _ ha⟩
    · obtain ⟨past, later, rfl⟩ := List.append_of_mem hm
      exact ⟨i, past, later ++ [.ask i], by simp, by simp⟩

theorem Orderly.past {events : List SessionEvent} {e : SessionEvent} (h : Orderly (events ++ [e])) :
    Orderly events := (orderly_concat.mp h).1

theorem Orderly.fits {events : List SessionEvent} {r : Record} (h : Orderly (events ++ [.fetch r])) :
    0 ≤ r.offset ∧ (∀ x ∈ routedTo events r.place, x.offset < r.offset) ∧
      ∀ x, SessionEvent.giveUp x ∈ events → x.place ≠ r.place := (orderly_concat.mp h).2

theorem routedTo_nonneg {events : List SessionEvent} (h : Orderly events) {key : PartitionKey}
    {r : Record} (hr : r ∈ routedTo events key) : 0 ≤ r.offset := by
  induction events using List.reverseRecOn with
  | nil => simp [routedTo] at hr
  | append_singleton events e ih =>
    by_cases hm : r ∈ routedTo events key
    · exact ih h.past hm
    · have hf : SessionEvent.fetch r = e := by
        have := (mem_routedTo.mp hr).1
        have hn : SessionEvent.fetch r ∉ events :=
      fun hf => hm (mem_routedTo.mpr ⟨hf, (mem_routedTo.mp hr).2⟩)
        simpa [hn] using this
      subst hf
      exact h.fits.1

theorem routedTo_sorted {events : List SessionEvent} (h : Orderly events) (key : PartitionKey) :
    (routedTo events key).Pairwise (·.offset < ·.offset) := by
  induction events using List.reverseRecOn with
  | nil => exact List.Pairwise.nil
  | append_singleton events e ih =>
    have hi := ih h.past
    by_cases hf : ∃ r, e = .fetch r
    · obtain ⟨r, rfl⟩ := hf
      rw [routedTo_fetch]
      split
      next hk =>
        subst hk
        refine List.pairwise_append.mpr ⟨hi, by simp, ?_⟩
        intro x hx y hy
        obtain rfl := List.mem_singleton.mp hy
        exact h.fits.2.1 x hx
      next => simpa using hi
    · rw [routedTo_other fun r hr => hf ⟨r, hr⟩]
      exact hi

end TopicConsumer
