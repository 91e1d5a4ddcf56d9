import TopicConsumer.Proofs.Clients

namespace TopicConsumer

open Environment

variable {α : Type}

inductive CallResult where
  | started (result : Except Failure Nat)
  | closed (result : Except Failure Unit)

/-- The starts that succeeded, by the capacity of their queues. -/
@[simp]
def startsOf : List CallResult → List Nat
  | [] => []
  | .started (.ok capacity) :: rest => capacity :: startsOf rest
  | .started (.error _) :: rest => startsOf rest
  | .closed _ :: rest => startsOf rest

@[simp]
theorem startsOf_append (calls more : List CallResult) : startsOf (calls ++ more) = startsOf calls ++ startsOf more := by
  induction calls using startsOf.induct <;> simp [*]

theorem startsOf_before {past calls : List CallResult} (h : past <+: calls) (hn : startsOf calls = []) :
    startsOf past = [] := by
  obtain ⟨more, rfl⟩ := h
  rw [startsOf_append] at hn
  exact (List.append_eq_nil_iff.mp hn).1

/-- A call of close has returned after the start that succeeded. -/
def Ended (calls : List CallResult) : Prop :=
  ∃ past result, past ++ [.closed result] <+: calls ∧ startsOf past ≠ []

theorem not_ended {calls : List CallResult} (h : startsOf calls = []) : ¬ Ended calls := by
  rintro ⟨past, result, hp, hs⟩
  exact hs (startsOf_before ((List.prefix_append past _).trans hp) h)

theorem Ended.of_started {calls : List CallResult} {result : Except Failure Nat}
    (h : Ended (calls ++ [.started result])) : Ended calls := by
  obtain ⟨past, closed, hp, hs⟩ := h
  rcases List.prefix_concat_iff.mp hp with he | hp
  · simp at he
  · exact ⟨past, closed, hp, hs⟩

theorem Ended.of_closed {calls : List CallResult} {result : Except Failure Unit}
    (h : Ended (calls ++ [.closed result])) : startsOf calls ≠ [] := by
  intro hn
  exact not_ended (by simp [hn]) h

/-- What calls give, one after the other. -/
structure Lawful (grouped : Bool) (calls : List CallResult) : Prop where
  once : (startsOf calls).length ≤ 1
  refused : ∀ past result, past ++ [.started result] <+: calls → startsOf past ≠ [] →
    result = .error .alreadyConsuming
  closes : ∀ past result, past ++ [.closed result] <+: calls → startsOf past = [] ∨ grouped = false → result = .ok ()

namespace Lawful

variable {grouped : Bool} {calls : List CallResult}

theorem started (h : Lawful grouped calls) {result : Except Failure Nat}
    (hr : startsOf calls ≠ [] → result = .error .alreadyConsuming) : Lawful grouped (calls ++ [.started result]) where
  once := by
    cases result with
    | error failure => simpa using h.once
    | ok capacity =>
      have hnone : startsOf calls = [] := not_not.mp fun hs => by simp at hr; exact hs hr
      simp [hnone]
  refused past again hp hs := by
    rcases List.prefix_concat_iff.mp hp with he | hp
    · obtain ⟨rfl, hx⟩ := List.append_inj' he rfl
      cases hx
      exact hr hs
    · exact h.refused past again hp hs
  closes past closed hp hs := by
    rcases List.prefix_concat_iff.mp hp with he | hp
    · simp at he
    · exact h.closes past closed hp hs

theorem closed (h : Lawful grouped calls) {result : Except Failure Unit}
    (hr : startsOf calls = [] ∨ grouped = false → result = .ok ()) : Lawful grouped (calls ++ [.closed result]) where
  once := by simpa using h.once
  refused past again hp hs := by
    rcases List.prefix_concat_iff.mp hp with he | hp
    · simp at he
    · exact h.refused past again hp hs
  closes past closed hp hs := by
    rcases List.prefix_concat_iff.mp hp with he | hp
    · obtain ⟨rfl, hx⟩ := List.append_inj' he rfl
      cases hx
      exact hr hs
    · exact h.closes past closed hp hs

end Lawful

def Tally.opened (before after : Tally) : List ClientRef :=
  (List.range' before.groups.length (after.groups.length - before.groups.length)).map .group ++
    (List.range' before.directs.length (after.directs.length - before.directs.length)).map .direct

/-- A consumer in its world, what its calls gave, and the clients that they opened. -/
structure Lifetime (α : Type) where
  chronicle : Chronicle α
  consumer : Consumer α
  calls : List CallResult := []
  clients : List ClientRef := []

/-- A call on the consumer, or anything else that happens. -/
inductive LifeAct (α : Type) where
  | consume (token : Token)
  | close
  | other (a : Act α)

@[simp]
def CloseCall.results : CloseCall → List CallResult
  | .returned result => [.closed result]
  | .waiting _ => []

@[simp]
def ClosingEvent.answer? : ClosingEvent → Option CallResult
  | .returned result => some (.closed result)
  | _ => none

def GroupRun.isClosing (run : GroupRun α) : Bool :=
  match run.closer with
  | .waiting => true
  | .performing => true
  | _ => false

namespace Lifetime

def create (c : Chronicle α) (blueprint : Blueprint α) : Lifetime α where
  chronicle := c
  consumer := { blueprint := blueprint, connector := .broker }

def tally (l : Lifetime α) : Tally := l.chronicle.world.env.tally

def run? (l : Lifetime α) : Option (Nat × GroupRun α) :=
  match l.consumer.streams with
  | some (.group i) => l.chronicle.world.groups[i]?.map fun run => (i, run)
  | _ => none

def isClosing (l : Lifetime α) : Bool :=
  match l.run? with
  | some (_, run) => run.isClosing
  | none => false

/-- What an act that leads to `d` gives to a call of close that waits. -/
def answers (l : Lifetime α) (d : Chronicle α) (a : Act α) : List CallResult :=
  match l.run? with
  | some (i, _) => (l.chronicle.closes d i a).filterMap ClosingEvent.answer?
  | none => []

/-- What a call or an act makes of the consumer; `none` if it cannot happen, as no call while one of close waits. -/
def act? (l : Lifetime α) : LifeAct α → Option (Lifetime α)
  | .consume token =>
    if l.isClosing then none
    else
      let w := l.chronicle.world
      let (result, world, consumer) := Consumer.start w l.consumer token
      let more := world.groups.length - w.groups.length
      let note : RunNote α := { start := l.consumer.blueprint.config.start }
      some {
        chronicle := { world := world, notes := l.chronicle.notes ++ List.replicate more note }
        consumer := consumer
        calls := l.calls ++ [.started result]
        clients := l.clients ++ w.env.tally.opened world.env.tally }
  | .close =>
    if l.isClosing then none
    else
      let (call, world, consumer) := Consumer.beginClose l.chronicle.world l.consumer
      some { l with
        chronicle := { l.chronicle with world := world }
        consumer := consumer
        calls := l.calls ++ call.results }
  | .other a => (l.chronicle.act? a).map fun d => { l with chronicle := d, calls := l.calls ++ l.answers d a }

def run (l : Lifetime α) : List (LifeAct α) → Option (Lifetime α)
  | [] => some l
  | a :: rest => (l.act? a).bind (·.run rest)

end Lifetime

theorem GroupRun.watchCloses_answers (run : GroupRun α) (env : Environment) (stop : Bool) :
    (run.watchCloses env stop).filterMap ClosingEvent.answer? = [] := by
  unfold watchCloses
  split
  next => rfl
  next => split <;> rfl
  next => rfl

namespace Chronicle

variable {c d : Chronicle α}

def Reachable (c : Chronicle α) : Prop := ∃ acts, Chronicle.run {} acts = some c

theorem Reachable.act (h : c.Reachable) {a : Act α} (ha : c.act? a = some d) :
    d.Reachable ∧ c.world.env.tally.Later d.world.env.tally := by
  obtain ⟨acts, hc⟩ := h
  exact ⟨⟨acts ++ [a], by rw [run_concat, hc]; exact ha⟩,
    (act?_tallied (bounded_of_run hc).collects ha).clientStep.later⟩

theorem Reachable.run_kept (h : c.Reachable) {a : Act α} (ha : c.act? a = some d) {i : Nat} {run : GroupRun α}
    (hr : c.world.groups[i]? = some run) : ∃ next, d.world.groups[i]? = some next ∧ next.client = run.client := by
  obtain ⟨acts, hc⟩ := h
  obtain ⟨topic, hkept⟩ := exists_topic_kept a
  have hturn : Turn topic c a d := act?_turn ha (bounded_of_run hc).collects hkept
  exact hturn.run_kept hr

theorem Reachable.follow (h : c.Reachable) : c.ClientsFollow := h.elim fun _ => clientsFollow_of_run

/-- Only a call of close on a run that has closed its client returns. -/
theorem Reachable.answers_closed (hc : c.Reachable) {a : Act α} (h : c.act? a = some d) (i : Nat) :
    (c.closes d i a).filterMap ClosingEvent.answer? = [] ∨
      ∃ result next outcome, (c.closes d i a).filterMap ClosingEvent.answer? = [.closed result] ∧
        d.world.groups[i]? = some next ∧ next.closed = .done outcome := by
  obtain ⟨acts, hacts⟩ := hc
  obtain hnone | ⟨run, env, next, hr, hd, ⟨stop, hs, he⟩ | ⟨hs, he⟩⟩ :=
    closes_cases (bounded_of_run hacts).collects h i
  · exact .inl (by rw [hnone]; rfl)
  · exact .inl (by rw [he, GroupRun.watchCloses_answers])
  · have hn : d.world.groups[i]? = some next := hd ▸ c.world.setGroup_getElem? env next hr
    have hstep := GroupRun.stepCloser_cases hs
    rw [he]
    generalize GroupRun.closerCloses _ _ _ = events at hstep ⊢
    cases hstep with
    | began => exact .inl rfl
    | learned _ hdone => exact .inr ⟨_, _, _, rfl, hn, hdone⟩
    | performed => exact .inr ⟨_, _, _, rfl, hn, rfl⟩

def stopped (c : Chronicle α) (token : Option Token) : Chronicle α :=
  match token with
  | none => c
  | some token => c.setEnv (c.world.env.cancel token)

theorem stopped_same (c : Chronicle α) (token : Option Token) :
    (c.stopped token).notes = c.notes ∧ (c.stopped token).world.groups = c.world.groups ∧
      (c.stopped token).world.env.tally = c.world.env.tally := by
  cases token <;> exact ⟨rfl, rfl, rfl⟩

theorem with_world (h : d.notes = c.notes) : { c with world := d.world } = d := by
  rw [← h]

theorem Reachable.stopped (h : c.Reachable) (token : Option Token) : (c.stopped token).Reachable := by
  cases token with
  | none => exact h
  | some token =>
    have hact : c.act? (.outside (.cancel token)) = some (c.stopped (some token)) := rfl
    exact (h.act hact).1

theorem act?_close {i : Nat} {run : GroupRun α} (hr : c.world.groups[i]? = some run) (hc : run.isClosing = false) :
    c.act? (.close i) = some { c with world := c.world.setGroup i (run.beginClose c.world.env) } := by
  cases hcloser : run.closer with
  | waiting | performing => simp [GroupRun.isClosing, hcloser] at hc
  | idle | returned => simp [act?, hr, hcloser]

end Chronicle

namespace Consumer

variable {c : Chronicle α} {consumer : Consumer α}

theorem beginClose_idle (hs : ∀ i, consumer.streams ≠ some (.group i)) (hc : consumer.client = none) :
    beginClose c.world consumer = (.returned (.ok ()), (c.stopped consumer.token).world, consumer) := by
  unfold beginClose
  rcases hstreams : consumer.streams with _ | ⟨i⟩ | ⟨i⟩
  case some.group => exact absurd hstreams (hs i)
  all_goals cases ht : consumer.token <;> simp [hc, Chronicle.stopped, Chronicle.setEnv]

theorem beginClose_direct (hs : ∀ i, consumer.streams ≠ some (.group i)) {client : Nat}
    (hc : consumer.client = some client) :
    beginClose c.world consumer = (.returned (.ok ()),
      ((c.stopped consumer.token).setEnv (closeClientLogging (c.stopped consumer.token).world.env client)).world,
      { consumer with client := none }) := by
  unfold beginClose
  rcases hstreams : consumer.streams with _ | ⟨i⟩ | ⟨i⟩
  case some.group => exact absurd hstreams (hs i)
  all_goals cases ht : consumer.token <;> simp [hc, Chronicle.stopped, Chronicle.setEnv]

theorem beginClose_group {i : Nat} {run : GroupRun α} (hs : consumer.streams = some (.group i))
    (hr : c.world.groups[i]? = some run) :
    beginClose c.world consumer = (.waiting i,
      (c.stopped consumer.token).world.setGroup i (run.beginClose (c.stopped consumer.token).world.env), consumer) := by
  unfold beginClose
  rw [hs]
  cases consumer.token <;> simp [hr, Chronicle.stopped, Chronicle.setEnv]

end Consumer

end TopicConsumer
