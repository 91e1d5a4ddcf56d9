import Mathlib.Data.Fintype.EquivFin
import TopicConsumer.Proofs.LogBounds

namespace TopicConsumer

open Environment

variable {α : Type}

/-- A broker takes an acknowledgment and nothing else happens to it, or there is none and nothing is committed. -/
def Broker.Takes (b after : Broker) : Option Ack → Prop
  | none => after.committed = b.committed
  | some ack => after = b.accept ack

namespace CollectRun

def handlerAck? (run : CollectRun α) (claim : Claim α) : Option Ack :=
  match claim.phase with
  | .taken record => if run.acknowledging then record.ack else none
  | _ => none

def ack? (run : CollectRun α) (i : Nat) : Option Ack :=
  (run.session.bind (·.claims[i]?)).bind run.handlerAck?

inductive HandlerStep (env : Environment) (run : CollectRun α) (claim : Claim α) :
    Environment → CollectRun α → Claim α → Prop where
  | finished {stage} : claim.phase = .asking stage → HandlerStep env run claim env run (claim.finish run.ending)
  | asked {stage broker asked found} : claim.phase = .asking stage →
      claim.ask env.broker stage = some (broker, asked, found) →
      HandlerStep env run claim { env with broker := broker } run
        (if asked.isOver then asked.finish run.ending else asked)
  | kept {seen} : run.handlerAck? claim = none →
      HandlerStep env run claim env { run with seen := seen } { claim with phase := .asking .marking }
  | acknowledged {ack seen} : run.handlerAck? claim = some ack →
      HandlerStep env run claim (env.withBroker (env.broker.accept ack)) { run with seen := seen }
        { claim with phase := .asking .marking }

def Acks (P : Ack → Prop) (run : CollectRun α) : Prop :=
  ∀ session, run.session = some session → ∀ claim ∈ session.claims, claim.Acks P

variable {env after : Environment} {run next : CollectRun α} {claim later : Claim α} {P : Ack → Prop} {i : Nat}
  {stop : Bool} {topic : String}

theorem stepHandler_cases {session : Token} (h : run.stepHandler env session claim stop = some (after, next, later)) :
    HandlerStep env run claim after next later := by
  unfold stepHandler at h
  split at h
  next hp =>
    split at h
    next =>
      split at h <;> cases h
      exact .finished hp
    next =>
      split at h
      next =>
        split at h <;> cases h
        exact .finished hp
      next =>
        obtain ⟨_, ha, he⟩ := Option.map_eq_some_iff.mp h
        cases he
        exact .asked hp ha
  next record hp =>
    split at h <;> cases h
    have hack : run.handlerAck? claim = if run.acknowledging then record.ack else none := by
      rw [handlerAck?, hp]
    split
    next ack hr ha =>
      refine .acknowledged ?_
      rw [hack, hr, ha]
      rfl
    next hn =>
      refine .kept ?_
      rw [hack, ite_eq_right_iff]
      exact fun hr => Option.eq_none_iff_forall_ne_some.mpr fun ack => hn ack hr
  next => simp at h

theorem HandlerStep.takes (h : HandlerStep env run claim after next later) :
    env.broker.Takes after.broker (run.handlerAck? claim) := by
  have hnone {stage : Stage} (hp : claim.phase = .asking stage) : run.handlerAck? claim = none := by
    rw [handlerAck?, hp]
  cases h with
  | finished hp =>
    rw [hnone hp]
    exact rfl
  | asked hp ha =>
    have hk : Keeps "" env _ := Claim.ask_keeps ha
    rw [hnone hp]
    exact hk.committed
  | kept ha =>
    rw [ha]
    exact rfl
  | acknowledged ha =>
    rw [ha]
    exact rfl

theorem HandlerStep.keepsRecords (h : HandlerStep env run claim after next later) : KeepsRecords topic env after := by
  have hrefl : Keeps topic env env := Keeps.refl env
  cases h with
  | finished | kept => exact hrefl.toKeepsRecords
  | asked _ ha => exact (Claim.ask_keeps ha).toKeepsRecords
  | acknowledged => exact .accept _ _

theorem HandlerStep.acks (h : HandlerStep env run claim after next later) (hc : claim.Acks P)
    (hp : after.broker.Grants P) : later.Acks P := by
  cases h with
  | finished => exact hc.finish _
  | asked _ ha =>
    have hasked := hc.ask hp ha
    split
    next => exact hasked.finish _
    next => exact hasked
  | kept | acknowledged => exact ⟨hc.source, fun _ ha => by cases ha⟩

theorem stepClaim_cases (h : run.stepClaim env i stop = some (after, next)) :
    ∃ session claim handled later, run.session = some session ∧ session.claims[i]? = some claim ∧
      HandlerStep env run claim after handled later ∧
      next = { handled with session := some { session with claims := session.claims.set i later } } := by
  unfold stepClaim at h
  split at h
  next => simp at h
  next session hl =>
    split at h
    next => simp at h
    next claim hc =>
      split at h <;> cases h
      next hs => exact ⟨session, claim, _, _, hl, hc, stepHandler_cases hs, rfl⟩

theorem stepClaim_takes (h : run.stepClaim env i stop = some (after, next)) :
    env.broker.Takes after.broker (run.ack? i) := by
  obtain ⟨session, claim, _, _, hl, hi, hh, _⟩ := stepClaim_cases h
  simp only [ack?, hl, Option.bind_some, hi]
  exact hh.takes

theorem Acks.stepClaim (hr : run.Acks P) (h : run.stepClaim env i stop = some (after, next))
    (hp : after.broker.Grants P) : next.Acks P := by
  obtain ⟨session, claim, _, _, hl, hi, hh, rfl⟩ := stepClaim_cases h
  rintro _ hs other ho
  cases hs
  rcases List.mem_or_eq_of_mem_set ho with ho | rfl
  · exact hr session hl other ho
  · exact hh.acks (hr session hl claim (List.mem_of_getElem? hi)) hp

theorem stepSession_cases (h : run.stepSession env = some (after, next)) :
    (after = env ∧ next.session = none) ∨ ∃ session later, run.session = some session ∧
      session.step env = some (after, later) ∧ next.session = some later := by
  unfold stepSession at h
  split at h
  next => simp at h
  next session hl =>
    split at h
    next =>
      cases h
      exact .inl ⟨rfl, rfl⟩
    next =>
      cases h
      exact .inl ⟨rfl, rfl⟩
    next =>
      obtain ⟨_, hs, he⟩ := Option.map_eq_some_iff.mp h
      cases he
      exact .inr ⟨session, _, hl, hs, rfl⟩

theorem stepSession_keeps (h : run.stepSession env = some (after, next)) : Keeps topic env after := by
  obtain ⟨rfl, _⟩ | ⟨_, _, _, hs, _⟩ := stepSession_cases h
  · exact Keeps.refl after
  · exact Session.step_keeps hs

theorem Acks.stepSession (hr : run.Acks P) (h : run.stepSession env = some (after, next)) : next.Acks P := by
  intro session hsession
  obtain ⟨_, hnone⟩ | ⟨old, later, hl, hs, hlater⟩ := stepSession_cases h
  · simp [hnone] at hsession
  · cases Option.some.inj (hlater.symm.trans hsession)
    exact Session.step_acks hs (hr old hl)

theorem start_keeps (client : Nat) (topics : List String) (token : Token) :
    Keeps topic env (start env run client topics token).1 := by
  have hk : Keeps topic env (Session.begin (α := α) env client topics token).2 := Session.begin_keeps _ _ _
  unfold start
  split
  next hb =>
    rw [hb] at hk
    exact hk
  next hb =>
    rw [hb] at hk
    exact hk

theorem start_acks {client : Nat} {topics : List String} {token : Token} (hr : run.session = none) :
    (start env run client topics token).2.Acks P := by
  intro session hsession
  unfold start at hsession
  split at hsession
  next => simp [hr] at hsession
  next hb =>
    cases hsession
    simp [Session.begin_claims hb]

end CollectRun

/-- What happens in a world, or an application does with group clients of its own: it opens and closes them, and
runs sessions whose handlers collect what they take. -/
inductive Deed (α : Type) where
  | act (a : Act α)
  | join (settings : Settings)
  | leave (client : Nat)
  | collect (acknowledging : Bool) (take : Option Nat) (failure : Option String) (client : Nat)
      (topics : List String) (token : Token)

def Deed.replaced? : Deed α → Option String
  | .act (.outside (.replaceTopic topic _)) => some topic
  | _ => none

/-- However many topics are created anew, some topic is not. -/
theorem Deed.exists_topic_spared (deeds : List (Deed α)) : ∃ topic, ∀ deed ∈ deeds, deed.replaced? ≠ some topic := by
  obtain ⟨topic, ht⟩ := Infinite.exists_notMem_finset (deeds.filterMap Deed.replaced?).toFinset
  refine ⟨topic, fun deed hd he => ht ?_⟩
  rw [List.mem_toFinset, List.mem_filterMap]
  exact ⟨deed, hd, he⟩

namespace Chronicle

variable {c d : Chronicle α} {P : Ack → Prop} {deed : Deed α} {topic : String}

def begin (c : Chronicle α) (run : CollectRun α) (client : Nat) (topics : List String) (token : Token) :
    Chronicle α :=
  let (env, run) := run.start c.world.env client topics token
  { c with world := { c.world with env := env, collects := c.world.collects ++ [run] } }

def deed? (c : Chronicle α) : Deed α → Option (Chronicle α)
  | .act a => c.act? a
  | .join settings => some (c.setEnv (c.world.env.openGroup .broker settings).2)
  | .leave client => some (c.setEnv (c.world.env.closeGroup client).2)
  | .collect acknowledging take failure client topics token =>
    some (c.begin { acknowledging := acknowledging, take := take, failure := failure } client topics token)

def received? (c : Chronicle α) (run i : Nat) : Option (Message α) := c.notes[run]?.bind (·.received[i]?)

/-- The acknowledgment that a deed makes, of a received message or of the record that a handler has taken. -/
def ack? (c : Chronicle α) : Deed α → Option Ack
  | .act (.acknowledge run i) => (c.received? run i).bind (·.ack)
  | .act (.move ⟨.collectClaim run i, _⟩) => c.world.collects[run]?.bind (·.ack? i)
  | _ => none

inductive Guest (c : Chronicle α) : Deed α → Chronicle α → Prop where
  | moved {move w} : c.world.Collected move w → Guest c (.act (.move move)) ⟨w, c.notes⟩
  | joined {settings} : Guest c (.join settings) (c.setEnv (c.world.env.openGroup .broker settings).2)
  | left {client} : Guest c (.leave client) (c.setEnv (c.world.env.closeGroup client).2)
  | began {acknowledging take failure client topics token} :
      Guest c (.collect acknowledging take failure client topics token)
        (c.begin { acknowledging := acknowledging, take := take, failure := failure } client topics token)

theorem acted_or_guest (h : c.deed? deed = some d) : (∃ a, deed = .act a ∧ c.Acted a d) ∨ c.Guest deed d := by
  cases deed with
  | act a =>
    cases a with
    | move move =>
      obtain ⟨w, hw, rfl⟩ := Option.map_eq_some_iff.mp h
      rcases World.moved_or_collected hw with hm | hm
      · exact .inl ⟨_, rfl, .moved hm⟩
      · have hgroups : w.groups = c.world.groups := by cases hm <;> rfl
        rw [observe_aside hgroups]
        exact .inr (.moved hm)
    | _ => exact .inl ⟨_, rfl, acted_of_not_move (by simp) h⟩
  | join | leave | collect =>
    cases h
    exact .inr (by constructor)

/-- Consumers and the messages received from them are left alone, and no record is lost. -/
structure Spared (c d : Chronicle α) : Prop where
  groups : d.world.groups = c.world.groups
  notes : d.notes = c.notes
  records : ∀ topic, KeepsRecords topic c.world.env d.world.env

theorem openGroup_keeps (env : Environment) (settings : Settings) :
    Keeps topic env (env.openGroup .broker settings).2 := by
  unfold openGroup
  dsimp only
  split
  next => exact Keeps.refl _
  next => exact Keeps.append _

theorem Guest.spared (h : c.Guest deed d) : c.Spared d := by
  cases h with
  | moved hm =>
    cases hm with
    | session _ hs => exact ⟨rfl, rfl, fun _ => (CollectRun.stepSession_keeps hs).toKeepsRecords⟩
    | claim _ hs =>
      obtain ⟨_, _, _, _, _, _, hh, _⟩ := CollectRun.stepClaim_cases hs
      exact ⟨rfl, rfl, fun _ => hh.keepsRecords⟩
  | joined => exact ⟨rfl, rfl, fun _ => (openGroup_keeps _ _).toKeepsRecords⟩
  | left => exact ⟨rfl, rfl, fun _ => (closeGroup_keeps _).toKeepsRecords⟩
  | began => exact ⟨rfl, rfl, fun _ => (CollectRun.start_keeps _ _ _).toKeepsRecords⟩

theorem Guest.takes (h : c.Guest deed d) : c.world.env.broker.Takes d.world.env.broker (c.ack? deed) := by
  cases h with
  | moved hm =>
    cases hm with
    | @session _ _ env _ _ hs =>
      have hk : Keeps "" c.world.env env := CollectRun.stepSession_keeps hs
      exact hk.committed
    | claim hr hs =>
      simp only [ack?, hr, Option.bind_some]
      exact CollectRun.stepClaim_takes hs
  | @joined settings =>
    have hk : Keeps "" c.world.env _ := openGroup_keeps _ settings
    exact hk.committed
  | @left client =>
    have hk : Keeps "" c.world.env _ := closeGroup_keeps client
    exact hk.committed
  | @began acknowledging take failure client topics token =>
    have hk : Keeps "" c.world.env (c.begin { acknowledging, take, failure } client topics token).world.env :=
      CollectRun.start_keeps client topics token
    exact hk.committed

theorem Acted.committed {a : Act α} (h : c.Acted a d) (ha : ∀ run i, a ≠ .acknowledge run i) :
    d.world.env.broker.committed = c.world.env.broker.committed := by
  cases h with
  | moved hm =>
    obtain ⟨env, _, rfl, hk⟩ | ⟨_, _, env, _, _, hs, rfl⟩ := hm.group_step
    · exact (hk "").committed
    · have hk : Keeps "" c.world.env env := hs.keeps
      exact hk.committed
  | @changed change env he =>
    obtain ⟨topic, ht⟩ := exists_topic_kept (α := α) (.outside change)
    have hk : Keeps topic c.world.env env := change?_keeps he fun n hn => ht n (hn ▸ rfl)
    exact hk.committed
  | @started blueprint token _ hd =>
    have hk : Keeps "" c.world.env _ := Consumer.start_keeps c.world blueprint token
    rw [world_started hd]
    exact hk.committed
  | @closedDirect client =>
    have hk : Keeps "" c.world.env _ := Consumer.closeClientLogging_keeps client
    exact hk.committed
  | unasked | acknowledged => exact absurd rfl (ha _ _)
  | called | received | tookError | droppedMessages | droppedErrors | usedDirect => rfl

theorem takes_of_acknowledge {run i : Nat} (h : c.act? (.acknowledge run i) = some d) :
    c.world.env.broker.Takes d.world.env.broker (c.ack? (.act (.acknowledge run i))) := by
  simp only [act?] at h
  split at h
  next => simp at h
  next message hm =>
    have hack : c.ack? (.act (.acknowledge run i)) = message.ack := by simp [ack?, received?, hm]
    rw [hack]
    split at h
    next hnone =>
      cases h
      rw [hnone]
      exact rfl
    next hsome =>
      cases h
      rw [hsome]
      exact rfl

/-- The broker takes the acknowledgment of a deed, and nothing is committed without one. -/
theorem takes_of_deed? (h : c.deed? deed = some d) :
    c.world.env.broker.Takes d.world.env.broker (c.ack? deed) := by
  by_cases hd : ∃ run i, deed = .act (.acknowledge run i)
  · obtain ⟨run, i, rfl⟩ := hd
    exact takes_of_acknowledge h
  · obtain ⟨a, rfl, ha⟩ | hg := acted_or_guest h
    · have hnone : c.ack? (.act a) = none := by
        cases ha with
        | moved hm => cases hm <;> rfl
        | unasked | acknowledged => exact absurd ⟨_, _, rfl⟩ hd
        | _ => rfl
      rw [hnone]
      exact ha.committed fun run i he => hd ⟨run, i, he ▸ rfl⟩
    · exact hg.takes

/-- A property holds of all acknowledgments that can still be used, by the application or its handlers. -/
structure Handles (P : Ack → Prop) (c : Chronicle α) : Prop where
  consumers : c.Acks P
  collects : ∀ run ∈ c.world.collects, run.Acks P

theorem Handles.set (h : c.Handles P) {i : Nat} {run : CollectRun α} (hr : run.Acks P) :
    ∀ other ∈ c.world.collects.set i run, other.Acks P := by
  intro other ho
  rcases List.mem_or_eq_of_mem_set ho with ho | rfl
  · exact h.collects other ho
  · exact hr

theorem Handles.guest (h : c.Handles P) (hg : c.Guest deed d) (hp : d.world.env.broker.Grants P) :
    ∀ run ∈ d.world.collects, run.Acks P := by
  cases hg with
  | moved hm =>
    cases hm with
    | session hr hs => exact h.set ((h.collects _ (List.mem_of_getElem? hr)).stepSession hs)
    | claim hr hs => exact h.set ((h.collects _ (List.mem_of_getElem? hr)).stepClaim hs hp)
  | joined | left => exact h.collects
  | began =>
    intro run hr
    rcases List.mem_append.mp hr with hr | hr
    · exact h.collects run hr
    · cases List.mem_singleton.mp hr
      exact CollectRun.start_acks rfl

theorem Handles.done (h : c.Handles P) (hd : c.deed? deed = some d) (hp : d.world.env.broker.Grants P) :
    d.Handles P := by
  obtain ⟨a, rfl, ha⟩ | hg := acted_or_guest hd
  · obtain ⟨topic, ht⟩ := exists_topic_kept a
    have hturn : Turn topic c a d := ha.turn ht
    exact ⟨h.consumers.turn hturn hp, fun run hr => h.collects run (hturn.collects ▸ hr)⟩
  · have hs := hg.spared
    refine ⟨⟨?_, ?_⟩, h.guest hg hp⟩
    · rw [hs.groups]
      exact h.consumers.runs
    · rw [hs.notes]
      exact h.consumers.received

/-- The acknowledgment that a deed makes was at hand. -/
theorem Handles.ack (h : c.Handles P) {ack : Ack} (ha : c.ack? deed = some ack) : P ack := by
  unfold ack? at ha
  split at ha
  next =>
    obtain ⟨message, hm, ha⟩ := Option.bind_eq_some_iff.mp ha
    obtain ⟨note, hn, hi⟩ := Option.bind_eq_some_iff.mp hm
    exact h.consumers.received note (List.mem_of_getElem? hn) message (List.mem_of_getElem? hi) ack ha
  next =>
    obtain ⟨run, hr, ha⟩ := Option.bind_eq_some_iff.mp ha
    obtain ⟨claim, hc, ha⟩ := Option.bind_eq_some_iff.mp ha
    obtain ⟨session, hs, hi⟩ := Option.bind_eq_some_iff.mp hc
    refine (h.collects run (List.mem_of_getElem? hr) session hs claim (List.mem_of_getElem? hi)).held ack ?_
    unfold CollectRun.handlerAck? at ha
    split at ha
    next hp =>
      split at ha
      next => rwa [hp]
      next => simp at ha
    next => simp at ha
  next => simp at ha

theorem received?_deed (h : c.deed? deed = some d) {run i : Nat} (hm : (c.received? run i).isSome) :
    d.received? run i = c.received? run i := by
  obtain ⟨a, rfl, ha⟩ | hg := acted_or_guest h
  · obtain ⟨message, hm⟩ := Option.isSome_iff_exists.mp hm
    obtain ⟨note, hn, hi⟩ := Option.bind_eq_some_iff.mp hm
    have hlater (hk : ∃ later, d.notes[run]? = some later ∧ note.received <+: later.received) :
        d.received? run i = c.received? run i := by
      obtain ⟨later, hl, more, he⟩ := hk
      rw [hm, received?, hl, Option.bind_some, ← he, List.getElem?_append_left (List.getElem?_eq_some_iff.mp hi).1, hi]
    refine hlater ?_
    obtain ⟨topic, ht⟩ := exists_topic_kept a
    have hturn : Turn topic c a d := ha.turn ht
    cases hturn with
    | aside | acknowledged | dropped => exact ⟨note, hn, List.prefix_rfl⟩
    | begun =>
      have hb := (List.getElem?_eq_some_iff.mp hn).1
      exact ⟨note, (List.getElem?_append_left hb).trans hn, List.prefix_rfl⟩
    | stepped =>
      rw [List.getElem?_modify, hn]
      refine ⟨_, rfl, ?_⟩
      split
      next => exact observe_received .. ▸ List.prefix_rfl
      next => exact List.prefix_rfl
    | received =>
      rw [List.getElem?_modify, hn]
      refine ⟨_, rfl, ?_⟩
      split
      next => exact List.prefix_append _ _
      next => exact List.prefix_rfl
  · rw [received?, hg.spared.notes]
    rfl

/-- The consumers of a world with their notes, but none of the sessions of the application's own. -/
def alone (c : Chronicle α) : Chronicle α := { c with world := { c.world with collects := [] } }

theorem Turn.alone {a : Act α} (h : Turn topic c a d) : Turn topic c.alone a d.alone := by
  cases h with
  | aside hk => exact .aside hk
  | acknowledged hn hm ha => exact .acknowledged hn hm ha
  | stepped hr hs => exact .stepped hr hs
  | begun ha hk hj hl hs hm => exact .begun ha hk hj hl hs hm
  | received hr ht => exact .received hr ht
  | dropped hr => exact .dropped hr

theorem faithful_done (h : c.alone.Faithful topic) (hd : c.deed? deed = some d)
    (ht : deed.replaced? ≠ some topic) : d.alone.Faithful topic := by
  obtain ⟨a, rfl, ha⟩ | hg := acted_or_guest hd
  · exact h.turn (ha.turn fun n he => ht (he ▸ rfl)).alone
  · have hs := hg.spared
    refine ⟨?_, rfl, fun i run note hr hn => ?_⟩
    · rw [alone, hs.notes, hs.groups]
      exact h.paired
    · rw [alone, hs.groups] at hr
      rw [alone, hs.notes] at hn
      exact h.keep (hs.records topic) hr hn

/-- What is received from a consumer carries the acknowledgment of its own record for the consumer's group. -/
theorem Faithful.received (h : c.alone.Faithful topic) {i j : Nat} {message : Message α}
    (hm : c.received? i j = some message) : ∃ run, c.world.groups[i]? = some run ∧
      message.ack = some ⟨run.group, message.topic, message.partition, message.offset⟩ := by
  obtain ⟨note, hn, hj⟩ := Option.bind_eq_some_iff.mp hm
  obtain ⟨run, hr⟩ : ∃ run, c.world.groups[i]? = some run :=
    ⟨_, List.getElem?_eq_getElem (h.paired ▸ (List.getElem?_eq_some_iff.mp hn).1)⟩
  have hd := h.delivered i run note hr hn
  obtain ⟨_, hqueue, _⟩ := hd.queue
  have hsent : message ∈ note.sent := by
    rw [← hqueue]
    exact List.mem_append_left _ (List.mem_append_left _ (List.mem_of_getElem? hj))
  obtain ⟨session, hs, hmessage⟩ := List.mem_flatMap.mp hsent
  exact ⟨run, hr, ((hd.exact session hs).delivers message hmessage).2.ack⟩

end Chronicle

end TopicConsumer
