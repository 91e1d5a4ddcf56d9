import TopicConsumer.Proofs.Channels
import TopicConsumer.Proofs.Commits
import TopicConsumer.Proofs.FailingClaims
import TopicConsumer.Proofs.WorldLoops

namespace TopicConsumer

open Environment

variable {α : Type}

def ClaimPhase.ack? : ClaimPhase α → Option Ack
  | .taken record => record.ack
  | .measured record => record.ack
  | .sending message _ => message.ack
  | _ => none

def Broker.Grants (b : Broker) (P : Ack → Prop) : Prop :=
  ∀ (group : String) (key : PartitionKey) (offset : Int) (payload : Bytes),
    b.payload? key offset = some payload → P ⟨group, key.1, key.2, offset⟩

structure Claim.Acks (P : Ack → Prop) (claim : Claim α) : Prop where
  source : claim.ackGroup = none ∨ ∃ cursor, claim.source = .log cursor
  held : ∀ ack, claim.phase.ack? = some ack → P ack

def Message.Acks (P : Ack → Prop) (m : Message α) : Prop := ∀ ack, m.ack = some ack → P ack

structure GroupRun.Acks (P : Ack → Prop) (run : GroupRun α) : Prop where
  claims : ∀ claim ∈ run.claims, claim.Acks P
  queued : ∀ m ∈ run.messages.items, m.Acks P

/-- A property holds of all acknowledgments that can still be used. -/
structure Chronicle.Acks (P : Ack → Prop) (c : Chronicle α) : Prop where
  runs : ∀ run ∈ c.world.groups, run.Acks P
  received : ∀ note ∈ c.notes, ∀ m ∈ note.received, m.Acks P

variable {P Q : Ack → Prop} {env after : Environment} {run next : GroupRun α}

theorem Record.decode_ack {record : Record} {decoder : Decoder α} {group : Option String} {m : Message α}
    (h : record.decode decoder group = .ok m) : m.ack = record.ack := by
  unfold Record.decode at h
  split at h <;> cases h
  rfl

namespace Claim

variable {claim later : Claim α}

theorem Acks.mono (h : claim.Acks P) (hpq : ∀ ack, P ack → Q ack) : claim.Acks Q :=
  ⟨h.source, fun ack ha => hpq ack (h.held ack ha)⟩

theorem Acks.finish (h : claim.Acks P) (result : Except Failure Unit) : (claim.finish result).Acks P :=
  ⟨h.source, fun _ ha => by cases ha⟩

theorem ask_unacknowledged {b c : Broker} {stage : Stage} {found : Found} (hg : claim.ackGroup = none)
    (h : claim.ask b stage = some (c, later, found)) : later.ackGroup = none ∧ later.phase.ack? = none := by
  obtain ⟨⟨_, _, found⟩, _, he⟩ := Option.map_eq_some_iff.mp h
  cases found <;> cases he <;> simp [hg, ClaimPhase.ack?, finish]

theorem Acks.ask {b c : Broker} {stage : Stage} {found : Found} (h : claim.Acks P) (hp : c.Grants P)
    (ha : claim.ask b stage = some (c, later, found)) : later.Acks P := by
  rcases h.source with hg | ⟨cursor, hs⟩
  · obtain ⟨hgroup, hack⟩ := ask_unacknowledged hg ha
    exact ⟨.inl hgroup, fun ack hk => by simp [hack] at hk⟩
  · obtain ⟨hgroup, moved, hsource, _, hcases⟩ := ask_log hs ha
    refine ⟨.inr ⟨moved, hsource⟩, fun ack hk => ?_⟩
    obtain ⟨_, _, hl⟩ | ⟨_, hl⟩ | ⟨_, payload, hpay, hl⟩ := hcases
    · simp [hl, ClaimPhase.ack?] at hk
    · simp [hl, ClaimPhase.ack?] at hk
    · rw [hl] at hk
      obtain ⟨group, _, rfl⟩ := Option.map_eq_some_iff.mp hk
      exact hp group cursor.key cursor.position payload hpay

end Claim

namespace Session

variable {s t : Session α}

def NewClaim (claim : Claim α) : Prop :=
  (∃ cursor group, claim = { source := .log cursor, ackGroup := some group }) ∨
    ∃ feed, claim = { source := .feed feed, ackGroup := none }

theorem begin_claims {client : Nat} {topics : List String} {token : Token}
    (h : Session.begin env client topics token = (.ok s, after)) : s.claims = [] := by
  unfold Session.begin at h
  split at h
  next => simp at h
  next =>
    split at h
    next => split at h <;> cases h; rfl
    next => dsimp only at h; split at h <;> cases h; rfl
    next =>
      obtain ⟨he, _⟩ := Prod.mk.inj h
      unfold Except.map at he
      split at he <;> cases he
      rfl

theorem stepScript_claims {feeds : List Feed} {ending : ScriptEnd} (h : s.stepScript env feeds ending = some t) :
    t.claims = s.claims ∨ ∃ claim, NewClaim claim ∧ t.claims = s.claims ++ [claim] := by
  have hadvance : stepScript.advance env s feeds ending = some t →
      t.claims = s.claims ∨ ∃ claim, NewClaim claim ∧ t.claims = s.claims ++ [claim] := by
    intro ha
    unfold stepScript.advance at ha
    split at ha
    next feed _ =>
      cases ha
      exact .inr ⟨_, .inr ⟨feed, rfl⟩, rfl⟩
    next =>
      split at ha
      next => cases ha; exact .inl rfl
      next => cases ha; exact .inl rfl
      next => cases ha; exact .inl rfl
      next =>
        split at ha
        next => cases ha; exact .inl rfl
        next => split at ha <;> cases ha; exact .inl rfl
  unfold stepScript at h
  dsimp only at h
  split at h
  next => cases h; exact .inl rfl
  next =>
    split at h
    next => cases h; exact .inl rfl
    next => exact hadvance h
  next => exact hadvance h
  next => simp at h

theorem stepOpening_claims (s : Session α) (env : Environment) (todo : List Opening) :
    (s.stepOpening env todo).claims = s.claims ∨ (s.stepOpening env todo).claims = [] ∨
      ∃ claim, NewClaim claim ∧ (s.stepOpening env todo).claims = s.claims ++ [claim] := by
  unfold stepOpening
  split
  next => exact .inl rfl
  next =>
    split
    next => exact .inr (.inl rfl)
    next => exact .inl rfl
  next =>
    split
    next => exact .inr (.inl rfl)
    next cursor _ => exact .inr (.inr ⟨_, .inl ⟨cursor, s.group, rfl⟩, rfl⟩)

/-- A step of a session joins its claims, forgets them or adds one. -/
theorem step_claims (h : s.step env = some (after, t)) {claim : Claim α} (hc : claim ∈ t.claims) :
    (∃ old ∈ s.claims, ∃ joined, claim = { old with joined := joined }) ∨ NewClaim claim := by
  have hsame (hc : claim ∈ s.claims) : ∃ old ∈ s.claims, ∃ joined, claim = { old with joined := joined } :=
    ⟨claim, hc, claim.joined, rfl⟩
  have hadded (more : Claim α) (hm : NewClaim more) (hc : claim ∈ s.claims ++ [more]) :
      (∃ old ∈ s.claims, ∃ joined, claim = { old with joined := joined }) ∨ NewClaim claim := by
    rcases List.mem_append.mp hc with hc | hc
    · exact .inl (hsame hc)
    · exact .inr (List.mem_singleton.mp hc ▸ hm)
  unfold step at h
  split at h
  next todo _ =>
    cases h
    obtain hr | hr | ⟨more, hm, hr⟩ := s.stepOpening_claims env todo
    · exact .inl (hsame (hr ▸ hc))
    · simp [hr] at hc
    · exact hadded more hm (hr ▸ hc)
  next =>
    cases stepServing_cases h with
    | cancelled | closed | rebalanced | failed => exact .inl (hsame hc)
    | joined =>
      rcases mem_modify_cases hc with hc | ⟨old, hold, rfl⟩
      · exact .inl (hsame hc)
      · exact .inl ⟨old, List.mem_of_getElem? hold, true, rfl⟩
  next =>
    split at h
    next => cases h; exact .inl (hsame hc)
    next => simp at h
  next =>
    obtain ⟨_, hl, he⟩ := Option.map_eq_some_iff.mp h
    cases he
    rcases stepScript_claims hl with hr | ⟨more, hm, hr⟩
    · exact .inl (hsame (hr ▸ hc))
    · exact hadded more hm (hr ▸ hc)
  next => simp at h
  next => simp at h

theorem step_acks (h : s.step env = some (after, t)) (hs : ∀ claim ∈ s.claims, claim.Acks P) :
    ∀ claim ∈ t.claims, claim.Acks P := by
  intro claim hc
  obtain ⟨old, hold, joined, rfl⟩ | ⟨cursor, _, rfl⟩ | ⟨_, rfl⟩ := step_claims h hc
  · exact ⟨(hs old hold).source, (hs old hold).held⟩
  · exact ⟨.inr ⟨cursor, rfl⟩, fun _ ha => by cases ha⟩
  · exact ⟨.inl rfl, fun _ ha => by cases ha⟩

end Session

namespace GroupRun

theorem Acks.mono (h : run.Acks P) (hpq : ∀ ack, P ack → Q ack) : run.Acks Q where
  claims claim hc := (h.claims claim hc).mono hpq
  queued m hm ack ha := hpq ack (h.queued m hm ack ha)

theorem HandlerStep.acks {session : Token} {claim later : Claim α}
    (hs : HandlerStep env run session claim after next later) (h : claim.Acks P) (hp : after.broker.Grants P)
    (hq : ∀ m ∈ run.messages.items, m.Acks P) : later.Acks P ∧ ∀ m ∈ next.messages.items, m.Acks P := by
  cases hs with
  | asked _ ha => exact ⟨h.ask hp ha, hq⟩
  | measured hphase => exact ⟨⟨h.source, by simpa [hphase, ClaimPhase.ack?] using h.held⟩, hq⟩
  | decoded hphase hd =>
    refine ⟨⟨h.source, fun ack ha => h.held ack ?_⟩, hq⟩
    rw [hphase]
    exact (Record.decode_ack hd).symm.trans ha
  | @queued message _ _ hphase ho =>
    refine ⟨⟨h.source, fun ack ha => by cases ha⟩, fun m hm => ?_⟩
    rw [(Queue.offer_queued ho).2.2] at hm
    rcases List.mem_append.mp hm with hm | hm
    · exact hq m hm
    · intro ack ha
      cases List.mem_singleton.mp hm
      exact h.held ack (by rw [hphase]; exact ha)
  | crashed => exact ⟨⟨h.source, fun ack ha => by cases ha⟩, hq⟩
  | stopped | rejected | unheard => exact ⟨h.finish _, hq⟩

theorem Acks.idle (h : run.Acks P) (hs : next.isServing = false) (hm : next.messages = run.messages) :
    next.Acks P where
  claims claim hc := by
    unfold isServing at hs
    unfold GroupRun.claims at hc
    cases hl : next.loop <;> simp [hl] at hs hc
  queued := hm ▸ h.queued

theorem Acks.step (h : run.Acks P) (hs : run.Step env after next) (hp : after.broker.Grants P) :
    next.Acks P := by
  cases hs with
  | aside => exact ⟨h.claims, h.queued⟩
  | claim hs =>
    obtain ⟨session, claim, handled, later, hl, hi, hh, rfl⟩ := stepClaim_cases hs
    have hclaims : ∀ claim ∈ session.claims, claim.Acks P := by simpa [GroupRun.claims, hl] using h.claims
    obtain ⟨hlater, hqueued⟩ := hh.acks (hclaims claim (List.mem_of_getElem? hi)) hp h.queued
    refine ⟨fun other ho => ?_, hqueued⟩
    rcases List.mem_or_eq_of_mem_set ho with ho | rfl
    · exact hclaims other ho
    · exact hlater
  | loop hs =>
    cases stepLoop_cases hs with
    | begun ht _ hb => exact ⟨by simp [GroupRun.claims, Session.begin_claims hb], h.queued⟩
    | served hl hstep => exact ⟨Session.step_acks hstep (by simpa [GroupRun.claims, hl] using h.claims), h.queued⟩
    | refused | ended =>
      obtain ⟨_, hm, hi⟩ := afterSession_run _ run _
      exact h.idle hi hm
    | @reported _ delay =>
      refine h.idle ?_ rfl
      by_cases hd : delay = Duration.zero <;> simp [isServing, afterReport, hd]
    | stopped | crashed | gaveUp | unheard | woken => exact h.idle rfl rfl

end GroupRun

namespace Chronicle

variable {c d : Chronicle α}

theorem Acks.mono (h : c.Acks P) (hpq : ∀ ack, P ack → Q ack) : c.Acks Q where
  runs run hr := (h.runs run hr).mono hpq
  received note hn m hm ack ha := hpq ack (h.received note hn m hm ack ha)

theorem observe_received (note : RunNote α) (env : Environment) (run next : GroupRun α) :
    (note.observe env run next).received = note.received := by
  unfold RunNote.observe
  dsimp only
  split <;> rfl

theorem Acks.set (h : c.Acks P) {i : Nat} {run : GroupRun α} (hr : run.Acks P) :
    ∀ other ∈ c.world.groups.set i run, other.Acks P := by
  intro other ho
  rcases List.mem_or_eq_of_mem_set ho with ho | rfl
  · exact h.runs other ho
  · exact hr

theorem Acks.turn (h : c.Acks P) {topic : String} {a : Act α} (ht : Turn topic c a d)
    (hp : d.world.env.broker.Grants P) : d.Acks P := by
  cases ht with
  | aside => exact ⟨h.runs, h.received⟩
  | acknowledged => exact ⟨h.runs, h.received⟩
  | @stepped i run env next hr hs =>
    refine ⟨h.set ((h.runs run (List.mem_of_getElem? hr)).step hs hp), fun note hn => ?_⟩
    rcases mem_modify_cases hn with hn | ⟨old, hold, rfl⟩
    · exact h.received note hn
    · rw [observe_received]
      exact h.received old (List.mem_of_getElem? hold)
  | begun _ _ _ hl _ hm =>
    refine ⟨fun other ho => ?_, fun note hn => ?_⟩
    · rcases List.mem_append.mp ho with ho | ho
      · exact h.runs other ho
      · cases List.mem_singleton.mp ho
        exact ⟨by simp [GroupRun.claims, hl], by simp [hm]⟩
    · rcases List.mem_append.mp hn with hn | hn
      · exact h.received note hn
      · cases List.mem_singleton.mp hn
        simp
  | @received i run message messages hr ht =>
    have hrun : run.Acks P := h.runs run (List.mem_of_getElem? hr)
    have hitems : run.messages.items = message :: messages.items := by
      unfold Queue.take? at ht
      split at ht <;> cases ht
      assumption
    have hrest : GroupRun.Acks P { run with messages := messages } :=
      ⟨hrun.claims, fun m hm => hrun.queued m (hitems ▸ List.mem_cons_of_mem _ hm)⟩
    refine ⟨h.set hrest, fun note hn m hm => ?_⟩
    rcases mem_modify_cases hn with hn | ⟨old, hold, rfl⟩
    · exact h.received note hn m hm
    · rcases List.mem_append.mp hm with hm | hm
      · exact h.received old (List.mem_of_getElem? hold) m hm
      · cases List.mem_singleton.mp hm
        exact hrun.queued message (hitems ▸ List.mem_cons_self)
  | @dropped i run hr =>
    have hrun : run.Acks P := h.runs run (List.mem_of_getElem? hr)
    exact ⟨h.set ⟨hrun.claims, fun m hm => by simp [Queue.drop] at hm⟩, h.received⟩

/-- At some moment of a history the log of a partition ended at an offset or behind it. -/
def Reached (acts : List (Act α)) (key : PartitionKey) (offset : Int) : Prop :=
  ∃ past later d, acts = past ++ later ∧ Chronicle.run {} past = some d ∧
    offset ≤ d.world.env.broker.highWaterMark key

/-- The record of an acknowledgment was in its log at some moment of a history. -/
def WasLogged (acts : List (Act α)) (ack : Ack) : Prop :=
  0 ≤ ack.offset ∧ Reached acts (ack.topic, ack.partition) (ack.offset + 1)

variable {acts : List (Act α)} {key : PartitionKey}

theorem Reached.more {offset : Int} (h : Reached acts key offset) (more : List (Act α)) :
    Reached (acts ++ more) key offset := by
  obtain ⟨past, later, d, rfl, hd, ho⟩ := h
  exact ⟨past, later ++ more, d, List.append_assoc .., hd, ho⟩

theorem wasLogged_more {ack : Ack} (h : WasLogged acts ack) (more : List (Act α)) :
    WasLogged (acts ++ more) ack := ⟨h.1, h.2.more more⟩

end Chronicle

theorem Environment.KeepsRecords.highWaterMark {topic : String} (h : KeepsRecords topic env after)
    {key : PartitionKey} (ht : key.1 = topic) :
    env.broker.highWaterMark key ≤ after.broker.highWaterMark key := by
  by_contra hlt
  obtain ⟨payload, hp⟩ := Broker.payload?_isSome_iff.mpr
    ⟨after.broker.highWaterMark_nonneg key, Int.not_le.mp hlt⟩
  have hend := (Broker.payload?_isSome_iff.mp ⟨payload, h.payloads key _ payload ht hp⟩).2
  omega

namespace Chronicle

variable {c d : Chronicle α} {acts : List (Act α)} {key : PartitionKey}

theorem grants_of_run (h : Chronicle.run {} acts = some c) : c.world.env.broker.Grants (WasLogged acts) := by
  intro group key offset payload hp
  obtain ⟨h0, hlt⟩ := Broker.payload?_isSome_iff.mp ⟨payload, hp⟩
  exact ⟨h0, acts, [], c, (List.append_nil acts).symm, h, hlt⟩

/-- What groups committed goes no further than the logs did. -/
structure Bounded (acts : List (Act α)) (c : Chronicle α) : Prop where
  collects : c.world.collects = []
  acks : c.Acks (WasLogged acts)
  committed : ∀ group key v, c.world.env.broker.committedOffset group key = some v → 0 < v ∧ Reached acts key v

theorem Bounded.act (h : c.Bounded acts) {a : Act α} (ha : c.act? a = some d)
    (hd : Chronicle.run {} (acts ++ [a]) = some d) : d.Bounded (acts ++ [a]) := by
  obtain ⟨topic, ht⟩ := exists_topic_kept a
  have hturn : Turn topic c a d := act?_turn ha h.collects ht
  refine ⟨hturn.collects.trans h.collects,
    (h.acks.mono fun ack hw => wasLogged_more hw [a]).turn hturn (grants_of_run hd), fun group key v hv => ?_⟩
  have hold : ∀ v, c.world.env.broker.committedOffset group key = some v →
      0 < v ∧ Reached (acts ++ [a]) key v := fun v hv => by
    obtain ⟨h0, hr⟩ := h.committed group key v hv
    exact ⟨h0, hr.more [a]⟩
  cases hturn with
  | @acknowledged i note message ack hn hm hack =>
    obtain ⟨h0, hr⟩ : WasLogged acts ack := h.acks.received note (List.mem_of_getElem? hn) message hm ack hack
    have hv : (c.world.env.broker.accept ack).committedOffset group key = some v := hv
    rw [Broker.committedOffset_accept] at hv
    split at hv
    next he =>
      obtain ⟨rfl, rfl⟩ := he
      cases hv
      have hr := hr.more [a]
      cases hbefore : c.world.env.broker.committedOffset ack.group (ack.topic, ack.partition) with
      | none =>
        rw [Option.getD_none, Int.max_eq_right (by omega)]
        exact ⟨by omega, hr⟩
      | some w =>
        rw [Option.getD_some]
        obtain ⟨hw, hrw⟩ := hold w hbefore
        rcases Int.le_total w (ack.offset + 1) with hle | hle
        · rw [Int.max_eq_right hle]
          exact ⟨by omega, hr⟩
        · rw [Int.max_eq_left hle]
          exact ⟨hw, hrw⟩
    next => exact hold v hv
  | aside hk => exact hold v (by rwa [Broker.committedOffset, ← hk.committed])
  | begun _ hk => exact hold v (by rwa [Broker.committedOffset, ← hk.committed])
  | stepped _ hs =>
    have hk : Keeps topic c.world.env _ := hs.keeps
    exact hold v (by rwa [Broker.committedOffset, ← hk.committed])
  | received => exact hold v hv
  | dropped => exact hold v hv

theorem bounded_of_run (h : Chronicle.run {} acts = some c) : c.Bounded acts := by
  induction h using run_induction with
  | start => exact ⟨rfl, ⟨by simp, by simp⟩, by simp [Broker.committedOffset, Table.get?]⟩
  | act hc ha hd ih => exact ih.act ha hd

theorem Turn.keepsRecords {topic : String} {a : Act α} (h : Turn topic c a d) :
    KeepsRecords topic c.world.env d.world.env := by
  have hrefl : Keeps topic c.world.env c.world.env := Keeps.refl _
  cases h with
  | aside hk => exact hk.toKeepsRecords
  | acknowledged => exact .accept _ _
  | stepped _ hs => exact hs.keeps.toKeepsRecords
  | begun _ hk => exact hk.toKeepsRecords
  | received | dropped => exact hrefl.toKeepsRecords

theorem highWaterMark_of_run (hc : c.world.collects = []) (h : c.run acts = some d)
    (ht : ∀ n, Act.outside (.replaceTopic key.1 n) ∉ acts) :
    c.world.env.broker.highWaterMark key ≤ d.world.env.broker.highWaterMark key := by
  induction acts generalizing c with
  | nil =>
    cases Option.some.inj h
    exact Int.le_refl _
  | cons a rest ih =>
    obtain ⟨next, ha, hrest⟩ := Option.bind_eq_some_iff.mp h
    have hturn : Turn key.1 c a next := act?_turn ha hc fun n he => ht n (he ▸ List.mem_cons_self)
    have hlater := ih (hturn.collects.trans hc) hrest fun n hn => ht n (List.mem_cons_of_mem _ hn)
    exact Int.le_trans (hturn.keepsRecords.highWaterMark rfl) hlater

end Chronicle

/-- What a group commits is positive and at most where the log ended at some moment. It is at most where the
log ends now, and nothing that is produced from now on is skipped, unless the topic was created anew since.
That empties the log and keeps what was committed. -/
theorem commits_within_log {acts : List (Act α)} {c : Chronicle α} {group : String} {key : PartitionKey} {v : Int}
    (h : Chronicle.run {} acts = some c) (hv : c.world.env.broker.committedOffset group key = some v) :
    0 < v ∧
    (∃ past later d, acts = past ++ later ∧ Chronicle.run {} past = some d ∧
      v ≤ d.world.env.broker.highWaterMark key ∧
      ((∀ n, Act.outside (.replaceTopic key.1 n) ∉ later) → v ≤ c.world.env.broker.highWaterMark key ∧
        ∀ payload offset b, c.world.env.broker.produce key payload = .ok (offset, b) → v ≤ offset)) ∧
    ∀ n, ∃ d, c.act? (.outside (.replaceTopic key.1 n)) = some d ∧
      d.world.env.broker.committedOffset group key = some v ∧ d.world.env.broker.highWaterMark key = 0 := by
  obtain ⟨h0, past, later, d, rfl, hd, hle⟩ := (Chronicle.bounded_of_run h).committed group key v hv
  refine ⟨h0, ⟨past, later, d, rfl, hd, hle, fun ht => ?_⟩, fun n => ?_⟩
  · have hrun : d.run later = some c := by
      rw [Chronicle.run_append, hd] at h
      exact h
    have hnow := Chronicle.highWaterMark_of_run (Chronicle.bounded_of_run hd).collects hrun ht
    refine ⟨Int.le_trans hle hnow, fun payload offset b hp => ?_⟩
    rw [Broker.produce_offset hp]
    exact Int.le_trans hle hnow
  · exact ⟨_, rfl, hv, Broker.highWaterMark_createTopic _ n key⟩

def acknowledgedActs : List (Act Nat) :=
  let loop : Act Nat := .move ⟨.loop 0, false⟩
  let claim : Act Nat := .move ⟨.claim 0 0, false⟩
  [.outside (.createTopic "orders" 1), .outside (.produce ("orders", 0) [7]),
    .start (.grouped "billing" billing) [], loop, loop, loop, loop, claim, claim, claim, claim, claim,
    .receive 0, .acknowledge 0 0]

theorem acknowledged_within_log : ∃ c, Chronicle.run {} acknowledgedActs = some c ∧
    c.world.env.broker.committedOffset "billing" ("orders", 0) = some 1 ∧
    1 ≤ c.world.env.broker.highWaterMark ("orders", 0) := by
  have hstate : (Chronicle.run {} acknowledgedActs).map (fun c =>
      c.world.env.broker.committedOffset "billing" ("orders", 0)) = some (some 1) := by rfl
  obtain ⟨c, hc, hv⟩ := Option.map_eq_some_iff.mp hstate
  obtain ⟨_, ⟨past, later, _, he, _, _, hkept⟩, _⟩ := commits_within_log hc hv
  have hlater : ∀ n, Act.outside (.replaceTopic "orders" n) ∉ later := by
    intro n hn
    have hm : Act.outside (.replaceTopic "orders" n) ∈ acknowledgedActs := he ▸ List.mem_append_right past hn
    simp [acknowledgedActs] at hm
  exact ⟨c, hc, hv, (hkept hlater).1⟩

def resumedActs : List (Act Nat) :=
  let loop : Act Nat := .move ⟨.loop 0, false⟩
  [.outside (.produce ("orders", 0) [8]), .outside .rebalance, loop, .move ⟨.claim 0 0, true⟩,
    loop, loop, loop, loop, loop]

/-- The commit outlives the log, and the next session skips the record that was produced. -/
theorem replaced_topic_skipped : ∃ c d,
    Chronicle.run {} (acknowledgedActs ++ [.outside (.replaceTopic "orders" 1)]) = some c ∧
      c.world.env.broker.committedOffset "billing" ("orders", 0) = some 1 ∧
      c.world.env.broker.highWaterMark ("orders", 0) = 0 ∧
      c.run resumedActs = some d ∧ d.world.env.broker.payload? ("orders", 0) 0 = some [8] ∧
      d.notes.map (·.current.claimed) = [[(("orders", 0), 1)]] := by
  have hreplaced : (Chronicle.run {} (acknowledgedActs ++ [.outside (.replaceTopic "orders" 1)])).map
      (fun c => (c.world.env.broker.committedOffset "billing" ("orders", 0),
        c.world.env.broker.highWaterMark ("orders", 0),
        (c.run resumedActs).map fun d => (d.world.env.broker.payload? ("orders", 0) 0,
          d.notes.map (·.current.claimed)))) =
        some (some 1, 0, some (some [8], [[(("orders", 0), 1)]])) := by rfl
  obtain ⟨c, hc, he⟩ := Option.map_eq_some_iff.mp hreplaced
  obtain ⟨hcommitted, he⟩ := Prod.mk.inj he
  obtain ⟨hmark, he⟩ := Prod.mk.inj he
  obtain ⟨d, hd, he⟩ := Option.map_eq_some_iff.mp he
  obtain ⟨hpayload, hclaimed⟩ := Prod.mk.inj he
  exact ⟨c, d, hc, hcommitted, hmark, hd, hpayload, hclaimed⟩

end TopicConsumer
