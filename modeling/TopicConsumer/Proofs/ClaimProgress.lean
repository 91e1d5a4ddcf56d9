import TopicConsumer.Proofs.Turns

namespace TopicConsumer

/-- Which payloads the records of a log have, by partition and offset. -/
abbrev Contents := PartitionKey → Int → Bytes → Prop

def Broker.contents (b : Broker) (topic : String) : Contents :=
  fun key offset payload => key.1 = topic → b.payload? key offset = some payload

theorem Environment.KeepsRecords.contents {topic : String} {env after : Environment}
    (h : env.KeepsRecords topic after) (key : PartitionKey) (offset : Int) (payload : Bytes)
    (hp : env.broker.contents topic key offset payload) : after.broker.contents topic key offset payload :=
  fun ht => h.payloads key offset payload ht (hp ht)

def Message.place (m : Message α) : PartitionKey := (m.topic, m.partition)

structure Subscription (α : Type) where
  client : Nat
  group : String
  topic : String
  decoder : Decoder α

def GroupRun.subscription (run : GroupRun α) : Subscription α :=
  ⟨run.client, run.group, run.topic, run.decoder⟩

namespace Subscription

/-- The record at an offset, with the acknowledgment that a member of the group gets. -/
def record (u : Subscription α) (key : PartitionKey) (offset : Int) (payload : Bytes) : Record :=
  { topic := key.1, partition := key.2, offset := offset, payload := some payload
    ack := some ⟨u.group, key.1, key.2, offset⟩ }

/-- A message is what the decoder makes of the record at an offset. -/
def Delivers (u : Subscription α) (logs : Contents) (m : Message α) (key : PartitionKey) (offset : Int) :
    Prop :=
  ∃ payload, logs key offset payload ∧
    (u.record key offset payload).decode u.decoder (some u.group) = .ok m

end Subscription

/-- What the handler of a claim holds, if the record to be queued next is the one at `next`, and its cursor
stands at `position`. -/
def ClaimPhase.Holds (logs : Contents) (u : Subscription α) (key : PartitionKey) (next position : Int) :
    ClaimPhase α → Prop
  | .asking _ => position = next
  | .taken record => position = next + 1 ∧ ∃ payload, logs key next payload ∧
      record = u.record key next payload
  | .measured record => position = next + 1 ∧ ∃ payload, logs key next payload ∧
      record = u.record key next payload
  | .sending m _ => position = next + 1 ∧ u.Delivers logs m key next
  | .finished _ => True
  | .crashed => True

/-- A claim reads its partition for the group and has queued everything up to `next`. -/
def Claim.Follows (logs : Contents) (u : Subscription α) (key : PartitionKey) (next : Int) (claim : Claim α) :
    Prop :=
  claim.ackGroup = some u.group ∧
    ∃ cursor, claim.source = .log cursor ∧ cursor.key = key ∧
      claim.phase.Holds logs u key next cursor.position

variable {α : Type} {b : Broker} {logs : Contents} {u : Subscription α} {key : PartitionKey} {next : Int}

namespace Subscription

theorem Delivers.decoded {m : Message α} {offset : Int} (h : u.Delivers logs m key offset) :
    ∃ payload, logs key offset payload ∧ u.decoder payload = .ok m.value ∧
      m = ⟨m.value, some u.group, key.1, key.2, offset, none, none, some ⟨u.group, key.1, key.2, offset⟩⟩ := by
  obtain ⟨payload, hp, hd⟩ := h
  refine ⟨payload, hp, ?_⟩
  unfold Record.decode at hd
  split at hd
  next hv =>
    cases hd
    exact ⟨hv, rfl⟩
  next => simp at hd

theorem Delivers.place {m : Message α} {offset : Int} (h : u.Delivers logs m key offset) :
    m.place = key := by
  obtain ⟨_, _, _, hm⟩ := h.decoded
  rw [hm]
  rfl

theorem Delivers.offset {m : Message α} {offset : Int} (h : u.Delivers logs m key offset) :
    m.offset = offset := by
  obtain ⟨_, _, _, hm⟩ := h.decoded
  rw [hm]

theorem Delivers.ack {m : Message α} {offset : Int} (h : u.Delivers logs m key offset) :
    m.ack = some ⟨u.group, key.1, key.2, offset⟩ := by
  obtain ⟨_, _, _, hm⟩ := h.decoded
  rw [hm]

theorem Delivers.keep {known : Contents} {m : Message α} {offset : Int} (h : u.Delivers logs m key offset)
    (hk : ∀ payload, logs key offset payload → known key offset payload) : u.Delivers known m key offset := by
  obtain ⟨payload, hp, hd⟩ := h
  exact ⟨payload, hk payload hp, hd⟩

end Subscription

theorem Cursor.open?_ok {position : Int} {cursor : Cursor} (h : Cursor.open? b key position = .ok cursor) :
    cursor.key = key ∧ cursor.position = position := by
  unfold Cursor.open? at h
  split at h <;> cases h
  exact ⟨rfl, rfl⟩

theorem Claim.ask_log {claim later : Claim α} {cursor : Cursor} {stage : Stage} {c : Broker} {found : Found}
    (hs : claim.source = .log cursor) (h : claim.ask b stage = some (c, later, found)) :
    later.ackGroup = claim.ackGroup ∧ ∃ moved, later.source = .log moved ∧ moved.key = cursor.key ∧
      ((moved.position = cursor.position ∧ ∃ stage, later.phase = .asking stage) ∨
        (∃ result, later.phase = .finished result) ∨
        moved.position = cursor.position + 1 ∧
          ∃ payload, c.payload? cursor.key cursor.position = some payload ∧
            later.phase = .taken ⟨cursor.key.1, cursor.key.2, cursor.position, none, some payload, none,
              claim.ackGroup.map (⟨·, cursor.key.1, cursor.key.2, cursor.position⟩)⟩) := by
  obtain ⟨⟨c', source, found'⟩, hstep, he⟩ := Option.map_eq_some_iff.mp h
  rw [hs] at hstep
  obtain ⟨⟨c'', moved, found''⟩, hcursor, hlog⟩ := Option.map_eq_some_iff.mp hstep
  cases hlog
  cases stage with
  | marking =>
    cases hcursor
    cases he
    exact ⟨rfl, _, rfl, rfl, .inl ⟨rfl, _, rfl⟩⟩
  | checking =>
    simp only [Cursor.step] at hcursor
    split at hcursor <;> cases hcursor <;> cases he
    · exact ⟨rfl, _, rfl, rfl, .inr (.inl ⟨_, rfl⟩)⟩
    · exact ⟨rfl, _, rfl, rfl, .inl ⟨rfl, _, rfl⟩⟩
  | looking =>
    simp only [Cursor.step] at hcursor
    split at hcursor
    next payload hp =>
      cases hcursor
      cases he
      exact ⟨rfl, _, rfl, rfl, .inr (.inr ⟨rfl, payload, hp, rfl⟩)⟩
    next =>
      cases hcursor
      cases he
      exact ⟨rfl, _, rfl, rfl, .inl ⟨rfl, _, rfl⟩⟩
  | parked =>
    simp only [Cursor.step] at hcursor
    split at hcursor
    next =>
      cases hcursor
      cases he
      exact ⟨rfl, _, rfl, rfl, .inl ⟨rfl, _, rfl⟩⟩
    next =>
      split at hcursor
      next => simp at hcursor
      next =>
        cases hcursor
        cases he
        exact ⟨rfl, _, rfl, rfl, .inr (.inl ⟨_, rfl⟩)⟩

namespace Claim

variable {claim : Claim α}

theorem Follows.keep {known : Contents} (h : claim.Follows logs u key next)
    (hk : ∀ payload, logs key next payload → known key next payload) : claim.Follows known u key next := by
  obtain ⟨ha, cursor, hs, hc, hp⟩ := h
  refine ⟨ha, cursor, hs, hc, ?_⟩
  cases hphase : claim.phase <;> rw [hphase] at hp
  case asking => exact hp
  case taken =>
    obtain ⟨hn, payload, hpay, hr⟩ := hp
    exact ⟨hn, payload, hk payload hpay, hr⟩
  case measured =>
    obtain ⟨hn, payload, hpay, hr⟩ := hp
    exact ⟨hn, payload, hk payload hpay, hr⟩
  case sending => exact ⟨hp.1, hp.2.keep hk⟩
  case finished => trivial
  case crashed => trivial

theorem Follows.finish (h : claim.Follows logs u key next) (result : Except Failure Unit) :
    (claim.finish result).Follows logs u key next := by
  obtain ⟨ha, cursor, hs, hc, _⟩ := h
  exact ⟨ha, cursor, hs, hc, trivial⟩

theorem follows_new {cursor : Cursor} (group : String) (hg : u.group = group) :
    Claim.Follows logs u cursor.key cursor.position
      ({ source := .log cursor, ackGroup := some group } : Claim α) :=
  ⟨by rw [hg], cursor, rfl, rfl, rfl⟩

end Claim

theorem GroupRun.HandlerStep.subscription {env after : Environment} {run handled : GroupRun α}
    {session : Token} {claim later : Claim α} (h : HandlerStep env run session claim after handled later) :
    handled.subscription = run.subscription := by
  cases h <;> rfl

theorem GroupRun.HandlerStep.follows {topic : String} {env after : Environment}
    {run handled : GroupRun α} {session : Token} {claim later : Claim α}
    (h : HandlerStep env run session claim after handled later)
    (hf : claim.Follows (env.broker.contents topic) run.subscription key next) :
    (handled.messages = run.messages ∧
      later.Follows (after.broker.contents topic) run.subscription key next) ∨
      ∃ m, run.messages.offer m = .queued handled.messages ∧
        run.subscription.Delivers (after.broker.contents topic) m key next ∧
        later.Follows (after.broker.contents topic) run.subscription key (next + 1) := by
  have hkeeps : Environment.Keeps topic env after := h.keeps
  have hk := hkeeps.contents key next
  obtain ⟨ha, cursor, hs, hc, hp⟩ := id hf
  cases h with
  | stopped => exact .inl ⟨rfl, hf.finish _⟩
  | asked hphase hask =>
    refine .inl ⟨rfl, ?_⟩
    rw [hphase] at hp
    obtain ⟨hgroup, moved, hsource, hkey, hcases⟩ := Claim.ask_log hs hask
    refine ⟨hgroup.trans ha, moved, hsource, hkey.trans hc, ?_⟩
    obtain ⟨hpos, _, hl⟩ | ⟨_, hl⟩ | ⟨hpos, payload, hpay, hl⟩ := hcases
    · rw [hl]
      exact hpos.trans hp
    · rw [hl]
      trivial
    · rw [hl]
      subst hc
      cases hp
      exact ⟨hpos, payload, fun _ => hpay, by rw [ha]; rfl⟩
  | measured hphase hm =>
    rw [hphase] at hp
    obtain ⟨hn, payload, hpay, hr⟩ := hp
    exact .inl ⟨rfl, ha, cursor, hs, hc, hn, payload, hk payload hpay, hr⟩
  | crashed => exact .inl ⟨rfl, ha, cursor, hs, hc, trivial⟩
  | rejected => exact .inl ⟨rfl, hf.finish _⟩
  | decoded hphase hd =>
    rw [hphase] at hp
    obtain ⟨hn, payload, hpay, rfl⟩ := hp
    exact .inl ⟨rfl, ha, cursor, hs, hc, hn, payload, hpay, hd⟩
  | queued hphase ho =>
    rw [hphase] at hp
    exact .inr ⟨_, ho, hp.2, ha, cursor, hs, hc, hp.1⟩
  | unheard => exact .inl ⟨rfl, hf.finish _⟩

end TopicConsumer
