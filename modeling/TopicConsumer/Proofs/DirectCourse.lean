import TopicConsumer.Proofs.Channels
import TopicConsumer.Proofs.ClaimProgress
import TopicConsumer.Proofs.DirectSteps

namespace TopicConsumer

variable {α : Type}

def Record.outcome (decoder : Decoder α) (record : Record) : Outcome α :=
  match record.decode decoder none with
  | .ok message => .message message
  | .error failure => .failure failure

def outcomeAt (decoder : Decoder α) (key : PartitionKey) (offset : Int) (payload : Bytes) : Outcome α :=
  (recordAt key offset payload).outcome decoder

namespace DirectRun

/-- What a step to `next` has queued. -/
def puts (run next : DirectRun α) : List (Outcome α) :=
  (next.messages.items.drop run.messages.items.length).map .message ++
    (next.errors.items.drop run.errors.items.length).map .failure

end DirectRun

/-- What can happen while a direct consumer is at work: a step of one of its tasks, a change from outside, or
the application takes from a queue or drops its receiver. -/
inductive DirectAct where
  | pump (i : Nat) (stop : Bool)
  | task (i : Nat) (stop : Bool)
  | outside (change : Outside)
  | receive
  | receiveError
  | dropMessages
  | dropErrors

/-- A direct consumer at work, with what has happened outside since it was started, the outcomes that its tasks
have queued, and those that the application has seen. -/
structure Journal (α : Type) where
  env : Environment
  run : DirectRun α
  changes : List Outside := []
  puts : List (Outcome α) := []
  seen : List (Outcome α) := []

namespace Journal

def proceed (j : Journal α) (env : Environment) (run : DirectRun α) : Journal α :=
  { j with env := env, run := run, puts := j.puts ++ j.run.puts run }

def act? (j : Journal α) : DirectAct → Option (Journal α)
  | .pump i stop => (j.run.stepPump j.env i stop).map fun (env, run) => j.proceed env run
  | .task i stop => (j.run.stepTask j.env i stop).map (j.proceed j.env)
  | .outside change => (j.env.change? change).map fun env => { j with env := env, changes := j.changes ++ [change] }
  | .receive => j.run.messages.take?.map fun (message, messages) =>
    { j with run := { j.run with messages := messages }, seen := j.seen ++ [.message message] }
  | .receiveError => j.run.errors.take?.map fun (failure, errors) =>
    { j with run := { j.run with errors := errors }, seen := j.seen ++ [.failure failure] }
  | .dropMessages => some { j with run := { j.run with messages := j.run.messages.drop } }
  | .dropErrors => some { j with run := { j.run with errors := j.run.errors.drop } }

/-- What can become of a direct consumer that is started when the environment is `opened`. -/
inductive Reached (config : Config α) (opened : Environment) : Journal α → Prop where
  | started {token capacity world consumer run} :
      Consumer.start { env := opened } { blueprint := .direct config, connector := .broker } token =
        (.ok capacity, world, consumer) →
      world.directs = [run] → Reached config opened { env := world.env, run := run }
  | acted {j k a} : Reached config opened j → j.act? a = some k → Reached config opened k

end Journal

def Broker.partitionKeys (b : Broker) (topic : String) : List PartitionKey :=
  match b.topics.get? topic with
  | none => []
  | some logs => (List.range logs.length).map fun p : Nat => (topic, (p : Int))

theorem Broker.payload?_lt {b : Broker} {key : PartitionKey} {log : PartitionLog} {offset : Int} {payload : Bytes}
    (hl : b.log? key = some log) (hp : b.payload? key offset = some payload) : offset < log.records.length := by
  obtain ⟨_, other, ho, hr⟩ := payload?_eq_some.mp hp
  cases Option.some.inj (hl.symm.trans ho)
  have hb := (List.getElem?_eq_some_iff.mp hr).1
  omega

namespace Pump

def hand (decoder : Decoder α) (pump : Pump α) : List (Outcome α) :=
  match pump.phase with
  | .taken record => [record.outcome decoder]
  | .measured record => [record.outcome decoder]
  | .sending outcome _ => [outcome]
  | _ => []

def key (pump : Pump α) : PartitionKey := pump.reader.source.key

def position (pump : Pump α) : Int :=
  match pump.reader.source with
  | .log c => c.position
  | .feed f => f.offset

/-- A pump stands in the log of its partition: it has taken each record from the first one up to its
position, the last of which it may have in hand, and when it is parked, there is none that it does not know
of. -/
structure Reads (b : Broker) (decoder : Decoder α) (first : PartitionKey → Int) (pump : Pump α) (c : Cursor)
    (log : PartitionLog) : Prop where
  source : pump.reader.source = .log c
  found : b.log? c.key = some log
  channel : c.channel = log.channel
  low : first c.key ≤ c.position
  high : c.position ≤ log.records.length
  seen : c.seen ≤ (b.channel c.channel).version
  parked : pump.phase = .asking .parked → c.seen = (b.channel c.channel).version →
    c.position = log.records.length
  hand : pump.hand decoder = [] ∨ ∃ payload, first c.key < c.position ∧
    b.payload? c.key (c.position - 1) = some payload ∧
    pump.hand decoder = [outcomeAt decoder c.key (c.position - 1) payload]

def Working (pump : Pump α) : Prop :=
  pump.reader.closed = false ∧ match pump.phase with
    | .closing _ => False
    | .reporting _ _ => False
    | .done => False
    | _ => True

def Failing (pump : Pump α) (failure : Failure) : Prop :=
  pump.phase = .closing (some failure) ∨ ∃ ticket, pump.phase = .reporting failure ticket

variable {b after : Broker} {decoder : Decoder α} {first : PartitionKey → Int} {pump : Pump α} {c : Cursor}
  {log later : PartitionLog}

theorem Reads.key (h : pump.Reads b decoder first c log) : pump.key = c.key := by
  simp [Pump.key, h.source, Source.key]

theorem Reads.position (h : pump.Reads b decoder first c log) : pump.position = c.position := by
  simp [Pump.position, h.source]

theorem Reads.payload?_none (h : pump.Reads b decoder first c log) (hf : 0 ≤ first c.key)
    (hp : b.payload? c.key c.position = none) : c.position = log.records.length := by
  have hlow := h.low
  have hhigh := h.high
  have hnone : log.records[c.position.toNat]? = none := by
    cases hr : log.records[c.position.toNat]? with
    | none => rfl
    | some payload =>
      have hsome : b.payload? c.key c.position = some payload :=
        Broker.payload?_eq_some.mpr ⟨by omega, log, h.found, hr⟩
      rw [hp] at hsome
      simp at hsome
  have hlength := List.getElem?_eq_none_iff.mp hnone
  omega

/-- What is appended to the log does not escape a pump: if it is parked, its channel tells it. -/
theorem Reads.appended (h : pump.Reads b decoder first c log) (ha : Broker.Appended b after c.key log later) :
    pump.Reads after decoder first c later where
  source := h.source
  found := ha.found
  channel := h.channel.trans ha.channel.symm
  low := h.low
  high := by
    have hlength := ha.records.length_le
    have hhigh := h.high
    omega
  seen := by
    have hversion := ha.version
    rw [← h.channel] at hversion
    exact Nat.le_trans h.seen hversion
  parked hp hs := by
    have hversion := ha.version
    have htold := ha.told
    rw [← h.channel] at hversion htold
    have hseen := h.seen
    -- Had the log grown, the channel would be ahead of what the pump has seen.
    by_cases he : later.records = log.records
    · rw [he]
      exact h.parked hp (by omega)
    · have hahead := htold he
      omega
  hand := by
    obtain hh | ⟨payload, hlt, hp, hh⟩ := h.hand
    · exact .inl hh
    · exact .inr ⟨payload, hlt, ha.payload? h.found hp, hh⟩

theorem Reads.turned (h : pump.Reads b decoder first c log) {next : Pump α}
    (hs : next.reader.source = pump.reader.source) (hp : next.phase ≠ .asking .parked)
    (hh : next.hand decoder = [] ∨ next.hand decoder = pump.hand decoder) :
    next.Reads b decoder first c log where
  source := hs.trans h.source
  found := h.found
  channel := h.channel
  low := h.low
  high := h.high
  seen := h.seen
  parked hp' := absurd hp' hp
  hand := by
    obtain hh | hh := hh
    · exact .inl hh
    · exact hh ▸ h.hand

end Pump

namespace Environment

variable {env after : Environment}

theorem measure_broker {group : String} {source : Source} {record : Record}
    (h : env.measure group source record = .ok after) : after.broker = env.broker := by
  unfold measure at h
  dsimp only at h
  split at h
  next => cases h; rfl
  next => simp at h

theorem measure_fits {c : Cursor} {record : Record} (group : String)
    (h0 : 0 ≤ record.offset) (hr : record.offset ≤ maxOffset) (hm : env.broker.highWaterMark c.key ≤ maxOffset) :
    ∃ after, env.measure group (.log c) record = .ok after := by
  have hmark := env.broker.highWaterMark_nonneg c.key
  have hgap : minOffset ≤ env.broker.highWaterMark c.key - record.offset ∧
      env.broker.highWaterMark c.key - record.offset ≤ maxOffset := by
    unfold minOffset maxOffset at *
    omega
  have hoffset : offsetGap (env.broker.highWaterMark c.key) record.offset =
      .ok (env.broker.highWaterMark c.key - record.offset) := if_pos hgap
  simp only [measure, Gauge.measure, Source.highWaterMark, hoffset]
  exact ⟨_, rfl⟩

theorem closeReader_logs (env : Environment) (reader : Reader) :
    (env.closeReader reader).2.2.broker.topics = env.broker.topics ∧
      (env.closeReader reader).2.2.broker.channels = env.broker.channels ∧
      (env.closeReader reader).2.1.source = reader.source := by
  unfold closeReader
  split
  next => exact ⟨rfl, rfl, rfl⟩
  next =>
    dsimp only
    split <;> exact ⟨rfl, rfl, rfl⟩

theorem closeReaderLogging_logs (env : Environment) (reader : Reader) :
    (env.closeReaderLogging reader).2.broker.topics = env.broker.topics ∧
      (env.closeReaderLogging reader).2.broker.channels = env.broker.channels ∧
      (env.closeReaderLogging reader).1.source = reader.source := by
  have hc := closeReader_logs env reader
  unfold closeReaderLogging
  dsimp only
  split <;> exact hc

end Environment

namespace DirectRun

open Environment

variable {env after : Environment} {run next : DirectRun α} {pump later : Pump α}
  {first : PartitionKey → Int} {c : Cursor} {log : PartitionLog}

/-- A pump takes back a failure of its partition, or leaves the logs alone. -/
theorem PumpStep.broker_cases (h : PumpStep env run pump after next later) :
    (after.broker.topics = env.broker.topics ∧ after.broker.channels = env.broker.channels) ∨
      ∃ key reason, env.broker.takeFailure key = some (reason, after.broker) := by
  cases h with
  | @asked _ broker source found hp hc hs =>
    cases hsource : pump.reader.source with
    | log c =>
      rw [hsource] at hs
      obtain ⟨⟨_, _, _⟩, hs, he⟩ := Option.map_eq_some_iff.mp hs
      cases he
      cases Cursor.step_cases hs with
      | failed hf => exact .inr ⟨_, _, hf⟩
      | _ => exact .inl ⟨rfl, rfl⟩
    | feed f =>
      rw [hsource] at hs
      obtain ⟨_, _, he⟩ := Option.map_eq_some_iff.mp hs
      cases he
      exact .inl ⟨rfl, rfl⟩
  | measured _ hm => exact .inl ⟨by rw [measure_broker hm], by rw [measure_broker hm]⟩
  | closed | failed => exact .inl ⟨(closeReaderLogging_logs _ _).1, (closeReaderLogging_logs _ _).2.1⟩
  | _ => exact .inl ⟨rfl, rfl⟩

/-- A call for the next record keeps a pump in its place in the log. -/
theorem asked_reads {decoder : Decoder α} {b broker : Broker} {stage : Stage} {found : Found} {d : Cursor}
    (hw : b.Wired) (hf : 0 ≤ first c.key) (hr : pump.Reads b decoder first c log)
    (hs : c.Step b true stage broker d found) :
    ∃ log', d.key = c.key ∧
      Pump.Reads broker decoder first ⟨{ pump.reader with source := .log d }, found.phase⟩ d log' := by
  cases hs with
  | marked =>
    exact ⟨log, rfl, rfl, hr.found, hr.channel, hr.low, hr.high, Nat.le_refl _, by simp [Found.phase], .inl rfl⟩
  | failed ht =>
    obtain ⟨later, ha, _⟩ := Broker.takeFailure_appended ht hr.found
    have ha' := hr.appended ha
    exact ⟨later, rfl, rfl, ha'.found, ha'.channel, ha'.low, ha'.high, ha'.seen, by simp [Found.phase], .inl rfl⟩
  | sound =>
    exact ⟨log, rfl, rfl, hr.found, hr.channel, hr.low, hr.high, hr.seen, by simp [Found.phase], .inl rfl⟩
  | @found payload hp =>
    have hlt := Broker.payload?_lt hr.found hp
    have hlow := hr.low
    refine ⟨log, rfl, rfl, hr.found, hr.channel, ?_, ?_, hr.seen, by simp [Found.phase], .inr ⟨payload, ?_⟩⟩
    · dsimp only
      omega
    · dsimp only
      omega
    · have hback : c.position + 1 - 1 = c.position := by omega
      simp only [hback]
      exact ⟨by omega, hp, rfl⟩
  | missed hp =>
    have hend := hr.payload?_none hf hp
    exact ⟨log, rfl, rfl, hr.found, hr.channel, hr.low, hr.high, hr.seen, fun _ _ => hend, .inl rfl⟩
  | woken =>
    exact ⟨log, rfl, rfl, hr.found, hr.channel, hr.low, hr.high, Nat.le_refl _, by simp [Found.phase], .inl rfl⟩
  | ended _ hlive =>
    have hl := hw.channel_live hr.found
    rw [← hr.channel, hlive] at hl
    simp at hl

theorem PumpStep.reads (h : PumpStep env run pump after next later) (hw : env.broker.Wired)
    (hf : 0 ≤ first c.key) (hr : pump.Reads env.broker run.decoder first c log) :
    ∃ d log', d.key = c.key ∧ later.Reads after.broker run.decoder first d log' := by
  cases h with
  | asked hp hc hs =>
    rw [hr.source] at hs
    obtain ⟨⟨_, d, _⟩, hs, he⟩ := Option.map_eq_some_iff.mp hs
    cases he
    obtain ⟨log', hk, hr'⟩ := asked_reads hw hf hr (Cursor.step_cases hs)
    exact ⟨d, log', hk, hr'⟩
  | measured hp hm =>
    rw [measure_broker hm]
    exact ⟨c, log, rfl, hr.turned rfl (by simp) (.inr (by simp [Pump.hand, hp]))⟩
  | decoded hp => exact ⟨c, log, rfl, hr.turned rfl (by simp) (.inr (by simp [Pump.hand, hp]; rfl))⟩
  | closed hp =>
    obtain ⟨ht, hc, hs⟩ := closeReaderLogging_logs env pump.reader
    exact ⟨c, log, rfl, (hr.turned hs (by simp) (.inl rfl)).appended (.of_eq hr.found ht hc)⟩
  | failed hp =>
    obtain ⟨ht, hc, hs⟩ := closeReaderLogging_logs env pump.reader
    exact ⟨c, log, rfl, (hr.turned hs (by simp) (.inl rfl)).appended (.of_eq hr.found ht hc)⟩
  | _ => exact ⟨c, log, rfl, hr.turned rfl (by simp) (.inl rfl)⟩

end DirectRun

end TopicConsumer
