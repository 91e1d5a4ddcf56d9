import TopicConsumer.Proofs.DirectCourse

namespace TopicConsumer

open Environment

variable {α : Type}

theorem Broker.startPosition_bounds {b : Broker} {key : PartitionKey} {log : PartitionLog} (start : StartOffset)
    (hl : b.log? key = some log) : 0 ≤ b.startPosition key start ∧ b.startPosition key start ≤ log.records.length := by
  cases start <;> simp [Broker.startPosition, Broker.highWaterMark, hl]

theorem Broker.startPosition_nonneg (b : Broker) (key : PartitionKey) (start : StartOffset) :
    0 ≤ b.startPosition key start := by
  cases start with
  | earliest => exact Int.le_refl 0
  | latest =>
    unfold startPosition highWaterMark
    dsimp only
    split <;> omega

structure Reader.Fresh (b : Broker) (start : StartOffset) (key : PartitionKey) (reader : Reader) (log : PartitionLog) :
    Prop where
  found : b.log? key = some log
  opened : reader = { source := .log ⟨key, b.startPosition key start, log.channel, (b.channel log.channel).version⟩ }

namespace Environment

variable {env after : Environment} {client : Nat} {topic : String} {start : StartOffset}

/-- The logs are as they were, and a client of the broker is open. -/
structure Serves (env : Environment) (b : Broker) (client : Nat) : Prop where
  topics : env.broker.topics = b.topics
  channels : env.broker.channels = b.channels
  client : env.directClients[client]? = some ⟨.broker, false⟩

theorem Serves.fresh {b : Broker} (h : env.Serves b client) {key : PartitionKey} {reader : Reader}
    (ho : env.openReader client key start = (.ok reader, after)) :
    after.Serves b client ∧ ∃ log, reader.Fresh b start key log := by
  have hlog : env.broker.log? key = b.log? key := Broker.log?_congr h.topics key
  have hposition : env.broker.startPosition key start = b.startPosition key start := by
    cases start <;> simp [Broker.startPosition, Broker.highWaterMark, hlog]
  simp only [openReader, h.client, Bool.false_eq_true, if_false, openBrokerReader] at ho
  split at ho
  next => simp at ho
  next =>
    unfold Cursor.open? Broker.watch at ho
    cases hl : env.broker.log? key with
    | none => simp [hl] at ho
    | some log =>
      simp only [hl] at ho
      obtain ⟨he, rfl⟩ := Prod.mk.inj ho
      cases he
      refine ⟨⟨h.topics, h.channels, h.client⟩, log, hlog ▸ hl, ?_⟩
      simp [hposition, Broker.channel, h.channels]

theorem Serves.openEach {b : Broker} (h : env.Serves b client) {partitions : List Int} {readers all : List Reader}
    (ho : Consumer.openReaders.openEach client topic start env readers partitions = (.ok all, after)) :
    after.Serves b client ∧ ∃ more, all = readers ++ more ∧
      more.map (·.source.key) = partitions.map (topic, ·) ∧
      ∀ reader ∈ more, ∃ key log, reader.Fresh b start key log := by
  induction partitions generalizing env readers with
  | nil =>
    cases ho
    exact ⟨h, [], by simp, rfl, by simp⟩
  | cons partition rest ih =>
    simp only [Consumer.openReaders.openEach] at ho
    split at ho
    next reader env' hr =>
      obtain ⟨hs, log, hf⟩ := h.fresh hr
      obtain ⟨hs', more, rfl, hkeys, hfresh⟩ := ih hs ho
      have hkey : reader.source.key = (topic, partition) := by rw [hf.opened]; rfl
      refine ⟨hs', reader :: more, by simp, by simp only [List.map_cons, hkey, hkeys], fun r hr => ?_⟩
      obtain rfl | hr := List.mem_cons.mp hr
      · exact ⟨_, log, hf⟩
      · exact hfresh r hr
    next => simp at ho

theorem Serves.openReaders {b : Broker} (h : env.Serves b client) {readers : List Reader}
    (ho : Consumer.openReaders env client topic start = (.ok readers, after)) :
    after.Serves b client ∧ readers.map (·.source.key) = b.partitionKeys topic ∧
      ∀ reader ∈ readers, ∃ key log, reader.Fresh b start key log := by
  simp only [Consumer.openReaders, partitions, h.client, Bool.false_eq_true, if_false, Broker.partitionCount,
    h.topics] at ho
  unfold Broker.partitionKeys
  cases hg : b.topics.get? topic with
  | none => simp [hg, Except.map] at ho
  | some logs =>
    simp only [hg, Except.map] at ho
    split at ho
    next he => simp at he
    next => simp at ho
    next he =>
      obtain ⟨he, rfl⟩ := Prod.mk.inj he
      cases he
      obtain ⟨hs, more, rfl, hkeys, hfresh⟩ := h.openEach ho
      rw [List.map_map] at hkeys
      exact ⟨hs, hkeys, hfresh⟩

end Environment

structure DirectRun.Started (config : Config α) (opened env : Environment) (run : DirectRun α) : Prop where
  decoder : run.decoder = config.decoder
  mode : run.mode = config.decodeMode
  tasks : run.tasks = []
  messages : run.messages = { capacity := config.queueCapacity }
  errors : run.errors = { capacity := config.queueCapacity }
  keys : run.pumps.map Pump.key = opened.broker.partitionKeys config.topic
  fresh : ∀ pump ∈ run.pumps, ∃ reader key log, pump = { reader := reader } ∧
    reader.Fresh opened.broker config.start key log
  topics : env.broker.topics = opened.broker.topics
  channels : env.broker.channels = opened.broker.channels

theorem Consumer.start_started {config : Config α} {opened : Environment} {token : Token} {capacity : Nat}
    {world : World α} {consumer : Consumer α} {run : DirectRun α}
    (h : Consumer.start { env := opened } { blueprint := .direct config, connector := .broker } token =
      (.ok capacity, world, consumer)) (hd : world.directs = [run]) : run.Started config opened world.env := by
  simp only [start, Option.isSome_none, Bool.false_eq_true, if_false, Blueprint.config, openDirect] at h
  cases hb : opened.broker.connect with
  | error failure => simp [hb] at h
  | ok _ =>
    simp only [hb] at h
    have hs : Serves { opened with directClients := opened.directClients ++ [⟨.broker, false⟩] } opened.broker
        opened.directClients.length := ⟨rfl, rfl, by simp⟩
    split at h
    next => simp at h
    next readers env hr =>
      obtain ⟨hopen, hkeys, hfresh⟩ := hs.openReaders hr
      cases h
      cases hd
      refine ⟨rfl, rfl, rfl, rfl, rfl, ?_, fun pump hp => ?_, hopen.topics, hopen.channels⟩
      · rw [← hkeys]
        simp [Pump.key, Function.comp_def]
      · obtain ⟨reader, hm, rfl⟩ := List.mem_map.mp hp
        obtain ⟨key, log, hf⟩ := hfresh reader hm
        exact ⟨reader, key, log, rfl, hf⟩

end TopicConsumer
