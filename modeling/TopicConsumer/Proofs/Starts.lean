import TopicConsumer.Proofs.Tallies

namespace TopicConsumer

open Environment

variable {α : Type}

def Broker.openFailure? (b : Broker) (topic : String) : Option Failure :=
  match b.topics.get? topic with
  | none => some (.broker ("unknown topic '" ++ topic ++ "'"))
  | some [] => some (.noPartitions topic)
  | some _ => ((b.partitionKeys topic).find? b.refusedPartitions.contains).map fun key =>
    .broker ("failed to get partition consumer " ++ keyText key)

def Broker.startFailure? (b : Broker) (topic : String) : Option Failure :=
  if b.refusing then some (.broker "connection refused") else b.openFailure? topic

/-- Readers at the broker are counted as opened and as closed. -/
def Environment.count (env : Environment) (opened closed : Nat) : Environment :=
  env.withBroker { env.broker with
    openedReaders := env.broker.openedReaders + opened
    closedReaders := env.broker.closedReaders + closed }

structure Reader.Open (reader : Reader) : Prop where
  cursor : ∃ c, reader.source = .log c
  script : reader.script = none
  closed : reader.closed = false

namespace Environment

variable {env : Environment} {client : Nat} {key : PartitionKey}

theorem count_count (env : Environment) (opened closed more again : Nat) :
    (env.count opened closed).count more again = env.count (opened + more) (closed + again) := by
  simp [count, withBroker, Nat.add_assoc]

theorem count_none (env : Environment) : env.count 0 0 = env := rfl

theorem closeReaderLogging_open {reader : Reader} (h : reader.Open) :
    env.closeReaderLogging reader = ({ reader with closed := true }, env.count 0 1) := by
  simp only [closeReaderLogging, closeReader, h.closed, h.script, Bool.false_eq_true, if_false]
  rfl

theorem closeEach_open {readers : List Reader} (h : ∀ reader ∈ readers, reader.Open) :
    readers.foldl (fun env reader => (env.closeReaderLogging reader).2) env = env.count 0 readers.length := by
  induction readers generalizing env with
  | nil => rfl
  | cons reader rest ih =>
    have hfirst : (env.closeReaderLogging reader).2 = env.count 0 1 := by
      rw [closeReaderLogging_open (h reader List.mem_cons_self)]
    rw [List.foldl_cons, hfirst, ih fun r hr => h r (List.mem_cons_of_mem _ hr), count_count, List.length_cons,
      Nat.add_comm rest.length]

theorem openReader_refused (start : StartOffset) (hc : env.directClients[client]? = some ⟨.broker, false⟩)
    (hr : key ∈ env.broker.refusedPartitions) : env.openReader client key start =
      (.error (.broker ("failed to get partition consumer " ++ Broker.keyText key)), env) := by
  simp [openReader, hc, openBrokerReader, hr]

theorem openReader_allowed (start : StartOffset) (hc : env.directClients[client]? = some ⟨.broker, false⟩)
    (hr : key ∉ env.broker.refusedPartitions) {log : PartitionLog} (hl : env.broker.log? key = some log) :
    ∃ reader, env.openReader client key start = (.ok reader, env.count 1 0) ∧ reader.Open ∧
      reader.source.key = key := by
  let cursor : Cursor :=
    ⟨key, env.broker.startPosition key start, log.channel, (env.broker.channel log.channel).version⟩
  refine ⟨{ source := .log cursor }, ?_, ⟨⟨cursor, rfl⟩, rfl, rfl⟩, rfl⟩
  simp only [openReader, hc, Bool.false_eq_true, if_false, openBrokerReader, hr, Cursor.open?, Broker.watch, hl]
  rfl

/-- Partitions are opened up to the first that is refused, which closes all of them again. -/
theorem openEach_readers (topic : String) (start : StartOffset)
    (hc : env.directClients[client]? = some ⟨.broker, false⟩) (readers : List Reader)
    {partitions : List Int} (hl : ∀ p ∈ partitions, ∃ log, env.broker.log? (topic, p) = some log)
    (hr : ∀ reader ∈ readers, reader.Open) :
    match (partitions.map (topic, ·)).find? env.broker.refusedPartitions.contains with
    | some key => ∃ n, Consumer.openReaders.openEach client topic start env readers partitions =
        (.error (.broker ("failed to get partition consumer " ++ Broker.keyText key)),
          env.count n (readers.length + n))
    | none => ∃ more, Consumer.openReaders.openEach client topic start env readers partitions =
        (.ok (readers ++ more), env.count more.length 0) ∧ more.map (·.source.key) = partitions.map (topic, ·) ∧
        ∀ reader ∈ more, reader.Open := by
  induction partitions generalizing env readers with
  | nil => exact ⟨[], by simp [Consumer.openReaders.openEach, count_none], rfl, by simp⟩
  | cons p rest ih =>
    by_cases hp : (topic, p) ∈ env.broker.refusedPartitions
    · simp only [List.map_cons, List.find?_cons, List.contains_eq_mem, hp, decide_true]
      refine ⟨0, ?_⟩
      simp only [Consumer.openReaders.openEach, openReader_refused start hc hp]
      rw [closeEach_open hr, Nat.add_zero]
    · simp only [List.map_cons, List.find?_cons, List.contains_eq_mem (topic, p), hp, decide_false]
      obtain ⟨log, hlog⟩ := hl p List.mem_cons_self
      obtain ⟨reader, ho, hopen, hkey⟩ := openReader_allowed start hc hp hlog
      have hreaders : ∀ r ∈ readers ++ [reader], r.Open := by
        intro r hm
        rcases List.mem_append.mp hm with hm | hm
        · exact hr r hm
        · exact List.mem_singleton.mp hm ▸ hopen
      have hclient : (env.count 1 0).directClients[client]? = some ⟨.broker, false⟩ := hc
      have hrest := ih hclient (readers ++ [reader]) (fun q hq => hl q (List.mem_cons_of_mem _ hq)) hreaders
      have hrefused : (env.count 1 0).broker.refusedPartitions = env.broker.refusedPartitions := rfl
      rw [hrefused] at hrest
      simp only [Consumer.openReaders.openEach, ho]
      cases hfind : (rest.map (topic, ·)).find? env.broker.refusedPartitions.contains with
      | some key =>
        simp only [hfind] at hrest ⊢
        obtain ⟨n, he⟩ := hrest
        refine ⟨n + 1, ?_⟩
        rw [he, count_count, List.length_append, List.length_singleton]
        congr 2 <;> omega
      | none =>
        simp only [hfind] at hrest ⊢
        obtain ⟨more, he, hkeys, hmore⟩ := hrest
        refine ⟨reader :: more, ?_, by simp [hkey, hkeys], fun r hm => ?_⟩
        · rw [he, count_count, List.append_assoc, List.length_cons, Nat.add_comm 1]
          rfl
        · rcases List.mem_cons.mp hm with rfl | hm
          · exact hopen
          · exact hmore r hm

theorem openReaders_readers (topic : String) (start : StartOffset)
    (hc : env.directClients[client]? = some ⟨.broker, false⟩) :
    match env.broker.openFailure? topic with
    | some failure => ∃ n, Consumer.openReaders env client topic start = (.error failure, env.count n n)
    | none => ∃ readers, Consumer.openReaders env client topic start = (.ok readers, env.count readers.length 0) ∧
        readers.map (·.source.key) = env.broker.partitionKeys topic ∧ ∀ reader ∈ readers, reader.Open := by
  simp only [Consumer.openReaders, Environment.partitions, hc, Bool.false_eq_true, if_false, Broker.partitionCount,
    Broker.openFailure?, Broker.partitionKeys]
  cases hg : env.broker.topics.get? topic with
  | none => exact ⟨0, rfl⟩
  | some logs =>
    cases logs with
    | nil => exact ⟨0, rfl⟩
    | cons first rest =>
      have hkeys : ((List.range (first :: rest).length).map Int.ofNat).map (topic, ·) =
          (List.range (first :: rest).length).map fun p : Nat => (topic, (p : Int)) := by
        simp [Function.comp_def]
      have hlogs : ∀ p ∈ (List.range (first :: rest).length).map Int.ofNat,
          ∃ log, env.broker.log? (topic, p) = some log := by
        intro p hp
        obtain ⟨i, hi, rfl⟩ := List.mem_map.mp hp
        have hb := List.mem_range.mp hi
        exact ⟨(first :: rest)[i], by simp [Broker.log?, hg, List.getElem?_eq_getElem hb]⟩
      have heach := openEach_readers topic start hc [] hlogs (by simp)
      rw [hkeys] at heach
      obtain ⟨p, more, hp⟩ : ∃ p more, (List.range (first :: rest).length).map Int.ofNat = p :: more := by
        simp [List.range_succ_eq_map]
      dsimp only [Except.map]
      rw [hp] at heach ⊢
      cases hfind : ((List.range (first :: rest).length).map fun p : Nat => (topic, (p : Int))).find?
          env.broker.refusedPartitions.contains with
      | some key => simpa only [hfind, Option.map_some, List.length_nil, Nat.zero_add] using heach
      | none => simpa only [hfind, Option.map_none, List.nil_append] using heach

def connected (env : Environment) : Environment :=
  { env with directClients := env.directClients ++ [⟨.broker, false⟩] }

end Environment

theorem Consumer.start_direct_eq (w : World α) (config : Config α) (token : Token) :
    let fresh : Consumer α := { blueprint := .direct config, connector := .broker }
    start w fresh token =
      match w.env.openDirect .broker config.directClient with
      | (.error failure, env) => (.error failure, { w with env := env }, fresh)
      | (.ok client, env) =>
        match openReaders env client config.topic config.start with
        | (.error failure, env) => (.error failure, { w with env := closeClientLogging env client }, fresh)
        | (.ok readers, env) =>
          (.ok config.queueCapacity,
            { w with
              env := { env with tokens := (env.tokens.derive token).2 }
              directs := w.directs ++ [{
                decoder := config.decoder
                mode := config.decodeMode
                token := (env.tokens.derive token).1
                messages := { capacity := config.queueCapacity }
                errors := { capacity := config.queueCapacity }
                pumps := readers.map fun reader => { reader := reader } }] },
            { fresh with
              token := some (env.tokens.derive token).1
              client := some client
              streams := some (.direct w.directs.length) }) := rfl

/-- A consumer without a group starts with a reader for every partition, or leaves no reader open, in which case
it has closed its client if it had one. -/
theorem Consumer.start_direct_readers (w : World α) (config : Config α) (token : Token) :
    let fresh : Consumer α := { blueprint := .direct config, connector := .broker }
    match w.env.broker.startFailure? config.topic with
    | some failure => ∃ env, start w fresh token = (.error failure, { w with env := env }, fresh) ∧
        (env = w.env ∨ ∃ n, env = closeClientLogging (w.env.connected.count n n) w.env.directClients.length)
    | none => ∃ env run consumer, start w fresh token =
          (.ok config.queueCapacity, { w with env := env, directs := w.directs ++ [run] }, consumer) ∧
        consumer.streams = some (.direct w.directs.length) ∧ consumer.client = some w.env.directClients.length ∧
        env.tally = (w.env.connected.count run.pumps.length 0).tally ∧ env.gauge = w.env.gauge ∧ run.tasks = [] ∧
        run.pumps.map (·.key) = w.env.broker.partitionKeys config.topic ∧
        ∀ pump ∈ run.pumps, pump.reader.Open ∧ pump.phase = .asking .marking := by
  intro fresh
  have hstart := start_direct_eq w config token
  unfold Broker.startFailure?
  cases hr : w.env.broker.refusing with
  | true =>
    have hopen : w.env.openDirect .broker config.directClient = (.error (.broker "connection refused"), w.env) := by
      simp [openDirect, Broker.connect, hr]
    rw [hopen] at hstart
    exact ⟨w.env, hstart, .inl rfl⟩
  | false =>
    have hopen : w.env.openDirect .broker config.directClient = (.ok w.env.directClients.length, w.env.connected) := by
      simp [openDirect, Broker.connect, hr, connected]
    have hclient : w.env.connected.directClients[w.env.directClients.length]? = some ⟨.broker, false⟩ := by
      simp [connected]
    have hreaders := openReaders_readers config.topic config.start hclient
    have hbroker : w.env.connected.broker = w.env.broker := rfl
    rw [hopen] at hstart
    rw [hbroker] at hreaders
    simp only [Bool.false_eq_true, if_false]
    cases hf : w.env.broker.openFailure? config.topic with
    | some failure =>
      simp only [hf] at hreaders ⊢
      obtain ⟨n, he⟩ := hreaders
      simp only [he] at hstart
      exact ⟨_, hstart, .inr ⟨n, rfl⟩⟩
    | none =>
      simp only [hf] at hreaders ⊢
      obtain ⟨readers, he, hkeys, hopened⟩ := hreaders
      simp only [he] at hstart
      refine ⟨_, _, _, hstart, rfl, rfl, by simp; rfl, rfl, rfl, by simpa [Function.comp_def, Pump.key] using hkeys, ?_⟩
      intro pump hp
      obtain ⟨reader, hm, rfl⟩ := List.mem_map.mp hp
      exact ⟨hopened reader hm, rfl⟩

/-- A member of a group starts with a client of its own, or opens nothing. -/
theorem Consumer.start_grouped_client (w : World α) (group : String) (config : Config α) (token : Token) :
    let fresh : Consumer α := { blueprint := .grouped group config, connector := .broker }
    (∃ failure env own, start w fresh token = (.error failure, { w with env := env }, { fresh with token := some own }) ∧
        env.tally = w.env.tally) ∨
      ∃ env run own, start w fresh token = (.ok config.queueCapacity,
          { w with env := env, groups := w.groups ++ [run] },
          { fresh with token := some own, streams := some (.group w.groups.length) }) ∧
        env.tally = { w.env.tally with groups := w.env.tally.groups ++ [⟨true, false⟩] } ∧
        run.client = w.env.groupClients.length ∧ run.token = own := by
  intro fresh
  simp only [fresh, start, Option.isSome_none, Bool.false_eq_true, if_false, openGroup, Blueprint.config]
  cases w.env.broker.connectGroup (config.groupClient group) with
  | error failure => exact .inl ⟨failure, _, _, rfl, rfl⟩
  | ok joined =>
    refine .inr ⟨_, _, _, rfl, ?_, rfl, rfl⟩
    simp [tally, GroupClient.flags, GroupService.atBroker]

end TopicConsumer
