import TopicConsumer.Proofs.Starts

namespace TopicConsumer

open Environment

variable {α : Type}

def PumpPhase.pastClosing : PumpPhase α → Bool
  | .reporting _ _ => true
  | .done => true
  | _ => false

def PumpPhase.isDone : PumpPhase α → Bool
  | .done => true
  | _ => false

/-- A pump at the broker, whose reader is closed exactly when the pump is past that. -/
structure Pump.Tidy (pump : Pump α) : Prop where
  cursor : ∃ c, pump.reader.source = .log c
  script : pump.reader.script = none
  offset : ∀ record, pump.phase = .taken record → 0 ≤ record.offset ∧ record.offset ≤ maxOffset
  closed : pump.reader.closed = pump.phase.pastClosing

def World.pumps (w : World α) : List (Pump α) := w.directs.flatMap (·.pumps)

/-- Each reader at the broker belongs to a pump, or was opened by a start that failed and is closed. -/
structure World.ReadersCounted (w : World α) : Prop where
  tidy : ∀ pump ∈ w.pumps, pump.Tidy
  counts : ∃ returned, w.env.broker.openedReaders = w.pumps.length + returned ∧
    w.env.broker.closedReaders = w.pumps.countP (·.reader.closed) + returned

namespace DirectRun

variable {env after : Environment} {run next : DirectRun α} {pump later : Pump α}

theorem asked_tidy {broker : Broker} {source : Source} {found : Found} {stage : Stage} (hp : pump.Tidy)
    (hf : ∀ key, env.broker.highWaterMark key ≤ maxOffset) (hc : pump.reader.closed = false)
    (hs : pump.reader.source.step env.broker true stage = some (broker, source, found)) :
    Pump.Tidy ⟨{ pump.reader with source := source }, (found.phase : PumpPhase α)⟩ := by
  obtain ⟨c, hsource⟩ := hp.cursor
  rw [hsource] at hs
  obtain ⟨⟨_, d, _⟩, hs, he⟩ := Option.map_eq_some_iff.mp hs
  cases he
  refine ⟨⟨d, rfl⟩, hp.script, fun record hr => ?_, ?_⟩
  · cases Cursor.step_cases hs with
    | @found payload hpay =>
      cases hr
      have hbound := Broker.payload?_isSome_iff.mp ⟨payload, hpay⟩
      have hfits := hf c.key
      exact ⟨hbound.1, by simp only [recordAt]; omega⟩
    | _ => simp [Found.phase] at hr
  · rw [hc]
    cases found <;> rfl

/-- A step of a pump opens no reader, and closes the pump's own when the pump gets past that. -/
theorem PumpStep.tidy (h : PumpStep env run pump after next later) (hp : pump.Tidy)
    (hf : ∀ key, env.broker.highWaterMark key ≤ maxOffset) :
    later.Tidy ∧ after.broker.openedReaders = env.broker.openedReaders ∧
      after.broker.closedReaders + pump.reader.closed.toNat =
        env.broker.closedReaders + later.reader.closed.toNat := by
  have hclosed := hp.closed
  have hopen (hphase : pump.phase.pastClosing = false) : pump.reader.Open :=
    ⟨hp.cursor, hp.script, hclosed.trans hphase⟩
  cases h with
  | shut hphase hshut => simp [hphase, hshut, PumpPhase.pastClosing] at hclosed
  | asked hphase hc hs =>
    have ht := Source.step_tally hs
    have hopened := congrArg Tally.openedReaders ht
    have hdone := congrArg Tally.closedReaders ht
    simp only [tally] at hopened hdone
    exact ⟨asked_tidy hp hf hc hs, hopened, by rw [hdone]⟩
  | measured hphase hm =>
    have hbroker : after.broker = env.broker := measure_broker hm
    refine ⟨⟨hp.cursor, hp.script, by simp, ?_⟩, by rw [hbroker], by rw [hbroker]⟩
    simpa [hphase, PumpPhase.pastClosing] using hclosed
  | crashed hphase hm =>
    obtain ⟨c, hsource⟩ := hp.cursor
    obtain ⟨h0, hmax⟩ := hp.offset _ hphase
    obtain ⟨after, hok⟩ := measure_fits "" h0 hmax (hf c.key)
    rw [hsource, hok] at hm
    simp at hm
  | closed hphase =>
    rw [closeReaderLogging_open (hopen (by simp [hphase, PumpPhase.pastClosing]))]
    have hwas : pump.reader.closed = false := hclosed.trans (by simp [hphase, PumpPhase.pastClosing])
    exact ⟨⟨hp.cursor, hp.script, by simp, rfl⟩, rfl, by simp [hwas, Environment.count, withBroker]⟩
  | failed hphase =>
    rw [closeReaderLogging_open (hopen (by simp [hphase, PumpPhase.pastClosing]))]
    have hwas : pump.reader.closed = false := hclosed.trans (by simp [hphase, PumpPhase.pastClosing])
    exact ⟨⟨hp.cursor, hp.script, by simp, rfl⟩, rfl, by simp [hwas, Environment.count, withBroker]⟩
  | stopped hphase | spawned hphase | decoded hphase | dropped hphase | delivered hphase | unreported hphase
  | reported hphase =>
    refine ⟨⟨hp.cursor, hp.script, by simp, ?_⟩, rfl, rfl⟩
    simpa [hphase, PumpPhase.pastClosing] using hclosed

end DirectRun

namespace World

variable {w v : World α}

theorem pumps_of_map (h : v.directs.map (·.pumps) = w.directs.map (·.pumps)) : v.pumps = w.pumps := by
  simp only [pumps, List.flatMap_def, h]

theorem pumps_set {i j : Nat} {run next : DirectRun α} {pump later : Pump α} (hr : w.directs[i]? = some run)
    (hp : run.pumps[j]? = some pump) (hn : next.pumps = run.pumps.set j later)
    (hv : v.directs = w.directs.set i next) :
    v.pumps.length = w.pumps.length ∧
      v.pumps.countP (·.reader.closed) + pump.reader.closed.toNat =
        w.pumps.countP (·.reader.closed) + later.reader.closed.toNat ∧
      ∀ other ∈ v.pumps, other ∈ w.pumps ∨ other = later := by
  have hperm : (v.pumps ++ run.pumps).Perm (w.pumps ++ next.pumps) := by
    rw [pumps, hv]
    exact flatMap_set_perm hr next (·.pumps)
  have hset : (run.pumps.set j later ++ [pump]).Perm (run.pumps ++ [later]) := by
    simpa [List.flatMap_singleton'] using flatMap_set_perm hp later fun p => [p]
  have hlength := hperm.length_eq
  have hcount := hperm.countP_eq (·.reader.closed)
  have hone := hset.countP_eq (·.reader.closed)
  have hnat : ∀ closed : Bool, (if closed = true then 1 else 0) = closed.toNat := by decide
  simp only [List.length_append, List.countP_append, hn, List.length_set, List.countP_singleton, hnat] at *
  refine ⟨by omega, by omega, fun other ho => ?_⟩
  rcases List.mem_append.mp (hperm.subset (List.mem_append_left _ ho)) with ho | ho
  · exact .inl ho
  · rcases List.mem_or_eq_of_mem_set ho with ho | ho
    · exact .inl (List.mem_flatMap.mpr ⟨run, List.mem_of_getElem? hr, ho⟩)
    · exact .inr ho

end World

namespace Chronicle

variable {c d : Chronicle α}

theorem readersCounted_of_returned (h : c.world.ReadersCounted) {n : Nat} (hp : d.world.pumps = c.world.pumps)
    (ho : d.world.env.broker.openedReaders = c.world.env.broker.openedReaders + n)
    (hc : d.world.env.broker.closedReaders = c.world.env.broker.closedReaders + n) : d.world.ReadersCounted := by
  obtain ⟨returned, hopened, hclosed⟩ := h.counts
  refine ⟨hp ▸ h.tidy, returned + n, ?_, ?_⟩
  · rw [hp, ho, hopened, Nat.add_assoc]
  · rw [hp, hc, hclosed, Nat.add_assoc]

theorem readersCounted_of_opened (h : c.world.ReadersCounted) {more : List (Pump α)}
    (hp : d.world.pumps = c.world.pumps ++ more)
    (ho : d.world.env.broker.openedReaders = c.world.env.broker.openedReaders + more.length)
    (hc : d.world.env.broker.closedReaders = c.world.env.broker.closedReaders)
    (hm : ∀ pump ∈ more, pump.reader.Open ∧ pump.phase = .asking .marking) : d.world.ReadersCounted := by
  obtain ⟨returned, hopened, hclosed⟩ := h.counts
  have hnone : more.countP (·.reader.closed) = 0 :=
    List.countP_eq_zero.mpr fun pump hpump => by simp [(hm pump hpump).1.closed]
  refine ⟨fun pump hpump => ?_, returned, ?_, ?_⟩
  · rw [hp] at hpump
    rcases List.mem_append.mp hpump with hpump | hpump
    · exact h.tidy pump hpump
    · obtain ⟨hopen, hphase⟩ := hm pump hpump
      exact ⟨hopen.cursor, hopen.script, by simp [hphase], by simp [hopen.closed, hphase, PumpPhase.pastClosing]⟩
  · rw [ho, hopened, hp, List.length_append]
    omega
  · rw [hc, hclosed, hp, List.countP_append, hnone, Nat.add_zero]

theorem start_readersCounted (h : c.world.ReadersCounted) (blueprint : Blueprint α) (token : Token)
    (hd : d.world = (Consumer.start c.world { blueprint := blueprint, connector := .broker } token).2.1) :
    d.world.ReadersCounted := by
  cases blueprint with
  | grouped group config =>
    obtain ⟨_, env, _, hs, ht⟩ | ⟨env, _, _, hs, ht, _⟩ := Consumer.start_grouped_client c.world group config token
    all_goals
      rw [hs] at hd
      refine readersCounted_of_returned h (n := 0) (by rw [hd]; rfl) ?_ ?_
      · rw [hd]
        exact congrArg Tally.openedReaders ht
      · rw [hd]
        exact congrArg Tally.closedReaders ht
  | direct config =>
    have hs := Consumer.start_direct_readers c.world config token
    dsimp only at hs
    split at hs
    next =>
      obtain ⟨env, hs, rfl | ⟨n, rfl⟩⟩ := hs
      · rw [hs] at hd
        exact readersCounted_of_returned h (n := 0) (by rw [hd]) (by rw [hd, Nat.add_zero]) (by rw [hd, Nat.add_zero])
      · rw [hs] at hd
        have ht := closeClientLogging_tally (c.world.env.connected.count n n) c.world.env.directClients.length
        refine readersCounted_of_returned h (n := n) (by rw [hd]; rfl) ?_ ?_
        · rw [hd]
          exact congrArg Tally.openedReaders ht
        · rw [hd]
          exact congrArg Tally.closedReaders ht
    next =>
      obtain ⟨env, run, _, hs, _, _, ht, _, _, _, hpumps⟩ := hs
      rw [hs] at hd
      refine readersCounted_of_opened h (by rw [hd]; simp [World.pumps]) ?_ ?_ hpumps
      · rw [hd]
        exact congrArg Tally.openedReaders ht
      · rw [hd]
        exact congrArg Tally.closedReaders ht

theorem Tallied.readersCounted {a : Act α} (ht : Tallied c a d) (h : c.world.ReadersCounted)
    (hf : ∀ key, c.world.env.broker.highWaterMark key ≤ maxOffset) : d.world.ReadersCounted := by
  cases ht with
  | aside ht _ hp =>
    exact readersCounted_of_returned h (n := 0) (World.pumps_of_map hp) (congrArg Tally.openedReaders ht)
      (congrArg Tally.closedReaders ht)
  | closed _ ht hd | closedDirect ht hd =>
    exact readersCounted_of_returned h (n := 0) (by rw [World.pumps, hd]; rfl) (congrArg Tally.openedReaders ht)
      (congrArg Tally.closedReaders ht)
  | @pumped _ _ i j run handled pump later hr hp hs hd =>
    have hpump : pump ∈ c.world.pumps :=
      List.mem_flatMap.mpr ⟨run, List.mem_of_getElem? hr, List.mem_of_getElem? hp⟩
    obtain ⟨htidy, hopened, hclosed⟩ := hs.tidy (h.tidy pump hpump) hf
    obtain ⟨hlength, hcount, hmem⟩ := World.pumps_set hr hp (by rw [hs.pumps]) hd
    obtain ⟨returned, ho, hc⟩ := h.counts
    refine ⟨fun other hm => ?_, returned, by omega, by omega⟩
    rcases hmem other hm with hm | rfl
    · exact h.tidy other hm
    · exact htidy
  | started hd => exact start_readersCounted h _ _ hd

/-- At no moment of a history is a log longer than offsets can tell, as no list in memory is. -/
def Fitting (acts : List (Act α)) : Prop :=
  ∀ past later d, acts = past ++ later → Chronicle.run {} past = some d →
    ∀ key, d.world.env.broker.highWaterMark key ≤ maxOffset

theorem readersCounted_of_run {acts : List (Act α)} (h : Chronicle.run {} acts = some c) (hf : Fitting acts) :
    c.world.ReadersCounted := by
  induction h using run_induction with
  | start => exact ⟨by simp [World.pumps], 0, rfl, rfl⟩
  | @act acts before a c hb ha _ ih =>
    have hbefore : before.world.ReadersCounted :=
      ih fun past later d he => hf past (later ++ [a]) d (by rw [he, List.append_assoc])
    have ht : Tallied before a c := act?_tallied (bounded_of_run hb).collects ha
    exact ht.readersCounted hbefore (hf acts [a] before rfl hb)

theorem start_mark (w : World α) (blueprint : Blueprint α) (token : Token) :
    (Consumer.start w { blueprint := blueprint, connector := .broker } token).2.1.env.broker.highWaterMark =
      w.env.broker.highWaterMark := by
  cases blueprint with
  | grouped group config =>
    obtain ⟨_, _, _, hs, ht⟩ | ⟨_, _, _, hs, ht, _⟩ := Consumer.start_grouped_client w group config token
    all_goals
      rw [hs]
      exact congrArg Tally.marks ht
  | direct config =>
    have hs := Consumer.start_direct_readers w config token
    dsimp only at hs
    split at hs
    next =>
      obtain ⟨_, hs, rfl | ⟨n, rfl⟩⟩ := hs
      · rw [hs]
      · rw [hs]
        exact congrArg Tally.marks (closeClientLogging_tally (w.env.connected.count n n) w.env.directClients.length)
    next =>
      obtain ⟨_, _, _, hs, _, _, ht, _⟩ := hs
      rw [hs]
      exact congrArg Tally.marks ht

/-- An act makes no log longer than by one record. -/
theorem Tallied.mark_le {a : Act α} (ht : Tallied c a d) (key : PartitionKey) :
    d.world.env.broker.highWaterMark key ≤ c.world.env.broker.highWaterMark key + 1 := by
  have hsame (h : d.world.env.broker.highWaterMark = c.world.env.broker.highWaterMark) :
      d.world.env.broker.highWaterMark key ≤ c.world.env.broker.highWaterMark key + 1 := by
    rw [h]
    omega
  cases ht with
  | aside _ hm => exact hm key
  | closed _ ht | closedDirect ht => exact hsame (congrArg Tally.marks ht)
  | started hd => exact hsame (hd ▸ start_mark c.world _ _)
  | pumped _ _ hs =>
    obtain ⟨ht, _⟩ | ⟨_, _, hf⟩ := hs.broker_cases
    · refine hsame (funext fun other => ?_)
      rw [Broker.highWaterMark, Broker.log?_congr ht, Broker.highWaterMark]
    · exact hsame (Broker.takeFailure_marks hf)

theorem highWaterMark_le_length {acts : List (Act α)} (h : Chronicle.run {} acts = some c) (key : PartitionKey) :
    c.world.env.broker.highWaterMark key ≤ acts.length := by
  induction h using run_induction with
  | start => simp [Broker.highWaterMark, Broker.log?, Table.get?]
  | act hb ha _ ih =>
    have hmark := (act?_tallied (bounded_of_run hb).collects ha).mark_le key
    simp only [List.length_append, List.length_singleton]
    omega

theorem fitting_of_length {acts : List (Act α)} (h : (acts.length : Int) ≤ maxOffset) : Fitting acts := by
  intro past later d he hd key
  have hmark := highWaterMark_le_length hd key
  have hlength : past.length ≤ acts.length := by simp [he]
  omega

end Chronicle

namespace World

/-- The readers at the broker are each counted once as opened and, when they are closed, once as closed. A pump
has closed its own as soon as it is past that. -/
structure ReadersOnce (w : World α) : Prop where
  counts : ∃ returned, w.env.broker.openedReaders = w.pumps.length + returned ∧
    w.env.broker.closedReaders = w.pumps.countP (·.reader.closed) + returned
  bounded : w.env.broker.closedReaders ≤ w.env.broker.openedReaders
  closed : ∀ pump ∈ w.pumps, pump.reader.closed = true ↔
    pump.phase = .done ∨ ∃ failure ticket, pump.phase = .reporting failure ticket
  balanced : (∀ pump ∈ w.pumps, pump.phase = .done) → w.env.broker.closedReaders = w.env.broker.openedReaders

/-- A consumer without a group starts with one open reader for every partition of its topic, or fails, starts no
pump and has closed every reader that it opened. Why it fails does not depend on how its client closes. -/
structure OpensAllOrNone (w : World α) (config : Config α) (token : Token) : Prop where
  failed : ∀ failure, w.env.broker.startFailure? config.topic = some failure → ∃ after consumer n,
    Consumer.start w { blueprint := .direct config, connector := .broker } token = (.error failure, after, consumer) ∧
      after.directs = w.directs ∧
      after.env.broker.openedReaders = w.env.broker.openedReaders + n ∧
      after.env.broker.closedReaders = w.env.broker.closedReaders + n
  opened : w.env.broker.startFailure? config.topic = none → ∃ after consumer run,
    Consumer.start w { blueprint := .direct config, connector := .broker } token =
        (.ok config.queueCapacity, after, consumer) ∧
      after.directs = w.directs ++ [run] ∧
      run.pumps.map (·.key) = w.env.broker.partitionKeys config.topic ∧
      (∀ pump ∈ run.pumps, pump.reader.closed = false ∧ pump.phase = .asking .marking) ∧
      after.env.broker.openedReaders = w.env.broker.openedReaders + run.pumps.length ∧
      after.env.broker.closedReaders = w.env.broker.closedReaders

variable {w : World α}

theorem ReadersCounted.once (h : w.ReadersCounted) : w.ReadersOnce := by
  obtain ⟨returned, ho, hc⟩ := h.counts
  have hphase : ∀ pump ∈ w.pumps, pump.reader.closed = true ↔
      pump.phase = .done ∨ ∃ failure ticket, pump.phase = .reporting failure ticket := by
    intro pump hp
    rw [(h.tidy pump hp).closed]
    cases pump.phase <;> simp [PumpPhase.pastClosing]
  have hcount : w.pumps.countP (·.reader.closed) ≤ w.pumps.length := List.countP_le_length
  refine ⟨⟨returned, ho, hc⟩, by omega, hphase, fun hdone => ?_⟩
  have hall : w.pumps.countP (·.reader.closed) = w.pumps.length :=
    List.countP_eq_length.mpr fun pump hp => (hphase pump hp).mpr (.inl (hdone pump hp))
  omega

theorem opensAllOrNone (w : World α) (config : Config α) (token : Token) : w.OpensAllOrNone config token := by
  have hs := Consumer.start_direct_readers w config token
  dsimp only at hs
  constructor
  · intro failure hf
    rw [hf] at hs
    obtain ⟨env, hs, rfl | ⟨n, rfl⟩⟩ := hs
    · exact ⟨_, _, 0, hs, rfl, rfl, rfl⟩
    · have ht := closeClientLogging_tally (w.env.connected.count n n) w.env.directClients.length
      exact ⟨_, _, n, hs, rfl, congrArg Tally.openedReaders ht, congrArg Tally.closedReaders ht⟩
  · intro hf
    rw [hf] at hs
    obtain ⟨env, run, consumer, hs, _, _, ht, _, _, hkeys, hpumps⟩ := hs
    refine ⟨_, consumer, run, hs, rfl, hkeys, fun pump hp => ?_, congrArg Tally.openedReaders ht,
      congrArg Tally.closedReaders ht⟩
    exact ⟨(hpumps pump hp).1.closed, (hpumps pump hp).2⟩

end World

/-- Whatever happens in a world, no reader at the broker is closed twice, and none is left open by a pump that
has ended or by a start that has failed. -/
theorem readers_closed_once {acts : List (Act α)} {c : Chronicle α} (h : Chronicle.run {} acts = some c)
    (hf : Chronicle.Fitting acts) :
    c.world.ReadersOnce ∧ ∀ config token, c.world.OpensAllOrNone config token :=
  ⟨(Chronicle.readersCounted_of_run h hf).once, fun config token => World.opensAllOrNone c.world config token⟩

def endedPumpsActs : List (Act Nat) :=
  let pump (i : Nat) : Act Nat := .move ⟨.pump 0 i, false⟩
  [.outside (.createTopic "orders" 2), .outside (.deriveToken []), .start (.direct billing) [0],
    .outside (.refusePartition ("orders", 1)), .start (.direct billing) [0], pump 1, pump 1, pump 1,
    .outside (.replaceTopic "orders" 1), pump 1, pump 1, .outside (.cancel [0]), .move ⟨.pump 0 0, true⟩, pump 0]

theorem ended_pumps_closed : ∃ c, Chronicle.run {} endedPumpsActs = some c ∧ c.world.ReadersOnce ∧
    c.world.pumps.length = 2 ∧ (∀ pump ∈ c.world.pumps, pump.phase = .done) ∧
    c.world.env.broker.openedReaders = 3 ∧ c.world.env.broker.closedReaders = 3 := by
  have hstate : (Chronicle.run {} endedPumpsActs).map (fun c =>
      (c.world.env.broker.openedReaders, c.world.pumps.map (·.phase.isDone))) = some (3, [true, true]) := by rfl
  obtain ⟨c, hc, he⟩ := Option.map_eq_some_iff.mp hstate
  obtain ⟨hopened, hphases⟩ := Prod.mk.inj he
  have hf : Chronicle.Fitting endedPumpsActs := Chronicle.fitting_of_length (by decide)
  obtain ⟨honce, _⟩ := readers_closed_once hc hf
  have hdone : ∀ pump ∈ c.world.pumps, pump.phase = .done := by
    intro pump hp
    have hm : pump.phase.isDone ∈ c.world.pumps.map (·.phase.isDone) := List.mem_map_of_mem hp
    rw [hphases] at hm
    cases hphase : pump.phase <;> simp [hphase, PumpPhase.isDone] at hm ⊢
  have hlength := congrArg List.length hphases
  exact ⟨c, hc, honce, by simpa using hlength, hdone, hopened, (honce.balanced hdone).trans hopened⟩

end TopicConsumer
