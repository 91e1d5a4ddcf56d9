import TopicConsumer.DirectRun
import TopicConsumer.Proofs.GroupSteps

namespace TopicConsumer

def recordAt (key : PartitionKey) (offset : Int) (payload : Bytes) : Record where
  topic := key.1
  partition := key.2
  offset := offset
  payload := some payload

inductive Cursor.Step (b : Broker) (c : Cursor) (checks : Bool) : Stage → Broker → Cursor → Found → Prop where
  | marked : Step b c checks .marking b { c with seen := (b.channel c.channel).version }
      (.going (if checks then .checking else .looking))
  | failed {reason after} : b.takeFailure c.key = some (reason, after) →
      Step b c checks .checking after c (.failed (.broker reason))
  | sound : b.takeFailure c.key = none → Step b c checks .checking b c (.going .looking)
  | found {payload} : b.payload? c.key c.position = some payload →
      Step b c checks .looking b { c with position := c.position + 1 } (.record (recordAt c.key c.position payload))
  | missed : b.payload? c.key c.position = none → Step b c checks .looking b c (.going .parked)
  | woken : (b.channel c.channel).version ≠ c.seen →
      Step b c checks .parked b { c with seen := (b.channel c.channel).version } (.going .marking)
  | ended : (b.channel c.channel).version = c.seen → (b.channel c.channel).live = false →
      Step b c checks .parked b c .ended

theorem Cursor.step_cases {b after : Broker} {c d : Cursor} {checks : Bool} {stage : Stage} {found : Found}
    (h : c.step b checks stage = some (after, d, found)) : c.Step b checks stage after d found := by
  cases stage with
  | marking =>
    cases h
    exact .marked
  | checking =>
    simp only [Cursor.step] at h
    split at h
    next hf =>
      cases h
      exact .failed hf
    next hf =>
      cases h
      exact .sound hf
  | looking =>
    simp only [Cursor.step] at h
    split at h
    next hp =>
      cases h
      exact .found hp
    next hp =>
      cases h
      exact .missed hp
  | parked =>
    simp only [Cursor.step] at h
    split at h
    next hv =>
      cases h
      exact .woken hv
    next hv =>
      split at h
      next => simp at h
      next hl =>
        cases h
        exact .ended (Decidable.of_not_not hv) (by simpa using hl)

def Found.phase {α : Type} : Found → PumpPhase α
  | .going stage => .asking stage
  | .record r => .taken r
  | .failed failure => .closing (some failure)
  | .ended => .closing none

namespace DirectRun

variable {α : Type} {env after : Environment} {run next : DirectRun α}

inductive PumpStep (env : Environment) (run : DirectRun α) (pump : Pump α) :
    Environment → DirectRun α → Pump α → Prop where
  | stopped {stage} : pump.phase = .asking stage → env.cancelled run.token = true →
      PumpStep env run pump env run { pump with phase := .closing none }
  | shut {stage} : pump.phase = .asking stage → pump.reader.closed = true →
      PumpStep env run pump env run { pump with phase := .closing none }
  | asked {stage broker source found} : pump.phase = .asking stage → pump.reader.closed = false →
      pump.reader.source.step env.broker true stage = some (broker, source, found) →
      PumpStep env run pump { env with broker := broker } run ⟨{ pump.reader with source := source }, found.phase⟩
  | measured {record after} : pump.phase = .taken record →
      env.measure "" pump.reader.source record = .ok after →
      PumpStep env run pump after run { pump with phase := .measured record }
  | crashed {record overflow} : pump.phase = .taken record →
      env.measure "" pump.reader.source record = .error overflow →
      PumpStep env run pump env run { pump with phase := .done }
  | spawned {record} : pump.phase = .measured record → run.mode = .concurrent →
      PumpStep env run pump env { run with tasks := run.tasks ++ [.decoding record] }
        { pump with phase := .asking .marking }
  | decoded {record} : pump.phase = .measured record → run.mode = .ordered →
      PumpStep env run pump env { run with tickets := run.tickets + 1 }
        { pump with phase := .sending (run.outcome record) run.tickets }
  | dropped {outcome ticket} : pump.phase = .sending outcome ticket → env.cancelled run.token = true →
      PumpStep env run pump env run { pump with phase := .asking .marking }
  | delivered {outcome ticket next} : pump.phase = .sending outcome ticket → run.deliver outcome = some next →
      PumpStep env run pump env next { pump with phase := .asking .marking }
  | closed : pump.phase = .closing none →
      PumpStep env run pump (env.closeReaderLogging pump.reader).2 run
        ⟨(env.closeReaderLogging pump.reader).1, .done⟩
  | failed {failure} : pump.phase = .closing (some failure) →
      PumpStep env run pump (env.closeReaderLogging pump.reader).2 { run with tickets := run.tickets + 1 }
        ⟨(env.closeReaderLogging pump.reader).1, .reporting failure run.tickets⟩
  | unreported {failure ticket} : pump.phase = .reporting failure ticket → env.cancelled run.token = true →
      PumpStep env run pump env run { pump with phase := .done }
  | reported {failure ticket next} : pump.phase = .reporting failure ticket →
      run.deliver (.failure failure) = some next → PumpStep env run pump env next { pump with phase := .done }

theorem stepAsking_cases {pump later : Pump α} {stage : Stage} (run : DirectRun α)
    (hp : pump.phase = .asking stage) (h : stepAsking env pump stage = some (after, later)) :
    PumpStep env run pump after run later := by
  unfold stepAsking at h
  split at h
  next hc =>
    cases h
    exact .shut hp hc
  next hc =>
    obtain ⟨⟨broker, source, found⟩, hs, he⟩ := Option.map_eq_some_iff.mp h
    cases he
    have ha : PumpStep env run pump _ _ _ := .asked hp (by simpa using hc) hs
    cases found <;> exact ha

theorem stepPumpAlone_cases {pump later : Pump α} {stop : Bool}
    (h : run.stepPumpAlone env pump stop = some (after, next, later)) : PumpStep env run pump after next later := by
  unfold stepPumpAlone at h
  split at h
  next hp =>
    split at h
    next hc =>
      cases h
      exact .stopped hp hc
    next => simp at h
  next hp =>
    obtain ⟨⟨_, _⟩, ha, he⟩ := Option.map_eq_some_iff.mp h
    cases he
    exact stepAsking_cases run hp ha
  next hp =>
    split at h
    next hm =>
      cases h
      exact .measured hp hm
    next hm =>
      cases h
      exact .crashed hp hm
  next hp =>
    split at h
    next hm =>
      cases h
      exact .spawned hp hm
    next hm =>
      cases h
      exact .decoded hp hm
  next hp =>
    split at h
    next hc =>
      cases h
      exact .dropped hp hc
    next => simp at h
  next hp =>
    obtain ⟨_, hd, he⟩ := Option.map_eq_some_iff.mp h
    cases he
    exact .delivered hp hd
  next hp =>
    dsimp only at h
    split at h
    next =>
      cases h
      exact .failed hp
    next =>
      cases h
      exact .closed hp
  next hp =>
    split at h
    next hc =>
      cases h
      exact .unreported hp hc
    next => simp at h
  next hp =>
    obtain ⟨_, hd, he⟩ := Option.map_eq_some_iff.mp h
    cases he
    exact .reported hp hd
  next => simp at h

theorem stepPump_cases {i : Nat} {stop : Bool} (h : run.stepPump env i stop = some (after, next)) :
    ∃ pump handled later, run.pumps[i]? = some pump ∧ PumpStep env run pump after handled later ∧
      next = { handled with pumps := handled.pumps.set i later } := by
  unfold stepPump at h
  split at h
  next => simp at h
  next pump hp =>
    split at h
    next => simp at h
    next hs =>
      cases h
      exact ⟨pump, _, _, hp, stepPumpAlone_cases hs, rfl⟩

inductive TaskStep (env : Environment) (run : DirectRun α) (task : DecodeTask α) :
    DirectRun α → DecodeTask α → Prop where
  | decoded {record} : task = .decoding record →
      TaskStep env run task { run with tickets := run.tickets + 1 } (.sending (run.outcome record) run.tickets)
  | dropped {outcome ticket} : task = .sending outcome ticket → env.cancelled run.token = true →
      TaskStep env run task run .done
  | delivered {outcome ticket next} : task = .sending outcome ticket → run.deliver outcome = some next →
      TaskStep env run task next .done

theorem stepTask_cases {i : Nat} {stop : Bool} (h : run.stepTask env i stop = some next) :
    ∃ task handled later, run.tasks[i]? = some task ∧ TaskStep env run task handled later ∧
      next = { handled with tasks := handled.tasks.set i later } := by
  unfold stepTask at h
  split at h
  next record ht =>
    cases h
    exact ⟨_, _, _, ht, .decoded rfl, rfl⟩
  next outcome ticket ht =>
    split at h
    next hc =>
      cases h
      exact ⟨_, _, _, ht, .dropped rfl hc, rfl⟩
    next => simp at h
  next outcome ticket ht =>
    obtain ⟨_, hd, he⟩ := Option.map_eq_some_iff.mp h
    cases he
    exact ⟨_, _, _, ht, .delivered rfl hd, rfl⟩
  next => simp at h

/-- What becomes of an outcome: it is queued, or lost because the receiver of its queue was dropped. -/
inductive Delivery (run : DirectRun α) : Outcome α → DirectRun α → Prop where
  | message {message messages} : run.messages.offer message = .queued messages →
      Delivery run (.message message) { run with messages := messages }
  | failure {failure errors} : run.errors.offer failure = .queued errors →
      Delivery run (.failure failure) { run with errors := errors }
  | lost {outcome} : run.messages.held = false ∨ run.errors.held = false → Delivery run outcome run

theorem deliver_cases {outcome : Outcome α} (h : run.deliver outcome = some next) :
    Delivery run outcome next := by
  cases outcome with
  | message message =>
    simp only [deliver] at h
    split at h
    next ho =>
      cases h
      exact .message ho
    next ho =>
      cases h
      exact .lost (.inl (Queue.offer_refused ho))
    next => simp at h
  | failure failure =>
    simp only [deliver] at h
    split at h
    next ho =>
      cases h
      exact .failure ho
    next ho =>
      cases h
      exact .lost (.inr (Queue.offer_refused ho))
    next => simp at h

end DirectRun

end TopicConsumer
