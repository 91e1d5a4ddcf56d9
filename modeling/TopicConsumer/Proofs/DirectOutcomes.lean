import Mathlib.Data.List.Nodup
import TopicConsumer.Proofs.DirectStart
import TopicConsumer.Proofs.SessionNotes

namespace TopicConsumer

open Environment

variable {α : Type}

def Outcome.place : Outcome α → Option (PartitionKey × Int)
  | .message m => some (m.place, m.offset)
  | .failure (.decode topic partition offset _) => some ((topic, partition), offset)
  | .failure _ => none

theorem Record.outcome_place (decoder : Decoder α) (record : Record) :
    (record.outcome decoder).place = some ((record.topic, record.partition), record.offset) := by
  unfold Record.outcome Record.decode
  cases decoder record.bytes <;> rfl

theorem outcomeAt_place (decoder : Decoder α) (key : PartitionKey) (offset : Int) (payload : Bytes) :
    (outcomeAt decoder key offset payload).place = some (key, offset) := Record.outcome_place decoder _

/-- Of two outcomes of records of one partition, the first is of the earlier record. -/
def Outcome.Before (outcome other : Outcome α) : Prop :=
  ∀ key offset last, outcome.place = some (key, offset) → other.place = some (key, last) → offset < last

def recorded (outcomes : List (Outcome α)) : List (Outcome α) := outcomes.filter (·.place.isSome)

@[simp]
theorem recorded_append (outcomes more : List (Outcome α)) :
    recorded (outcomes ++ more) = recorded outcomes ++ recorded more := List.filter_append ..

namespace Broker

variable {b after : Broker} {decoder : Decoder α} {key : PartitionKey} {first last : Int}

/-- What decoding the records of a partition gives, from one offset to another. -/
def outcomes (b : Broker) (decoder : Decoder α) (key : PartitionKey) (first last : Int) : List (Outcome α) :=
  (consecutive first (last - first).toNat).filterMap fun offset =>
    (b.payload? key offset).map (outcomeAt decoder key offset)

theorem outcomes_self (b : Broker) (decoder : Decoder α) (key : PartitionKey) (first : Int) :
    b.outcomes decoder key first first = [] := by
  simp [outcomes, consecutive]

theorem outcomes_succ (hl : first ≤ last) {payload : Bytes} (hp : b.payload? key last = some payload) :
    b.outcomes decoder key first (last + 1) =
      b.outcomes decoder key first last ++ [outcomeAt decoder key last payload] := by
  have hk : (last + 1 - first).toNat = (last - first).toNat + 1 := by omega
  have hlast : first + ((last - first).toNat : Int) = last := by omega
  rw [outcomes, hk, ← consecutive_concat, List.filterMap_append, hlast]
  simp [hp, outcomes]

theorem outcomes_congr (h : ∀ offset, first ≤ offset → offset < last →
    after.payload? key offset = b.payload? key offset) :
    after.outcomes decoder key first last = b.outcomes decoder key first last := by
  refine List.filterMap_congr fun offset hm => ?_
  obtain ⟨hlow, hhigh⟩ := mem_consecutive.mp hm
  rw [h offset hlow (by omega)]

theorem mem_outcomes {outcome : Outcome α} :
    outcome ∈ b.outcomes decoder key first last ↔ ∃ offset payload, first ≤ offset ∧ offset < last ∧
      b.payload? key offset = some payload ∧ outcome = outcomeAt decoder key offset payload := by
  simp only [outcomes, List.mem_filterMap, mem_consecutive, Option.map_eq_some_iff]
  constructor
  · rintro ⟨offset, ⟨hlow, hhigh⟩, payload, hp, rfl⟩
    exact ⟨offset, payload, hlow, by omega, hp, rfl⟩
  · rintro ⟨offset, payload, hlow, hhigh, hp, rfl⟩
    exact ⟨offset, ⟨hlow, by omega⟩, payload, hp, rfl⟩

theorem outcomes_nodup : ((b.outcomes decoder key first last).map Outcome.place).Nodup := by
  have hplaces : (b.outcomes decoder key first last).map Outcome.place =
      (consecutive first (last - first).toNat).filterMap fun offset =>
        (b.payload? key offset).map fun _ => some (key, offset) := by
    simp [outcomes, List.map_filterMap, Function.comp_def, outcomeAt_place]
  rw [hplaces]
  refine List.Nodup.filterMap (fun offset other place ho ho' => ?_) (List.nodup_range.map fun m n he => ?_)
  · obtain ⟨_, _, rfl⟩ := Option.map_eq_some_iff.mp ho
    obtain ⟨_, _, he⟩ := Option.map_eq_some_iff.mp ho'
    simpa using he.symm
  · omega

theorem outcomes_appended {log later : PartitionLog} (ha : Appended b after key log later)
    (hl : b.log? key = some log) (hf : 0 ≤ first) (hlast : last ≤ log.records.length) :
    after.outcomes decoder key first last = b.outcomes decoder key first last := by
  refine outcomes_congr fun offset hlow hhigh => ?_
  have hb : offset.toNat < log.records.length := by omega
  have hp : b.payload? key offset = some log.records[offset.toNat] :=
    payload?_eq_some.mpr ⟨by omega, log, hl, List.getElem?_eq_getElem hb⟩
  rw [hp, ha.payload? hl hp]

/-- No log of a topic is longer than offsets can tell, as no list in memory is. -/
def Fits (b : Broker) (topic : String) : Prop :=
  ∀ key : PartitionKey, key.1 = topic → b.highWaterMark key ≤ maxOffset

end Broker

def DecodeTask.hand (decoder : Decoder α) : DecodeTask α → List (Outcome α)
  | .decoding record => [record.outcome decoder]
  | .sending outcome _ => [outcome]
  | .done => []

/-- Changing one entry of a list trades what it gives for what the new one gives. -/
theorem flatMap_set_perm {β γ : Type} {xs : List β} {i : Nat} {x : β} (hi : xs[i]? = some x) (y : β)
    (f : β → List γ) : ((xs.set i y).flatMap f ++ f x).Perm (xs.flatMap f ++ f y) := by
  obtain ⟨hb, rfl⟩ := List.getElem?_eq_some_iff.mp hi
  have hxs : xs = xs.take i ++ xs[i] :: xs.drop (i + 1) := by simp
  have hset : xs.set i y = xs.take i ++ y :: xs.drop (i + 1) := List.set_eq_take_append_cons_drop ..|>.trans (if_pos hb)
  classical
  refine List.perm_iff_count.mpr fun z => ?_
  rw [hset]
  conv => rhs; rw [hxs]
  simp only [List.flatMap_append, List.flatMap_cons, List.count_append]
  omega

theorem map_set_same {β γ : Type} {xs : List β} {i : Nat} {x y : β} {f : β → γ} (hi : xs[i]? = some x)
    (hf : f y = f x) : (xs.set i y).map f = xs.map f := by
  obtain ⟨hb, rfl⟩ := List.getElem?_eq_some_iff.mp hi
  refine List.ext_getElem? fun j => ?_
  rw [List.map_set, List.getElem?_set]
  split
  next he =>
    subst he
    simp [hb, hf]
  next => rfl

theorem Queue.offer_capacity {β : Type} {queue later : Queue β} {value : β} (h : queue.offer value = .queued later) :
    later.capacity = queue.capacity := by
  unfold Queue.offer at h
  split at h
  next => simp at h
  next => split at h <;> cases h; rfl

namespace DirectRun

def hands (run : DirectRun α) : List (Outcome α) :=
  run.pumps.flatMap (·.hand run.decoder) ++ run.tasks.flatMap (·.hand run.decoder)

def takes (b : Broker) (first : PartitionKey → Int) (run : DirectRun α) : List (Outcome α) :=
  run.pumps.flatMap fun pump => b.outcomes run.decoder pump.key (first pump.key) pump.position

/-- Nothing keeps a run from queueing all outcomes. -/
structure Unhindered (topic : String) (env : Environment) (run : DirectRun α) : Prop where
  wanted : env.cancelled run.token = false
  fits : env.broker.Fits topic
  messages : run.messages.held = true
  errors : run.errors.held = true

variable {env after : Environment} {run next : DirectRun α}

structure Steady (run next : DirectRun α) : Prop where
  decoder : next.decoder = run.decoder
  mode : next.mode = run.mode
  token : next.token = run.token
  capacity : next.messages.capacity = run.messages.capacity ∧ next.errors.capacity = run.errors.capacity
  messages : next.messages.held = true → run.messages.held = true
  errors : next.errors.held = true → run.errors.held = true

theorem Steady.of_same (hd : next.decoder = run.decoder) (hm : next.mode = run.mode) (ht : next.token = run.token)
    (hmessages : next.messages = run.messages) (herrors : next.errors = run.errors) : run.Steady next :=
  ⟨hd, hm, ht, ⟨by rw [hmessages], by rw [herrors]⟩, fun h => hmessages ▸ h, fun h => herrors ▸ h⟩

theorem Steady.refl (run : DirectRun α) : run.Steady run := .of_same rfl rfl rfl rfl rfl

theorem Steady.turned (h : run.Steady next) (pumps : List (Pump α)) (tasks : List (DecodeTask α)) :
    run.Steady { next with pumps := pumps, tasks := tasks } :=
  ⟨h.decoder, h.mode, h.token, h.capacity, h.messages, h.errors⟩

theorem puts_of_queues (hm : next.messages = run.messages) (he : next.errors = run.errors) : run.puts next = [] := by
  simp [puts, hm, he]

theorem Delivery.steady {outcome : Outcome α} (h : Delivery run outcome next) :
    run.Steady next ∧ next.pumps = run.pumps ∧ next.tasks = run.tasks := by
  cases h with
  | message ho =>
    obtain ⟨hheld, _, _⟩ := Queue.offer_queued ho
    exact ⟨⟨rfl, rfl, rfl, ⟨Queue.offer_capacity ho, rfl⟩, fun _ => hheld, id⟩, rfl, rfl⟩
  | failure ho =>
    obtain ⟨hheld, _, _⟩ := Queue.offer_queued ho
    exact ⟨⟨rfl, rfl, rfl, ⟨rfl, Queue.offer_capacity ho⟩, id, fun _ => hheld⟩, rfl, rfl⟩
  | lost => exact ⟨.refl run, rfl, rfl⟩

theorem Delivery.puts {outcome : Outcome α} (env : Environment) (topic : String) (h : Delivery run outcome next) :
    ∃ gone, run.puts next ++ gone = [outcome] ∧ (run.Unhindered topic env → gone = []) := by
  cases h with
  | message ho =>
    obtain ⟨_, _, hitems⟩ := Queue.offer_queued ho
    exact ⟨[], by simp [DirectRun.puts, hitems], fun _ => rfl⟩
  | failure ho =>
    obtain ⟨_, _, hitems⟩ := Queue.offer_queued ho
    exact ⟨[], by simp [DirectRun.puts, hitems], fun _ => rfl⟩
  | lost hheld =>
    refine ⟨[outcome], by rw [puts_of_queues rfl rfl]; rfl, fun hu => ?_⟩
    obtain hm | he := hheld
    · simp [hu.messages] at hm
    · simp [hu.errors] at he

theorem PumpStep.appended {pump later : Pump α} (h : PumpStep env run pump after next later)
    {key : PartitionKey} {log : PartitionLog} (hl : env.broker.log? key = some log) :
    ∃ log', Broker.Appended env.broker after.broker key log log' ∧
      (log'.failure = log.failure ∨ log'.failure = none) := by
  obtain ⟨ht, hc⟩ | ⟨_, _, hf⟩ := h.broker_cases
  · exact ⟨log, .of_eq hl ht hc, .inl rfl⟩
  · exact Broker.takeFailure_appended hf hl

theorem PumpStep.steady {pump later : Pump α} (h : PumpStep env run pump after next later) : run.Steady next := by
  cases h with
  | spawned | decoded | failed => exact .of_same rfl rfl rfl rfl rfl
  | delivered _ hd | reported _ hd => exact (deliver_cases hd).steady.1
  | _ => exact .refl run

theorem PumpStep.pumps {pump later : Pump α} (h : PumpStep env run pump after next later) :
    next.pumps = run.pumps := by
  cases h with
  | delivered _ hd | reported _ hd => exact (deliver_cases hd).steady.2.1
  | _ => rfl

theorem TaskStep.steady {task later : DecodeTask α} (h : TaskStep env run task next later) :
    run.Steady next ∧ next.pumps = run.pumps ∧ next.tasks = run.tasks := by
  cases h with
  | decoded => exact ⟨.of_same rfl rfl rfl rfl rfl, rfl, rfl⟩
  | dropped => exact ⟨.refl run, rfl, rfl⟩
  | delivered _ hd => exact (deliver_cases hd).steady

/-- A step of a pump queues nothing, or what the pump has in hand, or the failure that it has met. -/
theorem PumpStep.delivery {pump later : Pump α} (h : PumpStep env run pump after next later) :
    (next.messages = run.messages ∧ next.errors = run.errors) ∨ ∃ outcome, Delivery run outcome next ∧
      (pump.hand run.decoder = [outcome] ∨ ∃ failure, pump.Failing failure ∧ outcome = .failure failure) := by
  cases h with
  | @delivered outcome _ _ hp hd => exact .inr ⟨outcome, deliver_cases hd, .inl (by simp [Pump.hand, hp])⟩
  | @reported failure ticket _ hp hd =>
    exact .inr ⟨.failure failure, deliver_cases hd, .inr ⟨failure, .inr ⟨ticket, hp⟩, rfl⟩⟩
  | _ => exact .inl ⟨rfl, rfl⟩

theorem TaskStep.delivery {task later : DecodeTask α} (h : TaskStep env run task next later) :
    (next.messages = run.messages ∧ next.errors = run.errors) ∨ ∃ outcome, Delivery run outcome next := by
  cases h with
  | @delivered outcome _ _ _ hd => exact .inr ⟨outcome, deliver_cases hd⟩
  | _ => exact .inl ⟨rfl, rfl⟩

/-- What a step of a pump does to the outcomes: `taken` are those of records that it takes, `gone` are those
that nobody will see, and `more` are the tasks that it begins. -/
structure Passes (topic : String) (first : PartitionKey → Int) (env : Environment) (run : DirectRun α)
    (pump : Pump α) (after : Environment) (next : DirectRun α) (later : Pump α) (taken gone : List (Outcome α))
    (more : List (DecodeTask α)) : Prop where
  pumps : next.pumps = run.pumps
  tasks : next.tasks = run.tasks ++ more
  took : after.broker.outcomes run.decoder pump.key (first pump.key) later.position =
    after.broker.outcomes run.decoder pump.key (first pump.key) pump.position ++ taken
  balance : recorded (run.puts next) ++ later.hand run.decoder ++ more.flatMap (·.hand run.decoder) ++ gone =
    pump.hand run.decoder ++ taken
  lost : run.Unhindered topic env → gone = []
  told : ∀ outcome ∈ run.puts next, outcome.place = none → ∃ failure, pump.Failing failure

section Pumps

variable {topic : String} {first : PartitionKey → Int} {pump later : Pump α} {c : Cursor} {log : PartitionLog}

theorem outcome_eq (run : DirectRun α) (record : Record) : run.outcome record = record.outcome run.decoder := rfl

theorem measured_of_fits {record : Record} (hr : pump.Reads env.broker run.decoder first c log)
    (hf : 0 ≤ first c.key) (hp : pump.phase = .taken record) (hfits : env.broker.highWaterMark c.key ≤ maxOffset) :
    ∃ after, env.measure "" pump.reader.source record = .ok after := by
  have hhand : pump.hand run.decoder = [record.outcome run.decoder] := by simp [Pump.hand, hp]
  obtain hn | ⟨payload, hlow, _, hh⟩ := hr.hand
  · simp [hhand] at hn
  have hplace : (record.outcome run.decoder).place = some (c.key, c.position - 1) := by
    rw [hhand] at hh
    rw [List.singleton_inj.mp hh, outcomeAt_place]
  rw [Record.outcome_place] at hplace
  have hoffset : record.offset = c.position - 1 := by simpa using congrArg (Option.map Prod.snd) hplace
  have hmark : env.broker.highWaterMark c.key = log.records.length := by simp [Broker.highWaterMark, hr.found]
  have hhigh := hr.high
  rw [hr.source]
  exact Environment.measure_fits "" (by omega) (by omega) hfits

theorem PumpStep.passes (h : PumpStep env run pump after next later)
    (ht : c.key.1 = topic) (hf : 0 ≤ first c.key) (hr : pump.Reads env.broker run.decoder first c log)
    (hfail : ∀ failure, pump.Failing failure → (Outcome.failure failure : Outcome α).place = none) :
    ∃ taken gone more, Passes topic first env run pump after next later taken gone more := by
  have hstill (hp : later.position = pump.position) :
      after.broker.outcomes run.decoder pump.key (first pump.key) later.position =
        after.broker.outcomes run.decoder pump.key (first pump.key) pump.position ++ [] := by
    rw [hp, List.append_nil]
  cases h with
  | stopped hp | shut hp =>
    refine ⟨[], [], [], rfl, by simp, hstill rfl, ?_, fun _ => rfl, by simp [puts]⟩
    simp [puts, Pump.hand, hp, recorded]
  | @asked _ broker source found hp hc hs =>
    rw [hr.source] at hs
    obtain ⟨⟨_, d, _⟩, hs, he⟩ := Option.map_eq_some_iff.mp hs
    cases he
    have hposition : pump.position = c.position := hr.position
    have hhand : pump.hand run.decoder = [] := by simp [Pump.hand, hp]
    cases Cursor.step_cases hs with
    | @found payload hfound =>
      refine ⟨[outcomeAt run.decoder c.key c.position payload], [], [], rfl, by simp, ?_, ?_,
        fun _ => rfl, by simp [puts]⟩
      · rw [hr.key, hposition]
        exact Broker.outcomes_succ hr.low hfound
      · simp [puts, Pump.hand, hp, recorded, Found.phase, outcomeAt]
    | _ =>
      refine ⟨[], [], [], rfl, by simp, hstill hposition.symm, ?_, fun _ => rfl, by simp [puts]⟩
      rw [hhand]
      simp [puts, recorded, Found.phase, Pump.hand]
  | measured hp =>
    refine ⟨[], [], [], rfl, by simp, hstill rfl, ?_, fun _ => rfl, by simp [puts]⟩
    simp [puts, Pump.hand, hp, recorded]
  | @crashed record _ hp hm =>
    refine ⟨[], [record.outcome run.decoder], [], rfl, by simp, hstill rfl, ?_, fun hu => ?_, by simp [puts]⟩
    · simp [puts, Pump.hand, hp, recorded]
    · obtain ⟨after, hok⟩ := measured_of_fits hr hf hp (hu.fits c.key ht)
      simp [hok] at hm
  | @spawned record hp =>
    refine ⟨[], [], [.decoding record], rfl, rfl, hstill rfl, ?_, fun _ => rfl,
      by simp [puts]⟩
    simp [puts, Pump.hand, hp, recorded, DecodeTask.hand]
  | decoded hp =>
    refine ⟨[], [], [], rfl, by simp, hstill rfl, ?_, fun _ => rfl, by simp [puts]⟩
    simp [puts, Pump.hand, hp, recorded, outcome_eq]
  | @dropped outcome _ hp hc =>
    refine ⟨[], [outcome], [], rfl, by simp, hstill rfl, ?_, fun hu => ?_, by simp [puts]⟩
    · simp [puts, Pump.hand, hp, recorded]
    · simp [hu.wanted] at hc
  | @delivered outcome _ _ hp hd =>
    have hdelivery : Delivery run outcome next := deliver_cases hd
    obtain ⟨_, hpumps, htasks⟩ := hdelivery.steady
    obtain ⟨gone, hputs, hlost⟩ := hdelivery.puts env topic
    have hhand : pump.hand run.decoder = [outcome] := by simp [Pump.hand, hp]
    have hplace : outcome.place.isSome := by
      obtain hn | ⟨payload, _, _, hh⟩ := hr.hand
      · simp [hhand] at hn
      · rw [hhand] at hh
        simp [List.singleton_inj.mp hh, outcomeAt_place]
    refine ⟨[], gone, [], hpumps, by simp [htasks], hstill rfl, ?_, hlost, fun o ho hn => ?_⟩
    · rw [hhand, ← hputs]
      obtain ⟨hp1, rfl⟩ | ⟨hp0, rfl⟩ := List.append_eq_singleton_iff.mp hputs
      · simp [hp1, recorded, Pump.hand]
      · simp [hp0, recorded, Pump.hand, hplace]
    · have hmem : o ∈ [outcome] := hputs ▸ List.mem_append_left gone ho
      simp [List.mem_singleton.mp hmem ▸ hn] at hplace
  | closed hp =>
    refine ⟨[], [], [], rfl, by simp, hstill ?_, ?_, fun _ => rfl, by simp [puts]⟩
    · simp [Pump.position, (closeReaderLogging_logs env pump.reader).2.2]
    · simp [puts, Pump.hand, hp, recorded]
  | failed hp =>
    refine ⟨[], [], [], rfl, by simp, hstill ?_, ?_, fun _ => rfl, by simp [puts]⟩
    · simp [Pump.position, (closeReaderLogging_logs env pump.reader).2.2]
    · simp [puts, Pump.hand, hp, recorded]
  | unreported hp =>
    refine ⟨[], [], [], rfl, by simp, hstill rfl, ?_, fun _ => rfl, by simp [puts]⟩
    simp [puts, Pump.hand, hp, recorded]
  | @reported failure ticket _ hp hd =>
    have hfailing : pump.Failing failure := .inr ⟨ticket, hp⟩
    have hdelivery : Delivery run (.failure failure) next := deliver_cases hd
    obtain ⟨_, hpumps, htasks⟩ := hdelivery.steady
    obtain ⟨gone, hputs, _⟩ := hdelivery.puts env topic
    refine ⟨[], [], [], hpumps, by simp [htasks], hstill rfl, ?_, fun _ => rfl, fun _ _ _ => ⟨_, hfailing⟩⟩
    have hrecorded : recorded (run.puts next) = [] := by
      refine List.filter_eq_nil_iff.mpr fun o ho => ?_
      have hmem : o ∈ [Outcome.failure failure] := hputs ▸ List.mem_append_left gone ho
      simp [List.mem_singleton.mp hmem, hfail failure hfailing]
    simp [hrecorded, Pump.hand, hp]

theorem takeFailure_some {b broker : Broker} {key : PartitionKey} {reason : String}
    (h : b.takeFailure key = some (reason, broker)) (hl : b.log? key = some log) : log.failure = some reason := by
  obtain ⟨hfailure, _, _⟩ := Broker.takeFailure_eq_some h
  simpa [Broker.failure?, hl] using hfailure

theorem PumpStep.failing (h : PumpStep env run pump after next later)
    (hr : pump.Reads env.broker run.decoder first c log) {failure : Failure} (hl : later.Failing failure) :
    pump.Failing failure ∨ ∃ reason, failure = .broker reason ∧ log.failure = some reason := by
  cases h with
  | asked hp hc hs =>
    rw [hr.source] at hs
    obtain ⟨⟨_, d, _⟩, hs, he⟩ := Option.map_eq_some_iff.mp hs
    cases he
    cases Cursor.step_cases hs with
    | failed hfailed =>
      refine .inr ⟨_, ?_, takeFailure_some hfailed hr.found⟩
      simpa [Pump.Failing, Found.phase, eq_comm] using hl
    | _ => simp [Pump.Failing, Found.phase] at hl
  | @failed met hp =>
    have he : met = failure := by simpa [Pump.Failing] using hl
    exact .inl (.inl (he ▸ hp))
  | _ => simp [Pump.Failing] at hl

/-- A pump that works goes on, unless it meets a failure of its partition. -/
theorem PumpStep.goes_on (h : PumpStep env run pump after next later) (hw : env.broker.Wired)
    (ht : c.key.1 = topic) (hf : 0 ≤ first c.key) (hr : pump.Reads env.broker run.decoder first c log)
    (hu : run.Unhindered topic env) (hp : pump.Working) : later.Working ∨ ∃ failure, later.Failing failure := by
  obtain ⟨hopen, hphase⟩ := hp
  cases h with
  | stopped _ hc | dropped _ hc | unreported _ hc => simp [hu.wanted] at hc
  | shut _ hc => simp [hopen] at hc
  | asked _ _ hs =>
    rw [hr.source] at hs
    obtain ⟨⟨_, d, _⟩, hs, he⟩ := Option.map_eq_some_iff.mp hs
    cases he
    cases Cursor.step_cases hs with
    | failed hfailed => exact .inr ⟨_, .inl rfl⟩
    | ended _ hlive =>
      have hl := hw.channel_live hr.found
      rw [← hr.channel, hlive] at hl
      simp at hl
    | _ => exact .inl ⟨hopen, trivial⟩
  | crashed hp hm =>
    obtain ⟨after, hok⟩ := measured_of_fits hr hf hp (hu.fits c.key ht)
    simp [hok] at hm
  | closed hp | failed hp | reported hp => simp [hp] at hphase
  | _ => exact .inl ⟨hopen, trivial⟩

theorem PumpStep.working (h : PumpStep env run pump after next later) (hw : env.broker.Wired)
    (ht : c.key.1 = topic) (hf : 0 ≤ first c.key) (hr : pump.Reads env.broker run.decoder first c log)
    (hu : run.Unhindered topic env) (hlog : log.failure = none) (hp : pump.Working) : later.Working := by
  obtain hworking | ⟨failure, hfailing⟩ := h.goes_on hw ht hf hr hu hp
  · exact hworking
  · obtain hbefore | ⟨reason, _, hlater⟩ := h.failing hr hfailing
    · obtain ⟨_, hphase⟩ := hp
      obtain hphase' | ⟨ticket, hphase'⟩ := hbefore <;> simp [hphase'] at hphase
    · simp [hlater] at hlog

end Pumps

theorem TaskStep.passes {task later : DecodeTask α} (topic : String) (h : TaskStep env run task next later)
    (hplace : ∀ outcome ∈ task.hand run.decoder, outcome.place.isSome) :
    ∃ gone, recorded (run.puts next) ++ later.hand run.decoder ++ gone = task.hand run.decoder ∧
      (run.Unhindered topic env → gone = []) ∧ ∀ outcome ∈ run.puts next, outcome.place.isSome := by
  cases h with
  | decoded =>
    subst task
    exact ⟨[], by simp [puts, recorded, DecodeTask.hand, outcome_eq], fun _ => rfl, by simp [puts]⟩
  | @dropped outcome _ _ hc =>
    subst task
    refine ⟨[outcome], by simp [puts, recorded, DecodeTask.hand], fun hu => ?_, by simp [puts]⟩
    simp [hu.wanted] at hc
  | @delivered outcome _ _ _ hd =>
    subst task
    obtain ⟨gone, hputs, hlost⟩ := (deliver_cases hd).puts env topic
    have hsome : outcome.place.isSome := hplace outcome (by simp [DecodeTask.hand])
    refine ⟨gone, ?_, hlost, fun o ho => ?_⟩
    · obtain ⟨hp1, rfl⟩ | ⟨hp0, rfl⟩ := List.append_eq_singleton_iff.mp hputs
      · simp [hp1, recorded, DecodeTask.hand]
      · simp [hp0, recorded, DecodeTask.hand, hsome]
    · have hmem : o ∈ [outcome] := hputs ▸ List.mem_append_left gone ho
      exact List.mem_singleton.mp hmem ▸ hsome

end DirectRun

end TopicConsumer
