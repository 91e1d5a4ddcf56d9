import TopicConsumer.Proofs.DirectAccounts
import TopicConsumer.Proofs.WaitingCalls

namespace TopicConsumer

open DirectRun Environment

variable {α : Type}

/-- A failure that a pump has met, with the offset of the first record that it had not read by then. -/
structure Mishap where
  failure : Failure
  position : Int

def Outcome.report? : Outcome α → Option Failure
  | .failure (.decode _ _ _ _) => none
  | .failure other => some other
  | .message _ => none

theorem Outcome.report?_of_place {outcome : Outcome α} (h : outcome.place.isSome) : outcome.report? = none := by
  cases outcome with
  | message => rfl
  | failure failure =>
    cases failure with
    | decode => rfl
    | _ => simp [Outcome.place] at h

theorem Broker.failure?_congr {b after : Broker} (h : after.topics = b.topics) (key : PartitionKey) :
    after.failure? key = b.failure? key := by
  rw [failure?, log?_congr h, failure?]

theorem Environment.closeReaderLogging_closed (env : Environment) (reader : Reader) :
    (env.closeReaderLogging reader).1.closed = true := by
  have hclosed : (env.closeReader reader).2.1.closed = true := by
    unfold closeReader
    split
    next hc => exact hc
    next =>
      dsimp only
      split <;> rfl
  unfold closeReaderLogging
  dsimp only
  split <;> exact hclosed

namespace Pump

variable {pump later : Pump α}

def meets (pump later : Pump α) : List Mishap :=
  match pump.phase, later.phase with
  | .asking _, .closing (some failure) => [⟨failure, later.position⟩]
  | _, _ => []

/-- How far a pump is with its failure: the failures that it has met and those that it has told. Only a run that is
hindered loses a failure. -/
inductive Course (pump : Pump α) (hindered : Prop) : List Mishap → List Failure → Prop
  | whole : (∀ failure, ¬ pump.Failing failure) → (¬ hindered → pump.Working) → Course pump hindered [] []
  | closing {reason} : pump.phase = .closing (some (.broker reason)) →
      Course pump hindered [⟨.broker reason, pump.position⟩] []
  | reporting {reason ticket} : pump.phase = .reporting (.broker reason) ticket → pump.reader.closed = true →
      Course pump hindered [⟨.broker reason, pump.position⟩] []
  | told {reason} : pump.phase = .done → pump.reader.closed = true →
      Course pump hindered [⟨.broker reason, pump.position⟩] [.broker reason]
  | lost {reason} : pump.phase = .done → pump.reader.closed = true → hindered →
      Course pump hindered [⟨.broker reason, pump.position⟩] []

def stage? (pump : Pump α) : Option Stage :=
  match pump.phase with
  | .asking stage => some stage
  | _ => none

/-- What a pump knows of its log when it waits in a call. -/
def Tuned (b : Broker) (pump : Pump α) : Prop :=
  ∃ c, pump.reader.source = .log c ∧ Listener.Tuned b ⟨c, true, pump.stage?⟩

variable {hindered hindered' : Prop} {met : List Mishap} {told : List Failure} {b after : Broker}

theorem meets_eq_nil (h : ∀ failure, ¬ later.Failing failure) : pump.meets later = [] := by
  unfold meets
  split
  next hphase => exact absurd (.inl hphase) (h _)
  next => rfl

theorem Course.mono (h : pump.Course hindered met told) (hh : hindered → hindered') :
    pump.Course hindered' met told := by
  cases h with
  | whole hno hworking => exact .whole hno fun hn => hworking fun hhindered => hn (hh hhindered)
  | closing hp => exact .closing hp
  | reporting hp hc => exact .reporting hp hc
  | told hp hc => exact .told hp hc
  | lost hp hc hhindered => exact .lost hp hc (hh hhindered)

theorem Course.length_le (h : pump.Course hindered met told) : met.length ≤ 1 ∧ told.length ≤ 1 := by
  cases h <;> simp

theorem Course.working (h : pump.Course hindered [] told) (hh : ¬ hindered) : pump.Working := by
  cases h with
  | whole _ hworking => exact hworking hh

theorem Course.position_of_mem (h : pump.Course hindered met told) {mishap : Mishap} (hm : mishap ∈ met) :
    mishap.position = pump.position := by
  cases h with
  | whole => simp at hm
  | closing | reporting | told | lost => rw [List.mem_singleton.mp hm]

theorem Course.met_of_told (h : pump.Course hindered met told) {failure : Failure} (hm : failure ∈ told) :
    ⟨failure, pump.position⟩ ∈ met ∧ pump.reader.closed = true := by
  cases h with
  | told _ hclosed =>
    rw [List.mem_singleton.mp hm]
    exact ⟨List.mem_cons_self, hclosed⟩
  | whole | closing | reporting | lost => simp at hm

theorem Course.told_of_met (h : pump.Course hindered met told) (hno : ∀ failure, ¬ pump.Failing failure)
    (hh : ¬ hindered) {mishap : Mishap} (hm : mishap ∈ met) : mishap.failure ∈ told := by
  cases h with
  | whole => simp at hm
  | closing hp => exact absurd (.inl hp) (hno _)
  | reporting hp => exact absurd (.inr ⟨_, hp⟩) (hno _)
  | told =>
    rw [List.mem_singleton.mp hm]
    exact List.mem_cons_self
  | lost _ _ hhindered => exact absurd hhindered hh

theorem Tuned.heard (h : pump.Tuned b) (ht : b.Tells after) : pump.Tuned after := by
  obtain ⟨c, hsource, htuned⟩ := h
  exact ⟨c, hsource, htuned.told ht⟩

/-- A pump that begins a new call, or that is in no call, has nothing to keep in mind. -/
theorem Tuned.turned (h : pump.Tuned b) (hs : later.reader.source = pump.reader.source)
    (hp : later.phase = .asking .marking ∨ ∀ stage, later.phase ≠ .asking stage) : later.Tuned b := by
  obtain ⟨c, hsource, htuned⟩ := h
  refine ⟨c, hs.trans hsource, ?_⟩
  obtain hp | hp := hp
  · have hstage : later.stage? = some .marking := by simp [stage?, hp]
    rw [hstage]
    exact htuned.moved rfl rfl htuned.seen (by simp) (by simp) (by simp)
  · have hstage : later.stage? = none := by
      unfold stage?
      split
      next stage he => exact absurd he (hp stage)
      next => rfl
    rw [hstage]
    exact htuned.idle rfl rfl rfl

end Pump

namespace DirectRun

variable {env after : Environment} {run next : DirectRun α} {topic : String} {first : PartitionKey → Int}
  {pump later : Pump α} {c : Cursor} {log : PartitionLog}

inductive Fate (topic : String) (env : Environment) (run : DirectRun α) (pump : Pump α) (after : Environment)
    (next : DirectRun α) (later : Pump α) : Prop
  | spared : pump.phase ≠ .done → (∀ failure, ¬ pump.Failing failure) → (∀ failure, ¬ later.Failing failure) →
      (run.Unhindered topic env → pump.Working → later.Working) →
      (∀ key, after.broker.failure? key = env.broker.failure? key) →
      (∀ outcome ∈ run.puts next, outcome.place.isSome) → Fate topic env run pump after next later
  | met {stage reason} : pump.phase = .asking stage → later.phase = .closing (some (.broker reason)) →
      env.broker.failure? pump.key = some reason →
      (∀ key, after.broker.failure? key = if key = pump.key then none else env.broker.failure? key) →
      run.puts next = [] → Fate topic env run pump after next later
  | closed {failure ticket} : pump.phase = .closing (some failure) → later.phase = .reporting failure ticket →
      later.reader.closed = true → later.reader.source = pump.reader.source →
      (∀ key, after.broker.failure? key = env.broker.failure? key) →
      run.puts next = [] → Fate topic env run pump after next later
  | ended {failure ticket} : pump.phase = .reporting failure ticket → later = { pump with phase := .done } →
      (∀ key, after.broker.failure? key = env.broker.failure? key) →
      (run.puts next = [.failure failure] ∨ run.puts next = [] ∧ ¬ run.Unhindered topic env) →
      Fate topic env run pump after next later

theorem PumpStep.fate (h : PumpStep env run pump after next later) (hw : env.broker.Wired)
    (ht : c.key.1 = topic) (hf : 0 ≤ first c.key) (hr : pump.Reads env.broker run.decoder first c log) :
    Fate topic env run pump after next later := by
  have hspared (hdone : pump.phase ≠ .done) (hno : ∀ failure, ¬ pump.Failing failure)
      (hlater : ∀ failure, ¬ later.Failing failure) (hkept : ∀ key, after.broker.failure? key = env.broker.failure? key)
      (hputs : ∀ outcome ∈ run.puts next, outcome.place.isSome) : Fate topic env run pump after next later :=
    .spared hdone hno hlater (fun hu hp => (h.goes_on hw ht hf hr hu hp).resolve_right fun ⟨failure, hfailing⟩ =>
      hlater failure hfailing) hkept hputs
  cases h with
  | stopped hp | shut hp | crashed hp | spawned hp | decoded hp | dropped hp =>
    exact hspared (by simp [hp]) (by simp [Pump.Failing, hp]) (by simp [Pump.Failing]) (fun _ => rfl) (by simp [puts])
  | measured hp hm =>
    refine hspared (by simp [hp]) (by simp [Pump.Failing, hp]) (by simp [Pump.Failing]) (fun key => ?_) (by simp [puts])
    rw [measure_broker hm]
  | @delivered outcome _ _ hp hd =>
    obtain ⟨gone, hputs, _⟩ := (deliver_cases hd).puts env topic
    refine hspared (by simp [hp]) (by simp [Pump.Failing, hp]) (by simp [Pump.Failing]) (fun _ => rfl) fun queued hm => ?_
    have hhand : pump.hand run.decoder = [outcome] := by simp [Pump.hand, hp]
    have hqueued : queued ∈ [outcome] := hputs ▸ List.mem_append_left gone hm
    obtain hn | ⟨payload, _, _, hh⟩ := hr.hand
    · simp [hhand] at hn
    · rw [hhand] at hh
      simp [List.mem_singleton.mp hqueued, List.singleton_inj.mp hh, outcomeAt_place]
  | closed hp =>
    refine hspared (by simp [hp]) (by simp [Pump.Failing, hp]) (by simp [Pump.Failing]) (fun key => ?_) (by simp [puts])
    exact Broker.failure?_congr (closeReaderLogging_logs env pump.reader).1 key
  | failed hp =>
    obtain ⟨htopics, _, hsource⟩ := closeReaderLogging_logs env pump.reader
    exact .closed hp rfl (closeReaderLogging_closed env pump.reader) hsource (Broker.failure?_congr htopics)
      (puts_of_queues rfl rfl)
  | unreported hp hc =>
    refine .ended hp rfl (fun _ => rfl) (.inr ⟨by simp [puts], fun hu => ?_⟩)
    simp [hu.wanted] at hc
  | reported hp hd =>
    obtain ⟨gone, hputs, hlost⟩ := (deliver_cases hd).puts env topic
    refine .ended hp rfl (fun _ => rfl) ?_
    obtain ⟨hput, _⟩ | ⟨hnone, rfl⟩ := List.append_eq_singleton_iff.mp hputs
    · exact .inr ⟨hput, fun hu => by simp_all⟩
    · exact .inl hnone
  | asked hp hc hs =>
    rw [hr.source] at hs
    obtain ⟨⟨_, d, _⟩, hs, he⟩ := Option.map_eq_some_iff.mp hs
    cases he
    cases Cursor.step_cases hs with
    | failed hfailed =>
      refine .met hp rfl ?_ ?_ (puts_of_queues rfl rfl)
      · rw [hr.key]
        exact (Broker.takeFailure_eq_some hfailed).1
      · rw [hr.key]
        exact Broker.failure?_takeFailure hfailed
    | _ =>
      exact hspared (by simp [hp]) (by simp [Pump.Failing, hp]) (by simp [Pump.Failing, Found.phase]) (fun _ => rfl)
        (by simp [puts])

theorem PumpStep.tuned (h : PumpStep env run pump after next later) (ht : pump.Tuned env.broker) :
    later.Tuned after.broker := by
  cases h with
  | @asked stage _ _ found hp hc hs =>
    obtain ⟨c, hsource, htuned⟩ := ht
    rw [hsource] at hs
    obtain ⟨⟨_, d, _⟩, hs, he⟩ := Option.map_eq_some_iff.mp hs
    cases he
    have hstage : pump.stage? = some stage := by simp only [Pump.stage?, hp]
    have hstepped := htuned.stepped hstage (Cursor.step_cases hs)
    refine ⟨d, rfl, ?_⟩
    cases found <;> exact hstepped
  | measured hp hm =>
    rw [measure_broker hm]
    exact ht.turned rfl (.inr (by simp))
  | closed | failed =>
    obtain ⟨htopics, hchannels, hsource⟩ := closeReaderLogging_logs env pump.reader
    exact (ht.heard (Broker.tells_of_eq htopics hchannels)).turned hsource (.inr (by simp))
  | spawned | dropped | delivered => exact ht.turned rfl (.inl rfl)
  | stopped | shut | crashed | decoded | unreported | reported => exact ht.turned rfl (.inr (by simp))

theorem Fate.course {hindered : Prop} {met : List Mishap} {told : List Failure}
    (h : Fate topic env run pump after next later) (hh : ¬ hindered → run.Unhindered topic env)
    (hc : pump.Course hindered met told) :
    later.Course hindered (met ++ pump.meets later) (told ++ (run.puts next).filterMap Outcome.report?) := by
  cases h with
  | spared hdone hno hlater hworking _ hputs =>
    have hreports : (run.puts next).filterMap Outcome.report? = [] :=
      List.filterMap_eq_nil_iff.mpr fun outcome hm => Outcome.report?_of_place (hputs outcome hm)
    rw [Pump.meets_eq_nil hlater, hreports, List.append_nil, List.append_nil]
    cases hc with
    | whole _ hwhole => exact .whole hlater fun hn => hworking (hh hn) (hwhole hn)
    | closing hp => exact absurd (.inl hp) (hno _)
    | reporting hp => exact absurd (.inr ⟨_, hp⟩) (hno _)
    | told hp | lost hp => exact absurd hp hdone
  | @met stage reason hp hlater _ _ hputs =>
    have hmeets : pump.meets later = [⟨.broker reason, later.position⟩] := by simp [Pump.meets, hp, hlater]
    rw [hmeets, hputs, List.filterMap_nil, List.append_nil]
    cases hc with
    | whole => exact .closing hlater
    | closing hp' | reporting hp' | told hp' | lost hp' => simp [hp] at hp'
  | closed hp hlater hclosed hsource _ hputs =>
    have hmeets : pump.meets later = [] := by simp [Pump.meets, hp]
    have hposition : later.position = pump.position := by simp [Pump.position, hsource]
    rw [hmeets, hputs, List.filterMap_nil, List.append_nil, List.append_nil]
    cases hc with
    | whole hno => exact absurd (.inl hp) (hno _)
    | closing hp' =>
      rw [hp] at hp'
      cases hp'
      rw [← hposition]
      exact .reporting hlater hclosed
    | reporting hp' | told hp' | lost hp' => simp [hp] at hp'
  | ended hp hlater _ hputs =>
    have hmeets : pump.meets later = [] := by simp [Pump.meets, hp]
    rw [hmeets, List.append_nil]
    cases hc with
    | whole hno => exact absurd (.inr ⟨_, hp⟩) (hno _)
    | reporting hp' hclosed =>
      rw [hp] at hp'
      cases hp'
      subst hlater
      obtain hput | ⟨hnone, hhindered⟩ := hputs
      · rw [hput]
        exact .told rfl hclosed
      · rw [hnone]
        exact .lost rfl hclosed (by_contra fun hn => hhindered (hh hn))
    | closing hp' | told hp' | lost hp' => simp [hp] at hp'

theorem Fate.closed_of_report {hindered : Prop} {met : List Mishap} {told : List Failure} {failure : Failure}
    (h : Fate topic env run pump after next later) (hc : pump.Course hindered met told)
    (hm : failure ∈ (run.puts next).filterMap Outcome.report?) : pump.reader.closed = true := by
  obtain ⟨outcome, hput, hreport⟩ := List.mem_filterMap.mp hm
  cases h with
  | spared _ _ _ _ _ hputs => simp [Outcome.report?_of_place (hputs outcome hput)] at hreport
  | met _ _ _ _ hputs | closed _ _ _ _ _ hputs => simp [hputs] at hput
  | ended hp =>
    cases hc with
    | whole hno => exact absurd (.inr ⟨_, hp⟩) (hno _)
    | closing hp' => simp [hp] at hp'
    | reporting _ hclosed | told _ hclosed | lost _ hclosed => exact hclosed

theorem Fate.failures (h : Fate topic env run pump after next later) :
    (∃ reason, env.broker.failure? pump.key = some reason ∧
      pump.meets later = [⟨.broker reason, later.position⟩] ∧
      ∀ key, after.broker.failure? key = if key = pump.key then none else env.broker.failure? key) ∨
    (pump.meets later = [] ∧ ∀ key, after.broker.failure? key = env.broker.failure? key) := by
  cases h with
  | spared _ _ hlater _ hkept => exact .inr ⟨Pump.meets_eq_nil hlater, hkept⟩
  | @met stage reason hp hlater hfailure htaken =>
    exact .inl ⟨reason, hfailure, by simp [Pump.meets, hp, hlater], htaken⟩
  | closed hp _ _ _ hkept | ended hp _ hkept => exact .inr ⟨by simp [Pump.meets, hp], hkept⟩

end DirectRun

end TopicConsumer
