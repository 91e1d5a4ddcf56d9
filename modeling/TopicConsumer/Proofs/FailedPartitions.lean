import TopicConsumer.Proofs.ExactlyOnce
import TopicConsumer.Proofs.Mishaps

namespace TopicConsumer

open DirectRun Environment

variable {α : Type}

/-- A partition has this failure when the consumer is started, or is made to have it later. -/
def Environment.Breaks (opened : Environment) (changes : List Outside) (key : PartitionKey) (reason : String) : Prop :=
  opened.broker.failure? key = some reason ∨ .failPartition key reason ∈ changes

theorem Environment.fails_iff {opened : Environment} {changes : List Outside} {key : PartitionKey} :
    opened.Fails changes key ↔ ∃ reason, opened.Breaks changes key reason := by
  have hfirst : (∃ log, opened.broker.log? key = some log ∧ log.failure ≠ none) ↔
      ∃ reason, opened.broker.failure? key = some reason := by
    simp [Broker.failure?, Option.bind_eq_some_iff, Option.ne_none_iff_exists', exists_comm]
  simp only [Environment.Fails, Environment.Breaks, hfirst, exists_or]

theorem Broker.mem_all_outcomes {b : Broker} {decoder : Decoder α} {key : PartitionKey} {first : Int}
    {outcome : Outcome α} :
    outcome ∈ b.outcomes decoder key first (b.highWaterMark key) ↔ ∃ offset payload, first ≤ offset ∧
      b.payload? key offset = some payload ∧ outcome = outcomeAt decoder key offset payload := by
  rw [mem_outcomes]
  constructor
  · rintro ⟨offset, payload, hlow, _, hp, rfl⟩
    exact ⟨offset, payload, hlow, hp, rfl⟩
  · rintro ⟨offset, payload, hlow, hp, rfl⟩
    obtain ⟨_, log, hl, _⟩ := payload?_eq_some.mp hp
    have hmark : b.highWaterMark key = log.records.length := by simp [highWaterMark, hl]
    exact ⟨offset, payload, hlow, hmark ▸ payload?_lt hl hp, hp, rfl⟩

def about (key : PartitionKey) (outcomes : List (Outcome α)) : List (Outcome α) :=
  outcomes.filter fun outcome => outcome.place.map Prod.fst = some key

def notesOf {β : Type} (key : PartitionKey) (notes : List (PartitionKey × β)) : List β :=
  notes.filterMap fun note => if note.1 = key then some note.2 else none

section Notes

variable {β : Type} {key other : PartitionKey} {notes : List (PartitionKey × β)} {note : β}

theorem notesOf_append (more : List β) :
    notesOf key (notes ++ more.map (other, ·)) =
      if other = key then notesOf key notes ++ more else notesOf key notes := by
  by_cases he : other = key
  · simp [notesOf, he, List.filterMap_map]
  · simp [notesOf, he, List.filterMap_map]

theorem forall_mem_noted {P : PartitionKey → Prop} (hold : ∀ note ∈ notes, P note.1) (hother : P other)
    (more : List β) : ∀ note ∈ notes ++ more.map (other, ·), P note.1 := by
  intro note hn
  obtain hn | hn := List.mem_append.mp hn
  · exact hold note hn
  · obtain ⟨_, _, rfl⟩ := List.mem_map.mp hn
    exact hother

theorem mem_notesOf : note ∈ notesOf key notes ↔ (key, note) ∈ notes := by
  simp only [notesOf, List.mem_filterMap, Option.ite_none_right_eq_some, Option.some.injEq]
  constructor
  · rintro ⟨⟨_, _⟩, hm, rfl, rfl⟩
    exact hm
  · intro hm
    exact ⟨_, hm, rfl, rfl⟩

theorem nodup_of_notesOf (h : ∀ key, (notesOf key notes).length ≤ 1) : (notes.map Prod.fst).Nodup := by
  refine List.nodup_iff_count_le_one.mpr fun key => Nat.le_trans (Nat.le_of_eq ?_) (h key)
  rw [notesOf, List.count, List.countP_map, List.length_filterMap_eq_countP]
  refine List.countP_congr fun note _ => ?_
  by_cases he : note.1 = key <;> simp [he]

end Notes

theorem DirectRun.PumpStep.tells {env after : Environment} {run next : DirectRun α} {pump later : Pump α}
    (h : PumpStep env run pump after next later) : env.broker.Tells after.broker := by
  obtain ⟨htopics, hchannels⟩ | ⟨_, _, hfailed⟩ := h.broker_cases
  · exact Broker.tells_of_eq htopics hchannels
  · exact Broker.tells_takeFailure hfailed

namespace Journal

def meets (j k : Journal α) : DirectAct → List (PartitionKey × Mishap)
  | .pump i _ =>
    match j.run.pumps[i]?, k.run.pumps[i]? with
    | some pump, some later => (pump.meets later).map (pump.key, ·)
    | _, _ => []
  | _ => []

def tells (j k : Journal α) : DirectAct → List (PartitionKey × Failure)
  | .pump i _ =>
    match j.run.pumps[i]? with
    | some pump => ((j.run.puts k.run).filterMap Outcome.report?).map (pump.key, ·)
    | none => []
  | _ => []

/-- What is noted along a run: the failures that its pumps have met, and those that they have queued. -/
inductive Noted (config : Config α) (opened : Environment) :
    Journal α → List (PartitionKey × Mishap) → List (PartitionKey × Failure) → Prop where
  | started {token capacity world consumer run} :
      Consumer.start { env := opened } { blueprint := .direct config, connector := .broker } token =
        (.ok capacity, world, consumer) →
      world.directs = [run] → Noted config opened { env := world.env, run := run } [] []
  | acted {j k a met told} : Noted config opened j met told → j.act? a = some k →
      Noted config opened k (met ++ j.meets k a) (told ++ j.tells k a)

variable {config other : Config α} {opened opened' after : Environment} {j k : Journal α} {next : DirectRun α}
  {met : List (PartitionKey × Mishap)} {told : List (PartitionKey × Failure)}

theorem Noted.reached (h : Noted config opened j met told) : Reached config opened j := by
  induction h with
  | started hs hd => exact .started hs hd
  | acted _ ha ih => exact .acted ih ha

theorem Reached.noted (h : Reached config opened j) : ∃ met told, Noted config opened j met told := by
  induction h with
  | started hs hd => exact ⟨[], [], .started hs hd⟩
  | acted _ ha ih =>
    obtain ⟨met, told, hnoted⟩ := ih
    exact ⟨_, _, hnoted.acted ha⟩

structure Tended (config : Config α) (opened : Environment) (j : Journal α) (met : List (PartitionKey × Mishap))
    (told : List (PartitionKey × Failure)) : Prop where
  course : ∀ pump ∈ j.run.pumps, pump.Course (¬ j.run.Unhindered config.topic j.env) (notesOf pump.key met)
    (notesOf pump.key told)
  tuned : ∀ pump ∈ j.run.pumps, pump.Tuned j.env.broker
  metKeys : ∀ note ∈ met, note.1 ∈ opened.broker.partitionKeys config.topic
  toldKeys : ∀ note ∈ told, note.1 ∈ opened.broker.partitionKeys config.topic
  given : ∀ key ∈ opened.broker.partitionKeys config.topic, ∀ reason,
    j.env.broker.failure? key = some reason → opened.Breaks j.changes key reason
  causes : ∀ note ∈ met, ∃ reason, note.2.failure = .broker reason ∧ opened.Breaks j.changes note.1 reason
  pending : ∀ key ∈ opened.broker.partitionKeys config.topic, opened.Fails j.changes key →
    j.env.broker.failure? key = none → key ∈ met.map Prod.fst
  reports : j.puts.filterMap Outcome.report? = told.map Prod.snd

theorem tended_of_start {token : Token} {capacity : Nat} {world : World α} {consumer : Consumer α} {run : DirectRun α}
    (hw : opened.broker.Wired)
    (hs : Consumer.start { env := opened } { blueprint := .direct config, connector := .broker } token =
      (.ok capacity, world, consumer)) (hd : world.directs = [run]) :
    Tended config opened { env := world.env, run := run } [] [] := by
  have h := Consumer.start_started hs hd
  have hfailure (key : PartitionKey) : world.env.broker.failure? key = opened.broker.failure? key :=
    Broker.failure?_congr h.topics key
  constructor
  case course =>
    intro pump hm
    obtain ⟨_, key, log, rfl, hf⟩ := h.fresh pump hm
    cases hf.opened
    exact .whole (by simp [Pump.Failing]) fun _ => ⟨rfl, trivial⟩
  case tuned =>
    intro pump hm
    obtain ⟨_, key, log, rfl, hf⟩ := h.fresh pump hm
    cases hf.opened
    have hopen : Cursor.open? opened.broker key (opened.broker.startPosition key config.start) =
        .ok ⟨key, opened.broker.startPosition key config.start, log.channel,
          (opened.broker.channel log.channel).version⟩ := by
      simp [Cursor.open?, Broker.watch, hf.found]
    have hlistener : Listener.Tuned opened.broker ⟨_, true, none⟩ := Listener.tuned_open hw hopen
    have hmarking := hlistener.marking (Nat.le_refl _)
    exact ⟨_, rfl, hmarking.told (Broker.tells_of_eq h.topics h.channels)⟩
  case metKeys => simp
  case toldKeys => simp
  case given =>
    intro key _ reason hr
    exact .inl (hfailure key ▸ hr)
  case causes => simp
  case pending =>
    intro key _ hfails hn
    obtain ⟨reason, hbreaks | hm⟩ := Environment.fails_iff.mp hfails
    · rw [← hfailure, hn] at hbreaks
      cases hbreaks
    · simp at hm
  case reports => rfl

theorem change?_failure {env : Environment} {change : Outside} {key : PartitionKey} {log : PartitionLog}
    (hw : env.broker.Wired) (h : env.change? change = some after) (hr : ∀ n, change ≠ .replaceTopic key.1 n)
    (hl : env.broker.log? key = some log) :
    (∃ reason, change = .failPartition key reason ∧ after.broker.failure? key = some reason) ∨
      ((∀ reason, change ≠ .failPartition key reason) ∧ after.broker.failure? key = env.broker.failure? key) := by
  by_cases hc : ∃ reason, change = .failPartition key reason
  · obtain ⟨reason, rfl⟩ := hc
    refine .inl ⟨reason, rfl, ?_⟩
    rw [failure?_change? h]
    simp [Outside.notices, Notice.leaves]
  · have hother : ∀ reason, change ≠ .failPartition key reason := fun reason he => hc ⟨reason, he⟩
    obtain ⟨later, ha, hkept⟩ := change?_appended hw h hr hl
    exact .inr ⟨hother, by simp [Broker.failure?, ha.found, hl, hkept hother]⟩

theorem Sound.fate (h : Sound config opened j) {pump later : Pump α} (hm : pump ∈ j.run.pumps)
    (hs : PumpStep j.env j.run pump after next later) :
    later.key = pump.key ∧ Fate config.topic j.env j.run pump after next later := by
  obtain ⟨c, log, hr⟩ := h.accounts.stands pump hm
  obtain ⟨d, log', hk, hr'⟩ := hs.stands h.accounts.wired (Broker.startPosition_nonneg ..) hr
  have hkey : pump.key ∈ opened.broker.partitionKeys config.topic :=
    h.accounts.partitions ▸ List.mem_map_of_mem hm
  have htopic : c.key.1 = config.topic := Broker.partitionKeys_topic (hr.key ▸ hkey)
  exact ⟨by rw [hr.key, hr'.key, hk], hs.fate h.accounts.wired htopic (Broker.startPosition_nonneg ..) hr.toReads⟩

theorem Sound.pumps_nodup (h : Sound config opened j) : (j.run.pumps.map Pump.key).Nodup :=
  h.accounts.partitions ▸ opened.broker.partitionKeys_nodup config.topic

theorem mem_pumps_set {pumps : List (Pump α)} {i : Nat} {pump handled p : Pump α} (hkeys : (pumps.map Pump.key).Nodup)
    (hi : pumps[i]? = some pump) (hp : p ∈ pumps.set i handled) :
    p = handled ∨ (p ∈ pumps ∧ pump.key ≠ p.key) := by
  obtain ⟨n, hn⟩ := List.mem_iff_getElem?.mp hp
  obtain ⟨_, rfl⟩ | ⟨hne, hold⟩ := getElem?_set_cases hn
  · exact .inl rfl
  · refine .inr ⟨List.mem_of_getElem? hold, fun he => hne ?_⟩
    have hbound : i < pumps.length := (List.getElem?_eq_some_iff.mp hi).1
    have hsame : (pumps.map Pump.key)[i]? = (pumps.map Pump.key)[n]? := by
      rw [List.getElem?_map, List.getElem?_map, hi, hold, Option.map_some, Option.map_some, he]
    exact (List.getElem?_inj (by simpa using hbound) hkeys).mp hsame

section Pumped

variable {pump later : Pump α} {run : DirectRun α}

theorem Tended.given_pumped (h : Tended config opened j met told)
    (hfate : Fate config.topic j.env run pump after next later) {key : PartitionKey}
    (hkey : key ∈ opened.broker.partitionKeys config.topic) {reason : String}
    (hfailure : after.broker.failure? key = some reason) : opened.Breaks j.changes key reason := by
  refine h.given key hkey reason ?_
  obtain ⟨_, _, _, htaken⟩ | ⟨_, hkept⟩ := hfate.failures
  · rw [htaken] at hfailure
    split at hfailure
    · cases hfailure
    · exact hfailure
  · rw [← hkept]
    exact hfailure

theorem Tended.causes_pumped (h : Tended config opened j met told)
    (hfate : Fate config.topic j.env run pump after next later)
    (hkey : pump.key ∈ opened.broker.partitionKeys config.topic) {mishap : Mishap} (hm : mishap ∈ pump.meets later) :
    ∃ reason, mishap.failure = .broker reason ∧ opened.Breaks j.changes pump.key reason := by
  obtain ⟨reason, hfailed, hmet, _⟩ | ⟨hnone, _⟩ := hfate.failures
  · rw [hmet, List.mem_singleton] at hm
    subst hm
    exact ⟨reason, rfl, h.given pump.key hkey reason hfailed⟩
  · simp [hnone] at hm

theorem Tended.pending_pumped (h : Tended config opened j met told)
    (hfate : Fate config.topic j.env run pump after next later) {key : PartitionKey}
    (hkey : key ∈ opened.broker.partitionKeys config.topic) (hfails : opened.Fails j.changes key)
    (hnone : after.broker.failure? key = none) :
    key ∈ met.map Prod.fst ∨ key = pump.key ∧ pump.meets later ≠ [] := by
  obtain ⟨reason, _, hmet, htaken⟩ | ⟨_, hkept⟩ := hfate.failures
  · by_cases he : key = pump.key
    · exact .inr ⟨he, by simp [hmet]⟩
    · rw [htaken, if_neg he] at hnone
      exact .inl (h.pending key hkey hfails hnone)
  · rw [hkept] at hnone
    exact .inl (h.pending key hkey hfails hnone)

end Pumped

theorem Tended.pumped {i : Nat} {stop : Bool} (hsound : Sound config opened j) (h : Tended config opened j met told)
    (hs : j.run.stepPump j.env i stop = some (after, next)) :
    Tended config opened (j.proceed after next) (met ++ j.meets (j.proceed after next) (.pump i stop))
      (told ++ j.tells (j.proceed after next) (.pump i stop)) := by
  have hkeeps : Keeps config.topic j.env after := stepPump_keeps hs
  obtain ⟨pump, turned, handled, hi, hstep, rfl⟩ := stepPump_cases hs
  have hm : pump ∈ j.run.pumps := List.mem_of_getElem? hi
  have hkeys : pump.key ∈ opened.broker.partitionKeys config.topic :=
    hsound.accounts.partitions ▸ List.mem_map_of_mem hm
  obtain ⟨hkey, hfate⟩ := hsound.fate hm hstep
  have hpumps : turned.pumps.set i handled = j.run.pumps.set i handled := by rw [hstep.pumps]
  have hpump (p : Pump α) (hp : p ∈ turned.pumps.set i handled) :
      p = handled ∨ (p ∈ j.run.pumps ∧ pump.key ≠ p.key) :=
    mem_pumps_set hsound.pumps_nodup hi (hpumps ▸ hp)
  have hmeets : j.meets (j.proceed after { turned with pumps := turned.pumps.set i handled }) (.pump i stop) =
      (pump.meets handled).map (pump.key, ·) := by
    have hset : (turned.pumps.set i handled)[i]? = some handled := by
      rw [hpumps]
      exact getElem?_of_set rfl hi
    simp only [meets, proceed, hi, hset]
  have htells : j.tells (j.proceed after { turned with pumps := turned.pumps.set i handled }) (.pump i stop) =
      ((j.run.puts turned).filterMap Outcome.report?).map (pump.key, ·) := by
    simp only [tells, hi]
    rfl
  have hbefore (hu : Unhindered config.topic after { turned with pumps := turned.pumps.set i handled }) :
      j.run.Unhindered config.topic j.env := by
    have hpassing : Passing config.topic j.env after (opened.Fails j.changes) (opened.Fails j.changes) :=
      hstep.passing hkeeps.later
    exact hu.before (hstep.steady.turned _ turned.tasks) hpassing hsound.accounts.wired
  rw [hmeets, htells]
  constructor
  case course =>
    intro p hp
    have hcourse {p : Pump α} (hold : p ∈ j.run.pumps) :
        p.Course (¬ Unhindered config.topic after { turned with pumps := turned.pumps.set i handled })
          (notesOf p.key met) (notesOf p.key told) := (h.course p hold).mono fun hno hu => hno (hbefore hu)
    rw [notesOf_append, notesOf_append]
    obtain rfl | ⟨hold, hother⟩ := hpump p hp
    · rw [hkey, if_pos rfl, if_pos rfl]
      exact hfate.course (fun hn => hbefore (not_not.mp hn)) (hcourse hm)
    · rw [if_neg hother, if_neg hother]
      exact hcourse hold
  case tuned =>
    intro p hp
    obtain rfl | ⟨hold, _⟩ := hpump p hp
    · exact hstep.tuned (h.tuned pump hm)
    · exact (h.tuned p hold).heard hstep.tells
  case metKeys => exact forall_mem_noted h.metKeys hkeys _
  case toldKeys => exact forall_mem_noted h.toldKeys hkeys _
  case given =>
    intro key hmem reason hfailure
    exact h.given_pumped hfate hmem hfailure
  case causes =>
    intro note hn
    obtain hn | hn := List.mem_append.mp hn
    · exact h.causes note hn
    · obtain ⟨mishap, hmishap, rfl⟩ := List.mem_map.mp hn
      exact h.causes_pumped hfate hkeys hmishap
  case pending =>
    intro key hmem hfails hnone
    rw [List.map_append, List.mem_append]
    obtain hold | ⟨rfl, hmet⟩ := h.pending_pumped hfate hmem hfails hnone
    · exact .inl hold
    · obtain ⟨mishap, hmishap⟩ := List.exists_mem_of_ne_nil _ hmet
      exact .inr (List.mem_map.mpr ⟨_, List.mem_map_of_mem hmishap, rfl⟩)
  case reports =>
    change (j.puts ++ j.run.puts turned).filterMap Outcome.report? = _
    rw [List.filterMap_append, h.reports, List.map_append, List.map_map]
    exact congrArg _ (List.map_id _).symm

theorem Tended.passing (h : Tended config opened j met told)
    (hbefore : k.run.Unhindered config.topic k.env → j.run.Unhindered config.topic j.env)
    (hpumps : k.run.pumps = j.run.pumps) (hputs : k.puts.filterMap Outcome.report? = j.puts.filterMap Outcome.report?)
    (htells : j.env.broker.Tells k.env.broker) (hchanges : j.changes <+: k.changes)
    (hfailures : ∀ key ∈ opened.broker.partitionKeys config.topic,
      (∃ reason, .failPartition key reason ∈ k.changes ∧ k.env.broker.failure? key = some reason) ∨
        ((opened.Fails k.changes key → opened.Fails j.changes key) ∧
          k.env.broker.failure? key = j.env.broker.failure? key)) : Tended config opened k met told := by
  have hbreaks {key : PartitionKey} {reason : String} (hb : opened.Breaks j.changes key reason) :
      opened.Breaks k.changes key reason := hb.imp_right fun hm => hchanges.subset hm
  constructor
  case course =>
    intro p hp
    exact (h.course p (hpumps ▸ hp)).mono fun hno hu => hno (hbefore hu)
  case tuned =>
    intro p hp
    exact (h.tuned p (hpumps ▸ hp)).heard htells
  case metKeys => exact h.metKeys
  case toldKeys => exact h.toldKeys
  case given =>
    intro key hmem reason hfailure
    obtain ⟨other, hm, hset⟩ | ⟨_, hkept⟩ := hfailures key hmem
    · rw [hset] at hfailure
      cases hfailure
      exact .inr hm
    · exact hbreaks (h.given key hmem reason (hkept ▸ hfailure))
  case causes =>
    intro note hn
    obtain ⟨reason, hreason, hb⟩ := h.causes note hn
    exact ⟨reason, hreason, hbreaks hb⟩
  case pending =>
    intro key hmem hfails hnone
    obtain ⟨other, _, hset⟩ | ⟨hold, hkept⟩ := hfailures key hmem
    · rw [hset] at hnone
      cases hnone
    · exact h.pending key hmem (hold hfails) (hkept ▸ hnone)
  case reports => exact hputs.trans h.reports

theorem Tended.decoded {i : Nat} {stop : Bool} (hsound : Sound config opened j) (h : Tended config opened j met told)
    (hs : j.run.stepTask j.env i stop = some next) : Tended config opened (j.proceed j.env next) met told := by
  obtain ⟨task, turned, handled, hi, hstep, rfl⟩ := stepTask_cases hs
  obtain ⟨hsteady, hpumps, _⟩ := hstep.steady
  obtain ⟨_, _, _, hputs⟩ := hstep.passes config.topic (hsound.accounts.task_recorded hi)
  refine h.passing (fun hu => hu.of_steady (hsteady.turned turned.pumps _)) hpumps ?_ (Broker.tells_of_eq rfl rfl)
    (List.prefix_refl _) fun key _ => .inr ⟨id, rfl⟩
  change (j.puts ++ j.run.puts turned).filterMap Outcome.report? = _
  rw [List.filterMap_append, List.filterMap_eq_nil_iff.mpr fun outcome hm => Outcome.report?_of_place (hputs outcome hm),
    List.append_nil]

theorem Sound.exists_pump (h : Sound config opened j) {key : PartitionKey}
    (hk : key ∈ opened.broker.partitionKeys config.topic) : ∃ pump ∈ j.run.pumps, pump.key = key := by
  rw [← h.accounts.partitions] at hk
  exact List.mem_map.mp hk

theorem Tended.acted {a : DirectAct} (hsound : Sound config opened j) (h : Tended config opened j met told)
    (ha : j.act? a = some k) (hr : ∀ n, .replaceTopic config.topic n ∉ k.changes) :
    Tended config opened k (met ++ j.meets k a) (told ++ j.tells k a) := by
  have hqueue {run : DirectRun α} {seen : List (Outcome α)} (hs : j.run.Steady run)
      (hpumps : run.pumps = j.run.pumps) : Tended config opened { j with run := run, seen := seen } met told :=
    h.passing (fun hu => hu.of_steady hs) hpumps rfl (Broker.tells_of_eq rfl rfl) (List.prefix_refl _) fun _ _ =>
      .inr ⟨id, rfl⟩
  cases a with
  | pump i stop =>
    obtain ⟨⟨_, _⟩, hs, rfl⟩ := Option.map_eq_some_iff.mp ha
    exact h.pumped hsound hs
  | task i stop =>
    obtain ⟨_, hs, rfl⟩ := Option.map_eq_some_iff.mp ha
    simp only [meets, tells, List.append_nil]
    exact h.decoded hsound hs
  | outside change =>
    obtain ⟨after, hc, rfl⟩ := Option.map_eq_some_iff.mp ha
    have hkept : ∀ n, change ≠ .replaceTopic config.topic n := fun n he => hr n (by simp [he])
    simp only [meets, tells, List.append_nil]
    have hpassing : Passing config.topic j.env after (opened.Fails j.changes) (opened.Fails (j.changes ++ [change])) :=
      change?_passing hc hkept
    refine h.passing (fun hu => hu.before (.refl _) hpassing hsound.accounts.wired) rfl rfl (change?_tells hc)
      (List.prefix_append ..) fun key hk => ?_
    obtain ⟨pump, hm, rfl⟩ := hsound.exists_pump hk
    obtain ⟨c, log, hreads⟩ := hsound.accounts.stands pump hm
    have hlog : j.env.broker.log? pump.key = some log := hreads.key ▸ hreads.found
    obtain ⟨reason, rfl, hset⟩ | ⟨hother, hsame⟩ :=
      change?_failure hsound.accounts.wired hc (Broker.partitionKeys_topic hk ▸ hkept) hlog
    · exact .inl ⟨reason, by simp, hset⟩
    · refine .inr ⟨fun hfails => hfails.imp_right fun ⟨reason, hmem⟩ => ⟨reason, ?_⟩, hsame⟩
      exact (List.mem_append.mp hmem).resolve_right fun hlast => hother reason (List.mem_singleton.mp hlast).symm
  | receive =>
    obtain ⟨⟨_, _⟩, ht, rfl⟩ := Option.map_eq_some_iff.mp ha
    obtain ⟨hcapacity, hheld⟩ := Queue.take?_same ht
    simp only [meets, tells, List.append_nil]
    exact hqueue ⟨rfl, rfl, rfl, ⟨hcapacity, rfl⟩, fun hh => hheld ▸ hh, id⟩ rfl
  | receiveError =>
    obtain ⟨⟨_, _⟩, ht, rfl⟩ := Option.map_eq_some_iff.mp ha
    obtain ⟨hcapacity, hheld⟩ := Queue.take?_same ht
    simp only [meets, tells, List.append_nil]
    exact hqueue ⟨rfl, rfl, rfl, ⟨rfl, hcapacity⟩, id, fun hh => hheld ▸ hh⟩ rfl
  | dropMessages =>
    cases ha
    simp only [meets, tells, List.append_nil]
    exact hqueue ⟨rfl, rfl, rfl, ⟨rfl, rfl⟩, by simp [Queue.drop], id⟩ rfl
  | dropErrors =>
    cases ha
    simp only [meets, tells, List.append_nil]
    exact hqueue ⟨rfl, rfl, rfl, ⟨rfl, rfl⟩, id, by simp [Queue.drop]⟩ rfl

theorem Noted.tended (hw : opened.broker.Wired) (h : Noted config opened j met told)
    (hr : ∀ n, .replaceTopic config.topic n ∉ j.changes) : Tended config opened j met told := by
  -- By induction on the run. A topic that was not replaced by the end of it was not replaced before.
  induction h with
  | started hs hd => exact tended_of_start hw hs hd
  | @acted j k a met told hnoted ha ih =>
    have hbefore : ∀ n, .replaceTopic config.topic n ∉ j.changes := fun n hm => hr n ((changes_grow ha).subset hm)
    exact (ih hbefore).acted (hnoted.reached.sound hw hbefore) ha hr

/-- In the end the application has seen of a partition the outcomes of all records that its pump has read. -/
theorem Sound.seen_about (h : Sound config opened j) (hshows : j.run.Shows j.puts j.seen)
    (hs : j.run.Settled j.env) (hfits : j.env.broker.Fits config.topic) {pump : Pump α} (hm : pump ∈ j.run.pumps) :
    (about pump.key j.seen).Perm (j.env.broker.outcomes config.decoder pump.key
      (opened.broker.startPosition pump.key config.start) pump.position) := by
  have hkeys : (j.run.pumps.map Pump.key).Nodup := h.pumps_nodup
  have hputs : about pump.key (recorded j.puts) = about pump.key j.puts := by
    rw [about, about, recorded, List.filter_filter]
    refine List.filter_congr fun outcome _ => ?_
    cases outcome.place <;> simp
  have hseen : (about pump.key j.seen).Perm (about pump.key j.puts) := (hshows.settled hs).filter _
  have htaken := (h.settled hs hfits).filter fun outcome => outcome.place.map Prod.fst = some pump.key
  have htakes := List.Nodup.of_map _ (takes_nodup j.env.broker (opened.broker.startPosition · config.start) hkeys)
  rw [← hputs] at hseen
  refine (hseen.trans htaken).trans ((List.perm_ext_iff_of_nodup (htakes.filter _)
    (List.Nodup.of_map _ Broker.outcomes_nodup)).mpr fun outcome => ?_)
  rw [← h.decoder, List.mem_filter]
  constructor
  · rintro ⟨hmem, habout⟩
    obtain ⟨other, hother, offset, payload, hlow, hhigh, hp, rfl⟩ := mem_takes hmem
    have hsame : other = pump := List.inj_on_of_nodup_map hkeys hother hm (by simpa [outcomeAt_place] using habout)
    subst hsame
    exact Broker.mem_outcomes.mpr ⟨offset, payload, hlow, hhigh, hp, rfl⟩
  · intro hmem
    refine ⟨List.mem_flatMap.mpr ⟨pump, hm, hmem⟩, ?_⟩
    obtain ⟨_, _, _, _, _, rfl⟩ := Broker.mem_outcomes.mp hmem
    simp [outcomeAt_place]

theorem Sound.seen_whole (h : Sound config opened j) (hshows : j.run.Shows j.puts j.seen)
    (hs : j.run.Settled j.env) (hfits : j.env.broker.Fits config.topic) {key : PartitionKey}
    (hk : key ∈ opened.broker.partitionKeys config.topic) (hwhole : ¬ opened.Fails j.changes key) :
    (about key j.seen).Perm (j.env.broker.outcomes config.decoder key
      (opened.broker.startPosition key config.start) (j.env.broker.highWaterMark key)) := by
  obtain ⟨pump, hm, rfl⟩ := h.exists_pump hk
  obtain ⟨c, log, hr⟩ := h.accounts.stands pump hm
  have hworking : pump.Working :=
    h.accounts.working ⟨hs.wanted, hfits, hs.held.1, hs.held.2⟩ pump hm hwhole
  have hend : pump.position = log.records.length := (hs.pump h.room hm hr.toReads).2 hworking
  have hmark : j.env.broker.highWaterMark pump.key = log.records.length := by
    rw [hr.key, Broker.highWaterMark, hr.found]
  rw [hmark, ← hend]
  exact h.seen_about hshows hs hfits hm

theorem not_failing_of_settled {env : Environment} {run : DirectRun α} (h : run.Settled env)
    (hroom : 0 < run.messages.capacity ∧ 0 < run.errors.capacity) {pump : Pump α} (hm : pump ∈ run.pumps)
    (failure : Failure) : ¬ pump.Failing failure := by
  have hstuck := h.stuck hm
  rintro (hp | ⟨ticket, hp⟩)
  · simp [stepPumpAlone, hp] at hstuck
  · simp [stepPumpAlone, hp, h.delivers hroom] at hstuck

theorem failure?_of_settled {env : Environment} {run : DirectRun α} (h : run.Settled env)
    (hroom : 0 < run.messages.capacity ∧ 0 < run.errors.capacity) (hw : env.broker.Wired) {pump : Pump α}
    (hm : pump ∈ run.pumps) (hworking : pump.Working) (ht : pump.Tuned env.broker) :
    env.broker.failure? pump.key = none := by
  -- Only a pump that waits in a call has no step. It has checked for a failure and was told of no change since.
  obtain ⟨c, hsource, htuned⟩ := ht
  have hkey : pump.key = c.key := by simp [Pump.key, hsource, Source.key]
  have hstuck := h.stuck hm
  obtain ⟨hopen, hphase⟩ := hworking
  cases hp : pump.phase with
  | asking stage =>
    have hstage : pump.stage? = some stage := by simp only [Pump.stage?, hp]
    rw [hstage] at htuned
    simp only [stepPumpAlone, hp, stepAsking, hopen, hsource, Source.step, Option.map_eq_none_iff, Bool.false_eq_true,
      if_false] at hstuck
    obtain ⟨rfl, hcaught⟩ := (htuned.waits_iff hw stage).mp hstuck
    rw [hkey]
    exact htuned.checked (.inr rfl) rfl hcaught
  | taken | measured =>
    simp only [stepPumpAlone, hp] at hstuck
    split at hstuck <;> simp at hstuck
  | sending outcome ticket => simp [stepPumpAlone, hp, h.delivers hroom] at hstuck
  | closing | reporting | done => simp [hp] at hphase

/-- A pump meets one failure at most, and only one that its partition has. It closes its reader, and then queues the
failure, at most once. It queues no record that it had not read before. Nothing else is queued that is not about a
record. -/
structure Contained (config : Config α) (opened : Environment) (j : Journal α) (met : List (PartitionKey × Mishap))
    (told : List (PartitionKey × Failure)) : Prop where
  metOnce : (met.map Prod.fst).Nodup
  causes : ∀ note ∈ met, note.1 ∈ opened.broker.partitionKeys config.topic ∧
    ∃ reason, note.2.failure = .broker reason ∧ opened.Breaks j.changes note.1 reason
  stopped : ∀ note ∈ met, ∀ outcome ∈ j.puts, ∀ offset,
    outcome.place = some (note.1, offset) → offset < note.2.position
  closedFirst : ∀ a k, j.act? a = some k → ∀ report ∈ j.tells k a,
    ∃ pump ∈ j.run.pumps, pump.key = report.1 ∧ pump.reader.closed = true
  toldOnce : (told.map Prod.fst).Nodup
  sources : ∀ report ∈ told, (∃ position, (report.1, ⟨report.2, position⟩) ∈ met) ∧
    ∃ pump ∈ j.run.pumps, pump.key = report.1 ∧ pump.reader.closed = true
  reports : j.puts.filterMap Outcome.report? = told.map Prod.snd

/-- When the tasks have nothing left to do, the pump of each partition that has failed has met a failure, which was
seen once, and the records that it had read before were seen. Of a partition that has not failed, all records were
seen. -/
structure Concluded (config : Config α) (opened : Environment) (j : Journal α) (met : List (PartitionKey × Mishap))
    (told : List (PartitionKey × Failure)) : Prop where
  fails : ∀ key ∈ opened.broker.partitionKeys config.topic, key ∈ met.map Prod.fst ↔ opened.Fails j.changes key
  reported : told.Perm (met.map fun note => (note.1, note.2.failure))
  seen : (j.seen.filterMap Outcome.report?).Perm (met.map (·.2.failure))
  read : ∀ note ∈ met, (about note.1 j.seen).Perm (j.env.broker.outcomes config.decoder note.1
    (opened.broker.startPosition note.1 config.start) note.2.position)
  whole : ∀ key ∈ opened.broker.partitionKeys config.topic, ¬ opened.Fails j.changes key →
    (about key j.seen).Perm (j.env.broker.outcomes config.decoder key
      (opened.broker.startPosition key config.start) (j.env.broker.highWaterMark key))

theorem Tended.length_notesOf (h : Tended config opened j met told) (hsound : Sound config opened j)
    (key : PartitionKey) : (notesOf key met).length ≤ 1 ∧ (notesOf key told).length ≤ 1 := by
  by_cases hk : key ∈ opened.broker.partitionKeys config.topic
  · obtain ⟨pump, hm, rfl⟩ := hsound.exists_pump hk
    exact (h.course pump hm).length_le
  · have hmet : notesOf key met = [] :=
      List.eq_nil_iff_forall_not_mem.mpr fun mishap hm => hk (h.metKeys _ (mem_notesOf.mp hm))
    have htold : notesOf key told = [] :=
      List.eq_nil_iff_forall_not_mem.mpr fun failure hm => hk (h.toldKeys _ (mem_notesOf.mp hm))
    simp [hmet, htold]

theorem Tended.contained (h : Tended config opened j met told) (hsound : Sound config opened j) :
    Contained config opened j met told := by
  constructor
  case metOnce => exact nodup_of_notesOf fun key => (h.length_notesOf hsound key).1
  case causes =>
    intro note hn
    exact ⟨h.metKeys note hn, h.causes note hn⟩
  case stopped =>
    intro note hn outcome hm offset hplace
    have hrecorded : outcome ∈ recorded j.puts := List.mem_filter.mpr ⟨hm, by simp [hplace]⟩
    obtain ⟨pump, hpump, last, payload, _, hlt, _, rfl⟩ :=
      mem_takes (hsound.accounts.taken (List.mem_append_left _ hrecorded))
    rw [outcomeAt_place] at hplace
    obtain ⟨hkey, rfl⟩ := Prod.mk.inj (Option.some.inj hplace)
    have hmishap : note.2 ∈ notesOf pump.key met := mem_notesOf.mpr (hkey ▸ hn)
    rw [(h.course pump hpump).position_of_mem hmishap]
    exact hlt
  case closedFirst =>
    intro a k ha report hreport
    cases a with
    | pump i stop =>
      obtain ⟨⟨_, _⟩, hs, rfl⟩ := Option.map_eq_some_iff.mp ha
      obtain ⟨pump, turned, handled, hi, hstep, rfl⟩ := stepPump_cases hs
      have hm : pump ∈ j.run.pumps := List.mem_of_getElem? hi
      have hfate := (hsound.fate hm hstep).2
      simp only [tells, hi] at hreport
      obtain ⟨failure, hqueued, rfl⟩ := List.mem_map.mp hreport
      exact ⟨pump, hm, rfl, hfate.closed_of_report (h.course pump hm) hqueued⟩
    | _ => simp [tells] at hreport
  case toldOnce => exact nodup_of_notesOf fun key => (h.length_notesOf hsound key).2
  case sources =>
    intro report hn
    obtain ⟨pump, hm, hkey⟩ := hsound.exists_pump (h.toldKeys report hn)
    have htold : report.2 ∈ notesOf pump.key told := mem_notesOf.mpr (hkey ▸ hn)
    obtain ⟨hmet, hclosed⟩ := (h.course pump hm).met_of_told htold
    exact ⟨⟨pump.position, hkey ▸ mem_notesOf.mp hmet⟩, pump, hm, hkey, hclosed⟩
  case reports => exact h.reports

theorem Tended.exists_pump (h : Tended config opened j met told) (hsound : Sound config opened j)
    {note : PartitionKey × Mishap} (hn : note ∈ met) :
    ∃ pump ∈ j.run.pumps, pump.key = note.1 ∧ note.2 ∈ notesOf pump.key met := by
  obtain ⟨pump, hm, hkey⟩ := hsound.exists_pump (h.metKeys note hn)
  exact ⟨pump, hm, hkey, mem_notesOf.mpr (hkey ▸ hn)⟩

theorem Tended.reported (h : Tended config opened j met told) (hsound : Sound config opened j)
    (hs : j.run.Settled j.env) (hfree : j.run.Unhindered config.topic j.env) :
    told.Perm (met.map fun note => (note.1, note.2.failure)) := by
  have hcontained : Contained config opened j met told := h.contained hsound
  have htold : told.Nodup := List.Nodup.of_map _ hcontained.toldOnce
  have hmet : (met.map fun note => (note.1, note.2.failure)).Nodup := by
    refine List.Nodup.of_map Prod.fst ?_
    rw [List.map_map]
    exact hcontained.metOnce
  refine (List.perm_ext_iff_of_nodup htold hmet).mpr fun report => ?_
  constructor
  · intro hn
    obtain ⟨⟨position, hm⟩, _⟩ := hcontained.sources report hn
    exact List.mem_map.mpr ⟨_, hm, rfl⟩
  · intro hn
    obtain ⟨note, hm, rfl⟩ := List.mem_map.mp hn
    obtain ⟨pump, hpump, hkey, hmishap⟩ := h.exists_pump hsound hm
    have hno := not_failing_of_settled hs hsound.room hpump
    have hreport : note.2.failure ∈ notesOf pump.key told :=
      (h.course pump hpump).told_of_met hno (not_not.mpr hfree) hmishap
    exact hkey ▸ mem_notesOf.mp hreport

theorem Tended.met_of_fails (h : Tended config opened j met told) (hsound : Sound config opened j)
    (hs : j.run.Settled j.env) (hfree : j.run.Unhindered config.topic j.env) {key : PartitionKey}
    (hk : key ∈ opened.broker.partitionKeys config.topic) (hfails : opened.Fails j.changes key) :
    key ∈ met.map Prod.fst := by
  obtain ⟨pump, hm, rfl⟩ := hsound.exists_pump hk
  -- A pump that has met nothing still works, and so its partition has no failure left that it could meet.
  by_contra hnot
  have hnone : notesOf pump.key met = [] := List.eq_nil_iff_forall_not_mem.mpr fun mishap hmishap =>
    hnot (List.mem_map.mpr ⟨_, mem_notesOf.mp hmishap, rfl⟩)
  have hcourse := h.course pump hm
  rw [hnone] at hcourse
  have hworking : pump.Working := hcourse.working (not_not.mpr hfree)
  have hfailure : j.env.broker.failure? pump.key = none :=
    failure?_of_settled hs hsound.room hsound.accounts.wired hm hworking (h.tuned pump hm)
  exact hnot (h.pending pump.key hk hfails hfailure)

theorem Tended.concluded (h : Tended config opened j met told) (hsound : Sound config opened j)
    (hshows : j.run.Shows j.puts j.seen) (hs : j.run.Settled j.env) (hfits : j.env.broker.Fits config.topic) :
    Concluded config opened j met told := by
  have hfree : j.run.Unhindered config.topic j.env := ⟨hs.wanted, hfits, hs.held.1, hs.held.2⟩
  have hreported := h.reported hsound hs hfree
  constructor
  case fails =>
    intro key hk
    constructor
    · intro hm
      obtain ⟨note, hn, rfl⟩ := List.mem_map.mp hm
      obtain ⟨reason, _, hbreaks⟩ := h.causes note hn
      exact Environment.fails_iff.mpr ⟨reason, hbreaks⟩
    · intro hfails
      exact h.met_of_fails hsound hs hfree hk hfails
  case reported => exact hreported
  case seen =>
    have hseen := (hshows.settled hs).filterMap Outcome.report?
    have hfailures := hreported.map Prod.snd
    rw [h.reports] at hseen
    rw [List.map_map] at hfailures
    exact hseen.trans hfailures
  case read =>
    intro note hn
    obtain ⟨pump, hm, hkey, hmishap⟩ := h.exists_pump hsound hn
    rw [(h.course pump hm).position_of_mem hmishap, ← hkey]
    exact hsound.seen_about hshows hs hfits hm
  case whole =>
    intro key hk hwhole
    exact hsound.seen_whole hshows hs hfits hk hwhole

theorem Alike.outcomes_perm {env env' : Environment} (h : Alike config other opened opened' env env') {key : PartitionKey}
    (hk : key ∈ opened.broker.partitionKeys config.topic) :
    (env.broker.outcomes config.decoder key (opened.broker.startPosition key config.start)
      (env.broker.highWaterMark key)).Perm
      (env'.broker.outcomes other.decoder key (opened'.broker.startPosition key other.start)
        (env'.broker.highWaterMark key)) := by
  refine (List.perm_ext_iff_of_nodup (List.Nodup.of_map _ Broker.outcomes_nodup)
    (List.Nodup.of_map _ Broker.outcomes_nodup)).mpr fun outcome => ?_
  rw [Broker.mem_all_outcomes, Broker.mem_all_outcomes, h.decoder, h.starts key hk]
  simp only [h.records key hk]

end Journal

open Journal

/-- A failure of a partition ends its own pump and nothing else, whatever order the tasks of a direct consumer run in
and whenever partitions fail. The pump closes its reader, and then tells the failure once. What the application sees in
the end of a partition that has not failed is the same as in a run without failures. -/
theorem failures_end_own_partitions {config : Config α} {opened : Environment} {j : Journal α}
    (hbegan : ∃ before, ({} : Environment).changes? before = some opened) (h : Reached config opened j)
    (hkept : ∀ n, .replaceTopic config.topic n ∉ j.changes) :
    (∃ met told, Noted config opened j met told) ∧ ∀ met told, Noted config opened j met told →
      Contained config opened j met told ∧
        (j.run.Settled j.env → j.env.broker.Fits config.topic →
          Concluded config opened j met told ∧
            ∀ (other : Config α) (opened' : Environment) (k : Journal α), Undisturbed other opened' k →
              Alike config other opened opened' j.env k.env → k.run.Settled k.env → k.env.broker.Fits other.topic →
                ∀ key ∈ opened.broker.partitionKeys config.topic, ¬ opened.Fails j.changes key →
                  (about key j.seen).Perm (about key k.seen)) := by
  obtain ⟨before, hopened⟩ := hbegan
  have hwired : opened.broker.Wired := changes?_wired Broker.wired_empty hopened
  have hsound : Sound config opened j := h.sound hwired hkept
  refine ⟨h.noted, fun met told hnoted => ?_⟩
  have htended : Tended config opened j met told := hnoted.tended hwired hkept
  refine ⟨htended.contained hsound, fun hs hfits => ⟨htended.concluded hsound h.shows hs hfits, ?_⟩⟩
  intro other opened' k hk halike hs' hfits' key hkey hwhole
  obtain ⟨before', hopened'⟩ := hk.began
  have hsound' : Sound other opened' k := hk.reached.sound (changes?_wired Broker.wired_empty hopened') hk.kept
  have hkey' : key ∈ opened'.broker.partitionKeys other.topic := halike.partitions ▸ hkey
  have hseen := hsound.seen_whole h.shows hs hfits hkey hwhole
  have hseen' := hsound'.seen_whole hk.reached.shows hs' hfits' hkey' (hk.whole key (Broker.partitionKeys_topic hkey'))
  exact (hseen.trans (halike.outcomes_perm hkey)).trans hseen'.symm

def pairOpened : Environment :=
  (({} : Environment).changes?
    [.createTopic "orders" 2, .produce ("orders", 0) [7], .produce ("orders", 1) [8]]).getD {}

/-- The first partition fails while its record is being decoded, and the failure is told before the record is. -/
def halfOrders : Option (Journal Nat) :=
  let first : DirectAct := .pump 0 false
  let second : DirectAct := .pump 1 false
  Journal.begin? (orders .concurrent) pairOpened
    [first, first, first, first, first, .outside (.failPartition ("orders", 0) "disk"), first, first, first, first,
      .receiveError, second, second, second, second, second, .task 1 false, .task 1 false, .receive,
      .task 0 false, .task 0 false, .receive, second, second, second]

def wholeOrders : Option (Journal Nat) :=
  let first : DirectAct := .pump 0 false
  let second : DirectAct := .pump 1 false
  Journal.begin? (orders .concurrent) pairOpened
    [first, first, first, first, first, .task 0 false, .task 0 false, .receive, first, first, first,
      second, second, second, second, second, .task 1 false, .task 1 false, .receive, second, second, second]

def pairLogs : Table String (List PartitionLog) :=
  [("orders", [{ records := [[7]], channel := 0 }, { records := [[8]], channel := 1 }])]

/-- The failure is seen once, and the records of both partitions as in a run without it. -/
theorem half_of_orders_fails : ∃ j k met told, halfOrders = some j ∧ wholeOrders = some k ∧
    Noted (orders .concurrent) pairOpened j met told ∧ met.map Prod.fst = [("orders", 0)] ∧
    told = [(("orders", 0), .broker "disk")] ∧ j.seen.filterMap Outcome.report? = [.broker "disk"] ∧
    (about ("orders", 1) j.seen).Perm (about ("orders", 1) k.seen) ∧
    j.seen.map Outcome.place = [none, some (("orders", 1), 0), some (("orders", 0), 0)] := by
  have hj : halfOrders.isSome = true := by rfl
  have hk : wholeOrders.isSome = true := by rfl
  have hchanges : (halfOrders.get hj).changes = [.failPartition ("orders", 0) "disk"] := rfl
  have hbegan : ∃ before, ({} : Environment).changes? before = some pairOpened :=
    ⟨[.createTopic "orders" 2, .produce ("orders", 0) [7], .produce ("orders", 1) [8]], rfl⟩
  have hreached : Reached (orders .concurrent) pairOpened (halfOrders.get hj) :=
    reached_of_begin? (Option.some_get hj).symm
  obtain ⟨⟨met, told, hnoted⟩, hall⟩ := failures_end_own_partitions hbegan hreached (by simp [hchanges])
  have hundisturbed : Undisturbed (orders .concurrent) pairOpened (wholeOrders.get hk) :=
    undisturbed_of_begin? [.createTopic "orders" 2, .produce ("orders", 0) [7], .produce ("orders", 1) [8]] rfl
      (Option.some_get hk).symm (fun | 0 => rfl | 1 => rfl | _ + 2 => rfl) fun change hm => by
      have hm : change ∈ [] := hm
      simp at hm
  have htopics : (halfOrders.get hj).env.broker.topics = pairLogs := rfl
  have htopics' : (wholeOrders.get hk).env.broker.topics = pairLogs := rfl
  have halike : Alike (orders .concurrent) (orders .concurrent) pairOpened pairOpened
      (halfOrders.get hj).env (wholeOrders.get hk).env := ⟨rfl, rfl, fun _ _ => rfl, fun key _ offset => by
        rw [Broker.payload?_congr (htopics'.trans htopics.symm)]⟩
  have hsettled : (halfOrders.get hj).run.Settled (halfOrders.get hj).env :=
    ⟨rfl, ⟨rfl, rfl⟩, ⟨rfl, rfl⟩,
      fun | 0, true => rfl | 0, false => rfl | 1, true => rfl | 1, false => rfl | i + 2, _ => rfl,
      fun | 0, true => rfl | 0, false => rfl | 1, true => rfl | 1, false => rfl | i + 2, _ => rfl⟩
  have hsettled' : (wholeOrders.get hk).run.Settled (wholeOrders.get hk).env :=
    ⟨rfl, ⟨rfl, rfl⟩, ⟨rfl, rfl⟩,
      fun | 0, true => rfl | 0, false => rfl | 1, true => rfl | 1, false => rfl | i + 2, _ => rfl,
      fun | 0, true => rfl | 0, false => rfl | 1, true => rfl | 1, false => rfl | i + 2, _ => rfl⟩
  have hfits : (halfOrders.get hj).env.broker.Fits "orders" := .of_log 1 (by decide)
    fun | 0 => Nat.le_refl 1 | 1 => Nat.le_refl 1 | _ + 2 => Nat.zero_le 1
  have hfits' : (wholeOrders.get hk).env.broker.Fits "orders" := .of_log 1 (by decide)
    fun | 0 => Nat.le_refl 1 | 1 => Nat.le_refl 1 | _ + 2 => Nat.zero_le 1
  obtain ⟨_, hend⟩ := hall met told hnoted
  obtain ⟨hconcluded, hsame⟩ := hend hsettled hfits
  have hreports : (halfOrders.get hj).seen.filterMap Outcome.report? = [.broker "disk"] := rfl
  have hkey : ("orders", 0) ∈ pairOpened.broker.partitionKeys "orders" := by decide
  have hlast : ("orders", 1) ∈ pairOpened.broker.partitionKeys "orders" := by decide
  have hwhole : ¬ pairOpened.Fails (halfOrders.get hj).changes ("orders", 1) := by
    rintro (⟨log, hlog, hn⟩ | ⟨reason, hm⟩)
    · cases hlog
      exact hn rfl
    · simp [hchanges] at hm
  have hfails : pairOpened.Fails (halfOrders.get hj).changes ("orders", 0) := .inr ⟨"disk", by simp [hchanges]⟩
  have hmet : met.map (·.2.failure) = [.broker "disk"] := List.perm_singleton.mp (hreports ▸ hconcluded.seen).symm
  obtain ⟨⟨key, failure, position⟩, rfl⟩ : ∃ note, met = [note] :=
    List.length_eq_one_iff.mp (by simpa using congrArg List.length hmet)
  have hfirst : ("orders", 0) = key := List.mem_singleton.mp ((hconcluded.fails _ hkey).mpr hfails)
  have hdisk : failure = .broker "disk" := List.singleton_inj.mp hmet
  subst hfirst hdisk
  exact ⟨_, _, _, _, (Option.some_get hj).symm, (Option.some_get hk).symm, hnoted, rfl,
    List.perm_singleton.mp hconcluded.reported, hreports,
    hsame _ _ _ hundisturbed halike hsettled' hfits' _ hlast hwhole, rfl⟩

end TopicConsumer
