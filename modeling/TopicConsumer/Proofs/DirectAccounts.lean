import TopicConsumer.Proofs.DirectOutcomes

namespace TopicConsumer

open DirectRun Environment

variable {α : Type}

/-- A pump stands in the log of its partition, and has met a failure only if its partition fails. -/
structure Pump.Stands (b : Broker) (decoder : Decoder α) (first : PartitionKey → Int) (fails : PartitionKey → Prop)
    (pump : Pump α) (c : Cursor) (log : PartitionLog) : Prop extends pump.Reads b decoder first c log where
  breaks : log.failure ≠ none → fails c.key
  failing : ∀ failure, pump.Failing failure → fails c.key ∧ ∃ reason, failure = .broker reason

theorem Pump.Stands.appended {b after : Broker} {decoder : Decoder α} {first : PartitionKey → Int}
    {fails fails' : PartitionKey → Prop} {pump : Pump α} {c : Cursor} {log later : PartitionLog}
    (h : pump.Stands b decoder first fails c log) (ha : Broker.Appended b after c.key log later)
    (hb : later.failure ≠ none → fails' c.key) (hs : ∀ key, fails key → fails' key) :
    pump.Stands after decoder first fails' c later where
  toReads := h.toReads.appended ha
  breaks := hb
  failing failure hf := ⟨hs _ (h.failing failure hf).1, (h.failing failure hf).2⟩

namespace DirectRun

variable {env after : Environment} {run next : DirectRun α}

theorem PumpStep.stands {first : PartitionKey → Int} {fails : PartitionKey → Prop} {pump handled : Pump α}
    {c : Cursor} {log : PartitionLog} (h : PumpStep env run pump after next handled) (hw : env.broker.Wired)
    (hf : 0 ≤ first c.key) (hs : pump.Stands env.broker run.decoder first fails c log) :
    ∃ d later, d.key = c.key ∧ handled.Stands after.broker run.decoder first fails d later := by
  obtain ⟨d, log', hk, hr⟩ := h.reads hw hf hs.toReads
  obtain ⟨later, ha, hfailure⟩ := h.appended hs.found
  cases Option.some.inj (ha.found.symm.trans (hk ▸ hr.found))
  refine ⟨d, _, hk, hr, fun hn => ?_, fun failure hfailing => ?_⟩
  · obtain he | he := hfailure
    · exact hk ▸ hs.breaks (he ▸ hn)
    · exact absurd he hn
  · obtain hfailing | ⟨reason, rfl, hlog⟩ := h.failing hs.toReads hfailing
    · exact hk ▸ hs.failing failure hfailing
    · exact ⟨hk ▸ hs.breaks (by simp [hlog]), reason, rfl⟩

/-- Where all pumps stand, and where the outcome of each record is that they have taken: it is queued, or in
the hands of a task, or gone, which happens only when somebody hinders the run. The partitions that fail are
those for which `fails` holds. -/
structure Accounts (topic : String) (first : PartitionKey → Int) (fails : PartitionKey → Prop)
    (keys : List PartitionKey) (env : Environment) (run : DirectRun α) (puts : List (Outcome α)) : Prop where
  wired : env.broker.Wired
  partitions : run.pumps.map Pump.key = keys
  stands : ∀ pump ∈ run.pumps, ∃ c log, pump.Stands env.broker run.decoder first fails c log
  working : run.Unhindered topic env → ∀ pump ∈ run.pumps, ¬ fails pump.key → pump.Working
  balance : ∃ gone, (recorded puts ++ run.hands ++ gone).Perm (takes env.broker first run) ∧
    (run.Unhindered topic env → gone = [])
  told : ∀ outcome ∈ puts, outcome.place = none → ∃ key ∈ keys, fails key

structure Passing (topic : String) (env after : Environment) (fails fails' : PartitionKey → Prop) : Prop where
  onward : env.Later after
  wired : env.broker.Wired → after.broker.Wired
  logs : ∀ key log, key.1 = topic → env.broker.Wired → env.broker.log? key = some log →
    ∃ log', Broker.Appended env.broker after.broker key log log' ∧
      ((log.failure ≠ none → fails key) → log'.failure ≠ none → fails' key)
  fails : ∀ key, fails key → fails' key

variable {topic : String} {first : PartitionKey → Int} {fails fails' : PartitionKey → Prop} {keys : List PartitionKey}
  {outcomes : List (Outcome α)}

theorem Unhindered.before (hs : run.Steady next) (hp : Passing topic env after fails fails') (hw : env.broker.Wired)
    (h : next.Unhindered topic after) : run.Unhindered topic env where
  wanted := by
    refine Bool.eq_false_iff.mpr fun hc => ?_
    have hcancelled := hp.onward.cancelled run.token hc
    rw [← hs.token, h.wanted] at hcancelled
    simp at hcancelled
  fits key ht := by
    have hfits := h.fits key ht
    unfold Broker.highWaterMark at hfits ⊢
    cases hl : env.broker.log? key with
    | none => simp [maxOffset]
    | some log =>
      obtain ⟨log', ha, _⟩ := hp.logs key log ht hw hl
      have hlength := ha.records.length_le
      rw [ha.found] at hfits
      dsimp only at hfits ⊢
      omega
  messages := hs.messages h.messages
  errors := hs.errors h.errors

theorem Accounts.passing (h : run.Accounts topic first fails keys env outcomes)
    (hp : Passing topic env after fails fails') (hkeys : ∀ key ∈ keys, key.1 = topic) (hf : ∀ key, 0 ≤ first key)
    (hs : run.Steady next) (hpumps : next.pumps = run.pumps) (htasks : next.tasks = run.tasks) :
    next.Accounts topic first fails' keys after outcomes := by
  have hstands (pump : Pump α) (hm : pump ∈ run.pumps) : ∃ c log later,
      pump.Stands env.broker run.decoder first fails c log ∧ Broker.Appended env.broker after.broker c.key log later ∧
        pump.Stands after.broker run.decoder first fails' c later := by
    obtain ⟨c, log, hr⟩ := h.stands pump hm
    have hkey : c.key ∈ keys := h.partitions ▸ hr.key ▸ List.mem_map_of_mem hm
    obtain ⟨later, ha, hfail⟩ := hp.logs c.key log (hkeys _ hkey) h.wired hr.found
    exact ⟨c, log, later, hr, ha, hr.appended ha (hfail hr.breaks) hp.fails⟩
  have htakes : takes after.broker first next = takes env.broker first run := by
    unfold takes
    rw [hpumps, hs.decoder]
    refine List.flatMap_congr fun pump hm => ?_
    obtain ⟨c, log, later, hr, ha, _⟩ := hstands pump hm
    rw [hr.key, hr.position]
    exact Broker.outcomes_appended ha hr.found (hf _) hr.high
  have hbefore (hu : next.Unhindered topic after) : run.Unhindered topic env := hu.before hs hp h.wired
  refine ⟨hp.wired h.wired, hpumps ▸ h.partitions, ?_, ?_, ?_, ?_⟩
  · rw [hpumps, hs.decoder]
    intro pump hm
    obtain ⟨c, _, later, _, _, hr⟩ := hstands pump hm
    exact ⟨c, later, hr⟩
  · rw [hpumps]
    exact fun hu pump hm hn => h.working (hbefore hu) pump hm fun hfail => hn (hp.fails _ hfail)
  · obtain ⟨gone, hperm, hgone⟩ := h.balance
    refine ⟨gone, ?_, fun hu => hgone (hbefore hu)⟩
    rw [htakes]
    simpa only [hands, hpumps, htasks, hs.decoder] using hperm
  · intro outcome hm hn
    obtain ⟨key, hk, hfail⟩ := h.told outcome hm hn
    exact ⟨key, hk, hp.fails _ hfail⟩

theorem Passing.refl (topic : String) (env : Environment) (fails : PartitionKey → Prop) :
    Passing topic env env fails fails where
  onward := env.later_refl
  wired := id
  logs _ log _ _ hl := ⟨log, .of_eq hl rfl rfl, id⟩
  fails _ := id

theorem PumpStep.passing {pump handled : Pump α} (h : PumpStep env run pump after next handled)
    (hl : env.Later after) : Passing topic env after fails fails where
  onward := hl
  wired hw := by
    obtain ⟨ht, hc⟩ | ⟨_, _, hf⟩ := h.broker_cases
    · exact hw.of_eq ht hc
    · exact hw.takeFailure hf
  logs key log _ _ hlog := by
    obtain ⟨log', ha, hfailure⟩ := h.appended hlog
    refine ⟨log', ha, fun hfail hn => hfail ?_⟩
    obtain he | he := hfailure
    · exact he ▸ hn
    · exact absurd he hn
  fails _ hfail := hfail

theorem Unhindered.of_steady (hs : run.Steady next) (h : next.Unhindered topic env) : run.Unhindered topic env :=
  ⟨hs.token ▸ h.wanted, h.fits, hs.messages h.messages, hs.errors h.errors⟩

theorem Passes.balanced {pump handled : Pump α} {taken gone lost : List (Outcome α)} {more : List (DecodeTask α)}
    {i : Nat} (h : Passes topic first env run pump after next handled taken gone more)
    (hi : run.pumps[i]? = some pump) (hkey : handled.key = pump.key) (hd : next.decoder = run.decoder)
    (hperm : (recorded outcomes ++ run.hands ++ lost).Perm (takes after.broker first run)) :
    (recorded (outcomes ++ run.puts next) ++ hands { next with pumps := next.pumps.set i handled } ++
      (lost ++ gone)).Perm (takes after.broker first { next with pumps := next.pumps.set i handled }) := by
  classical
  refine List.perm_iff_count.mpr fun outcome => ?_
  have hold := List.perm_iff_count.mp hperm outcome
  have hhands := List.perm_iff_count.mp (flatMap_set_perm hi handled (·.hand run.decoder)) outcome
  have htakes := List.perm_iff_count.mp (flatMap_set_perm hi handled fun pump =>
    after.broker.outcomes run.decoder pump.key (first pump.key) pump.position) outcome
  have hpass := congrArg (List.count outcome) h.balance
  rw [hkey, h.took] at htakes
  simp only [hands, takes, recorded_append, List.flatMap_append, List.count_append, h.pumps, h.tasks,
    hd] at hold hhands htakes hpass ⊢
  omega

theorem Accounts.pumped (h : run.Accounts topic first fails keys env outcomes)
    (hkeys : ∀ key ∈ keys, key.1 = topic) (hf : ∀ key, 0 ≤ first key) {i : Nat} {pump handled : Pump α}
    (hi : run.pumps[i]? = some pump) (hs : PumpStep env run pump after next handled) (hl : env.Later after) :
    Accounts topic first fails keys after { next with pumps := next.pumps.set i handled }
      (outcomes ++ run.puts next) := by
  -- The step is split: first the logs change, which all pumps survive, and then this pump moves.
  have hpassing : Passing topic env after fails fails := hs.passing hl
  have ha : run.Accounts topic first fails keys after outcomes :=
    h.passing hpassing hkeys hf (.refl run) rfl rfl
  have hm : pump ∈ run.pumps := List.mem_of_getElem? hi
  have hmem : pump.key ∈ keys := h.partitions ▸ List.mem_map_of_mem hm
  obtain ⟨c, log, hr⟩ := h.stands pump hm
  have htopic : c.key.1 = topic := hkeys _ (hr.key ▸ hmem)
  obtain ⟨d, later, hk, hr'⟩ := hs.stands h.wired (hf _) hr
  have hkey : handled.key = pump.key := by rw [hr.key, hr'.key, hk]
  obtain ⟨taken, gone, more, hp⟩ := hs.passes htopic (hf _) hr.toReads fun failure hfailing => by
    obtain ⟨_, reason, rfl⟩ := hr.failing failure hfailing
    rfl
  have hsteady := hs.steady.turned (next.pumps.set i handled) next.tasks
  refine ⟨ha.wired, ?_, ?_, ?_, ?_, ?_⟩
  · rw [hp.pumps, ← h.partitions]
    exact map_set_same hi hkey
  · rw [hp.pumps, hsteady.decoder]
    intro p hpm
    obtain hpm | rfl := List.mem_or_eq_of_mem_set hpm
    · exact ha.stands p hpm
    · exact ⟨d, later, hr'⟩
  · intro hu p hpm hn
    dsimp only at hpm
    rw [hp.pumps] at hpm
    obtain hpm | rfl := List.mem_or_eq_of_mem_set hpm
    · exact ha.working (hu.of_steady hsteady) p hpm hn
    · rw [hkey] at hn
      have hu' : run.Unhindered topic env := hu.before hsteady hpassing h.wired
      have hlog : log.failure = none := Decidable.of_not_not fun hlog => hn (hr.key ▸ hr.breaks hlog)
      exact hs.working h.wired htopic (hf _) hr.toReads hu' hlog (h.working hu' pump hm hn)
  · obtain ⟨lost, hperm, hlost⟩ := ha.balance
    refine ⟨lost ++ gone, hp.balanced hi hkey hsteady.decoder hperm, fun hu => ?_⟩
    rw [hlost (hu.of_steady hsteady), hp.lost (hu.before hsteady hpassing h.wired)]
    rfl
  · intro outcome hm' hn
    obtain hm' | hm' := List.mem_append.mp hm'
    · exact ha.told outcome hm' hn
    · obtain ⟨failure, hfailing⟩ := hp.told outcome hm' hn
      exact ⟨pump.key, hmem, hr.key ▸ (hr.failing failure hfailing).1⟩

theorem mem_takes {b : Broker} {outcome : Outcome α} (h : outcome ∈ takes b first run) :
    ∃ pump ∈ run.pumps, ∃ offset payload, first pump.key ≤ offset ∧ offset < pump.position ∧
      b.payload? pump.key offset = some payload ∧ outcome = outcomeAt run.decoder pump.key offset payload := by
  obtain ⟨pump, hm, ho⟩ := List.mem_flatMap.mp h
  exact ⟨pump, hm, Broker.mem_outcomes.mp ho⟩

theorem Accounts.taken (h : run.Accounts topic first fails keys env outcomes) {outcome : Outcome α}
    (hm : outcome ∈ recorded outcomes ++ run.hands) : outcome ∈ takes env.broker first run := by
  obtain ⟨gone, hperm, _⟩ := h.balance
  exact hperm.mem_iff.mp (List.mem_append_left gone hm)

theorem Accounts.task_recorded (h : run.Accounts topic first fails keys env outcomes) {i : Nat} {task : DecodeTask α}
    (hi : run.tasks[i]? = some task) : ∀ outcome ∈ task.hand run.decoder, outcome.place.isSome := by
  intro outcome ho
  have hhands : outcome ∈ run.hands :=
    List.mem_append_right _ (List.mem_flatMap.mpr ⟨task, List.mem_of_getElem? hi, ho⟩)
  obtain ⟨_, _, _, _, _, _, _, rfl⟩ := mem_takes (h.taken (List.mem_append_right _ hhands))
  simp [outcomeAt_place]

theorem Accounts.tasked (h : run.Accounts topic first fails keys env outcomes) {i : Nat}
    {task handled : DecodeTask α} (hi : run.tasks[i]? = some task) (hs : TaskStep env run task next handled) :
    Accounts topic first fails keys env { next with tasks := next.tasks.set i handled }
      (outcomes ++ run.puts next) := by
  obtain ⟨gone, hpass, hgone, hputs⟩ := hs.passes topic (h.task_recorded hi)
  obtain ⟨hkept, hpumps, htasks⟩ := hs.steady
  have hsteady := hkept.turned next.pumps (next.tasks.set i handled)
  have hdecoder : next.decoder = run.decoder := hkept.decoder
  refine ⟨h.wired, hpumps ▸ h.partitions, ?_, ?_, ?_, ?_⟩
  · rw [hpumps, hdecoder]
    exact h.stands
  · exact fun hu pump hm => h.working (hu.of_steady hsteady) pump (hpumps ▸ hm)
  · obtain ⟨lost, hperm, hlost⟩ := h.balance
    refine ⟨lost ++ gone, ?_, fun hu => ?_⟩
    · classical
      refine List.perm_iff_count.mpr fun outcome => ?_
      have hold := List.perm_iff_count.mp hperm outcome
      have hhands := List.perm_iff_count.mp (flatMap_set_perm hi handled (·.hand run.decoder)) outcome
      have hcount := congrArg (List.count outcome) hpass
      simp only [hands, takes, recorded_append, List.count_append, hpumps, htasks, hdecoder] at hold hhands hcount ⊢
      omega
    · rw [hlost (hu.of_steady hsteady), hgone (hu.of_steady hsteady)]
      rfl
  · intro outcome hm hn
    obtain hm | hm := List.mem_append.mp hm
    · exact h.told outcome hm hn
    · have hsome := hputs outcome hm
      simp [hn] at hsome

theorem takes_nodup (b : Broker) (first : PartitionKey → Int) (hk : (run.pumps.map Pump.key).Nodup) :
    ((takes b first run).map Outcome.place).Nodup := by
  unfold takes
  rw [List.map_flatMap, List.nodup_flatMap]
  refine ⟨fun pump _ => Broker.outcomes_nodup, (List.pairwise_map.mp hk).imp fun {p q} hne => ?_⟩
  refine List.disjoint_left.mpr fun place hp hq => hne ?_
  obtain ⟨o, ho, rfl⟩ := List.mem_map.mp hp
  obtain ⟨o', ho', he⟩ := List.mem_map.mp hq
  obtain ⟨_, _, _, _, _, rfl⟩ := Broker.mem_outcomes.mp ho
  obtain ⟨_, _, _, _, _, rfl⟩ := Broker.mem_outcomes.mp ho'
  rw [outcomeAt_place, outcomeAt_place] at he
  exact (Prod.mk.inj (Option.some.inj he)).1.symm

theorem Accounts.nodup (h : run.Accounts topic first fails keys env outcomes) (hk : keys.Nodup) :
    ((recorded outcomes ++ run.hands).map Outcome.place).Nodup := by
  obtain ⟨gone, hperm, _⟩ := h.balance
  have htakes : ((takes env.broker first run).map Outcome.place).Nodup := takes_nodup _ _ (h.partitions ▸ hk)
  have hall := (hperm.map Outcome.place).nodup_iff.mpr htakes
  exact hall.sublist ((List.sublist_append_left _ gone).map _)

/-- The record that a pump has in hand comes after all that were queued of its partition. -/
theorem Accounts.before (h : run.Accounts topic first fails keys env outcomes) (hk : keys.Nodup) {pump : Pump α}
    (hm : pump ∈ run.pumps) {outcome : Outcome α} (hh : pump.hand run.decoder = [outcome]) :
    ∀ earlier ∈ outcomes, earlier.Before outcome := by
  intro earlier he key offset last hp hlast
  obtain ⟨c, log, hr⟩ := h.stands pump hm
  have hplace : outcome.place = some (pump.key, pump.position - 1) := by
    obtain hn | ⟨payload, _, _, hhand⟩ := hr.hand
    · simp [hh] at hn
    · rw [hh] at hhand
      rw [List.singleton_inj.mp hhand, outcomeAt_place, hr.key, hr.position]
  obtain ⟨rfl, rfl⟩ := Prod.mk.inj (Option.some.inj (hplace.symm.trans hlast))
  have hrecorded : earlier ∈ recorded outcomes := List.mem_filter.mpr ⟨he, by simp [hp]⟩
  -- What was queued of the partition lies below the position of its pump, and what is in hand was not queued.
  have hlt : offset < pump.position := by
    obtain ⟨other, hother, _, _, _, hlt, _, rfl⟩ := mem_takes (h.taken (List.mem_append_left _ hrecorded))
    rw [outcomeAt_place] at hp
    obtain ⟨hkey, rfl⟩ := Prod.mk.inj (Option.some.inj hp)
    have hsame : other = pump := List.inj_on_of_nodup_map (h.partitions ▸ hk) hother hm hkey
    exact hsame ▸ hlt
  have hne : offset ≠ pump.position - 1 := by
    rintro rfl
    have hnodup := h.nodup hk
    rw [List.map_append, List.nodup_append] at hnodup
    have hhands : outcome ∈ run.hands := List.mem_append_left _ (List.mem_flatMap.mpr ⟨pump, hm, by simp [hh]⟩)
    exact hnodup.2.2 _ (List.mem_map_of_mem hrecorded) _ (List.mem_map_of_mem hhands) (hp.trans hplace.symm)
  omega

theorem PumpStep.tasks_ordered {pump handled : Pump α} (h : PumpStep env run pump after next handled)
    (hm : run.mode = .ordered) : next.tasks = run.tasks := by
  cases h with
  | spawned _ hc => simp [hm] at hc
  | delivered _ hd | reported _ hd => exact (deliver_cases hd).steady.2.2
  | _ => rfl

/-- Pumps that decode their records themselves queue those of a partition one after the other. -/
theorem Accounts.ordered (h : run.Accounts topic first fails keys env outcomes) (hk : keys.Nodup)
    (ho : outcomes.Pairwise Outcome.Before) {pump handled : Pump α} (hm : pump ∈ run.pumps)
    (hs : PumpStep env run pump after next handled) : (outcomes ++ run.puts next).Pairwise Outcome.Before := by
  obtain ⟨hmessages, herrors⟩ | ⟨outcome, hd, hcase⟩ := hs.delivery
  · rw [puts_of_queues hmessages herrors, List.append_nil]
    exact ho
  · obtain ⟨gone, hputs, _⟩ := hd.puts env topic
    refine List.pairwise_append.mpr ⟨ho, ?_, fun earlier he last hl => ?_⟩
    · exact (List.pairwise_singleton _ outcome).sublist (hputs ▸ List.sublist_append_left _ gone)
    · have hlast : last ∈ [outcome] := hputs ▸ List.mem_append_left gone hl
      cases List.mem_singleton.mp hlast
      obtain hhand | ⟨failure, hfailing, rfl⟩ := hcase
      · exact h.before hk hm hhand earlier he
      · intro key offset last _ hplace
        obtain ⟨_, _, hr⟩ := h.stands pump hm
        obtain ⟨_, reason, rfl⟩ := hr.failing failure hfailing
        simp [Outcome.place] at hplace

end DirectRun

/-- A partition fails if it has a failure to tell when the consumer is started, or is made to fail later. -/
def Environment.Fails (opened : Environment) (changes : List Outside) (key : PartitionKey) : Prop :=
  (∃ log, opened.broker.log? key = some log ∧ log.failure ≠ none) ∨ ∃ reason, .failPartition key reason ∈ changes

theorem Broker.partitionKeys_topic {b : Broker} {topic : String} {key : PartitionKey}
    (h : key ∈ b.partitionKeys topic) : key.1 = topic := by
  unfold partitionKeys at h
  split at h
  next => simp at h
  next =>
    obtain ⟨_, _, rfl⟩ := List.mem_map.mp h
    rfl

theorem Broker.partitionKeys_nodup (b : Broker) (topic : String) : (b.partitionKeys topic).Nodup := by
  unfold partitionKeys
  split
  next => exact .nil
  next =>
    refine List.nodup_range.map fun p q h => ?_
    have hp := (Prod.mk.inj h).2
    omega

theorem Queue.take?_same {β : Type} {queue later : Queue β} {value : β} (h : queue.take? = some (value, later)) :
    later.capacity = queue.capacity ∧ later.held = queue.held := by
  unfold Queue.take? at h
  split at h <;> cases h
  exact ⟨rfl, rfl⟩

namespace DirectRun

variable {config : Config α} {opened env after : Environment} {changes : List Outside} {run : DirectRun α}

theorem change?_passing {topic : String} {change : Outside} (h : env.change? change = some after)
    (hr : ∀ n, change ≠ .replaceTopic topic n) :
    Passing topic env after (opened.Fails changes) (opened.Fails (changes ++ [change])) where
  onward := (change?_keeps h hr).later
  wired hw := change?_wired hw h
  logs key log ht hw hl := by
    obtain ⟨log', ha, hfailure⟩ := change?_appended hw h (ht ▸ hr) hl
    refine ⟨log', ha, fun hfail hn => ?_⟩
    by_cases hc : ∃ reason, change = .failPartition key reason
    · obtain ⟨reason, rfl⟩ := hc
      exact .inr ⟨reason, by simp⟩
    · rw [hfailure fun reason he => hc ⟨reason, he⟩] at hn
      exact (hfail hn).imp_right fun ⟨reason, hm⟩ => ⟨reason, List.mem_append_left _ hm⟩
  fails key hfail := hfail.imp_right fun ⟨reason, hm⟩ => ⟨reason, List.mem_append_left _ hm⟩

theorem Started.accounts (hs : run.Started config opened env) (hw : opened.broker.Wired) :
    run.Accounts config.topic (opened.broker.startPosition · config.start) (opened.Fails [])
      (opened.broker.partitionKeys config.topic) env [] where
  wired := hw.of_eq hs.topics hs.channels
  partitions := hs.keys
  stands pump hm := by
    obtain ⟨_, key, log, rfl, hf⟩ := hs.fresh pump hm
    cases hf.opened
    have hchannel (id : Nat) : env.broker.channel id = opened.broker.channel id := by
      simp [Broker.channel, hs.channels]
    refine ⟨_, log, ⟨rfl, Broker.log?_congr hs.topics key ▸ hf.found, rfl, Int.le_refl _, ?_, ?_, by simp, .inl rfl⟩,
      fun hn => .inl ⟨log, hf.found, hn⟩, fun failure hfailing => by simp [Pump.Failing] at hfailing⟩
    · exact (Broker.startPosition_bounds config.start hf.found).2
    · simp [hchannel]
  working _ pump hm _ := by
    obtain ⟨_, _, _, rfl, hf⟩ := hs.fresh pump hm
    cases hf.opened
    exact ⟨rfl, trivial⟩
  balance := by
    refine ⟨[], ?_, fun _ => rfl⟩
    have hempty (pump : Pump α) (hm : pump ∈ run.pumps) : pump.hand run.decoder = [] ∧
        env.broker.outcomes run.decoder pump.key (opened.broker.startPosition pump.key config.start)
          pump.position = [] := by
      obtain ⟨_, _, _, rfl, hf⟩ := hs.fresh pump hm
      cases hf.opened
      exact ⟨rfl, Broker.outcomes_self ..⟩
    have hhands : run.hands = [] := by
      simp only [hands, hs.tasks, List.flatMap_nil, List.append_nil, List.flatMap_eq_nil_iff]
      exact fun pump hm => (hempty pump hm).1
    have htakes : takes env.broker (opened.broker.startPosition · config.start) run = [] :=
      List.flatMap_eq_nil_iff.mpr fun pump hm => (hempty pump hm).2
    simp [hhands, htakes, recorded]
  told outcome hm := by simp at hm

end DirectRun

namespace Journal

variable {config : Config α} {opened : Environment} {j k : Journal α}

/-- What holds of a direct consumer all along. -/
structure Sound (config : Config α) (opened : Environment) (j : Journal α) : Prop where
  accounts : j.run.Accounts config.topic (opened.broker.startPosition · config.start) (opened.Fails j.changes)
    (opened.broker.partitionKeys config.topic) j.env j.puts
  decoder : j.run.decoder = config.decoder
  mode : j.run.mode = config.decodeMode
  room : 0 < j.run.messages.capacity ∧ 0 < j.run.errors.capacity
  ordered : j.run.mode = .ordered → j.run.tasks = [] ∧ j.puts.Pairwise Outcome.Before

theorem Sound.steady (h : Sound config opened j) (hs : j.run.Steady k.run)
    (ha : k.run.Accounts config.topic (opened.broker.startPosition · config.start) (opened.Fails k.changes)
      (opened.broker.partitionKeys config.topic) k.env k.puts)
    (ho : j.run.mode = .ordered → k.run.tasks = [] ∧ k.puts.Pairwise Outcome.Before) : Sound config opened k where
  accounts := ha
  decoder := hs.decoder.trans h.decoder
  mode := hs.mode.trans h.mode
  room := by
    rw [hs.capacity.1, hs.capacity.2]
    exact h.room
  ordered hm := ho (hs.mode ▸ hm)

theorem Sound.passing (h : Sound config opened j)
    (hp : Passing config.topic j.env k.env (opened.Fails j.changes) (opened.Fails k.changes))
    (hs : j.run.Steady k.run) (hpumps : k.run.pumps = j.run.pumps) (htasks : k.run.tasks = j.run.tasks)
    (hputs : k.puts = j.puts) : Sound config opened k := by
  have ha := h.accounts.passing hp (fun _ => Broker.partitionKeys_topic) (fun _ => Broker.startPosition_nonneg ..) hs
    hpumps htasks
  exact h.steady hs (hputs ▸ ha) fun hm => ⟨htasks ▸ (h.ordered hm).1, hputs ▸ (h.ordered hm).2⟩

theorem Sound.pumped {i : Nat} {stop : Bool} {after : Environment} {next : DirectRun α} (h : Sound config opened j)
    (hs : j.run.stepPump j.env i stop = some (after, next)) : Sound config opened (j.proceed after next) := by
  obtain ⟨pump, turned, handled, hi, hstep, rfl⟩ := stepPump_cases hs
  have hkeeps : Keeps config.topic j.env after := stepPump_keeps hs
  have haccounts := h.accounts.pumped (fun _ => Broker.partitionKeys_topic)
    (fun _ => Broker.startPosition_nonneg ..) hi hstep hkeeps.later
  refine h.steady (hstep.steady.turned _ turned.tasks) haccounts fun hm => ?_
  obtain ⟨htasks, hordered⟩ := h.ordered hm
  have hqueued := h.accounts.ordered (opened.broker.partitionKeys_nodup _) hordered (List.mem_of_getElem? hi) hstep
  exact ⟨(hstep.tasks_ordered hm).trans htasks, hqueued⟩

theorem Sound.decoded {i : Nat} {stop : Bool} {next : DirectRun α} (h : Sound config opened j)
    (hs : j.run.stepTask j.env i stop = some next) : Sound config opened (j.proceed j.env next) := by
  obtain ⟨task, turned, handled, hi, hstep, rfl⟩ := stepTask_cases hs
  obtain ⟨hsteady, _, _⟩ := hstep.steady
  refine h.steady (hsteady.turned turned.pumps _) (h.accounts.tasked hi hstep)
    fun hm => ?_
  simp [(h.ordered hm).1] at hi

theorem changes_grow {a : DirectAct} (h : j.act? a = some k) : j.changes <+: k.changes := by
  cases a with
  | outside =>
    obtain ⟨_, _, rfl⟩ := Option.map_eq_some_iff.mp h
    exact List.prefix_append ..
  | dropMessages | dropErrors =>
    cases h
    exact List.prefix_refl _
  | _ =>
    obtain ⟨_, _, rfl⟩ := Option.map_eq_some_iff.mp h
    exact List.prefix_refl _

theorem Sound.acted {a : DirectAct} (h : Sound config opened j) (ha : j.act? a = some k)
    (hr : ∀ n, .replaceTopic config.topic n ∉ k.changes) : Sound config opened k := by
  cases a with
  | pump i stop =>
    obtain ⟨⟨_, _⟩, hs, rfl⟩ := Option.map_eq_some_iff.mp ha
    exact h.pumped hs
  | task i stop =>
    obtain ⟨_, hs, rfl⟩ := Option.map_eq_some_iff.mp ha
    exact h.decoded hs
  | outside change =>
    obtain ⟨_, hc, rfl⟩ := Option.map_eq_some_iff.mp ha
    exact h.passing (change?_passing hc fun n he => hr n (by simp [he])) (.refl _) rfl rfl rfl
  | receive =>
    obtain ⟨⟨_, _⟩, ht, rfl⟩ := Option.map_eq_some_iff.mp ha
    obtain ⟨hcapacity, hheld⟩ := Queue.take?_same ht
    exact h.passing (.refl ..) ⟨rfl, rfl, rfl, ⟨hcapacity, rfl⟩, fun hh => hheld ▸ hh, id⟩ rfl rfl rfl
  | receiveError =>
    obtain ⟨⟨_, _⟩, ht, rfl⟩ := Option.map_eq_some_iff.mp ha
    obtain ⟨hcapacity, hheld⟩ := Queue.take?_same ht
    exact h.passing (.refl ..) ⟨rfl, rfl, rfl, ⟨rfl, hcapacity⟩, id, fun hh => hheld ▸ hh⟩ rfl rfl rfl
  | dropMessages =>
    cases ha
    exact h.passing (.refl ..) ⟨rfl, rfl, rfl, ⟨rfl, rfl⟩, by simp [Queue.drop], id⟩ rfl rfl rfl
  | dropErrors =>
    cases ha
    exact h.passing (.refl ..) ⟨rfl, rfl, rfl, ⟨rfl, rfl⟩, id, by simp [Queue.drop]⟩ rfl rfl rfl

theorem Reached.sound (hw : opened.broker.Wired) (h : Reached config opened j)
    (hr : ∀ n, .replaceTopic config.topic n ∉ j.changes) : Sound config opened j := by
  induction h with
  | started hs hd =>
    have hstarted := Consumer.start_started hs hd
    refine ⟨hstarted.accounts hw, hstarted.decoder, hstarted.mode, ?_, fun _ => ⟨hstarted.tasks, .nil⟩⟩
    rw [hstarted.messages, hstarted.errors]
    exact ⟨Nat.le_max_right _ 1, Nat.le_max_right _ 1⟩
  | acted _ ha ih => exact (ih fun n hm => hr n ((changes_grow ha).subset hm)).acted ha hr

end Journal

end TopicConsumer
