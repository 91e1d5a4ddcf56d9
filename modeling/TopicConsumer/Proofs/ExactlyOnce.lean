import Mathlib.Data.List.Perm.Subperm
import TopicConsumer.Proofs.Delivery
import TopicConsumer.Proofs.DirectAccounts

namespace TopicConsumer

open DirectRun Environment

variable {α : Type}

def Outcome.isMessage : Outcome α → Bool
  | .message _ => true
  | .failure _ => false

/-- All that was put into a queue was taken from it or is still in it. From a queue whose receiver was dropped,
some of it was taken. -/
def Queue.Follows {β γ : Type} (queue : Queue β) (f : β → γ) (put taken : List γ) : Prop :=
  if queue.held then put = taken ++ queue.items.map f else queue.items = [] ∧ taken <+: put

namespace Queue.Follows

variable {β γ : Type} {queue later : Queue β} {f : β → γ} {put got : List γ} {value : β}

theorem offered (h : queue.Follows f put got) (ho : queue.offer value = .queued later) :
    later.Follows f (put ++ [f value]) got := by
  obtain ⟨hheld, hlater, hitems⟩ := offer_queued ho
  simp only [Follows, hheld, hlater, if_true] at h ⊢
  simp [h, hitems]

theorem took (h : queue.Follows f put got) (ht : queue.take? = some (value, later)) :
    later.Follows f put (got ++ [f value]) := by
  unfold take? at ht
  split at ht
  next => simp at ht
  next hitems =>
    cases ht
    unfold Follows at h ⊢
    split at h
    next hheld => simp [hheld, h, hitems]
    next => simp [hitems] at h

theorem dropped (h : queue.Follows f put got) : queue.drop.Follows f put got := by
  unfold Follows at h
  split at h
  next => exact ⟨rfl, h ▸ List.prefix_append ..⟩
  next => exact ⟨rfl, h.2⟩

theorem got_in_order (h : queue.Follows f put got) : got <+: put := by
  unfold Follows at h
  split at h
  next => exact h ▸ List.prefix_append ..
  next => exact h.2

end Queue.Follows

/-- A call for the next record waits only in a parked call that has seen all changes. -/
theorem Cursor.step_stuck {b : Broker} {c : Cursor} {checks : Bool} {stage : Stage} (h : c.step b checks stage = none) :
    stage = .parked ∧ c.seen = (b.channel c.channel).version := by
  cases stage with
  | marking => simp [Cursor.step] at h
  | checking | looking =>
    simp only [Cursor.step] at h
    split at h <;> simp at h
  | parked =>
    simp only [Cursor.step] at h
    split at h
    next => simp at h
    next hv => exact ⟨rfl, (Decidable.of_not_not hv).symm⟩

namespace DirectRun

variable {env : Environment} {run next : DirectRun α} {puts seen : List (Outcome α)}

/-- A run that was not cancelled, whose tasks have nothing left to do, and whose queues are empty. -/
structure Settled (env : Environment) (run : DirectRun α) : Prop where
  wanted : env.cancelled run.token = false
  held : run.messages.held = true ∧ run.errors.held = true
  drained : run.messages.items = [] ∧ run.errors.items = []
  pumps : ∀ i stop, run.stepPump env i stop = none
  tasks : ∀ i stop, run.stepTask env i stop = none

theorem Settled.delivers (h : run.Settled env) (hroom : 0 < run.messages.capacity ∧ 0 < run.errors.capacity)
    (outcome : Outcome α) : run.deliver outcome ≠ none := by
  cases outcome <;> simp [deliver, Queue.offer, h.held, h.drained, hroom]

theorem Settled.stuck (h : run.Settled env) {pump : Pump α} (hm : pump ∈ run.pumps) :
    run.stepPumpAlone env pump false = none := by
  obtain ⟨i, hi⟩ := List.mem_iff_getElem?.mp hm
  have hstep := h.pumps i false
  simp only [stepPump, hi] at hstep
  split at hstep
  next hn => exact hn
  next => simp at hstep

/-- A pump that has nothing left to do has nothing in hand. If it has not stopped reading, it is at the end of
its log. -/
theorem Settled.pump (h : run.Settled env) (hroom : 0 < run.messages.capacity ∧ 0 < run.errors.capacity)
    {first : PartitionKey → Int} {c : Cursor} {log : PartitionLog} {pump : Pump α} (hm : pump ∈ run.pumps)
    (hr : pump.Reads env.broker run.decoder first c log) :
    pump.hand run.decoder = [] ∧ (pump.Working → pump.position = log.records.length) := by
  have hstuck := h.stuck hm
  unfold stepPumpAlone at hstuck
  cases hp : pump.phase with
  | asking stage =>
    refine ⟨by simp [Pump.hand, hp], fun hworking => ?_⟩
    simp only [hp, stepAsking, hworking.1, hr.source, Source.step, Option.map_eq_none_iff, Bool.false_eq_true,
      if_false] at hstuck
    obtain ⟨rfl, hseen⟩ := Cursor.step_stuck hstuck
    exact hr.position.trans (hr.parked hp hseen)
  | taken | measured =>
    simp only [hp] at hstuck
    split at hstuck <;> simp at hstuck
  | closing failure => cases failure <;> simp [hp] at hstuck
  | sending outcome => simp [hp, h.delivers hroom] at hstuck
  | reporting failure => simp [hp, h.delivers hroom] at hstuck
  | done => simp [Pump.hand, Pump.Working, hp]

theorem Settled.task (h : run.Settled env) (hroom : 0 < run.messages.capacity ∧ 0 < run.errors.capacity)
    {task : DecodeTask α} (hm : task ∈ run.tasks) : task.hand run.decoder = [] := by
  obtain ⟨i, hi⟩ := List.mem_iff_getElem?.mp hm
  have hstuck := h.tasks i false
  unfold stepTask at hstuck
  rw [hi] at hstuck
  cases task with
  | decoding record => simp at hstuck
  | sending outcome ticket => simp [h.delivers hroom] at hstuck
  | done => rfl

/-- The application sees what was queued, the messages and the failures each in the order in which they were
queued. -/
structure Shows (run : DirectRun α) (puts seen : List (Outcome α)) : Prop where
  messages : run.messages.Follows .message (puts.filter (·.isMessage)) (seen.filter (·.isMessage))
  errors : run.errors.Follows .failure (puts.filter (!·.isMessage)) (seen.filter (!·.isMessage))

theorem Shows.same (h : run.Shows puts seen) (hm : next.messages = run.messages) (he : next.errors = run.errors) :
    next.Shows (puts ++ run.puts next) seen := by
  rw [puts_of_queues hm he, List.append_nil]
  exact ⟨hm ▸ h.messages, he ▸ h.errors⟩

theorem Shows.delivered {outcome : Outcome α} (h : run.Shows puts seen) (hd : Delivery run outcome next) :
    next.Shows (puts ++ run.puts next) seen := by
  cases hd with
  | @message message messages ho =>
    have hputs : run.puts { run with messages := messages } = [.message message] := by
      simp [DirectRun.puts, (Queue.offer_queued ho).2.2]
    rw [hputs]
    exact ⟨by simpa [Outcome.isMessage] using h.messages.offered ho, by simpa [Outcome.isMessage] using h.errors⟩
  | @failure failure errors ho =>
    have hputs : run.puts { run with errors := errors } = [.failure failure] := by
      simp [DirectRun.puts, (Queue.offer_queued ho).2.2]
    rw [hputs]
    exact ⟨by simpa [Outcome.isMessage] using h.messages, by simpa [Outcome.isMessage] using h.errors.offered ho⟩
  | lost => exact h.same rfl rfl

theorem Shows.subperm (h : run.Shows puts seen) : seen.Subperm puts := by
  have hparts := h.messages.got_in_order.sublist.subperm.append h.errors.got_in_order.sublist.subperm
  exact ((List.filter_append_perm _ seen).symm.subperm.trans hparts).trans (List.filter_append_perm _ puts).subperm

theorem Shows.settled (h : run.Shows puts seen) (hs : run.Settled env) : seen.Perm puts := by
  have hmessages := h.messages
  have herrors := h.errors
  simp only [Queue.Follows, hs.held, hs.drained, if_true, List.map_nil, List.append_nil] at hmessages herrors
  have hseen := List.filter_append_perm (·.isMessage) seen
  rw [← hmessages, ← herrors] at hseen
  exact hseen.symm.trans (List.filter_append_perm _ puts)

end DirectRun

namespace Journal

variable {config other : Config α} {opened opened' : Environment} {j k : Journal α}

theorem shows_acted {a : DirectAct} (h : j.run.Shows j.puts j.seen) (ha : j.act? a = some k) :
    k.run.Shows k.puts k.seen := by
  cases a with
  | pump i stop =>
    obtain ⟨⟨_, _⟩, hs, rfl⟩ := Option.map_eq_some_iff.mp ha
    obtain ⟨_, _, _, _, hstep, rfl⟩ := stepPump_cases hs
    obtain ⟨hm, he⟩ | ⟨_, hd, _⟩ := hstep.delivery
    · exact ⟨(h.same hm he).messages, (h.same hm he).errors⟩
    · exact ⟨(h.delivered hd).messages, (h.delivered hd).errors⟩
  | task i stop =>
    obtain ⟨_, hs, rfl⟩ := Option.map_eq_some_iff.mp ha
    obtain ⟨_, _, _, _, hstep, rfl⟩ := stepTask_cases hs
    obtain ⟨hm, he⟩ | ⟨_, hd⟩ := hstep.delivery
    · exact ⟨(h.same hm he).messages, (h.same hm he).errors⟩
    · exact ⟨(h.delivered hd).messages, (h.delivered hd).errors⟩
  | outside change =>
    obtain ⟨_, _, rfl⟩ := Option.map_eq_some_iff.mp ha
    exact h
  | receive =>
    obtain ⟨⟨_, _⟩, ht, rfl⟩ := Option.map_eq_some_iff.mp ha
    exact ⟨by simpa [Outcome.isMessage] using h.messages.took ht, by simpa [Outcome.isMessage] using h.errors⟩
  | receiveError =>
    obtain ⟨⟨_, _⟩, ht, rfl⟩ := Option.map_eq_some_iff.mp ha
    exact ⟨by simpa [Outcome.isMessage] using h.messages, by simpa [Outcome.isMessage] using h.errors.took ht⟩
  | dropMessages =>
    cases ha
    exact ⟨h.messages.dropped, h.errors⟩
  | dropErrors =>
    cases ha
    exact ⟨h.messages, h.errors.dropped⟩

theorem Reached.shows (h : Reached config opened j) : j.run.Shows j.puts j.seen := by
  induction h with
  | started hs hd =>
    have hstarted := Consumer.start_started hs hd
    exact ⟨by simp [hstarted.messages, Queue.Follows], by simp [hstarted.errors, Queue.Follows]⟩
  | acted _ ha ih => exact shows_acted ih ha

/-- When the tasks have nothing left to do, the outcomes of all records that were taken are queued. -/
theorem Sound.settled (h : Sound config opened j) (hs : j.run.Settled j.env) (hfits : j.env.broker.Fits config.topic) :
    (recorded j.puts).Perm (takes j.env.broker (opened.broker.startPosition · config.start) j.run) := by
  obtain ⟨gone, hperm, hgone⟩ := h.accounts.balance
  have hhands : j.run.hands = [] := by
    refine List.append_eq_nil_iff.mpr ⟨List.flatMap_eq_nil_iff.mpr fun pump hm => ?_,
      List.flatMap_eq_nil_iff.mpr fun task hm => hs.task h.room hm⟩
    obtain ⟨c, log, hr⟩ := h.accounts.stands pump hm
    exact (hs.pump h.room hm hr.toReads).1
  have hnone : gone = [] := hgone ⟨hs.wanted, hfits, hs.held.1, hs.held.2⟩
  simpa [hhands, hnone] using hperm

/-- A direct consumer at work on a topic that is not created anew, and of which no partition fails. -/
structure Undisturbed (config : Config α) (opened : Environment) (j : Journal α) : Prop where
  began : ∃ before, ({} : Environment).changes? before = some opened
  reached : Reached config opened j
  kept : ∀ n, .replaceTopic config.topic n ∉ j.changes
  whole : ∀ key, key.1 = config.topic → ¬ opened.Fails j.changes key

/-- Each record from the start position on has one outcome, which the application sees once. -/
structure ExactOutcomes (config : Config α) (opened : Environment) (j : Journal α) : Prop where
  genuine : ∀ outcome ∈ j.puts, ∃ key ∈ opened.broker.partitionKeys config.topic, ∃ offset payload,
    opened.broker.startPosition key config.start ≤ offset ∧ j.env.broker.payload? key offset = some payload ∧
      outcome = outcomeAt config.decoder key offset payload
  once : (j.puts.map Outcome.place).Nodup
  shown : j.seen.Subperm j.puts
  ordered : config.decodeMode = .ordered → j.puts.Pairwise Outcome.Before ∧
    (j.seen.filter (·.isMessage)).Pairwise Outcome.Before ∧ (j.seen.filter (!·.isMessage)).Pairwise Outcome.Before
  complete : j.run.Settled j.env → j.env.broker.Fits config.topic →
    ∀ key ∈ opened.broker.partitionKeys config.topic, ∀ offset payload,
      opened.broker.startPosition key config.start ≤ offset → j.env.broker.payload? key offset = some payload →
        outcomeAt config.decoder key offset payload ∈ j.seen

theorem Undisturbed.exact (h : Undisturbed config opened j) : ExactOutcomes config opened j := by
  obtain ⟨before, hopened⟩ := h.began
  have hs := h.reached.sound (changes?_wired Broker.wired_empty hopened) h.kept
  have hshows := h.reached.shows
  have hfails (key : PartitionKey) (hk : key ∈ opened.broker.partitionKeys config.topic) :
      ¬ opened.Fails j.changes key := h.whole key (Broker.partitionKeys_topic hk)
  have hkey (pump : Pump α) (hm : pump ∈ j.run.pumps) : pump.key ∈ opened.broker.partitionKeys config.topic :=
    hs.accounts.partitions ▸ List.mem_map_of_mem hm
  have hrecorded : recorded j.puts = j.puts := by
    refine List.filter_eq_self.mpr fun outcome hm => Option.isSome_iff_ne_none.mpr fun hn => ?_
    obtain ⟨key, hk, hf⟩ := hs.accounts.told outcome hm hn
    exact hfails key hk hf
  refine ⟨fun outcome hm => ?_, ?_, hshows.subperm, fun hm => ?_, ?_⟩
  · have htaken : outcome ∈ recorded j.puts ++ j.run.hands := List.mem_append_left _ (hrecorded.symm ▸ hm)
    obtain ⟨pump, hpump, offset, payload, hlow, _, hp, rfl⟩ := mem_takes (hs.accounts.taken htaken)
    exact ⟨pump.key, hkey pump hpump, offset, payload, hlow, hp, by rw [hs.decoder]⟩
  · have hnodup := hs.accounts.nodup (opened.broker.partitionKeys_nodup _)
    rw [hrecorded, List.map_append] at hnodup
    exact hnodup.sublist (List.sublist_append_left _ _)
  · have hputs := (hs.ordered (hs.mode.trans hm)).2
    exact ⟨hputs, hputs.sublist (hshows.messages.got_in_order.sublist.trans List.filter_sublist),
      hputs.sublist (hshows.errors.got_in_order.sublist.trans List.filter_sublist)⟩
  · intro hsettled hfits key hk offset payload hlow hp
    rw [← hs.accounts.partitions] at hk
    obtain ⟨pump, hm, rfl⟩ := List.mem_map.mp hk
    obtain ⟨c, log, hr⟩ := hs.accounts.stands pump hm
    have hworking : pump.Working := hs.accounts.working ⟨hsettled.wanted, hfits, hsettled.held.1, hsettled.held.2⟩
      pump hm (hfails _ (hkey pump hm))
    have hend : pump.position = log.records.length := (hsettled.pump hs.room hm hr.toReads).2 hworking
    have hlast : offset < log.records.length := Broker.payload?_lt hr.found (hr.key ▸ hp)
    rw [(hshows.settled hsettled).mem_iff, ← hrecorded, (hs.settled hsettled hfits).mem_iff, ← hs.decoder]
    exact List.mem_flatMap.mpr ⟨pump, hm, Broker.mem_outcomes.mpr ⟨offset, payload, hlow, by omega, hp, rfl⟩⟩

theorem ExactOutcomes.nodup (h : ExactOutcomes config opened j) : j.seen.Nodup := by
  obtain ⟨some, hperm, hsub⟩ := h.shown
  exact hperm.nodup_iff.mp ((List.Nodup.of_map _ h.once).sublist hsub)

/-- Two consumers decode alike, and read the same records from the same offsets on. -/
structure Alike (config other : Config α) (opened opened' env env' : Environment) : Prop where
  decoder : other.decoder = config.decoder
  partitions : opened'.broker.partitionKeys other.topic = opened.broker.partitionKeys config.topic
  starts : ∀ key ∈ opened.broker.partitionKeys config.topic,
    opened'.broker.startPosition key other.start = opened.broker.startPosition key config.start
  records : ∀ key ∈ opened.broker.partitionKeys config.topic, ∀ offset,
    env'.broker.payload? key offset = env.broker.payload? key offset

theorem Alike.symm {env env' : Environment} (h : Alike config other opened opened' env env') :
    Alike other config opened' opened env' env where
  decoder := h.decoder.symm
  partitions := h.partitions.symm
  starts key hk := (h.starts key (h.partitions ▸ hk)).symm
  records key hk offset := (h.records key (h.partitions ▸ hk) offset).symm

theorem ExactOutcomes.subset (h : ExactOutcomes config opened j) (h' : ExactOutcomes other opened' k)
    (ha : Alike config other opened opened' j.env k.env) (hs : k.run.Settled k.env)
    (hfits : k.env.broker.Fits other.topic) : j.seen ⊆ k.seen := by
  intro outcome hm
  obtain ⟨key, hk, offset, payload, hlow, hp, rfl⟩ := h.genuine outcome (h.shown.subset hm)
  have hseen := h'.complete hs hfits key (ha.partitions ▸ hk) offset payload (by rw [ha.starts key hk]; exact hlow)
    (by rw [ha.records key hk]; exact hp)
  exact ha.decoder ▸ hseen

end Journal

open Journal

/-- Whatever order the tasks of a direct consumer run in, and in both decode modes, each record from the start
position on has one outcome, and what the application sees in the end is the same in all runs over the same
records. -/
theorem direct_exactly_once {α : Type} {config : Config α} {opened : Environment} {j : Journal α}
    (h : Undisturbed config opened j) :
    ExactOutcomes config opened j ∧ ∀ (other : Config α) (opened' : Environment) (k : Journal α),
      Undisturbed other opened' k → Alike config other opened opened' j.env k.env →
        j.run.Settled j.env → j.env.broker.Fits config.topic → k.run.Settled k.env → k.env.broker.Fits other.topic →
          j.seen.Perm k.seen := by
  refine ⟨h.exact, fun other opened' k h' ha hs hfits hs' hfits' => ?_⟩
  refine (List.perm_ext_iff_of_nodup h.exact.nodup h'.exact.nodup).mpr fun outcome => ?_
  exact ⟨fun hm => h.exact.subset h'.exact ha hs' hfits' hm, fun hm => h'.exact.subset h.exact ha.symm hs hfits hm⟩

def Journal.run? (j : Journal α) : List DirectAct → Option (Journal α)
  | [] => some j
  | a :: rest => (j.act? a).bind (·.run? rest)

theorem Journal.Reached.run? {config : Config α} {opened : Environment} {j k : Journal α} {acts : List DirectAct}
    (h : Reached config opened j) (hr : j.run? acts = some k) : Reached config opened k := by
  induction acts generalizing j with
  | nil =>
    cases Option.some.inj hr
    exact h
  | cons a rest ih =>
    obtain ⟨next, ha, hrest⟩ := Option.bind_eq_some_iff.mp hr
    exact ih (.acted h ha) hrest

def Journal.begin? (config : Config α) (opened : Environment) (acts : List DirectAct) : Option (Journal α) :=
  match Consumer.start { env := opened } { blueprint := .direct config, connector := .broker } [] with
  | (.ok _, { env, directs := [run], .. }, _) => ({ env := env, run := run } : Journal α).run? acts
  | _ => none

theorem Journal.reached_of_begin? {config : Config α} {opened : Environment} {acts : List DirectAct} {j : Journal α}
    (h : begin? config opened acts = some j) : Reached config opened j := by
  unfold begin? at h
  split at h
  next hs => exact (Reached.started hs rfl).run? h
  next => simp at h

def orders (mode : DecodeMode) : Config Nat := { billing with group := none, decodeMode := mode }

def ordersOpened (payloads : List Bytes) : Environment :=
  (({} : Environment).changes? (.createTopic "orders" 1 :: payloads.map (.produce ("orders", 0)))).getD {}

/-- The second of two records is produced late, and decoded first. -/
def concurrentOrders : Option (Journal Nat) :=
  let pump : DirectAct := .pump 0 false
  let later : DirectAct := .task 1 false
  let earlier : DirectAct := .task 0 false
  Journal.begin? (orders .concurrent) (ordersOpened [[7]])
    [pump, pump, pump, pump, pump, .outside (.produce ("orders", 0) []), pump, pump, pump, pump, pump,
      later, later, .receiveError, earlier, earlier, .receive, pump, pump, pump]

def orderedOrders : Option (Journal Nat) :=
  let pump : DirectAct := .pump 0 false
  Journal.begin? (orders .ordered) (ordersOpened [[7], []])
    [pump, pump, pump, pump, pump, pump, pump, pump, pump, pump, pump, pump, .receive, .receiveError, pump, pump, pump]

def ordersLogs : Table String (List PartitionLog) := [("orders", [{ records := [[7], []], channel := 0 }])]

theorem Journal.undisturbed_of_begin? {config : Config α} {opened : Environment} {acts : List DirectAct}
    {j : Journal α} (before : List Outside) (hb : ({} : Environment).changes? before = some opened)
    (h : begin? config opened acts = some j)
    (hl : ∀ p : Nat, (opened.broker.log? (config.topic, p)).bind (·.failure) = none)
    (hc : ∀ change ∈ j.changes, ∃ key payload, change = .produce key payload) : Undisturbed config opened j where
  began := ⟨before, hb⟩
  reached := reached_of_begin? h
  kept n hm := by
    obtain ⟨_, _, he⟩ := hc _ hm
    simp at he
  whole := by
    rintro ⟨_, p⟩ rfl (⟨log, hlog, hn⟩ | ⟨reason, hm⟩)
    · obtain ⟨n, rfl⟩ := Int.eq_ofNat_of_zero_le (Broker.log?_nonneg hlog)
      have hnone := hl n
      exact hn (by simpa [hlog] using hnone)
    · obtain ⟨_, _, he⟩ := hc _ hm
      simp at he

theorem Broker.Fits.of_log {b : Broker} {topic : String} (bound : Nat) (hb : bound ≤ maxOffset)
    (h : ∀ p : Nat, (b.log? (topic, p)).elim 0 (·.records.length) ≤ bound) : b.Fits topic := by
  rintro ⟨_, p⟩ rfl
  unfold highWaterMark
  split
  next => simp [maxOffset]
  next log hl =>
    obtain ⟨n, rfl⟩ := Int.eq_ofNat_of_zero_le (log?_nonneg hl)
    have hlength := h n
    simp only [hl, Option.elim] at hlength
    omega

/-- Both runs end, and the application sees a message and a failure, in different orders. -/
theorem orders_seen_in_both_modes : ∃ j k, concurrentOrders = some j ∧ orderedOrders = some k ∧
    ExactOutcomes (orders .concurrent) (ordersOpened [[7]]) j ∧ j.seen.Perm k.seen ∧
    j.seen.map Outcome.place = [some (("orders", 0), 1), some (("orders", 0), 0)] ∧
    k.seen.map Outcome.place = [some (("orders", 0), 0), some (("orders", 0), 1)] := by
  have hj : concurrentOrders.isSome = true := by rfl
  have hk : orderedOrders.isSome = true := by rfl
  have hundisturbed : Undisturbed (orders .concurrent) (ordersOpened [[7]]) (concurrentOrders.get hj) :=
    undisturbed_of_begin? [.createTopic "orders" 1, .produce ("orders", 0) [7]] rfl (Option.some_get hj).symm
      (fun | 0 => rfl | _ + 1 => rfl) fun change hm => by
      have hm : change ∈ [Outside.produce ("orders", 0) []] := hm
      exact ⟨_, _, List.mem_singleton.mp hm⟩
  have hundisturbed' : Undisturbed (orders .ordered) (ordersOpened [[7], []]) (orderedOrders.get hk) :=
    undisturbed_of_begin? [.createTopic "orders" 1, .produce ("orders", 0) [7], .produce ("orders", 0) []] rfl
      (Option.some_get hk).symm (fun | 0 => rfl | _ + 1 => rfl)
      fun change hm => by
      have hm : change ∈ [] := hm
      simp at hm
  have htopics : (concurrentOrders.get hj).env.broker.topics = ordersLogs := rfl
  have htopics' : (orderedOrders.get hk).env.broker.topics = ordersLogs := rfl
  have halike : Alike (orders .concurrent) (orders .ordered) (ordersOpened [[7]]) (ordersOpened [[7], []])
      (concurrentOrders.get hj).env (orderedOrders.get hk).env := ⟨rfl, rfl, fun _ _ => rfl, fun key _ offset => by
        rw [Broker.payload?_congr (htopics'.trans htopics.symm)]⟩
  have hsettled : (concurrentOrders.get hj).run.Settled (concurrentOrders.get hj).env :=
    ⟨rfl, ⟨rfl, rfl⟩, ⟨rfl, rfl⟩, fun | 0, true => rfl | 0, false => rfl | i + 1, _ => rfl,
      fun | 0, true => rfl | 0, false => rfl | 1, true => rfl | 1, false => rfl | i + 2, _ => rfl⟩
  have hsettled' : (orderedOrders.get hk).run.Settled (orderedOrders.get hk).env :=
    ⟨rfl, ⟨rfl, rfl⟩, ⟨rfl, rfl⟩, fun | 0, true => rfl | 0, false => rfl | i + 1, _ => rfl, fun | _, _ => rfl⟩
  have hfits : (concurrentOrders.get hj).env.broker.Fits "orders" := .of_log 2 (by decide)
    fun | 0 => Nat.le_refl 2 | _ + 1 => Nat.zero_le 2
  have hfits' : (orderedOrders.get hk).env.broker.Fits "orders" := .of_log 2 (by decide)
    fun | 0 => Nat.le_refl 2 | _ + 1 => Nat.zero_le 2
  obtain ⟨hexact, hsame⟩ := direct_exactly_once hundisturbed
  exact ⟨_, _, (Option.some_get hj).symm, (Option.some_get hk).symm, hexact,
    hsame _ _ _ hundisturbed' halike hsettled hfits hsettled' hfits', rfl, rfl⟩

end TopicConsumer
