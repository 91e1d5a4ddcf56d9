import TopicConsumer.Proofs.Chronicle

namespace TopicConsumer

namespace Broker

variable {b after : Broker} {topic : String} {key : PartitionKey} {log : PartitionLog}

structure Wired (b : Broker) : Prop where
  live : ∀ key log, b.log? key = some log →
    ∃ channel, b.channels[log.channel]? = some channel ∧ channel.live = true
  apart : ∀ key other log log', b.log? key = some log → b.log? other = some log' →
    log.channel = log'.channel → key = other

theorem wired_empty : ({} : Broker).Wired where
  live key log h := by simp [log?, Table.get?] at h
  apart key other log log' h := by simp [log?, Table.get?] at h

theorem Wired.channel_live (h : b.Wired) (hl : b.log? key = some log) :
    (b.channel log.channel).live = true := by
  obtain ⟨channel, hc, hlive⟩ := h.live key log hl
  simpa [Broker.channel, hc] using hlive

/-- A broker stays wired as long as its logs keep their channels and these stay live. -/
theorem Wired.of_logs (h : b.Wired)
    (hl : ∀ key log, after.log? key = some log → ∃ before, b.log? key = some before ∧ log.channel = before.channel)
    (hc : ∀ (id : Nat) (channel : Channel), b.channels[id]? = some channel → channel.live = true →
      ∃ later, after.channels[id]? = some later ∧ later.live = true) : after.Wired where
  live key log hlog := by
    obtain ⟨before, hb, he⟩ := hl key log hlog
    obtain ⟨channel, hchannel, hlive⟩ := h.live key before hb
    exact he ▸ hc _ channel hchannel hlive
  apart key other log log' hlog hlog' he := by
    obtain ⟨before, hb, hk⟩ := hl key log hlog
    obtain ⟨before', hb', hk'⟩ := hl other log' hlog'
    exact h.apart key other before before' hb hb' (hk ▸ hk' ▸ he)

theorem log?_congr (h : after.topics = b.topics) (key : PartitionKey) : after.log? key = b.log? key := by
  simp only [log?, h]

theorem Wired.of_eq (h : b.Wired) (ht : after.topics = b.topics) (hc : after.channels = b.channels) :
    after.Wired :=
  h.of_logs (fun _ log hl => ⟨log, log?_congr ht _ ▸ hl, rfl⟩) fun _ channel hi hlive => ⟨channel, hc ▸ hi, hlive⟩

theorem touch_version (b : Broker) (id other : Nat) :
    (b.channel other).version ≤ ((b.touch id).channel other).version := by
  unfold touch channel
  dsimp only
  rw [List.getElem?_modify]
  cases b.channels[other]? with
  | none => exact Nat.le_refl _
  | some c =>
    by_cases h : id = other
    · simp [h]
    · simp [h]

theorem touch_told (b : Broker) {id : Nat} (h : id < b.channels.length) :
    (b.channel id).version < ((b.touch id).channel id).version := by
  unfold touch channel
  simp [h]

theorem changeLog_ok {f : PartitionLog → PartitionLog} (h : b.changeLog key f = .ok after) :
    ∃ log, b.log? key = some log ∧
      after = ({ b with topics := Table.modify key.1 (·.modify key.2.toNat f) b.topics } : Broker).touch
        log.channel := by
  unfold changeLog at h
  split at h
  next => simp at h
  next log hl =>
    cases h
    exact ⟨log, hl, rfl⟩

theorem log?_changeLog {f : PartitionLog → PartitionLog} (h : b.changeLog key f = .ok after)
    (other : PartitionKey) :
    after.log? other = if other = key then (b.log? other).map f else b.log? other := by
  obtain ⟨log, hl, rfl⟩ := changeLog_ok h
  exact log?_modify (log?_nonneg hl) f other

theorem Wired.changeLog {f : PartitionLog → PartitionLog} (hw : b.Wired) (h : b.changeLog key f = .ok after)
    (hf : ∀ log, (f log).channel = log.channel) : after.Wired := by
  refine hw.of_logs (fun other log hl => ?_) fun id channel hi hlive => ?_
  · rw [log?_changeLog h] at hl
    split at hl
    next =>
      obtain ⟨before, hb, rfl⟩ := Option.map_eq_some_iff.mp hl
      exact ⟨before, hb, hf before⟩
    next => exact ⟨log, hl, rfl⟩
  · obtain ⟨log, _, rfl⟩ := changeLog_ok h
    unfold touch
    dsimp only
    rw [List.getElem?_modify, hi]
    refine ⟨_, rfl, ?_⟩
    split <;> exact hlive

def failure? (b : Broker) (key : PartitionKey) : Option String := (b.log? key).bind (·.failure)

theorem takeFailure_eq_some {reason : String} (h : b.takeFailure key = some (reason, after)) :
    b.failure? key = some reason ∧ after.channels = b.channels ∧
      ∀ other, after.log? other = if other = key then (b.log? other).map ({ · with failure := none })
        else b.log? other := by
  unfold takeFailure at h
  split at h
  next => simp at h
  next log hl =>
    split at h
    next => simp at h
    next hf =>
      cases h
      exact ⟨by simp [failure?, hl, hf], rfl, log?_modify (log?_nonneg hl) _⟩

theorem Wired.takeFailure {reason : String} (hw : b.Wired) (h : b.takeFailure key = some (reason, after)) :
    after.Wired := by
  obtain ⟨_, hc, hlog⟩ := takeFailure_eq_some h
  refine hw.of_logs (fun other later hlater => ?_) fun _ channel hi hlive => ⟨channel, hc ▸ hi, hlive⟩
  rw [hlog] at hlater
  split at hlater
  next =>
    obtain ⟨before, hb, rfl⟩ := Option.map_eq_some_iff.mp hlater
    exact ⟨before, hb, rfl⟩
  next => exact ⟨later, hlater, rfl⟩

theorem length_foldl_modify {β : Type} (ids : List Nat) (f : β → β) (xs : List β) :
    (ids.foldl (fun xs id => xs.modify id f) xs).length = xs.length := by
  induction ids generalizing xs with
  | nil => rfl
  | cons id rest ih => simp [ih]

theorem getElem?_foldl_modify {β : Type} {ids : List Nat} (f : β → β) (xs : List β) {i : Nat} (h : i ∉ ids) :
    (ids.foldl (fun xs id => xs.modify id f) xs)[i]? = xs[i]? := by
  induction ids generalizing xs with
  | nil => rfl
  | cons id rest ih =>
    simp only [List.mem_cons, not_or] at h
    simp [ih _ h.2, Ne.symm h.1]

theorem log?_createTopic (b : Broker) (topic : String) (n : Nat) (key : PartitionKey) :
    (b.createTopic topic n).log? key =
      if key.1 = topic then
        if 0 ≤ key.2 ∧ key.2.toNat < n then some { channel := b.channels.length + key.2.toNat } else none
      else b.log? key := by
  unfold log? createTopic
  simp only [Table.get?_set, length_foldl_modify]
  by_cases hn : key.2 < 0
  · have : ¬ (0 ≤ key.2 ∧ key.2.toNat < n) := by omega
    simp [hn, this]
  · by_cases ht : key.1 = topic
    · by_cases hp : key.2.toNat < n
      · simp [hn, ht, hp, Int.not_lt.mp hn]
      · simp [hn, ht, hp]
    · simp [hn, ht]

/-- A topic that is created, anew or not, leaves the channels of all other logs alone. -/
theorem Wired.channels_createTopic (h : b.Wired) {n : Nat} (ht : key.1 ≠ topic) (hl : b.log? key = some log) :
    (b.createTopic topic n).channels[log.channel]? = b.channels[log.channel]? := by
  obtain ⟨channel, hc, _⟩ := h.live key log hl
  have hb : log.channel < b.channels.length := (List.getElem?_eq_some_iff.mp hc).1
  unfold createTopic
  dsimp only
  rw [List.getElem?_append_left (by rwa [length_foldl_modify])]
  refine getElem?_foldl_modify _ _ fun hm => ?_
  obtain ⟨old, hold, he⟩ := List.mem_map.mp hm
  cases hg : b.topics.get? topic with
  | none => simp [hg] at hold
  | some logs =>
    obtain ⟨i, hi⟩ := List.mem_iff_getElem?.mp (by simpa [hg] using hold)
    have hlog : b.log? (topic, (i : Int)) = some old := by simp [log?, hg, hi]
    have hkey : (topic, (i : Int)) = key := h.apart _ key old log hlog hl he
    exact ht (hkey ▸ rfl)

theorem Wired.createTopic (h : b.Wired) (topic : String) (n : Nat) : (b.createTopic topic n).Wired := by
  have hnew (key : PartitionKey) (log : PartitionLog) (hl : (b.createTopic topic n).log? key = some log) :
      (key.1 = topic ∧ 0 ≤ key.2 ∧ key.2.toNat < n ∧ log.channel = b.channels.length + key.2.toNat) ∨
        (key.1 ≠ topic ∧ b.log? key = some log ∧ log.channel < b.channels.length) := by
    rw [log?_createTopic] at hl
    split at hl
    next ht =>
      split at hl
      next hp =>
        cases hl
        exact .inl ⟨ht, hp.1, hp.2, rfl⟩
      next => simp at hl
    next ht =>
      obtain ⟨channel, hc, _⟩ := h.live key log hl
      exact .inr ⟨ht, hl, (List.getElem?_eq_some_iff.mp hc).1⟩
  constructor
  · intro key log hl
    obtain ⟨_, _, hp, hc⟩ | ⟨ht, hb, _⟩ := hnew key log hl
    · refine ⟨{}, ?_, rfl⟩
      unfold Broker.createTopic
      dsimp only
      rw [hc, List.getElem?_append_right (by simp [length_foldl_modify]), length_foldl_modify,
        List.getElem?_replicate]
      simp [hp]
    · rw [h.channels_createTopic ht hb]
      exact h.live key log hb
  · intro key other log log' hl hl' he
    obtain ⟨ht, h0, _, hc⟩ | ⟨_, hb, hlt⟩ := hnew key log hl <;>
      obtain ⟨ht', h0', _, hc'⟩ | ⟨_, hb', hlt'⟩ := hnew other log' hl'
    · exact Prod.ext (ht.trans ht'.symm) (by omega)
    · omega
    · omega
    · exact h.apart key other log log' hb hb' he

structure Appended (b after : Broker) (key : PartitionKey) (log later : PartitionLog) : Prop where
  found : after.log? key = some later
  records : log.records <+: later.records
  channel : later.channel = log.channel
  version : (b.channel log.channel).version ≤ (after.channel log.channel).version
  told : later.records ≠ log.records → (b.channel log.channel).version < (after.channel log.channel).version

theorem Appended.of_eq (hl : b.log? key = some log) (ht : after.topics = b.topics)
    (hc : after.channels = b.channels) : Appended b after key log log where
  found := log?_congr ht _ ▸ hl
  records := List.prefix_refl _
  channel := rfl
  version := by simp [Broker.channel, hc]
  told h := absurd rfl h

theorem Appended.payload? {later : PartitionLog} {offset : Int} {payload : Bytes}
    (ha : Appended b after key log later) (hl : b.log? key = some log)
    (hp : b.payload? key offset = some payload) : after.payload? key offset = some payload := by
  obtain ⟨h0, log', hl', hr⟩ := payload?_eq_some.mp hp
  cases Option.some.inj (hl.symm.trans hl')
  obtain ⟨more, hm⟩ := ha.records
  have hb := (List.getElem?_eq_some_iff.mp hr).1
  exact payload?_eq_some.mpr ⟨h0, later, ha.found, by rw [← hm, List.getElem?_append_left hb, hr]⟩

theorem takeFailure_appended {reason : String} {changed : PartitionKey}
    (h : b.takeFailure changed = some (reason, after)) (hl : b.log? key = some log) :
    ∃ later, Appended b after key log later ∧ (later.failure = log.failure ∨ later.failure = none) := by
  obtain ⟨_, hc, hlogs⟩ := takeFailure_eq_some h
  have hversion : (b.channel log.channel).version ≤ (after.channel log.channel).version := by simp [channel, hc]
  have hlog := hlogs key
  rw [hl] at hlog
  split at hlog
  next => exact ⟨_, ⟨hlog, List.prefix_refl _, rfl, hversion, absurd rfl⟩, .inr rfl⟩
  next => exact ⟨log, ⟨hlog, List.prefix_refl _, rfl, hversion, absurd rfl⟩, .inl rfl⟩

theorem Wired.createTopic_appended (h : b.Wired) {n : Nat} (ht : key.1 ≠ topic) (hl : b.log? key = some log) :
    Appended b (b.createTopic topic n) key log log where
  found := by rw [log?_createTopic, if_neg ht, hl]
  records := List.prefix_refl _
  channel := rfl
  version := by simp [Broker.channel, h.channels_createTopic ht hl]
  told hn := absurd rfl hn

theorem Wired.changeLog_appended {f : PartitionLog → PartitionLog} (hw : b.Wired) {changed : PartitionKey}
    (h : b.changeLog changed f = .ok after) (hf : ∀ log, log.records <+: (f log).records)
    (hc : ∀ log, (f log).channel = log.channel) (hl : b.log? key = some log) :
    ∃ later, Appended b after key log later ∧ (later = log ∨ key = changed ∧ later = f log) := by
  have hlog := log?_changeLog h key
  obtain ⟨old, hold, rfl⟩ := changeLog_ok h
  have hversion : (b.channel log.channel).version ≤ ((b.touch old.channel).channel log.channel).version :=
    touch_version b old.channel log.channel
  by_cases hk : key = changed
  · subst hk
    cases Option.some.inj (hl.symm.trans hold)
    obtain ⟨channel, hchannel, _⟩ := hw.live key log hl
    have hb : log.channel < b.channels.length := (List.getElem?_eq_some_iff.mp hchannel).1
    refine ⟨f log, ⟨?_, hf log, hc log, hversion, fun _ => touch_told b hb⟩, .inr ⟨rfl, rfl⟩⟩
    rw [hlog, if_pos rfl, hl]
    rfl
  · refine ⟨log, ⟨?_, List.prefix_refl _, rfl, hversion, absurd rfl⟩, .inl rfl⟩
    rw [hlog, if_neg hk, hl]

theorem payload?_isSome_iff {offset : Int} :
    (∃ payload, b.payload? key offset = some payload) ↔ 0 ≤ offset ∧ offset < b.highWaterMark key := by
  unfold highWaterMark
  constructor
  · rintro ⟨payload, hp⟩
    obtain ⟨h0, log, hl, hr⟩ := payload?_eq_some.mp hp
    have hlt := (List.getElem?_eq_some_iff.mp hr).1
    rw [hl]
    dsimp only
    omega
  · rintro ⟨h0, hlt⟩
    split at hlt
    next => omega
    next log hl =>
      have hb : offset.toNat < log.records.length := by omega
      exact ⟨log.records[offset.toNat], payload?_eq_some.mpr ⟨h0, log, hl, List.getElem?_eq_getElem hb⟩⟩

theorem highWaterMark_nonneg (b : Broker) (key : PartitionKey) : 0 ≤ b.highWaterMark key := by
  unfold highWaterMark
  split <;> omega

theorem produce_offset {payload : Bytes} {offset : Int} (h : b.produce key payload = .ok (offset, after)) :
    offset = b.highWaterMark key := by
  unfold produce at h
  split at h
  next hc =>
    have hlog := log?_changeLog hc key
    obtain ⟨log, hl, _⟩ := changeLog_ok hc
    rw [if_pos rfl, hl] at hlog
    cases h
    simp [highWaterMark, hlog, hl]
  next => simp at h

theorem highWaterMark_createTopic (b : Broker) (n : Nat) (key : PartitionKey) :
    (b.createTopic key.1 n).highWaterMark key = 0 := by
  unfold highWaterMark
  rw [log?_createTopic, if_pos rfl]
  split
  next => rfl
  next hl =>
    split at hl <;> cases hl
    rfl

end Broker

def Outside.ofLogs : Outside → Bool
  | .createTopic _ _ | .replaceTopic _ _ | .produce _ _ | .failPartition _ _ => true
  | _ => false

namespace Environment

variable {env after : Environment} {topic : String} {key : PartitionKey} {log : PartitionLog}

/-- What some changes from outside make of an environment; `none` if one of them cannot happen. -/
def changes? (env : Environment) : List Outside → Option Environment
  | [] => some env
  | change :: rest => (env.change? change).bind (·.changes? rest)

/-- What changes from outside make of the logs of the broker. -/
inductive Change (env : Environment) : Outside → Environment → Prop where
  | created {topic n} : env.broker.topics.get? topic = none →
      Change env (.createTopic topic n) (env.withBroker (env.broker.createTopic topic n))
  | replaced {topic n} : Change env (.replaceTopic topic n) (env.withBroker (env.broker.createTopic topic n))
  | produced {key payload broker} :
      env.broker.changeLog key (fun log => { log with records := log.records ++ [payload] }) = .ok broker →
      Change env (.produce key payload) (env.withBroker broker)
  | failing {key reason broker} :
      env.broker.changeLog key (fun log => { log with failure := some reason }) = .ok broker →
      Change env (.failPartition key reason) (env.withBroker broker)
  | aside {change after} : change.ofLogs = false → after.broker.topics = env.broker.topics →
      after.broker.channels = env.broker.channels → Change env change after

theorem change?_cases {change : Outside} (h : env.change? change = some after) : env.Change change after := by
  cases change with
  | createTopic name n =>
    simp only [change?] at h
    split at h
    next => simp at h
    next hn =>
      cases h
      exact .created (by simpa using hn)
  | replaceTopic name n =>
    cases h
    exact .replaced
  | produce changed payload =>
    simp only [change?, Broker.produce] at h
    split at h
    next hp =>
      split at hp
      next hc =>
        cases h
        cases hp
        exact .produced hc
      next => simp at hp
    next => simp at h
  | failPartition changed reason =>
    simp only [change?] at h
    split at h
    next hp =>
      cases h
      exact .failing hp
    next => simp at h
  | failGroup | rebalance | refuseConnections | refusePartition | failClose | deriveToken | cancel | elapse |
  reportPanics =>
    cases h
    exact .aside rfl rfl rfl

theorem change?_wired {change : Outside} (hw : env.broker.Wired) (h : env.change? change = some after) :
    after.broker.Wired := by
  cases change?_cases h with
  | created | replaced => exact hw.createTopic _ _
  | produced hc | failing hc => exact hw.changeLog hc fun _ => rfl
  | aside _ ht hc => exact hw.of_eq ht hc

theorem changes?_wired {changes : List Outside} (hw : env.broker.Wired) (h : env.changes? changes = some after) :
    after.broker.Wired := by
  induction changes generalizing env with
  | nil =>
    cases Option.some.inj h
    exact hw
  | cons change rest ih =>
    obtain ⟨next, hn, hrest⟩ := Option.bind_eq_some_iff.mp h
    exact ih (change?_wired hw hn) hrest

/-- The log of a topic that is not created anew is only appended to, and only fails when it is told to. -/
theorem change?_appended {change : Outside} (hw : env.broker.Wired) (h : env.change? change = some after)
    (hr : ∀ n, change ≠ .replaceTopic key.1 n) (hl : env.broker.log? key = some log) :
    ∃ later, Broker.Appended env.broker after.broker key log later ∧
      ((∀ reason, change ≠ .failPartition key reason) → later.failure = log.failure) := by
  cases change?_cases h with
  | @created name n hn =>
    have hne : key.1 ≠ name := by
      rintro rfl
      simp [Broker.log?, hn] at hl
    exact ⟨log, hw.createTopic_appended hne hl, fun _ => rfl⟩
  | @replaced name n =>
    have hne : key.1 ≠ name := fun he => hr n (he ▸ rfl)
    exact ⟨log, hw.createTopic_appended hne hl, fun _ => rfl⟩
  | produced hc =>
    obtain ⟨later, ha, rfl | ⟨_, rfl⟩⟩ := hw.changeLog_appended hc (fun _ => List.prefix_append _ _)
      (fun _ => rfl) hl
    · exact ⟨_, ha, fun _ => rfl⟩
    · exact ⟨_, ha, fun _ => rfl⟩
  | @failing changed reason _ hc =>
    obtain ⟨later, ha, rfl | ⟨rfl, _⟩⟩ := hw.changeLog_appended hc (fun _ => List.prefix_refl _)
      (fun _ => rfl) hl
    · exact ⟨_, ha, fun _ => rfl⟩
    · exact ⟨_, ha, fun hn => absurd rfl (hn reason)⟩
  | aside _ ht hc => exact ⟨log, .of_eq hl ht hc, fun _ => rfl⟩

end Environment

end TopicConsumer
