import TopicConsumer.Proofs.Channels

namespace TopicConsumer

namespace Broker

variable {b after : Broker} {topic : String} {key : PartitionKey} {log : PartitionLog} {id : Nat}

theorem watch_eq_ok : b.watch key = .ok id ↔ ∃ log, b.log? key = some log ∧ log.channel = id := by
  unfold watch
  split
  next hl => simp [hl]
  next log hl => simp [hl]

theorem watch_congr {c : Broker} (h : (b.log? key).map (·.channel) = (c.log? key).map (·.channel)) :
    b.watch key = c.watch key := by
  unfold watch
  cases hb : b.log? key <;> cases hc : c.log? key <;> simp_all

theorem takeFailure_eq_none : b.takeFailure key = none ↔ b.failure? key = none := by
  unfold takeFailure failure?
  split
  next hl => simp [hl]
  next log hl =>
    split
    next hf => simp [hl, hf]
    next hf => simp [hl, hf]

theorem exists_takeFailure {reason : String} (h : b.failure? key = some reason) :
    ∃ after, b.takeFailure key = some (reason, after) := by
  obtain ⟨log, hl, hf⟩ := Option.bind_eq_some_iff.mp h
  exact ⟨_, by simp only [takeFailure, hl, hf]; rfl⟩

theorem failure?_takeFailure {reason : String} (h : b.takeFailure key = some (reason, after))
    (other : PartitionKey) : after.failure? other = if other = key then none else b.failure? other := by
  obtain ⟨_, _, hlog⟩ := takeFailure_eq_some h
  rw [failure?, hlog]
  split
  next => cases b.log? other <;> rfl
  next => rfl

theorem payload?_takeFailure {reason : String} (h : b.takeFailure key = some (reason, after))
    (other : PartitionKey) (offset : Int) : after.payload? other offset = b.payload? other offset := by
  obtain ⟨_, _, hlog⟩ := takeFailure_eq_some h
  rw [payload?, payload?, hlog]
  by_cases hk : other = key
  · cases hl : b.log? other <;> simp [hk]
  · rw [if_neg hk]

theorem failure?_changeLog {f : PartitionLog → PartitionLog} (h : b.changeLog key f = .ok after)
    (other : PartitionKey) : after.failure? other =
      if other = key then (b.log? key).bind (fun log => (f log).failure) else b.failure? other := by
  rw [failure?, log?_changeLog h]
  split
  next he =>
    rw [he]
    cases b.log? key <;> rfl
  next => rfl

theorem failure?_createTopic (b : Broker) (topic : String) (n : Nat) (key : PartitionKey) :
    (b.createTopic topic n).failure? key = if key.1 = topic then none else b.failure? key := by
  rw [failure?, log?_createTopic]
  by_cases ht : key.1 = topic
  · rw [if_pos ht, if_pos ht]
    split <;> rfl
  · rw [if_neg ht, if_neg ht]
    rfl

theorem getElem?_foldl_modify_idempotent {β : Type} {f : β → β} (hf : ∀ x, f (f x) = f x) (ids : List Nat)
    (xs : List β) (i : Nat) :
    (ids.foldl (fun xs id => xs.modify id f) xs)[i]? = if i ∈ ids then xs[i]?.map f else xs[i]? := by
  induction ids generalizing xs with
  | nil => simp
  | cons id rest ih =>
    rw [List.foldl_cons, ih, List.getElem?_modify]
    by_cases hi : id = i
    · subst hi
      cases xs[id]? <;> simp [hf]
    · simp [hi, Ne.symm hi]

theorem channel_createTopic (b : Broker) (topic : String) (n : Nat) (h : id < b.channels.length) :
    (b.createTopic topic n).channel id =
      if id ∈ ((b.topics.get? topic).getD []).map (·.channel) then { b.channel id with live := false }
      else b.channel id := by
  unfold createTopic channel
  dsimp only
  rw [List.getElem?_append_left (by rwa [length_foldl_modify]),
    getElem?_foldl_modify_idempotent (f := fun c : Channel => { c with live := false }) (fun _ => rfl),
    List.getElem?_eq_getElem h]
  split <;> rfl

theorem channel_of_watch (h : b.watch key = .ok id) (ht : key.1 = topic) :
    id ∈ ((b.topics.get? topic).getD []).map (·.channel) := by
  obtain ⟨log, hl, rfl⟩ := watch_eq_ok.mp h
  unfold log? at hl
  split at hl
  next => simp at hl
  next =>
    split at hl
    next => simp at hl
    next hg =>
      rw [← ht, hg]
      exact List.mem_map_of_mem (List.mem_of_getElem? hl)

theorem channel_touch_live (b : Broker) (id other : Nat) :
    ((b.touch id).channel other).live = (b.channel other).live := by
  unfold touch channel
  dsimp only
  rw [List.getElem?_modify]
  cases b.channels[other]? with
  | none => rfl
  | some c => by_cases h : id = other <;> simp [h]

/-- What a change of a broker may do behind the backs of those who watch a log. The channels count up and stay
ended. A log keeps a channel that does not end. If a channel counts nothing, then its log has the records and
the failure that it had, if it still has the failure. -/
structure Tells (b after : Broker) : Prop where
  channels : b.channels.length ≤ after.channels.length
  version : ∀ id < b.channels.length, (b.channel id).version ≤ (after.channel id).version
  live : ∀ key, ∀ id < b.channels.length, (after.channel id).live = true →
    (b.channel id).live = true ∧ (b.watch key = .ok id → after.watch key = .ok id)
  quiet : ∀ key, ∀ id < b.channels.length, after.watch key = .ok id →
    (after.channel id).version = (b.channel id).version →
    b.watch key = .ok id ∧ (∀ offset, after.payload? key offset = b.payload? key offset) ∧
      (b.failure? key = none → after.failure? key = none)

/-- A change that leaves the channels of all logs, and each log if its channel counts nothing. -/
theorem Tells.of_logs (hc : b.channels.length ≤ after.channels.length)
    (hv : ∀ id, (b.channel id).version ≤ (after.channel id).version)
    (hl : ∀ id, (after.channel id).live = (b.channel id).live)
    (hw : ∀ key, after.watch key = b.watch key)
    (hq : ∀ key log, b.log? key = some log → log.channel < b.channels.length →
      (after.channel log.channel).version = (b.channel log.channel).version →
      ∃ later, after.log? key = some later ∧ later.records = log.records ∧
        (log.failure = none → later.failure = none)) : Tells b after where
  channels := hc
  version id _ := hv id
  live key id _ hlive := ⟨hl id ▸ hlive, fun h => (hw key).trans h⟩
  quiet key id hid hwatch hversion := by
    rw [hw] at hwatch
    obtain ⟨log, hlog, rfl⟩ := watch_eq_ok.mp hwatch
    obtain ⟨later, hlater, hrecords, hfailure⟩ := hq key log hlog hid hversion
    refine ⟨hwatch, fun offset => ?_, fun h => ?_⟩
    · simp [payload?, hlog, hlater, hrecords]
    · simp only [failure?, hlog, hlater, Option.bind_some] at h ⊢
      exact hfailure h

theorem tells_of_eq (ht : after.topics = b.topics) (hc : after.channels = b.channels) : Tells b after := by
  have hchannel (id : Nat) : after.channel id = b.channel id := by simp [channel, hc]
  refine .of_logs (by simp [hc]) (fun id => by simp [hchannel]) (fun id => by rw [hchannel]) (fun key => ?_)
    fun key log hl _ _ => ⟨log, log?_congr ht key ▸ hl, rfl, id⟩
  exact watch_congr (congrArg _ (log?_congr ht key))

theorem tells_takeFailure {reason : String} (h : b.takeFailure key = some (reason, after)) : Tells b after := by
  obtain ⟨_, hc, hlog⟩ := takeFailure_eq_some h
  have hchannel (id : Nat) : after.channel id = b.channel id := by simp [channel, hc]
  refine .of_logs (by simp [hc]) (fun id => by simp [hchannel]) (fun id => by rw [hchannel]) (fun other => ?_)
    fun other log hl _ _ => ?_
  · refine watch_congr ?_
    rw [hlog]
    split
    next => rw [Option.map_map]; rfl
    next => rfl
  · rw [hlog, hl]
    split
    next => exact ⟨_, rfl, rfl, fun _ => rfl⟩
    next => exact ⟨log, rfl, rfl, id⟩

theorem tells_changeLog {f : PartitionLog → PartitionLog} (h : b.changeLog key f = .ok after)
    (hf : ∀ log, (f log).channel = log.channel) : Tells b after := by
  have hlog := log?_changeLog h
  obtain ⟨changed, hchanged, rfl⟩ := changeLog_ok h
  refine .of_logs (by simp [touch]) (touch_version _ _) (channel_touch_live _ _) (fun other => ?_)
    fun other log hl hid hversion => ?_
  · refine watch_congr ?_
    rw [hlog]
    split
    next =>
      rw [Option.map_map]
      exact congrFun (congrArg _ (funext hf)) _
    next => rfl
  · by_cases hk : other = key
    · -- The channel of the log that changes counts the change.
      subst hk
      cases Option.some.inj (hl.symm.trans hchanged)
      exact absurd hversion (Nat.ne_of_gt (touch_told _ hid))
    · exact ⟨log, by rw [hlog, if_neg hk, hl], rfl, id⟩

theorem tells_createTopic (b : Broker) (topic : String) (n : Nat) : Tells b (b.createTopic topic n) where
  channels := by simp [createTopic, length_foldl_modify]
  version id hid := by
    rw [channel_createTopic b topic n hid]
    split <;> exact Nat.le_refl _
  live key id hid hlive := by
    rw [channel_createTopic b topic n hid] at hlive
    split at hlive
    next => simp at hlive
    next hnew =>
      refine ⟨hlive, fun h => ?_⟩
      have ht : key.1 ≠ topic := fun ht => hnew (channel_of_watch h ht)
      exact (watch_congr (by rw [log?_createTopic, if_neg ht])).trans h
  quiet key id hid hwatch _ := by
    obtain ⟨log, hlog, rfl⟩ := watch_eq_ok.mp hwatch
    have ht : key.1 ≠ topic := by
      intro ht
      rw [log?_createTopic, if_pos ht] at hlog
      split at hlog <;> cases hlog
      dsimp only at hid
      omega
    rw [log?_createTopic, if_neg ht] at hlog
    refine ⟨watch_eq_ok.mpr ⟨log, hlog, rfl⟩, fun offset => ?_, ?_⟩
    · simp [payload?, log?_createTopic, ht]
    · simp [failure?, log?_createTopic, ht]

end Broker

namespace Environment

variable {env after : Environment}

theorem change?_tells {change : Outside} (h : env.change? change = some after) :
    env.broker.Tells after.broker := by
  cases change?_cases h with
  | @created topic n | @replaced topic n => exact Broker.tells_createTopic _ topic n
  | produced hc | failing hc => exact Broker.tells_changeLog hc fun _ => rfl
  | aside _ ht hc => exact Broker.tells_of_eq ht hc

end Environment

end TopicConsumer
