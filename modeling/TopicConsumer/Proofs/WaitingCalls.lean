import TopicConsumer.Proofs.Listeners
import TopicConsumer.Proofs.Turns
import TopicConsumer.Proofs.WatchedLogs

namespace TopicConsumer

namespace Listener

variable {b after : Broker} {l : Listener}

/-- The listener has seen all changes of its log, which was not replaced. -/
def CaughtUp (b : Broker) (l : Listener) : Prop :=
  l.cursor.seen = (b.channel l.cursor.channel).version ∧ b.watch l.cursor.key = .ok l.cursor.channel

/-- What a listener knows when it waits. A check or a look that is behind it still holds, unless its channel tells
otherwise. -/
structure Tuned (b : Broker) (l : Listener) : Prop where
  channel : l.cursor.channel < b.channels.length
  seen : l.cursor.seen ≤ (b.channel l.cursor.channel).version
  live : (b.channel l.cursor.channel).live = true → b.watch l.cursor.key = .ok l.cursor.channel
  checking : l.stage = some .checking → l.checks = true
  checked : l.stage = some .looking ∨ l.stage = some .parked → l.checks = true → l.CaughtUp b →
    b.failure? l.cursor.key = none
  looked : l.stage = some .parked → l.CaughtUp b → b.payload? l.cursor.key l.cursor.position = none

theorem CaughtUp.before (h : l.Tuned b) (ht : b.Tells after) (hc : l.CaughtUp after) :
    l.CaughtUp b ∧ (∀ offset, after.payload? l.cursor.key offset = b.payload? l.cursor.key offset) ∧
      (b.failure? l.cursor.key = none → after.failure? l.cursor.key = none) := by
  obtain ⟨hseen, hwatch⟩ := hc
  have hversion := ht.version _ h.channel
  have hbehind := h.seen
  have hsame : (after.channel l.cursor.channel).version = (b.channel l.cursor.channel).version := by omega
  obtain ⟨hwatched, hpayload, hfailure⟩ := ht.quiet _ _ h.channel hwatch hsame
  exact ⟨⟨hseen.trans hsame, hwatched⟩, hpayload, hfailure⟩

/-- What others do does not escape a listener. -/
theorem Tuned.told (h : l.Tuned b) (ht : b.Tells after) : l.Tuned after where
  channel := Nat.lt_of_lt_of_le h.channel ht.channels
  seen := Nat.le_trans h.seen (ht.version _ h.channel)
  live hlive := by
    obtain ⟨hbefore, hkept⟩ := ht.live l.cursor.key _ h.channel hlive
    exact hkept (h.live hbefore)
  checking := h.checking
  checked hs hchecks hc := by
    obtain ⟨hbefore, _, hfailure⟩ := hc.before h ht
    exact hfailure (h.checked hs hchecks hbefore)
  looked hs hc := by
    obtain ⟨hbefore, hpayload, _⟩ := hc.before h ht
    exact (hpayload _).trans (h.looked hs hbefore)

theorem tuned_open {key : PartitionKey} {position : Int} {checks : Bool} {c : Cursor} (hw : b.Wired)
    (h : Cursor.open? b key position = .ok c) : Tuned b ⟨c, checks, none⟩ := by
  unfold Cursor.open? at h
  split at h
  next => simp at h
  next id hwatch =>
    cases h
    obtain ⟨log, hlog, rfl⟩ := Broker.watch_eq_ok.mp hwatch
    obtain ⟨channel, hchannel, _⟩ := hw.live key log hlog
    exact ⟨(List.getElem?_eq_some_iff.mp hchannel).1, Nat.le_refl _, fun _ => hwatch, by simp, by simp, by simp⟩

theorem Tuned.moved (h : l.Tuned b) {c : Cursor} {stage : Option Stage} (hkey : c.key = l.cursor.key)
    (hchannel : c.channel = l.cursor.channel) (hseen : c.seen ≤ (b.channel c.channel).version)
    (hchecking : stage = some .checking → l.checks = true) (hlooking : stage = some .looking → l.checks = false)
    (hparked : stage ≠ some .parked) : Tuned b ⟨c, l.checks, stage⟩ where
  channel := hchannel ▸ h.channel
  seen := hseen
  live := by simpa [hkey, hchannel] using h.live
  checking := hchecking
  checked hs hchecks := by
    obtain hs | hs := hs
    · exact absurd hchecks (by simp [hlooking hs])
    · exact absurd hs hparked
  looked hs := absurd hs hparked

theorem Tuned.idle (h : l.Tuned b) {c : Cursor} (hkey : c.key = l.cursor.key)
    (hchannel : c.channel = l.cursor.channel) (hseen : c.seen = l.cursor.seen) : Tuned b ⟨c, l.checks, none⟩ :=
  h.moved hkey hchannel (by rw [hseen, hchannel]; exact h.seen) (by simp) (by simp) (by simp)

theorem Tuned.marking (h : l.Tuned b) {seen : Nat} (hseen : seen ≤ (b.channel l.cursor.channel).version) :
    Tuned b ⟨{ l.cursor with seen := seen }, l.checks, some .marking⟩ :=
  h.moved rfl rfl hseen (by simp) (by simp) (by simp)

theorem Tuned.stepped (h : l.Tuned b) {stage : Stage} {c : Cursor} {found : Found} (hl : l.stage = some stage)
    (hs : l.cursor.Step b l.checks stage after c found) : Tuned after ⟨c, l.checks, found.stage?⟩ := by
  cases hs with
  | marked =>
    refine h.moved rfl rfl (Nat.le_refl _) ?_ ?_ ?_ <;> cases l.checks <;> simp [Found.stage?]
  | failed hf => exact (h.told (Broker.tells_takeFailure hf)).idle rfl rfl rfl
  | sound hf =>
    exact ⟨h.channel, h.seen, h.live, by simp [Found.stage?], fun _ _ _ => Broker.takeFailure_eq_none.mp hf,
      by simp [Found.stage?]⟩
  | found => exact h.idle rfl rfl rfl
  | missed hp =>
    exact ⟨h.channel, h.seen, h.live, by simp [Found.stage?], fun _ => h.checked (.inl hl), fun _ _ => hp⟩
  | woken => exact h.marking (Nat.le_refl _)
  | ended => exact h.idle rfl rfl rfl

/-- A call waits exactly if it is parked, has seen all changes, and its log was not replaced. -/
theorem Tuned.waits_iff (h : l.Tuned b) (hw : b.Wired) (stage : Stage) :
    l.cursor.step b l.checks stage = none ↔ stage = .parked ∧ l.CaughtUp b := by
  have hlive : (b.channel l.cursor.channel).live = true ↔ b.watch l.cursor.key = .ok l.cursor.channel := by
    refine ⟨h.live, fun hwatch => ?_⟩
    obtain ⟨log, hlog, hchannel⟩ := Broker.watch_eq_ok.mp hwatch
    exact hchannel ▸ hw.channel_live hlog
  cases stage with
  | marking => simp [Cursor.step]
  | checking => cases hf : b.takeFailure l.cursor.key <;> simp [Cursor.step, hf]
  | looking => cases hp : b.payload? l.cursor.key l.cursor.position <;> simp [Cursor.step, hp]
  | parked =>
    rw [CaughtUp, ← hlive]
    by_cases hv : (b.channel l.cursor.channel).version = l.cursor.seen
    · cases hd : (b.channel l.cursor.channel).live <;> simp [Cursor.step, hv, hd]
    · simp [Cursor.step, hv, Ne.symm hv]

end Listener

/-- The last notice of a listener before a place in a history is that it met no failure, and at that time there was
none of its partition. -/
def Sounded (history : List Notice) (j i : Nat) (key : PartitionKey) : Prop :=
  ∃ m < j, history[m]? = some (.sound i key) ∧ Notice.pending key (history.take m) = none ∧
    ∀ k n, m < k → k < j → history[k]? = some n → n.listener? ≠ some i

namespace Sounded

variable {history more : List Notice} {i j : Nat} {key : PartitionKey}

theorem append (h : Sounded history j i key) (hj : j ≤ history.length) : Sounded (history ++ more) j i key := by
  obtain ⟨m, hm, hsound, hnone, hlast⟩ := h
  refine ⟨m, hm, ?_, ?_, fun k n hk hkj hn => hlast k n hk hkj ?_⟩
  · rwa [List.getElem?_append_left (by omega)]
  · rwa [List.take_append_of_le_length (by omega)]
  · rwa [List.getElem?_append_left (by omega)] at hn

theorem wait (h : Sounded history history.length i key) (hmore : ∀ n ∈ more, n.listener? ≠ some i) :
    Sounded (history ++ more) (history ++ more).length i key := by
  obtain ⟨m, hm, hsound, hnone, hlast⟩ : Sounded (history ++ more) history.length i key :=
    h.append (Nat.le_refl _)
  refine ⟨m, by simp; omega, hsound, hnone, fun k n hk hkj hn => ?_⟩
  by_cases hlt : k < history.length
  · exact hlast k n hk hlt hn
  · rw [List.getElem?_append_right (by omega)] at hn
    exact hmore n (List.mem_of_getElem? hn)

theorem now (hnone : Notice.pending key history = none) :
    Sounded (history ++ [Notice.sound i key]) (history ++ [Notice.sound i key]).length i key := by
  refine ⟨history.length, by simp, by simp, by simpa using hnone, fun k n hk hkj => ?_⟩
  simp at hkj
  omega

end Sounded

namespace Listener

variable {history more : List Notice} {i : Nat} {l next : Listener}

/-- What a history tells of a listener. -/
structure Follows (i : Nat) (history : List Notice) (l : Listener) : Prop where
  failed : ∀ j key failure, history[j]? = some (.failed i key failure) → l.checks = true ∧ l.cursor.key = key ∧
    ∃ reason, failure = .broker reason ∧ Notice.pending key (history.take j) = some reason
  got : ∀ j record, history[j]? = some (.got i record) → (record.topic, record.partition) = l.cursor.key ∧
    (l.checks = true → Sounded history j i l.cursor.key)
  looking : l.stage = some .looking → l.checks = true → Sounded history history.length i l.cursor.key

theorem Follows.extend (h : l.Follows i history) (hone : more.length ≤ 1) (hchecks : next.checks = l.checks)
    (hkey : next.cursor.key = l.cursor.key)
    (hfailed : ∀ key failure, .failed i key failure ∈ more → l.checks = true ∧ l.cursor.key = key ∧
      ∃ reason, failure = .broker reason ∧ Notice.pending key history = some reason)
    (hgot : ∀ record, .got i record ∈ more → (record.topic, record.partition) = l.cursor.key ∧
      (l.checks = true → Sounded history history.length i l.cursor.key))
    (hlooking : next.stage = some .looking → l.checks = true →
      Sounded (history ++ more) (history ++ more).length i l.cursor.key) : next.Follows i (history ++ more) := by
  have hcases {j : Nat} {n : Notice} (hn : (history ++ more)[j]? = some n) :
      (j < history.length ∧ history[j]? = some n) ∨ (j = history.length ∧ n ∈ more) := by
    by_cases hj : j < history.length
    · exact .inl ⟨hj, by rwa [List.getElem?_append_left hj] at hn⟩
    · have hend := (List.getElem?_eq_some_iff.mp hn).1
      rw [List.length_append] at hend
      rw [List.getElem?_append_right (by omega)] at hn
      exact .inr ⟨by omega, List.mem_of_getElem? hn⟩
  constructor
  · intro j key failure hn
    rw [hchecks, hkey]
    obtain ⟨hj, hold⟩ | ⟨rfl, hnew⟩ := hcases hn
    · rw [List.take_append_of_le_length (by omega)]
      exact h.failed j key failure hold
    · rw [List.take_append_of_le_length (Nat.le_refl _), List.take_length]
      exact hfailed key failure hnew
  · intro j record hn
    rw [hchecks, hkey]
    obtain ⟨hj, hold⟩ | ⟨rfl, hnew⟩ := hcases hn
    · obtain ⟨hrecord, hsound⟩ := h.got j record hold
      exact ⟨hrecord, fun hreads => (hsound hreads).append (by omega)⟩
    · obtain ⟨hrecord, hsound⟩ := hgot record hnew
      exact ⟨hrecord, fun hreads => (hsound hreads).append (Nat.le_refl _)⟩
  · rw [hchecks, hkey]
    exact hlooking

theorem Follows.told (h : l.Follows i history) (hone : more.length ≤ 1)
    (hmore : ∀ n ∈ more, n.listener? ≠ some i) : l.Follows i (history ++ more) :=
  h.extend hone rfl rfl (fun _ _ hn => absurd rfl (hmore _ hn)) (fun _ hn => absurd rfl (hmore _ hn))
    fun hs hreads => (h.looking hs hreads).wait hmore

theorem Follows.moved (h : l.Follows i history) (hone : more.length ≤ 1) (hchecks : next.checks = l.checks)
    (hkey : next.cursor.key = l.cursor.key) (hmore : ∀ n ∈ more, n = .called i)
    (hlooking : next.stage = some .looking → l.checks = false) : next.Follows i (history ++ more) :=
  h.extend hone hchecks hkey (fun _ _ hn => by simpa using hmore _ hn) (fun _ hn => by simpa using hmore _ hn)
    fun hs hreads => by simp [hlooking hs] at hreads

theorem Follows.stepped {b after : Broker} (h : l.Follows i history) (hready : l.Tuned b)
    (hpending : ∀ key, Notice.pending key history = b.failure? key) {stage : Stage} {c : Cursor} {found : Found}
    (hl : l.stage = some stage) (hs : l.cursor.Step b l.checks stage after c found) :
    Follows i (history ++ found.notices i l.cursor.key stage) ⟨c, l.checks, found.stage?⟩ := by
  cases hs with
  | marked =>
    refine h.moved (by simp [Found.notices]) rfl rfl (by simp [Found.notices]) ?_
    cases l.checks <;> simp [Found.stage?]
  | @failed reason _ hf =>
    refine h.extend (by simp [Found.notices]) rfl rfl ?_ (by simp [Found.notices]) (by simp [Found.stage?])
    intro key failure hn
    simp only [Found.notices, List.mem_singleton, Notice.failed.injEq, true_and] at hn
    obtain ⟨rfl, rfl⟩ := hn
    exact ⟨hready.checking hl, rfl, reason, rfl, (hpending _).trans (Broker.takeFailure_eq_some hf).1⟩
  | sound hf =>
    refine h.extend (by simp [Found.notices]) rfl rfl (by simp [Found.notices]) (by simp [Found.notices]) ?_
    exact fun _ _ => .now ((hpending _).trans (Broker.takeFailure_eq_none.mp hf))
  | found hp =>
    refine h.extend (by simp [Found.notices]) rfl rfl (by simp [Found.notices]) ?_ (by simp [Found.stage?])
    intro record hn
    simp only [Found.notices, List.mem_singleton, Notice.got.injEq, true_and] at hn
    subst hn
    exact ⟨rfl, h.looking hl⟩
  | missed | woken | ended =>
    exact h.moved (by simp [Found.notices]) rfl rfl (by simp [Found.notices]) (by simp [Found.stage?])

/-- What a step of a call makes of the failures is what it leaves to be kept. -/
theorem failure?_stepped {b after : Broker} {stage : Stage} {c : Cursor} {found : Found}
    (hs : l.cursor.Step b l.checks stage after c found) (key : PartitionKey) :
    after.failure? key = (found.notices i l.cursor.key stage).foldl (Notice.leaves key) (b.failure? key) := by
  cases hs with
  | failed hf =>
    rw [Broker.failure?_takeFailure hf]
    simp [Found.notices, Notice.leaves, eq_comm]
  | marked | sound | found | missed | woken | ended => rfl

end Listener

theorem Environment.failure?_change? {env after : Environment} {change : Outside}
    (h : env.change? change = some after) (key : PartitionKey) :
    after.broker.failure? key = change.notices.foldl (Notice.leaves key) (env.broker.failure? key) := by
  cases change?_cases h with
  | @created topic n | @replaced topic n =>
    exact (Broker.failure?_createTopic _ topic n key).trans (by simp [Outside.notices, Notice.leaves, eq_comm])
  | produced hc =>
    refine (Broker.failure?_changeLog hc key).trans ?_
    split
    next he => exact he ▸ rfl
    next => rfl
  | failing hc =>
    obtain ⟨log, hl, _⟩ := Broker.changeLog_ok hc
    refine (Broker.failure?_changeLog hc key).trans ?_
    simp [Outside.notices, Notice.leaves, hl, eq_comm]
  | aside ha ht _ =>
    rw [Outside.notices_of_aside ha, Broker.failure?, Broker.log?_congr ht]
    rfl

namespace Cursor.Step

variable {b after : Broker} {c next : Cursor} {checks : Bool} {stage : Stage} {found : Found}

theorem wired (h : c.Step b checks stage after next found) (hw : b.Wired) : after.Wired := by
  cases h with
  | failed hf => exact hw.takeFailure hf
  | marked | sound | found | missed | woken | ended => exact hw

theorem tells (h : c.Step b checks stage after next found) : b.Tells after := by
  cases h with
  | failed hf => exact Broker.tells_takeFailure hf
  | marked | sound | found | missed | woken | ended => exact Broker.tells_of_eq rfl rfl

end Cursor.Step

namespace Listening

variable {s t : Listening}

structure Attentive (s : Listening) : Prop where
  wired : s.env.broker.Wired
  pending : ∀ key, Notice.pending key s.history = s.env.broker.failure? key
  known : ∀ n ∈ s.history, ∀ i, n.listener? = some i → i < s.listeners.length
  tuned : ∀ l ∈ s.listeners, l.Tuned s.env.broker
  follows : ∀ (i : Nat) (l : Listener), s.listeners[i]? = some l → l.Follows i s.history

theorem attentive_empty : Attentive {} where
  wired := Broker.wired_empty
  pending key := by simp [Notice.pending, Broker.failure?, Broker.log?, Table.get?]
  known n hn := by simp at hn
  tuned l hl := by simp at hl
  follows i l hl := by simp at hl

theorem Attentive.opened (h : s.Attentive) {key : PartitionKey} {position : Int} {checks : Bool} {cursor : Cursor}
    (ho : Cursor.open? s.env.broker key position = .ok cursor) :
    Attentive { s with listeners := s.listeners ++ [⟨cursor, checks, none⟩] } where
  wired := h.wired
  pending := h.pending
  known n hn i hi := by
    have hbound := h.known n hn i hi
    simp
    omega
  tuned l hl := by
    obtain hl | hl := List.mem_append.mp hl
    · exact h.tuned l hl
    · cases List.mem_singleton.mp hl
      exact Listener.tuned_open h.wired ho
  follows i l hl := by
    by_cases hi : i < s.listeners.length
    · rw [List.getElem?_append_left hi] at hl
      exact h.follows i l hl
    · -- Nothing is known of a listener that is new.
      have hnew (j : Nat) (n : Notice) (hn : s.history[j]? = some n) : n.listener? ≠ some i :=
        fun he => hi (h.known n (List.mem_of_getElem? hn) i he)
      rw [List.getElem?_append_right (by omega)] at hl
      cases List.mem_singleton.mp (List.mem_of_getElem? hl)
      exact ⟨fun j _ _ hn => absurd rfl (hnew j _ hn), fun j _ hn => absurd rfl (hnew j _ hn), by simp⟩

/-- The act of one listener. What it does to the broker is told to the others. -/
theorem Attentive.acted (h : s.Attentive) {i : Nat} {l next : Listener} {broker : Broker} {more : List Notice}
    (hl : s.listeners[i]? = some l) (hw : broker.Wired) (ht : s.env.broker.Tells broker)
    (hone : more.length ≤ 1) (hown : ∀ n ∈ more, n.listener? = some i)
    (hleaves : ∀ key, broker.failure? key = more.foldl (Notice.leaves key) (s.env.broker.failure? key))
    (htuned : next.Tuned broker) (hfollows : next.Follows i (s.history ++ more)) :
    Attentive ⟨s.env.withBroker broker, s.listeners.set i next, s.history ++ more⟩ where
  wired := hw
  pending key := by
    rw [Notice.pending, List.foldl_append, ← Notice.pending, h.pending]
    exact (hleaves key).symm
  known n hn j hj := by
    rw [List.length_set]
    obtain hn | hn := List.mem_append.mp hn
    · exact h.known n hn j hj
    · cases (hown n hn).symm.trans hj
      exact (List.getElem?_eq_some_iff.mp hl).1
  tuned k hk := by
    obtain hk | rfl := List.mem_or_eq_of_mem_set hk
    · exact (h.tuned k hk).told ht
    · exact htuned
  follows j k hk := by
    obtain ⟨rfl, rfl⟩ | ⟨hj, hk⟩ := getElem?_set_cases hk
    · exact hfollows
    · exact (h.follows j k hk).told hone fun n hn he => hj (Option.some.inj ((hown n hn).symm.trans he))

theorem Attentive.changed (h : s.Attentive) {change : Outside} {env : Environment}
    (hc : s.env.change? change = some env) : Attentive ⟨env, s.listeners, s.history ++ change.notices⟩ where
  wired := Environment.change?_wired h.wired hc
  pending key := by
    rw [Notice.pending, List.foldl_append, ← Notice.pending, h.pending]
    exact (Environment.failure?_change? hc key).symm
  known n hn j hj := by
    obtain hn | hn := List.mem_append.mp hn
    · exact h.known n hn j hj
    · simp [Outside.listener?_of_notices hn] at hj
  tuned l hl := (h.tuned l hl).told (Environment.change?_tells hc)
  follows j l hl :=
    (h.follows j l hl).told (Outside.length_notices change) fun n hn => by simp [Outside.listener?_of_notices hn]

theorem Attentive.heeds (h : s.Attentive) (ha : s.Heeds t) : t.Attentive := by
  cases ha with
  | opened ho => exact h.opened ho
  | called hl =>
    have htuned := h.tuned _ (List.mem_of_getElem? hl)
    refine h.acted hl h.wired (Broker.tells_of_eq rfl rfl) (by simp) (by simp [Notice.listener?]) (fun _ => rfl)
      (htuned.marking htuned.seen) ?_
    exact (h.follows _ _ hl).moved (by simp) rfl rfl (by simp) (by simp)
  | @stepped i cursor checks stage broker next found hl hs =>
    have htuned := h.tuned _ (List.mem_of_getElem? hl)
    exact h.acted hl (hs.wired h.wired) hs.tells (Found.length_notices ..) (fun n => Found.listener?_of_notices)
      (Listener.failure?_stepped (l := ⟨cursor, checks, some stage⟩) hs) (htuned.stepped rfl hs)
      ((h.follows _ _ hl).stepped htuned h.pending rfl hs)
  | @abandoned i l hl =>
    have htuned := h.tuned _ (List.mem_of_getElem? hl)
    have hfollows : Listener.Follows i (s.history ++ []) { l with stage := none } :=
      (h.follows _ _ hl).moved (by simp) rfl rfl (by simp) (by simp)
    have hsame := h.acted hl h.wired (Broker.tells_of_eq rfl rfl) (by simp) (by simp) (fun _ => rfl)
      (htuned.idle rfl rfl rfl) hfollows
    rw [List.append_nil] at hsame
    exact hsame
  | changed hc => exact h.changed hc

theorem attentive_of_run {acts : List ListenAct} (h : run {} acts = some s) : s.Attentive := by
  induction acts using List.reverseRecOn generalizing s with
  | nil =>
    cases h
    exact attentive_empty
  | append_singleton acts a ih =>
    rw [run, List.foldlM_append] at h
    obtain ⟨before, hb, ha⟩ := Option.bind_eq_some_iff.mp h
    exact (ih hb).heeds (act?_cases (by simpa using ha))

theorem act?_step_eq_none {i : Nat} {l : Listener} {stage : Stage} (hl : s.listeners[i]? = some l)
    (hs : l.stage = some stage) :
    s.act? (.step i) = none ↔ l.cursor.step s.env.broker l.checks stage = none := by
  obtain ⟨cursor, checks, _⟩ := l
  cases hs
  simp [act?, hl]

theorem act?_step_failure {i : Nat} {l : Listener} {reason : String} (hl : s.listeners[i]? = some l)
    (hs : l.stage = some .checking) (hf : s.env.broker.failure? l.cursor.key = some reason) :
    ∃ t, s.act? (.step i) = some t ∧ t.listeners = s.listeners.set i { l with stage := none } ∧
      t.history = s.history ++ [.failed i l.cursor.key (.broker reason)] ∧
      ∀ offset, t.env.broker.payload? l.cursor.key offset = s.env.broker.payload? l.cursor.key offset := by
  obtain ⟨cursor, checks, _⟩ := l
  cases hs
  obtain ⟨after, ha⟩ := Broker.exists_takeFailure hf
  refine ⟨⟨s.env.withBroker after, s.listeners.set i ⟨cursor, checks, none⟩,
    s.history ++ [.failed i cursor.key (.broker reason)]⟩, ?_, rfl, rfl, Broker.payload?_takeFailure ha _⟩
  simp [act?, hl, Cursor.step, ha, Found.stage?, Found.notices]

/-- Where the failure that a call returned was set. -/
def Stems (history : List Notice) (m j : Nat) (key : PartitionKey) (failure : Failure) : Prop :=
  m < j ∧ (∃ reason, failure = .broker reason ∧ history[m]? = some (.failing key reason)) ∧
    ∀ k n, m < k → k < j → history[k]? = some n → n.concerns key = false

theorem Attentive.exists_stems (h : s.Attentive) {j i : Nat} {key : PartitionKey} {failure : Failure}
    (hj : s.history[j]? = some (.failed i key failure)) :
    (∃ l, s.listeners[i]? = some l ∧ l.checks = true ∧ l.cursor.key = key) ∧
      ∃ m, Stems s.history m j key failure := by
  have hi := h.known _ (List.mem_of_getElem? hj) i rfl
  obtain ⟨hchecks, hkey, reason, rfl, hpending⟩ := (h.follows i _ (List.getElem?_eq_getElem hi)).failed j _ _ hj
  obtain ⟨m, hm, hlater⟩ := Notice.exists_failing hpending
  have hmj : m < j := by
    have hbound := (List.getElem?_eq_some_iff.mp hm).1
    rw [List.length_take] at hbound
    omega
  rw [List.getElem?_take_of_lt hmj] at hm
  refine ⟨⟨_, List.getElem?_eq_getElem hi, hchecks, hkey⟩, m, hmj, ⟨reason, rfl, hm⟩, fun k n hk hkj hn => ?_⟩
  exact hlater k n hk (by rwa [List.getElem?_take_of_lt hkj])

theorem Attentive.exists_origin (h : s.Attentive) : ∃ origin : Nat → Nat, ∀ (j i : Nat) (key : PartitionKey)
    (failure : Failure), s.history[j]? = some (.failed i key failure) → Stems s.history (origin j) j key failure := by
  have hstems (j : Nat) : ∃ m, ∀ (i : Nat) (key : PartitionKey) (failure : Failure),
      s.history[j]? = some (.failed i key failure) → Stems s.history m j key failure := by
    by_cases hj : ∃ i key failure, s.history[j]? = some (.failed i key failure)
    · obtain ⟨i, key, failure, hj⟩ := hj
      obtain ⟨_, m, hm⟩ := h.exists_stems hj
      refine ⟨m, fun _ _ _ hj' => ?_⟩
      cases hj.symm.trans hj'
      exact hm
    · exact ⟨0, fun i key failure hj' => absurd ⟨i, key, failure, hj'⟩ hj⟩
  choose origin horigin using hstems
  exact ⟨origin, horigin⟩

theorem Stems.le {history : List Notice} {m j k i : Nat} {key other : PartitionKey} {failure failure' : Failure}
    (hj : Stems history m j key failure) (hk : Stems history m k other failure')
    (hfailed : history[k]? = some (.failed i other failure')) : j ≤ k := by
  obtain ⟨_, ⟨reason, _, hset⟩, hquiet⟩ := hj
  obtain ⟨hmk, ⟨reason', _, hset'⟩, _⟩ := hk
  by_contra hlt
  have hunconcerned := hquiet k _ hmk (by omega) hfailed
  cases hset.symm.trans hset'
  simp [Notice.concerns] at hunconcerned

end Listening

/-- Any run of any number of readers and claims on an empty broker. A call waits exactly if it is parked, has seen
all changes of its log, and its log was not replaced. Then there is no record at its position and, for a reader,
no failure of its partition. Each failure that a call returned was set before, for the partition of a reader, and
is the latest that was; no two calls returned the same one. A reader that checks while there is a failure returns
it, whatever record it could have, and does not lose that record. Each record that a reader returned came after
a check of the same call, when there was no failure. -/
theorem waiting_calls_miss_nothing {acts : List ListenAct} {s : Listening} (h : Listening.run {} acts = some s) :
    (∀ (i : Nat) (l : Listener) (stage : Stage), s.listeners[i]? = some l → l.stage = some stage →
      (s.act? (.step i) = none ↔ stage = .parked ∧ l.CaughtUp s.env.broker) ∧
      (stage = .parked → l.CaughtUp s.env.broker →
        s.env.broker.payload? l.cursor.key l.cursor.position = none ∧
        (l.checks = true → s.env.broker.failure? l.cursor.key = none))) ∧
    (∃ origin : Nat → Nat, ∀ j i key failure, s.history[j]? = some (.failed i key failure) →
      (∃ l, s.listeners[i]? = some l ∧ l.checks = true ∧ l.cursor.key = key) ∧
      Listening.Stems s.history (origin j) j key failure ∧
      ∀ k other key' failure', s.history[k]? = some (.failed other key' failure') → origin k = origin j → k = j) ∧
    (∀ (i : Nat) (l : Listener) (reason : String), s.listeners[i]? = some l → l.stage = some .checking →
      s.env.broker.failure? l.cursor.key = some reason →
      ∃ t, s.act? (.step i) = some t ∧ t.listeners = s.listeners.set i { l with stage := none } ∧
        t.history = s.history ++ [.failed i l.cursor.key (.broker reason)] ∧
        ∀ offset, t.env.broker.payload? l.cursor.key offset = s.env.broker.payload? l.cursor.key offset) ∧
    (∀ key, s.env.broker.failure? key = Notice.pending key s.history) ∧
    ∀ (j i : Nat) (record : Record) (l : Listener), s.history[j]? = some (.got i record) →
      s.listeners[i]? = some l → (record.topic, record.partition) = l.cursor.key ∧
        (l.checks = true → Sounded s.history j i l.cursor.key) := by
  have hs := Listening.attentive_of_run h
  refine ⟨fun i l stage hl hstage => ?_, ?_, fun i l reason => Listening.act?_step_failure,
    fun key => (hs.pending key).symm, fun j i record l hj hl => (hs.follows i l hl).got j record hj⟩
  · have htuned := hs.tuned l (List.mem_of_getElem? hl)
    refine ⟨(Listening.act?_step_eq_none hl hstage).trans (htuned.waits_iff hs.wired stage), fun hp hc => ?_⟩
    subst hp
    exact ⟨htuned.looked hstage hc, fun hchecks => htuned.checked (.inr hstage) hchecks hc⟩
  · obtain ⟨origin, hstems⟩ := hs.exists_origin
    refine ⟨origin, fun j i key failure hj => ⟨(hs.exists_stems hj).1, hstems j i key failure hj, ?_⟩⟩
    intro k other key' failure' hk hsame
    have hstemsj := hstems j i key failure hj
    have hstemsk := hsame ▸ hstems k other key' failure' hk
    exact Nat.le_antisymm (hstemsk.le hstemsj hj) (hstemsj.le hstemsk hk)

/-- Two readers and a claim wait when their partition is told to fail and then written to. The first reader fails,
the others get the record, and the claim waits again. -/
theorem failure_goes_to_one_reader :
    let key : PartitionKey := ("orders", 0)
    let order : Record := recordAt key 0 [7]
    let acts : List ListenAct := [.outside (.createTopic "orders" 1), .open key 0 true, .open key 0 true,
      .open key 0 false, .call 0, .call 1, .call 2, .step 0, .step 0, .step 0, .step 1, .step 1, .step 1, .step 2,
      .step 2, .outside (.failPartition key "broken"), .outside (.produce key [7]), .step 0, .step 0, .step 0,
      .step 1, .step 1, .step 1, .step 1, .step 2, .step 2, .step 2, .call 2, .step 2, .step 2]
    let history : List Notice := [.created "orders", .called 0, .called 1, .called 2, .sound 0 key, .sound 1 key,
      .failing key "broken", .failed 0 key (.broker "broken"), .sound 1 key, .got 1 order, .got 2 order, .called 2]
    ∃ s, Listening.run {} acts = some s ∧ s.history = history ∧
      (∃ origin, Listening.Stems s.history origin 7 key (.broker "broken")) ∧ Sounded s.history 9 1 key ∧
      s.act? (.step 2) = none ∧ s.env.broker.payload? key 1 = none := by
  intro key order acts history
  have hrun : (Listening.run {} acts).map (fun s =>
      (s.history, s.listeners, s.env.broker.channels, (s.env.broker.watch key).toOption)) =
      some (history, [⟨⟨key, 0, 0, 2⟩, true, none⟩, ⟨⟨key, 1, 0, 2⟩, true, none⟩,
        ⟨⟨key, 1, 0, 2⟩, false, some .parked⟩], [⟨2, true⟩], some 0) := by decide +kernel
  obtain ⟨s, hs, hshape⟩ := Option.map_eq_some_iff.mp hrun
  simp only [Prod.mk.injEq] at hshape
  obtain ⟨hhistory, hlisteners, hchannels, hwatch⟩ := hshape
  obtain ⟨hwaits, ⟨origin, horigin⟩, _, _, hgot⟩ := waiting_calls_miss_nothing hs
  have hcaught : Listener.CaughtUp s.env.broker ⟨⟨key, 1, 0, 2⟩, false, some .parked⟩ := by
    refine ⟨by simp [Broker.channel, hchannels], ?_⟩
    cases hw : s.env.broker.watch key <;> simp_all [Except.toOption]
  obtain ⟨hblocked, hmissed⟩ := hwaits 2 _ .parked (by rw [hlisteners]; rfl) rfl
  refine ⟨s, hs, hhistory, ⟨origin 7, ?_⟩, ?_, hblocked.mpr ⟨rfl, hcaught⟩, (hmissed rfl hcaught).1⟩
  · exact (horigin 7 0 key (.broker "broken") (by rw [hhistory]; rfl)).2.1
  · exact (hgot 9 1 order _ (by rw [hhistory]; rfl) (by rw [hlisteners]; rfl)).2 rfl

end TopicConsumer
