import TopicConsumer.Proofs.HandledRecords
import TopicConsumer.Proofs.ReaderCounts

namespace TopicConsumer

open Environment

variable {α : Type}

/-- The high water mark of the partition that a record in hand is from. -/
def Broker.markOf (b : Broker) (held : Held) : Int := b.highWaterMark (held.labels.topic, held.labels.partition)

/-- The partitions that a session has still to open exist, and the session has not crashed. -/
structure Session.Sound (b : Broker) (s : Session α) : Prop where
  opening : ∀ todo key, s.phase = .opening todo → Opening.partition key ∈ todo → (b.log? key).isSome
  running : s.phase ≠ .crashed

def GroupRun.Sound (b : Broker) (run : GroupRun α) : Prop := ∀ s, run.loop = .serving s → s.Sound b

/-- A pump reads a log, and has a record of it in hand, if any. -/
structure Pump.Sighted (b : Broker) (pump : Pump α) : Prop where
  sighted : ∃ c, pump.reader.source = .log c ∧ ∀ r, pump.phase = .taken r →
    (r.topic, r.partition) = c.key ∧ 0 ≤ r.offset ∧ r.offset < b.highWaterMark c.key

variable {topic : String} {env after : Environment} {b later : Broker}

theorem Broker.log?_of_count {name : String} {n i : Nat} (h : b.partitionCount name = .ok n) (hi : i < n) :
    (b.log? (name, Int.ofNat i)).isSome := by
  unfold partitionCount at h
  split at h
  next => simp at h
  next hg =>
    cases h
    simp [log?, hg, hi]

namespace Session

variable {s t : Session α} {u : Subscription α} {logs : Contents} {note : RunNote α}

theorem Sound.keep (h : s.Sound b) (hk : ∀ key, (b.log? key).isSome → (later.log? key).isSome) : s.Sound later :=
  ⟨fun todo key hp hm => hk key (h.opening todo key hp hm), h.running⟩

theorem sound_of_phase (hp : ∀ todo, t.phase ≠ .opening todo) (hr : t.phase ≠ .crashed) : t.Sound b :=
  ⟨fun todo _ ht => absurd ht (hp todo), hr⟩

theorem sound_stepOpening {todo : List Opening} (h : s.Sound env.broker) (hp : s.phase = .opening todo) :
    (s.stepOpening env todo).Sound env.broker := by
  have hopen := h.opening todo
  cases todo with
  | nil => exact sound_of_phase (by simp [stepOpening]) (by simp [stepOpening])
  | cons first rest =>
    have hrest : ∀ key, Opening.partition key ∈ rest → (env.broker.log? key).isSome :=
      fun key hm => hopen key hp (List.mem_cons_of_mem _ hm)
    cases first with
    | topic name =>
      simp only [stepOpening]
      split
      next => exact sound_of_phase (by simp) (by simp)
      next n hn =>
        refine ⟨fun todo key ht hm => ?_, by simp⟩
        cases ht
        rcases List.mem_append.mp hm with hm | hm
        · obtain ⟨i, hi, he⟩ := List.mem_map.mp hm
          cases he
          exact Broker.log?_of_count hn (List.mem_range.mp hi)
        · exact hrest key hm
    | partition key =>
      simp only [stepOpening]
      split
      next => exact sound_of_phase (by simp) (by simp)
      next =>
        refine ⟨fun todo other ht hm => ?_, by simp⟩
        cases ht
        exact hrest other hm

theorem Sound.step (h : s.Sound env.broker) (hu : ∀ feeds ending, s.phase ≠ .script feeds ending)
    (hs : s.step env = some (after, t)) : t.Sound env.broker := by
  unfold Session.step at hs
  split at hs
  next hp =>
    cases hs
    exact sound_stepOpening h hp
  next hp =>
    cases stepServing_cases hs with
    | cancelled | closed | rebalanced | failed => exact sound_of_phase (by simp) (by simp)
    | joined => exact sound_of_phase (by simp [hp]) (by simp [hp])
  next =>
    split at hs <;> cases hs
    exact sound_of_phase (by simp) (by simp)
  next hp => exact absurd hp (hu _ _)
  next => simp at hs
  next => simp at hs

theorem open?_of_log {key : PartitionKey} (h : (b.log? key).isSome) (position : Int) :
    ∃ cursor, Cursor.open? b key position = .ok cursor := by
  obtain ⟨log, hl⟩ := Option.isSome_iff_exists.mp h
  simp [Cursor.open?, Broker.watch, hl]

/-- A session that is sound goes on with its claims, and may add some. -/
theorem Follows.phases (h : s.Follows logs u note) (hsound : s.Sound env.broker) (hs : s.step env = some (after, t)) :
    ∃ more : List (ClaimPhase α), t.claims.map (·.phase) = s.claims.map (·.phase) ++ more ∧
      ∀ p ∈ more, p = .asking .marking := by
  have hsame (he : t.claims.map (·.phase) = s.claims.map (·.phase)) :
      ∃ more : List (ClaimPhase α), t.claims.map (·.phase) = s.claims.map (·.phase) ++ more ∧
        ∀ p ∈ more, p = .asking .marking := ⟨[], by simpa using he, by simp⟩
  unfold Session.step at hs
  split at hs
  next todo hp =>
    cases hs
    obtain ⟨hlen, htodo⟩ := h.opening todo hp
    cases todo with
    | nil => exact hsame rfl
    | cons first rest =>
      cases first with
      | topic name =>
        -- The topic comes first, so that its failure has no claim to drop.
        obtain ⟨_, _, hempty⟩ := htodo.of_topic
        rw [hempty, List.length_nil, List.length_eq_zero_iff] at hlen
        refine hsame ?_
        simp only [stepOpening]
        split
        next => simp [hlen]
        next => rfl
      | partition key =>
        obtain ⟨cursor, hc⟩ := open?_of_log (hsound.opening _ key hp List.mem_cons_self)
          (env.broker.groupPosition s.group key s.start)
        simp only [stepOpening, hc]
        exact ⟨[.asking .marking], by simp, by simp⟩
  next =>
    exact hsame (stepServing_cases hs).phases
  next =>
    split at hs <;> cases hs
    exact hsame rfl
  next hp => exact absurd hp (h.unscripted _ _)
  next => simp at hs
  next => simp at hs

end Session

namespace GroupRun

variable {run next : GroupRun α} {note : RunNote α} {s : Session α}

theorem Sound.keep (h : run.Sound b) (hk : ∀ key, (b.log? key).isSome → (later.log? key).isSome) : run.Sound later :=
  fun s hs => (h s hs).keep hk

theorem sound_idle (h : run.isServing = false) : run.Sound b := by
  intro s hs
  simp [isServing, hs] at h

theorem handling_idle (h : run.isServing = false) : run.handling = [] := by
  unfold isServing at h
  unfold handling claims
  cases hl : run.loop <;> simp [hl] at h ⊢

theorem handling_serving (h : run.loop = .serving s) :
    run.handling = (s.claims.map (·.phase)).map (·.handling run.group) := by
  simp [handling, claims, h, Function.comp_def]

theorem reported_idle (env : Environment) (run : GroupRun α) (errors : Queue Failure) (delay : Duration) :
    ({ run with errors := errors, loop := afterReport env delay } : GroupRun α).isServing = false := by
  by_cases hd : delay = Duration.zero <;> simp [isServing, afterReport, hd]

theorem LoopStep.handling (h : LoopStep env run after next) (hd : run.Delivered topic env note)
    (hs : run.Sound env.broker) {f : Handling → List Held} (hw : f .waiting = []) (hp : f .past = []) :
    next.handling.flatMap f = run.handling.flatMap f := by
  have hidle (hr : run.isServing = false) (hn : next.isServing = false) :
      next.handling.flatMap f = run.handling.flatMap f := by rw [handling_idle hr, handling_idle hn]
  cases h with
  | begun ht _ hb =>
    have hr : run.isServing = false := by simp [isServing, ht]
    rw [handling_idle hr, handling_serving rfl, Session.begin_claims hb]
    rfl
  | served hl hstep =>
    obtain ⟨more, hphases, hmore⟩ := (hd.session _ hl).phases (hs _ hl) hstep
    have hnone : (more.map (·.handling run.group)).flatMap f = [] := by
      simp only [List.flatMap_eq_nil_iff, List.mem_map]
      rintro _ ⟨p, hm, rfl⟩
      rw [hmore p hm]
      exact hw
    rw [handling_serving rfl, handling_serving hl, hphases, List.map_append, List.flatMap_append]
    exact (congrArg _ hnone).trans (List.append_nil _)
  | @ended s result hl hend =>
    have hover := (hd.session s hl).ended result hend
    have hnone : run.handling.flatMap f = [] := by
      rw [handling_serving hl]
      simp only [List.flatMap_eq_nil_iff, List.mem_map]
      rintro _ ⟨_, ⟨claim, hm, rfl⟩, rfl⟩
      have ho := hover claim hm
      unfold Claim.isOver at ho
      split at ho
      next hphase => rw [hphase]; exact hp
      next hphase => rw [hphase]; exact hp
      next => simp at ho
    rw [hnone, handling_idle (afterSession_run env run result).2.2]
    rfl
  | crashed hl hc => exact absurd hc (hs _ hl).running
  | refused ht => exact hidle (by simp [isServing, ht]) (afterSession_run _ run _).2.2
  | reported hl => exact hidle (by simp [isServing, hl]) (reported_idle _ _ _ _)
  | stopped hl =>
    refine hidle ?_ rfl
    obtain hl | ⟨_, _, hl⟩ | ⟨_, hl⟩ | ⟨_, hl⟩ := hl <;> simp [isServing, hl]
  | unheard hl =>
    refine hidle ?_ rfl
    obtain ⟨_, hl⟩ | hl := hl <;> simp [isServing, hl]
  | gaveUp hl | woken hl => exact hidle (by simp [isServing, hl]) rfl

theorem Step.sound (h : run.Step env after next) (hd : run.Delivered topic env note) (hs : run.Sound env.broker) :
    next.Sound env.broker := by
  cases h with
  | aside => exact hs
  | claim hstep =>
    obtain ⟨s, _, _, _, hl, _, _, rfl⟩ := stepClaim_cases hstep
    rintro _ ⟨⟩
    exact ⟨(hs s hl).opening, (hs s hl).running⟩
  | loop hstep =>
    cases stepLoop_cases hstep with
    | begun _ _ hb =>
      rintro _ ⟨⟩
      obtain ⟨_, _, hphase, _⟩ := Session.begin_joined hd.joined hb
      refine ⟨fun todo key ht hm => ?_, by simp [hphase]⟩
      cases hphase.symm.trans ht
      simp at hm
    | served hl hone =>
      rintro _ ⟨⟩
      exact (hs _ hl).step (hd.session _ hl).unscripted hone
    | refused | ended => exact sound_idle (afterSession_run _ run _).2.2
    | reported => exact sound_idle (reported_idle _ _ _ _)
    | stopped | crashed | gaveUp | unheard | woken => exact sound_idle rfl

/-- The record in the hands of a handler is below the high water mark of its partition. -/
theorem Delivered.ahead (hd : run.Delivered run.topic env note) (hl : run.loop = .serving s) {i : Nat}
    {claim : Claim α} (hi : s.claims[i]? = some claim) {r : Record} (hr : claim.phase = .taken r)
    (hf : ∀ key, env.broker.highWaterMark key ≤ maxOffset) :
    Ahead env.broker.markOf (r.held run.group) (claim.source.highWaterMark env.broker) := by
  obtain ⟨key, first, hclaimed, _, cursor, hsource, hkey, hholds⟩ := (hd.session s hl).claims i claim hi
  rw [hr] at hholds
  obtain ⟨_, payload, hp, rfl⟩ := hholds
  have htopic : key.1 = run.topic :=
    hd.exact_current.topic key (List.mem_map_of_mem (List.mem_of_getElem? hclaimed))
  obtain ⟨h0, hlt⟩ := Broker.payload?_isSome_iff.mp ⟨payload, hp htopic⟩
  rw [hsource, Source.highWaterMark, hkey]
  exact ⟨rfl, h0, hlt, hf key⟩

end GroupRun

namespace DirectRun

variable {run next : DirectRun α} {pump handled : Pump α}

/-- A pump takes a record only where its log has one. -/
theorem PumpStep.sighted (h : PumpStep env run pump after next handled) (hp : pump.Sighted env.broker) :
    handled.Sighted after.broker := by
  obtain ⟨c, hsource, htaken⟩ := hp.sighted
  have hquiet (hs : handled.reader.source = pump.reader.source) (hn : ∀ r, handled.phase ≠ .taken r) :
      handled.Sighted after.broker := ⟨c, hs.trans hsource, fun r hr => absurd hr (hn r)⟩
  cases h with
  | asked _ _ hs =>
    rw [hsource] at hs
    obtain ⟨⟨_, d, _⟩, hs, he⟩ := Option.map_eq_some_iff.mp hs
    cases he
    refine ⟨d, rfl, fun r hr => ?_⟩
    cases Cursor.step_cases hs with
    | @found payload hpay =>
      cases hr
      exact ⟨rfl, Broker.payload?_isSome_iff.mp ⟨payload, hpay⟩⟩
    | _ => simp [Found.phase] at hr
  | closed | failed => exact hquiet (closeReaderLogging_logs _ _).2.2 (by simp)
  | _ => exact hquiet rfl (by simp)

end DirectRun

namespace Pump

variable {pump : Pump α}

theorem Sighted.keep (h : pump.Sighted b) (hk : ∀ key, b.highWaterMark key ≤ later.highWaterMark key) :
    pump.Sighted later := by
  obtain ⟨c, hs, ht⟩ := h.sighted
  refine ⟨c, hs, fun r hr => ?_⟩
  obtain ⟨hkey, h0, hlt⟩ := ht r hr
  exact ⟨hkey, h0, Int.lt_of_lt_of_le hlt (hk c.key)⟩

theorem sighted_new (ho : pump.reader.Open) (hp : pump.phase = .asking .marking) : pump.Sighted b := by
  obtain ⟨c, hs⟩ := ho.cursor
  exact ⟨c, hs, fun r hr => by simp [hp] at hr⟩

theorem Sighted.ahead (h : pump.Sighted b) {r : Record} (hr : pump.phase = .taken r)
    (hf : ∀ key, b.highWaterMark key ≤ maxOffset) :
    Ahead b.markOf (r.held "") (pump.reader.source.highWaterMark b) := by
  obtain ⟨c, hs, ht⟩ := h.sighted
  obtain ⟨hkey, h0, hlt⟩ := ht r hr
  rw [hs, Source.highWaterMark, ← hkey]
  exact ⟨rfl, h0, hkey ▸ hlt, hf _⟩

end Pump

namespace Chronicle

variable {c d : Chronicle α}

/-- What is known of the sessions and the pumps of a world in which no topic is created anew. -/
structure Tracked (c : Chronicle α) : Prop where
  faithful : ∀ topic, c.Faithful topic
  sessions : ∀ run ∈ c.world.groups, run.Sound c.world.env.broker
  pumps : ∀ pump ∈ c.world.pumps, pump.Sighted c.world.env.broker

theorem Tracked.delivered (h : c.Tracked) {i : Nat} {run : GroupRun α} (hr : c.world.groups[i]? = some run) :
    ∃ note, run.Delivered run.topic c.world.env note := by
  have hf := h.faithful run.topic
  have hb : i < c.notes.length := hf.paired ▸ (List.getElem?_eq_some_iff.mp hr).1
  exact ⟨_, hf.delivered i run _ hr (List.getElem?_eq_getElem hb)⟩

theorem Turn.sound {topic : String} {a : Act α} (ht : Turn topic c a d) (h : c.Tracked)
    (hlogs : ∀ key, (c.world.env.broker.log? key).isSome → (d.world.env.broker.log? key).isSome) :
    ∀ run ∈ d.world.groups, run.Sound d.world.env.broker := by
  intro other ho
  have hold (ho : other ∈ c.world.groups) : other.Sound d.world.env.broker := (h.sessions other ho).keep hlogs
  cases ht with
  | aside | acknowledged => exact hold ho
  | @stepped _ run _ _ hr hs =>
    rcases List.mem_or_eq_of_mem_set ho with ho | rfl
    · exact hold ho
    · obtain ⟨note, hd⟩ := h.delivered hr
      exact (hs.sound hd (h.sessions run (List.mem_of_getElem? hr))).keep hlogs
  | begun _ _ _ hl =>
    rcases List.mem_append.mp ho with ho | ho
    · exact hold ho
    · cases List.mem_singleton.mp ho
      exact GroupRun.sound_idle (by simp [GroupRun.isServing, hl])
  | @received _ run _ _ hr | @dropped _ run hr =>
    rcases List.mem_or_eq_of_mem_set ho with ho | rfl
    · exact hold ho
    · exact fun s hs => h.sessions run (List.mem_of_getElem? hr) s hs

theorem Tallied.sighted {a : Act α} (ht : Tallied c a d) (h : ∀ pump ∈ c.world.pumps, pump.Sighted c.world.env.broker)
    (hmarks : ∀ key, c.world.env.broker.highWaterMark key ≤ d.world.env.broker.highWaterMark key) :
    ∀ pump ∈ d.world.pumps, pump.Sighted d.world.env.broker := by
  intro pump hp
  have hold (hp : pump ∈ c.world.pumps) : pump.Sighted d.world.env.broker := (h pump hp).keep hmarks
  cases ht with
  | aside _ _ he => exact hold (World.pumps_of_map he ▸ hp)
  | closed _ _ he | closedDirect _ he =>
    rw [World.pumps, he] at hp
    exact hold hp
  | pumped hr hj hs hd =>
    obtain ⟨_, _, hmem⟩ := World.pumps_set hr hj (by rw [hs.pumps]) hd
    rcases hmem pump hp with hp | rfl
    · exact hold hp
    · exact hs.sighted (h _ (List.mem_flatMap.mpr ⟨_, List.mem_of_getElem? hr, List.mem_of_getElem? hj⟩))
  | started hd =>
    obtain ⟨_, _, he | ⟨run, he, _, hnew⟩⟩ := Consumer.start_gauge c.world _ _
    · rw [World.pumps, hd, he] at hp
      exact hold hp
    · rw [World.pumps, hd, he, List.flatMap_append, List.flatMap_singleton] at hp
      rcases List.mem_append.mp hp with hp | hp
      · exact hold hp
      · exact Pump.sighted_new (hnew pump hp).1 (hnew pump hp).2

theorem Tracked.act (h : c.Tracked) {a : Act α} (ha : c.act? a = some d)
    (hr : ∀ topic n, a ≠ .outside (.replaceTopic topic n)) : d.Tracked := by
  have hc := (h.faithful "").collects
  have hturn (topic : String) : Turn topic c a d := act?_turn ha hc (hr topic)
  refine ⟨fun topic => (h.faithful topic).turn (hturn topic), (hturn "").sound h fun key => ?_,
    (act?_tallied hc ha).sighted h.pumps fun key => ?_⟩
  · exact (hturn key.1).keepsRecords.logs key rfl
  · exact (hturn key.1).keepsRecords.highWaterMark rfl

theorem tracked_of_run {acts : List (Act α)} (h : Chronicle.run {} acts = some c)
    (hr : ∀ topic n, Act.outside (.replaceTopic topic n) ∉ acts) : c.Tracked := by
  induction h using run_induction with
  | start => exact ⟨faithful_new, by simp, by simp [World.pumps]⟩
  | @act acts _ a _ _ ha _ ih =>
    have hbefore := ih fun topic n hm => hr topic n (List.mem_append_left _ hm)
    refine hbefore.act ha fun topic n he => hr topic n ?_
    rw [he]
    exact List.mem_append_right _ (List.mem_singleton_self _)

end Chronicle

end TopicConsumer
