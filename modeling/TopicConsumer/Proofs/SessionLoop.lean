import TopicConsumer.Proofs.Keeps
import TopicConsumer.Proofs.SessionReturns

namespace TopicConsumer

/-- What the session loop does: it begins a session, learns what it returned or that it panicked, or
reports a failure. -/
inductive LoopEvent where
  | began (now : Nat)
  | returned (result : Except Failure Unit) (readings : Readings)
  | panicked
  | reported (failure : Failure) (now : Nat)

def returnsOf (events : List LoopEvent) : List SessionReturn :=
  events.filterMap fun e => match e with
    | .returned result readings => some (result, readings)
    | _ => none

def reportsOf (events : List LoopEvent) : List Failure :=
  events.filterMap fun e => match e with
    | .reported failure _ => some failure
    | _ => none

namespace GroupRun

variable {α : Type}

/-- What the loop learns of its sessions in its next step. A client that refuses to begin one returns at
once. -/
def learns (env : Environment) (run : GroupRun α) : List LoopEvent :=
  match run.loop with
  | .top =>
    if env.cancelled run.token then []
    else
      match (Session.begin (α := α) env run.client [run.topic] run.token).1 with
      | .ok _ => [.began env.now]
      | .error failure => [.began env.now, .returned (.error failure) env.readings]
  | .serving session =>
    match session.phase with
    | .ended result => [.returned result env.readings]
    | .crashed => [.panicked]
    | _ => []
  | _ => []

def does (env : Environment) (run next : GroupRun α) : List LoopEvent :=
  run.learns env ++ (next.errors.items.drop run.errors.items.length).map (.reported · env.now)

/-- What others may do between two steps of the loop: time passes, the token is cancelled, the error queue
is filled, read or dropped, and the session that is running goes on in any way. -/
structure Meanwhile (env : Environment) (run : GroupRun α) (after : Environment) (next : GroupRun α) :
    Prop where
  later : env.Later after
  retry : next.retry = run.retry
  token : next.token = run.token
  streak : next.streak = run.streak
  held : run.errors.held = false → next.errors.held = false
  loop : next.loop = run.loop ∨ ∃ s t, run.loop = .serving s ∧ next.loop = .serving t

/-- What the session loop has done from its beginning on, whatever others did in between. -/
inductive Reaches : Environment → GroupRun α → List LoopEvent → Prop where
  | start {env run} : run.loop = .top → run.streak = {} → Reaches env run []
  | step {env run events stop after next} : Reaches env run events →
      run.stepLoop env stop = some (after, next) → Reaches after next (events ++ run.does env next)
  | meanwhile {env run events after next} : Reaches env run events → run.Meanwhile env after next →
      Reaches after next events

/-- Consuming is not cancelled, and somebody may still read the error queue. -/
def Wanted (env : Environment) (run : GroupRun α) : Prop :=
  env.cancelled run.token = false ∧ run.errors.held = true

def owed (run : GroupRun α) : List Failure :=
  match run.loop with
  | .reporting failure _ => [failure]
  | .givingUp failure => [failure]
  | _ => []

def Ready (env : Environment) (run : GroupRun α) : Prop :=
  match run.loop with
  | .top => True
  | .serving session => ∃ result, session.phase = .ended result
  | .reporting _ _ => run.errors.items.length < run.errors.capacity
  | .givingUp _ => run.errors.items.length < run.errors.capacity
  | .sleeping deadline => deadline ≤ env.now
  | .done => False

end GroupRun

namespace RetryPolicy

/-- Nothing that the sessions have returned so far ends the loop. -/
def Calm (policy : RetryPolicy) (events : List LoopEvent) : Prop :=
  ∀ past, past <+: events → policy.ends (returnsOf past) = false

/-- The last session ends the loop. -/
def Over (policy : RetryPolicy) (events : List LoopEvent) : Prop :=
  policy.ends (returnsOf events) = true ∧
    ∃ past result readings, policy.Calm past ∧ events = past ++ [.returned result readings]

/-- A session that follows a report begins after the wait. -/
def Waits (policy : RetryPolicy) (events : List LoopEvent) : Prop :=
  ∀ past failure now begun, past ++ [.reported failure now, .began begun] <+: events →
    now + (policy.delayAfter (returnsOf past)).nanos ≤ begun

/-- All that the policy asks for is reported. -/
def Settled (policy : RetryPolicy) (events : List LoopEvent) : Prop :=
  reportsOf events = policy.reports (returnsOf events)

/-- All but one failure is reported. -/
def Owes (policy : RetryPolicy) (events : List LoopEvent) (failure : Failure) : Prop :=
  reportsOf events ++ [failure] = policy.reports (returnsOf events)

end RetryPolicy

namespace GroupRun

variable {α : Type}

/-- What a phase of the loop tells of what the loop has done. -/
def Agrees (env : Environment) (run : GroupRun α) (events : List LoopEvent) : Prop :=
  match run.loop with
  | .top => run.retry.Calm events ∧ run.retry.Settled events ∧
      ∀ past failure now, events = past ++ [.reported failure now] →
        now + (run.retry.delayAfter (returnsOf past)).nanos ≤ env.now
  | .serving _ => run.retry.Calm events ∧ run.retry.Settled events
  | .reporting failure delay => run.retry.Calm events ∧ run.retry.Owes events failure ∧
      delay = run.retry.delayAfter (returnsOf events)
  | .givingUp failure => run.retry.Over events ∧ run.retry.Owes events failure
  | .sleeping deadline => run.retry.Calm events ∧ run.retry.Settled events ∧
      ∃ past failure now, events = past ++ [.reported failure now] ∧
        deadline = now + (run.retry.delayAfter (returnsOf past)).nanos
  | .done =>
      (run.retry.Calm events ∨ run.retry.Over events ∨
        ∃ past failure now, run.retry.Over past ∧ events = past ++ [.reported failure now]) ∧
      (run.retry.Settled events ∨ ∃ failure, run.retry.Owes events failure) ∧
      (run.Wanted env → run.retry.Settled events ∧
        (.panicked ∈ events ∨ run.retry.ends (returnsOf events) = true))

structure Loops (env : Environment) (run : GroupRun α) (events : List LoopEvent) : Prop where
  counts : run.loop ≠ .done → run.streak.Counts (returnsOf events)
  agrees : run.Agrees env events
  waits : run.retry.Waits events

end GroupRun

section Events

variable {events : List LoopEvent} {policy : RetryPolicy}

@[simp]
theorem returnsOf_began (now : Nat) : returnsOf (events ++ [.began now]) = returnsOf events := by
  simp [returnsOf]

@[simp]
theorem returnsOf_returned (result : Except Failure Unit) (readings : Readings) :
    returnsOf (events ++ [.returned result readings]) = returnsOf events ++ [(result, readings)] := by
  simp [returnsOf]

@[simp]
theorem returnsOf_reported (failure : Failure) (now : Nat) :
    returnsOf (events ++ [.reported failure now]) = returnsOf events := by simp [returnsOf]

@[simp]
theorem returnsOf_panicked : returnsOf (events ++ [.panicked]) = returnsOf events := by simp [returnsOf]

@[simp]
theorem reportsOf_panicked : reportsOf (events ++ [.panicked]) = reportsOf events := by simp [reportsOf]

@[simp]
theorem reportsOf_began (now : Nat) : reportsOf (events ++ [.began now]) = reportsOf events := by
  simp [reportsOf]

@[simp]
theorem reportsOf_returned (result : Except Failure Unit) (readings : Readings) :
    reportsOf (events ++ [.returned result readings]) = reportsOf events := by simp [reportsOf]

@[simp]
theorem reportsOf_reported (failure : Failure) (now : Nat) :
    reportsOf (events ++ [.reported failure now]) = reportsOf events ++ [failure] := by simp [reportsOf]

namespace RetryPolicy

theorem calm_concat {e : LoopEvent} :
    policy.Calm (events ++ [e]) ↔ policy.Calm events ∧ policy.ends (returnsOf (events ++ [e])) = false := by
  constructor
  · exact fun h => ⟨fun past hp => h past (hp.trans (List.prefix_append _ _)), h _ (List.prefix_refl _)⟩
  · rintro ⟨h, hlast⟩ past hp
    rcases List.prefix_concat_iff.mp hp with rfl | hp
    · exact hlast
    · exact h past hp

theorem Calm.last (h : policy.Calm events) : policy.ends (returnsOf events) = false :=
  h _ (List.prefix_refl _)

theorem Calm.began (h : policy.Calm events) (now : Nat) : policy.Calm (events ++ [.began now]) :=
  calm_concat.mpr ⟨h, by simpa using h.last⟩

theorem Calm.panicked (h : policy.Calm events) : policy.Calm (events ++ [.panicked]) :=
  calm_concat.mpr ⟨h, by simpa using h.last⟩

theorem Calm.reported (h : policy.Calm events) (failure : Failure) (now : Nat) :
    policy.Calm (events ++ [.reported failure now]) := calm_concat.mpr ⟨h, by simpa using h.last⟩

theorem Owes.reported {failure : Failure} (h : policy.Owes events failure) (now : Nat) :
    policy.Settled (events ++ [.reported failure now]) := by
  rw [Settled, reportsOf_reported, returnsOf_reported]
  exact h

theorem Waits.concat (h : policy.Waits events) {e : LoopEvent} (he : ∀ now, e ≠ .began now) :
    policy.Waits (events ++ [e]) := by
  intro past failure now begun hp
  rcases List.prefix_concat_iff.mp hp with hp | hp
  · have heq : (past ++ [.reported failure now]) ++ [.began begun] = events ++ [e] := by simpa using hp
    obtain ⟨_, hlast⟩ := List.append_inj' heq rfl
    cases List.cons.inj hlast |>.1
    exact absurd rfl (he begun)
  · exact h past failure now begun hp

theorem Waits.began (h : policy.Waits events) {now : Nat}
    (hn : ∀ past failure reported, events = past ++ [.reported failure reported] →
      reported + (policy.delayAfter (returnsOf past)).nanos ≤ now) :
    policy.Waits (events ++ [.began now]) := by
  intro past failure reported begun hp
  rcases List.prefix_concat_iff.mp hp with hp | hp
  · have heq : (past ++ [.reported failure reported]) ++ [.began begun] = events ++ [.began now] := by
      simpa using hp
    obtain ⟨hevents, hlast⟩ := List.append_inj' heq rfl
    cases hlast
    exact hn past failure reported hevents.symm
  · exact h past failure reported begun hp

end RetryPolicy

end Events

theorem Session.begin_readings {α : Type} (env : Environment) (client : Nat) (topics : List String)
    (token : Token) :
    (Session.begin (α := α) env client topics token).2.readings = env.readings := by
  unfold Session.begin
  split
  next => rfl
  next =>
    split
    next => split <;> rfl
    next => dsimp only; split <;> rfl
    next => rfl

namespace GroupRun

variable {α : Type} {env after : Environment} {run next : GroupRun α} {events : List LoopEvent}

theorem Loops.returned (hcounts : run.streak.Counts (returnsOf events)) (hcalm : run.retry.Calm events)
    (hsettled : run.retry.Settled events) (hwaits : run.retry.Waits events) (result : Except Failure Unit) :
    (run.afterSession env result).2.Loops (run.afterSession env result).1
      (events ++ [.returned result env.readings]) := by
  have hw : run.retry.Waits (events ++ [.returned result env.readings]) := hwaits.concat (by simp)
  unfold afterSession
  split
  next =>
    refine ⟨fun _ => by simpa using Streak.counts_ok, ⟨?_, ?_, ?_⟩, hw⟩
    · exact RetryPolicy.calm_concat.mpr ⟨hcalm, by simp⟩
    · simpa [RetryPolicy.Settled, RetryPolicy.reports_concat] using hsettled
    · intro past failure now he
      simp at he
  next =>
    have hsettled : run.retry.Settled (events ++ [.returned (.error .clientClosed) env.readings]) := by
      simpa [RetryPolicy.Settled, RetryPolicy.reports_concat] using hsettled
    have hover : run.retry.Over (events ++ [.returned (.error .clientClosed) env.readings]) :=
      ⟨by simp, events, _, _, hcalm, rfl⟩
    exact ⟨fun h => absurd rfl h, ⟨.inr (.inl hover), .inl hsettled, fun _ => ⟨hsettled, .inr hover.1⟩⟩, hw⟩
  next failure hnot =>
    have hf : failure ≠ .clientClosed := fun he => hnot he
    have hgrown : (run.streak.extend env.wall).Counts (returnsOf events ++ [(.error failure, env.readings)]) :=
      hcounts.extend failure env.readings
    have hends : run.retry.ends (returnsOf events ++ [(.error failure, env.readings)]) =
        run.retry.givesUp (returnsOf events ++ [(.error failure, env.readings)]) := RetryPolicy.ends_error hf
    have hreport := run.retry.reports_concat (returnsOf events) (.error failure, env.readings)
    rw [RetryPolicy.report?_error hf, ← hsettled] at hreport
    have hdelay : run.retry.nextDelay (run.streak.extend env.wall).failures
        ((run.streak.extend env.wall).elapsed env.reread.wall) = _ := hgrown.nextDelay run.retry
    simp only [hdelay]
    cases hg : run.retry.givesUp (returnsOf events ++ [(.error failure, env.readings)]) with
    | true =>
      rw [hg] at hends hreport
      refine ⟨fun _ => by simpa using hgrown, ⟨⟨?_, events, _, _, hcalm, rfl⟩, ?_⟩, hw⟩
      · simpa using hends
      · simpa [RetryPolicy.Owes, hgrown.failures] using hreport.symm
    | false =>
      rw [hg] at hends hreport
      refine ⟨fun _ => by simpa using hgrown, ⟨?_, ?_, by simp⟩, hw⟩
      · exact RetryPolicy.calm_concat.mpr ⟨hcalm, by simpa using hends⟩
      · simpa [RetryPolicy.Owes] using hreport.symm

/-- In every phase all that the policy asks for is reported, but for the last failure perhaps. -/
theorem Agrees.left (h : run.Agrees env events) :
    (run.retry.Calm events ∨ run.retry.Over events ∨
      ∃ past failure now, run.retry.Over past ∧ events = past ++ [.reported failure now]) ∧
    (run.retry.Settled events ∨ ∃ failure, run.retry.Owes events failure) := by
  unfold Agrees at h
  split at h
  next => exact ⟨.inl h.1, .inl h.2.1⟩
  next => exact ⟨.inl h.1, .inl h.2⟩
  next => exact ⟨.inl h.1, .inr ⟨_, h.2.1⟩⟩
  next => exact ⟨.inr (.inl h.1), .inr ⟨_, h.2⟩⟩
  next => exact ⟨.inl h.1, .inl h.2.1⟩
  next => exact ⟨h.1, h.2.1⟩

theorem does_loop (phase : LoopPhase α) : run.does env { run with loop := phase } = run.learns env := by
  simp [does]

theorem does_afterSession (result : Except Failure Unit) :
    run.does env (run.afterSession after result).2 = run.learns env := by
  unfold afterSession
  split
  next => simp [does]
  next => simp [does]
  next => dsimp only; split <;> simp [does]

theorem does_queued {failure : Failure} {errors : Queue Failure} (phase : LoopPhase α)
    (hl : run.learns env = []) (ho : run.errors.offer failure = .queued errors) :
    run.does env { run with errors := errors, loop := phase } = [.reported failure env.now] := by
  simp [does, hl, (Queue.offer_queued ho).2.2]

theorem Loops.begin (h : run.Loops env events) (hl : run.loop = .top) :
    run.streak.Counts (returnsOf (events ++ [.began env.now])) ∧
      run.retry.Calm (events ++ [.began env.now]) ∧ run.retry.Settled (events ++ [.began env.now]) ∧
      run.retry.Waits (events ++ [.began env.now]) := by
  have hagrees := h.agrees
  rw [Agrees, hl] at hagrees
  obtain ⟨hcalm, hsettled, htime⟩ := hagrees
  refine ⟨?_, hcalm.began _, ?_, h.waits.began htime⟩
  · rw [returnsOf_began]
    exact h.counts (by simp [hl])
  · simpa [RetryPolicy.Settled] using hsettled

/-- After a report the loop waits as long as the policy says, or goes on at once. -/
theorem Loops.report (h : run.Loops env events) {failure : Failure} {delay : Duration}
    (hl : run.loop = .reporting failure delay) (errors : Queue Failure) :
    ({ run with errors := errors, loop := afterReport env delay } : GroupRun α).Loops env
      (events ++ [.reported failure env.now]) := by
  have hagrees := h.agrees
  rw [Agrees, hl] at hagrees
  obtain ⟨hcalm, howes, hdelay⟩ := hagrees
  have hsettled := howes.reported env.now
  have hcounts : run.streak.Counts (returnsOf (events ++ [.reported failure env.now])) := by
    rw [returnsOf_reported]
    exact h.counts (by simp [hl])
  refine ⟨fun _ => hcounts, ?_, h.waits.concat (by simp)⟩
  by_cases hz : delay = Duration.zero
  · simp only [Agrees, afterReport, if_pos hz]
    refine ⟨hcalm.reported _ _, hsettled, fun past f now he => ?_⟩
    obtain ⟨rfl, hlast⟩ := List.append_inj' he rfl
    cases hlast
    have hzero : (run.retry.delayAfter (returnsOf events)).nanos = 0 := by rw [← hdelay, hz]; rfl
    omega
  · simp only [Agrees, afterReport, if_neg hz]
    exact ⟨hcalm.reported _ _, hsettled, events, failure, env.now, rfl, by rw [← hdelay]⟩

theorem Loops.step (h : run.Loops env events) (hs : LoopStep env run after next) :
    next.Loops after (events ++ run.does env next) := by
  have hagrees := h.agrees
  have hleft := h.agrees.left
  cases hs with
  | stopped hl hcancelled =>
    have hlearns : run.learns env = [] := by
      unfold learns
      rcases hl with hl | ⟨_, _, hl⟩ | ⟨_, hl⟩ | ⟨_, hl⟩ <;> simp [hl, hcancelled]
    rw [does_loop, hlearns, List.append_nil]
    exact ⟨fun hd => absurd rfl hd, ⟨hleft.1, hleft.2, fun hw => by simp [Wanted, hcancelled] at hw⟩, h.waits⟩
  | begun hl hcancelled hb =>
    have hlearns : run.learns env = [.began env.now] := by simp [learns, hl, hcancelled, hb]
    obtain ⟨hcounts, hcalm, hsettled, hwaits⟩ := h.begin hl
    rw [does_loop, hlearns]
    exact ⟨fun _ => hcounts, ⟨hcalm, hsettled⟩, hwaits⟩
  | @refused failure later hl hcancelled hb =>
    have hlearns : run.learns env = [.began env.now, .returned (.error failure) env.readings] := by
      simp [learns, hl, hcancelled, hb]
    have hreadings := Session.begin_readings (α := α) env run.client [run.topic] run.token
    rw [hb] at hreadings
    obtain ⟨hcounts, hcalm, hsettled, hwaits⟩ := h.begin hl
    rw [does_afterSession, hlearns, ← hreadings, ← List.singleton_append, ← List.append_assoc]
    exact Loops.returned hcounts hcalm hsettled hwaits (.error failure)
  | @ended session result hl hp =>
    have hlearns : run.learns env = [.returned result env.readings] := by simp [learns, hl, hp]
    rw [does_afterSession, hlearns]
    rw [Agrees, hl] at hagrees
    exact Loops.returned (h.counts (by simp [hl])) hagrees.1 hagrees.2 h.waits result
  | crashed hl hp =>
    have hlearns : run.learns env = [.panicked] := by simp [learns, hl, hp]
    rw [does_loop, hlearns]
    rw [Agrees, hl] at hagrees
    obtain ⟨hcalm, hsettled⟩ := hagrees
    have hsettled : run.retry.Settled (events ++ [.panicked]) := by simpa [RetryPolicy.Settled] using hsettled
    exact ⟨fun hd => absurd rfl hd, ⟨.inl hcalm.panicked, .inl hsettled, fun _ => ⟨hsettled, by simp⟩⟩,
      h.waits.concat (by simp)⟩
  | @served session later _ hl hs =>
    have hlearns : run.learns env = [] := by
      cases hp : session.phase with
      | opening | serving | draining | script => simp [learns, hl, hp]
      | ended | crashed => simp [Session.step, hp] at hs
    rw [does_loop, hlearns, List.append_nil]
    rw [Agrees, hl] at hagrees
    exact ⟨fun _ => h.counts (by simp [hl]), hagrees, h.waits⟩
  | @reported failure delay errors hl ho =>
    have hlearns : run.learns env = [] := by simp [learns, hl]
    rw [does_queued _ hlearns ho]
    exact h.report hl errors
  | @gaveUp failure errors hl ho =>
    have hlearns : run.learns env = [] := by simp [learns, hl]
    rw [does_queued _ hlearns ho]
    rw [Agrees, hl] at hagrees
    obtain ⟨hover, howes⟩ := hagrees
    have hsettled := howes.reported env.now
    refine ⟨fun hd => absurd rfl hd, ⟨.inr (.inr ⟨events, failure, _, hover, rfl⟩), .inl hsettled,
      fun _ => ?_⟩, h.waits.concat (by simp)⟩
    exact ⟨hsettled, .inr (by simpa using hover.1)⟩
  | @unheard failure hl ho =>
    have hlearns : run.learns env = [] := by
      unfold learns
      rcases hl with ⟨_, hl⟩ | hl <;> rw [hl]
    rw [does_loop, hlearns, List.append_nil]
    exact ⟨fun hd => absurd rfl hd,
      ⟨hleft.1, hleft.2, fun hw => by simp [Wanted, Queue.offer_refused ho] at hw⟩, h.waits⟩
  | @woken deadline hl hd =>
    have hlearns : run.learns env = [] := by simp [learns, hl]
    rw [does_loop, hlearns, List.append_nil]
    rw [Agrees, hl] at hagrees
    obtain ⟨hcalm, hsettled, past, failure, now, hevents, hdeadline⟩ := hagrees
    refine ⟨fun _ => h.counts (by simp [hl]), ⟨hcalm, hsettled, fun other f n he => ?_⟩, h.waits⟩
    rw [hevents] at he
    obtain ⟨rfl, hlast⟩ := List.append_inj' he rfl
    cases hlast
    exact hdeadline ▸ hd

theorem Meanwhile.wanted (h : run.Meanwhile env after next) (hw : next.Wanted after) : run.Wanted env := by
  obtain ⟨hcancelled, hheld⟩ := hw
  constructor
  · by_contra hc
    have hlater := h.later.cancelled run.token (by simpa using hc)
    rw [← h.token, hcancelled] at hlater
    simp at hlater
  · by_contra hn
    have hdropped := h.held (by simpa using hn)
    rw [hheld] at hdropped
    simp at hdropped

theorem Loops.meanwhile (h : run.Loops env events) (hm : run.Meanwhile env after next) :
    next.Loops after events := by
  have hagrees := h.agrees
  have hnow := hm.later.now
  rcases hm.loop with hl | ⟨s, t, hs, ht⟩
  · refine ⟨by rw [hl, hm.streak]; exact h.counts, ?_, by rw [hm.retry]; exact h.waits⟩
    cases hp : run.loop with
    | top =>
      rw [Agrees, hp] at hagrees
      rw [Agrees, hl, hp, hm.retry]
      refine ⟨hagrees.1, hagrees.2.1, fun past failure now he => ?_⟩
      have htime := hagrees.2.2 past failure now he
      omega
    | done =>
      rw [Agrees, hp] at hagrees
      rw [Agrees, hl, hp, hm.retry]
      exact ⟨hagrees.1, hagrees.2.1, fun hw => hagrees.2.2 (hm.wanted hw)⟩
    | serving | reporting | givingUp | sleeping =>
      rw [Agrees, hp] at hagrees
      rw [Agrees, hl, hp, hm.retry]
      exact hagrees
  · rw [Agrees, hs] at hagrees
    refine ⟨fun _ => ?_, ?_, by rw [hm.retry]; exact h.waits⟩
    · rw [hm.streak]
      exact h.counts (by simp [hs])
    · rw [Agrees, ht, hm.retry]
      exact hagrees

theorem loops_of_reaches (h : Reaches env run events) : run.Loops env events := by
  induction h with
  | @start env run hl hs =>
    refine ⟨fun _ => hs ▸ Streak.counts_new, ?_, fun past failure now begun hp => ?_⟩
    · rw [Agrees, hl]
      refine ⟨fun past hp => ?_, rfl, fun past failure now he => by simp at he⟩
      rw [List.prefix_nil.mp hp]
      rfl
    · have hn := List.prefix_nil.mp hp
      simp at hn
  | step _ hs ih => exact ih.step (stepLoop_cases hs)
  | meanwhile _ hm ih => exact ih.meanwhile hm

end GroupRun

end TopicConsumer
