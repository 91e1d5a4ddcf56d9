import TopicConsumer.Proofs.WorldLoops

namespace TopicConsumer

variable {α : Type}

/-- How many steps a loop that runs no session makes at most before it begins one or is done. -/
def LoopPhase.remaining : LoopPhase α → Nat
  | .serving _ => 4
  | .reporting _ _ => 3
  | .sleeping _ => 2
  | .top => 1
  | .givingUp _ => 1
  | .done => 0

/-- What a retry policy asks of a session loop. -/
structure GroupRun.FollowsPolicy (env : Environment) (run : GroupRun α) (events : List LoopEvent) : Prop where
  /-- A session that ends the loop is the last, and only its failure is still reported. -/
  stops : ∀ past e, past ++ [e] <+: events → run.retry.ends (returnsOf past) = true →
    past ++ [e] = events ∧ ∃ failure now, e = .reported failure now
  ends : run.Wanted env → .panicked ∉ events →
    (run.retry.ends (returnsOf events) = true ↔ run.loop = .done ∨ ∃ failure, run.loop = .givingUp failure)
  reports : run.Wanted env → reportsOf events ++ run.owed = run.retry.reports (returnsOf events)
  /-- Who cancels consuming or drops the error queue misses one report at most. -/
  missed : ∃ missing, missing.length ≤ 1 ∧
    reportsOf events ++ missing = run.retry.reports (returnsOf events)
  closed : Failure.clientClosed ∉ reportsOf events
  waits : run.retry.Waits events
  sleeps : ∀ deadline, run.loop = .sleeping deadline → ∃ past failure now,
    events = past ++ [.reported failure now] ∧
      deadline = now + (run.retry.delayAfter (returnsOf past)).nanos
  moves : run.Ready env → ∃ after next, run.stepLoop env false = some (after, next)
  proceeds : ∀ stop after next, (∀ session, run.loop ≠ .serving session) →
    run.stepLoop env stop = some (after, next) →
      (∃ now, .began now ∈ run.does env next) ∨ next.loop.remaining < run.loop.remaining
  cancelled : env.cancelled run.token = true → (∀ session, run.loop ≠ .serving session) →
    run.loop ≠ .done → ∃ stop, run.stepLoop env stop = some (env, { run with loop := .done })
  beginsNoMore : env.cancelled run.token = true → ∀ stop after next,
    run.stepLoop env stop = some (after, next) → ∀ now, .began now ∉ run.does env next
  unheard : run.errors.held = false → run.owed ≠ [] →
    run.stepLoop env false = some (env, { run with loop := .done })

namespace RetryPolicy

variable {policy : RetryPolicy} {events : List LoopEvent}

theorem report?_ne_closed {returns : List SessionReturn} {failure : Failure}
    (h : policy.report? returns = some failure) : failure ≠ .clientClosed := by
  unfold report? at h
  split at h
  next => simp at h
  next found _ hn _ =>
    cases Option.some.inj h
    split
    next => simp
    next => exact hn
  next => simp at h

theorem closed_not_reported (policy : RetryPolicy) (returns : List SessionReturn) :
    Failure.clientClosed ∉ policy.reports returns := by
  intro hm
  obtain ⟨past, _, hp⟩ := List.mem_filterMap.mp hm
  exact report?_ne_closed hp rfl

/-- Before the session that ends the loop none does. -/
theorem Over.calm (h : policy.Over events) {past : List LoopEvent} {e : LoopEvent}
    (hp : past ++ [e] <+: events) : policy.ends (returnsOf past) = false := by
  obtain ⟨_, before, result, readings, hcalm, rfl⟩ := h
  refine hcalm past ?_
  rcases List.prefix_concat_iff.mp hp with he | hp
  · exact (List.append_inj' he rfl).1 ▸ List.prefix_refl _
  · exact (List.prefix_append _ _).trans hp

end RetryPolicy

namespace GroupRun

variable {env after : Environment} {run next : GroupRun α} {events : List LoopEvent}

theorem Agrees.stops (h : run.Agrees env events) {past : List LoopEvent} {e : LoopEvent}
    (hp : past ++ [e] <+: events) (hends : run.retry.ends (returnsOf past) = true) :
    past ++ [e] = events ∧ ∃ failure now, e = .reported failure now := by
  rcases h.left.1 with hcalm | hover | ⟨before, failure, now, hover, rfl⟩
  · have hnot := hcalm past ((List.prefix_append _ _).trans hp)
    simp [hends] at hnot
  · have hnot := hover.calm hp
    simp [hends] at hnot
  · rcases List.prefix_concat_iff.mp hp with he | hp
    · have hlast := (List.append_inj' he rfl).2
      exact ⟨he, failure, now, (List.cons.inj hlast).1⟩
    · have hnot := hover.calm hp
      simp [hends] at hnot

theorem Agrees.ends (h : run.Agrees env events) (hw : run.Wanted env) (hp : .panicked ∉ events) :
    run.retry.ends (returnsOf events) = true ↔
      run.loop = .done ∨ ∃ failure, run.loop = .givingUp failure := by
  unfold Agrees at h
  split at h
  next hl => simp [hl, h.1.last]
  next hl => simp [hl, h.1.last]
  next hl => simp [hl, h.1.last]
  next hl => simp [hl, h.1.1]
  next hl => simp [hl, h.1.last]
  next hl => simp [hl, (h.2.2 hw).2.resolve_left hp]

theorem Agrees.reports (h : run.Agrees env events) (hw : run.Wanted env) :
    reportsOf events ++ run.owed = run.retry.reports (returnsOf events) := by
  unfold Agrees at h
  unfold owed
  split at h
  next hl => simpa [hl, RetryPolicy.Settled] using h.2.1
  next hl => simpa [hl, RetryPolicy.Settled] using h.2
  next hl => simpa [hl, RetryPolicy.Owes] using h.2.1
  next hl => simpa [hl, RetryPolicy.Owes] using h.2
  next hl => simpa [hl, RetryPolicy.Settled] using h.2.1
  next hl => simpa [hl, RetryPolicy.Settled] using (h.2.2 hw).1

theorem Agrees.missed (h : run.Agrees env events) : ∃ missing, missing.length ≤ 1 ∧
    reportsOf events ++ missing = run.retry.reports (returnsOf events) := by
  rcases h.left.2 with hsettled | ⟨failure, howes⟩
  · exact ⟨[], by simp, by simpa [RetryPolicy.Settled] using hsettled⟩
  · exact ⟨[failure], by simp, howes⟩

theorem Agrees.sleeps (h : run.Agrees env events) {deadline : Nat} (hl : run.loop = .sleeping deadline) :
    ∃ past failure now, events = past ++ [.reported failure now] ∧
      deadline = now + (run.retry.delayAfter (returnsOf past)).nanos := by
  rw [Agrees, hl] at h
  exact h.2.2

theorem stepLoop_of_ready (h : run.Ready env) :
    ∃ after next, run.stepLoop env false = some (after, next) := by
  have hoffer : ∀ failure, run.errors.items.length < run.errors.capacity →
      run.errors.offer failure ≠ .full := fun failure => Queue.offer_fits failure
  unfold Ready at h
  unfold stepLoop
  split at h
  next hl =>
    simp only [hl]
    split
    next => exact ⟨_, _, rfl⟩
    next => split <;> exact ⟨_, _, rfl⟩
  next hl =>
    obtain ⟨result, hp⟩ := h
    simp only [hl, hp]
    exact ⟨_, _, rfl⟩
  next failure _ hl =>
    simp only [hl]
    have hfits := hoffer failure h
    split
    next => exact ⟨_, _, rfl⟩
    next => exact ⟨_, _, rfl⟩
    next hf => exact absurd hf hfits
  next failure hl =>
    simp only [hl]
    have hfits := hoffer failure h
    split
    next => exact ⟨_, _, rfl⟩
    next => exact ⟨_, _, rfl⟩
    next hf => exact absurd hf hfits
  next hl =>
    simp only [hl, if_pos h]
    exact ⟨_, _, rfl⟩
  next => exact h.elim

/-- A loop that runs no session begins one or comes nearer to its end. -/
theorem LoopStep.proceeds (h : LoopStep env run after next) (hn : ∀ session, run.loop ≠ .serving session) :
    (∃ now, .began now ∈ run.does env next) ∨ next.loop.remaining < run.loop.remaining := by
  cases h with
  | stopped hl =>
    refine .inr ?_
    rcases hl with hl | ⟨_, _, hl⟩ | ⟨_, hl⟩ | ⟨_, hl⟩ <;> simp [hl, LoopPhase.remaining]
  | begun hl hc hb => exact .inl ⟨env.now, by simp [does, learns, hl, hc, hb]⟩
  | refused hl hc hb => exact .inl ⟨env.now, by simp [does, learns, hl, hc, hb]⟩
  | ended hl | crashed hl | served hl => exact absurd hl (hn _)
  | @reported _ delay _ hl =>
    refine .inr ?_
    rw [hl, afterReport]
    split <;> simp [LoopPhase.remaining]
  | gaveUp hl => exact .inr (by simp [hl, LoopPhase.remaining])
  | unheard hl =>
    refine .inr ?_
    rcases hl with ⟨_, hl⟩ | hl <;> simp [hl, LoopPhase.remaining]
  | woken hl => exact .inr (by simp [hl, LoopPhase.remaining])

theorem began_not_learned (hc : env.cancelled run.token = true) (next : GroupRun α) (now : Nat) :
    .began now ∉ run.does env next := by
  have hlearns : .began now ∉ run.learns env := by
    unfold learns
    split
    next => simp [hc]
    next => split <;> simp
    next => simp
  intro hm
  rcases List.mem_append.mp hm with hm | hm
  · exact hlearns hm
  · obtain ⟨_, _, he⟩ := List.mem_map.mp hm
    simp at he

theorem stepLoop_cancelled (hc : env.cancelled run.token = true) (hn : ∀ session, run.loop ≠ .serving session)
    (hd : run.loop ≠ .done) : ∃ stop, run.stepLoop env stop = some (env, { run with loop := .done }) := by
  cases hl : run.loop with
  | top => exact ⟨false, by simp [stepLoop, hl, hc]⟩
  | serving session => exact absurd hl (hn session)
  | reporting | givingUp | sleeping => exact ⟨true, by simp [stepLoop, hl, hc]⟩
  | done => exact absurd hl hd

theorem stepLoop_unheard (hh : run.errors.held = false) (ho : run.owed ≠ []) :
    run.stepLoop env false = some (env, { run with loop := .done }) := by
  have hrefused : ∀ failure, run.errors.offer failure = .refused := fun failure => by simp [Queue.offer, hh]
  unfold owed at ho
  split at ho
  next hl => simp [stepLoop, hl, hrefused]
  next hl => simp [stepLoop, hl, hrefused]
  next => exact absurd rfl ho

end GroupRun

theorem GroupRun.Reaches.followsPolicy {env : Environment} {run : GroupRun α} {events : List LoopEvent}
    (h : Reaches env run events) : run.FollowsPolicy env events := by
  have hloops := loops_of_reaches h
  have hagrees := hloops.agrees
  refine ⟨fun past e => hagrees.stops, hagrees.ends, hagrees.reports, hagrees.missed, ?_, hloops.waits,
    fun deadline => hagrees.sleeps, stepLoop_of_ready, ?_, stepLoop_cancelled, ?_, stepLoop_unheard⟩
  · intro hm
    obtain ⟨missing, _, hreports⟩ := hagrees.missed
    exact run.retry.closed_not_reported (returnsOf events) (hreports ▸ List.mem_append_left missing hm)
  · exact fun stop after next hn hs => (stepLoop_cases hs).proceeds hn
  · exact fun hc stop after next _ => began_not_learned hc next

/-- A session loop begins sessions until the first that its policy ends it with, reports every failing one
before, each once and in order, and that it gives up, and waits as its policy says. Cancelling consuming
or dropping the error queue ends it. So does the loop of every group consumer that is ever started in a world. -/
theorem session_loop_follows_policy :
    (∀ (env : Environment) (run : GroupRun α) events, GroupRun.Reaches env run events →
      run.FollowsPolicy env events) ∧
    ∀ acts (c : Chronicle α), Chronicle.run {} acts = some c → ∀ (i : Nat) run, c.world.groups[i]? = some run →
      ∃ events, GroupRun.Reaches c.world.env run events ∧ run.FollowsPolicy c.world.env events := by
  refine ⟨fun _ _ _ h => h.followsPolicy, fun acts c hc i run hr => ?_⟩
  obtain ⟨events, hreaches⟩ := Chronicle.session_loops_of_world hc hr
  exact ⟨events, hreaches, hreaches.followsPolicy⟩

namespace GroupRun

/-- Lets the loop make a step after each of some waits, with nobody else at work. -/
def follow (env : Environment) (run : GroupRun α) (events : List LoopEvent) :
    List Nat → Option (Environment × GroupRun α × List LoopEvent)
  | [] => some (env, run, events)
  | wait :: rest =>
    let later := { env with now := env.now + wait, wall := env.wall + wait }
    (run.stepLoop later false).bind fun (after, next) =>
      follow after next (events ++ run.does later next) rest

theorem Reaches.follow {env after : Environment} {run next : GroupRun α} {events more : List LoopEvent}
    (h : Reaches env run events) {waits : List Nat}
    (hf : run.follow env events waits = some (after, next, more)) : Reaches after next more := by
  induction waits generalizing env run events with
  | nil =>
    cases Option.some.inj hf
    exact h
  | cons wait rest ih =>
    obtain ⟨⟨_, _⟩, hs, hf⟩ := Option.bind_eq_some_iff.mp hf
    have hwaited : run.Meanwhile env { env with now := env.now + wait, wall := env.wall + wait } run :=
      ⟨⟨Nat.le_add_right _ _, Nat.le_add_right _ _, fun _ ht => ht⟩, rfl, rfl, rfl, id, .inl rfl⟩
    exact ih ((h.meanwhile hwaited).step hs) hf

end GroupRun

def retriedScript : Script where
  sessions := [⟨[], .failed "a"⟩, ⟨[], .ok⟩, ⟨[], .failed "b"⟩, ⟨[], .failed "c"⟩]

def retriedRun : GroupRun Nat where
  group := "billing"
  topic := "orders"
  decoder := Decoder.length
  retry := { maxAttempts := some 2, backoff := .constant (Duration.ofNanos 5) }
  client := 0
  token := []
  messages := { capacity := 1 }
  errors := { capacity := 3 }

/-- A run that gives up as soon as it has been failing for 1 ns. -/
def impatientRun : GroupRun Nat :=
  { retriedRun with retry := { maxElapsed := some (Duration.ofNanos 1) } }

/-- A streak of two failing sessions is too long, and so is one of a single failing session if the clock gets on between
the two times that it is read. -/
theorem failing_sessions_give_up :
    (∃ env run events, GroupRun.Reaches (α := Nat) env run events ∧ run.FollowsPolicy env events ∧ run.Wanted env ∧
      returnsOf events = [(.error (.broker "a"), ⟨0, 0⟩), (.ok (), ⟨5, 5⟩), (.error (.broker "b"), ⟨5, 5⟩),
        (.error (.broker "c"), ⟨10, 10⟩)] ∧
      run.retry.reports (returnsOf events) = [.broker "a", .broker "b", .retriesExhausted 2 (.broker "c")]) ∧
    ∃ env run events, GroupRun.Reaches (α := Nat) env run events ∧ run.FollowsPolicy env events ∧ run.Wanted env ∧
      returnsOf events = [(.error (.broker "a"), ⟨100, 130⟩)] ∧
      run.retry.reports (returnsOf events) = [.retriesExhausted 1 (.broker "a")] := by
  have hfollows {env : Environment} {run : GroupRun Nat} {waits : List Nat} {returns : List SessionReturn}
      {reports : List Failure} (hl : run.loop = .top) (hs : run.streak = {})
      (hstate : (run.follow env [] waits).map (fun (env, run, events) =>
        (env.cancelled run.token, run.errors.held, run.owed, returnsOf events, reportsOf events)) =
          some (false, true, [], returns, reports)) :
      ∃ env run events, GroupRun.Reaches (α := Nat) env run events ∧ run.FollowsPolicy env events ∧ run.Wanted env ∧
        returnsOf events = returns ∧ run.retry.reports (returnsOf events) = reports := by
    obtain ⟨⟨env, run, events⟩, hf, he⟩ := Option.map_eq_some_iff.mp hstate
    simp only [Prod.mk.injEq] at he
    obtain ⟨hcancelled, hheld, howed, hreturns, hreported⟩ := he
    have hr : GroupRun.Reaches env run events := (GroupRun.Reaches.start hl hs).follow hf
    have hfollows := session_loop_follows_policy.1 env run events hr
    have hreports := hfollows.reports ⟨hcancelled, hheld⟩
    rw [howed, List.append_nil, hreported] at hreports
    exact ⟨env, run, events, hr, hfollows, ⟨hcancelled, hheld⟩, hreturns, hreports.symm⟩
  have hretried : (retriedRun.follow { groupClients := [⟨.script "billing" retriedScript 0, [], false⟩] } []
      [0, 0, 0, 0, 5, 0, 0, 0, 0, 0, 0, 0, 5, 0, 0, 0, 0]).map (fun (env, run, events) =>
        (env.cancelled run.token, run.errors.held, run.owed, returnsOf events, reportsOf events)) =
      some (false, true, [], [(.error (.broker "a"), ⟨0, 0⟩), (.ok (), ⟨5, 5⟩), (.error (.broker "b"), ⟨5, 5⟩),
        (.error (.broker "c"), ⟨10, 10⟩)], [.broker "a", .broker "b", .retriesExhausted 2 (.broker "c")]) := by rfl
  have himpatient : (impatientRun.follow
      { groupClients := [⟨.script "billing" retriedScript 0, [], false⟩], wall := 100, lapse := 30 } []
      [0, 0, 0, 0]).map (fun (env, run, events) =>
        (env.cancelled run.token, run.errors.held, run.owed, returnsOf events, reportsOf events)) =
      some (false, true, [], [(.error (.broker "a"), ⟨100, 130⟩)], [.retriesExhausted 1 (.broker "a")]) := by rfl
  exact ⟨hfollows rfl rfl hretried, hfollows rfl rfl himpatient⟩

end TopicConsumer
