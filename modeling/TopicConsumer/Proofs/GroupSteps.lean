import TopicConsumer.GroupRun

namespace TopicConsumer

theorem Queue.offer_queued {β : Type} {queue later : Queue β} {value : β}
    (h : queue.offer value = .queued later) :
    queue.held = true ∧ later.held = true ∧ later.items = queue.items ++ [value] := by
  unfold Queue.offer at h
  split at h
  next => simp at h
  next hh =>
    have hheld : queue.held = true := by simpa using hh
    split at h <;> cases h
    exact ⟨hheld, hheld, rfl⟩

theorem Queue.offer_refused {β : Type} {queue : Queue β} {value : β} (h : queue.offer value = .refused) :
    queue.held = false := by
  unfold Queue.offer at h
  split at h
  next hh => simpa using hh
  next => split at h <;> simp at h

theorem Queue.offer_fits {β : Type} {queue : Queue β} (value : β) (h : queue.items.length < queue.capacity) :
    queue.offer value ≠ .full := by
  unfold Queue.offer
  rw [if_pos h]
  split <;> simp

theorem Queue.take?_held {β : Type} {queue later : Queue β} {value : β}
    (h : queue.take? = some (value, later)) : later.held = queue.held := by
  unfold Queue.take? at h
  split at h <;> cases h
  rfl

theorem mem_modify_cases {β : Type} {xs : List β} {i : Nat} {f : β → β} {x : β} (h : x ∈ xs.modify i f) :
    x ∈ xs ∨ ∃ y, xs[i]? = some y ∧ x = f y := by
  obtain ⟨j, hj⟩ := List.mem_iff_getElem?.mp h
  rw [List.getElem?_modify] at hj
  obtain ⟨y, hy, rfl⟩ := Option.map_eq_some_iff.mp hj
  split
  next he => exact .inr ⟨y, he ▸ hy, rfl⟩
  next => exact .inl (List.mem_of_getElem? hy)

theorem mem_modify {β : Type} {xs : List β} (i : Nat) (f : β → β) {x : β} (h : x ∈ xs) :
    ∃ y ∈ xs.modify i f, y = x ∨ y = f x := by
  obtain ⟨j, hj⟩ := List.mem_iff_getElem?.mp h
  refine ⟨if i = j then f x else x, List.mem_iff_getElem?.mpr ⟨j, ?_⟩, ?_⟩
  · rw [List.getElem?_modify, hj]
    rfl
  · split
    next => exact .inr rfl
    next => exact .inl rfl

theorem map_modify_same {β γ : Type} (xs : List β) (i : Nat) {f : β → β} {g : β → γ} (h : ∀ x, g (f x) = g x) :
    (xs.modify i f).map g = xs.map g := by
  refine List.ext_getElem? fun j => ?_
  rw [List.getElem?_map, List.getElem?_map, List.getElem?_modify]
  cases xs[j]? with
  | none => rfl
  | some x => by_cases hj : i = j <;> simp [hj, h]

/-- Waiting for a fatal failure tells of the end of the client, or takes the next that was told. -/
theorem Environment.nextFatal_cases {env after : Environment} {client : Nat} {stop : Bool}
    {failure : Option Failure} (h : env.nextFatal client stop = some (failure, after)) :
    (stop = true ∧ env.groupClosed client = true ∧ failure = none ∧ after = env) ∨
      ∃ c rest, stop = false ∧ env.groupClients[client]? = some c ∧ c.fatal = failure :: rest ∧
        after = env.setGroupClient client { c with fatal := rest } := by
  unfold nextFatal at h
  split at h
  next hs =>
    split at h <;> cases h
    next hc => exact .inl ⟨hs, hc, rfl, rfl⟩
  next hs =>
    split at h
    next => simp at h
    next c hc =>
      split at h <;> cases h
      next hf => exact .inr ⟨c, _, by simpa using hs, hc, hf, rfl⟩

namespace Session

variable {α : Type} {env after : Environment} {s t : Session α}

/-- Neither cancellation nor a closed client nor a rebalance ends the session. -/
structure Undisturbed (env : Environment) (s : Session α) : Prop where
  token : env.cancelled s.token = false
  client : env.groupClosed s.client = false
  generation : env.broker.generation = s.generation

theorem returned?_some {report : String} {i : Nat} {result : Except Failure Unit}
    (h : s.returned? report = some (i, result)) :
    ∃ claim, s.claims[i]? = some claim ∧ claim.joined = false ∧ claim.outcome? report = some result := by
  obtain ⟨⟨j, claim⟩, hm, hf⟩ := List.exists_of_findSome?_eq_some h
  obtain ⟨k, hk, he⟩ := List.mem_mapIdx.mp hm
  cases he
  dsimp only at hf
  split at hf
  next => simp at hf
  next hj =>
    obtain ⟨_, hr, he⟩ := Option.map_eq_some_iff.mp hf
    cases he
    exact ⟨_, List.getElem?_eq_getElem hk, by simpa using hj, hr⟩

/-- The steps of a session that waits for what ends it. The tasks of its claims may become known in any order. -/
inductive ServingStep (env : Environment) (s : Session α) : Environment → Session α → Prop where
  | cancelled : env.cancelled s.token = true →
      ServingStep env s (env.cancel s.token) { s with phase := .draining (.ok ()) }
  | closed : env.groupClosed s.client = true →
      ServingStep env s (env.cancel s.token) { s with phase := .draining (.error .clientClosed) }
  | rebalanced : env.broker.generation ≠ s.generation →
      ServingStep env s (env.cancel s.token) { s with phase := .draining (.ok ()) }
  | joined {i : Nat} {claim : Claim α} : s.Undisturbed env → s.claims[i]? = some claim → claim.joined = false →
      claim.outcome? env.panicReport = some (.ok ()) →
      ServingStep env s env { s with claims := s.claims.modify i fun c => { c with joined := true } }
  | failed {claim : Claim α} {failure : Failure} : s.Undisturbed env → claim ∈ s.claims → claim.joined = false →
      claim.outcome? env.panicReport = some (.error failure) →
      ServingStep env s (env.cancel s.token) { s with phase := .draining (.error failure) }

theorem stepServing_cases (h : s.stepServing env = some (after, t)) : ServingStep env s after t := by
  unfold stepServing windUp at h
  split at h
  next hc =>
    cases h
    exact .cancelled hc
  next htoken =>
    split at h
    next hc =>
      cases h
      exact .closed hc
    next hclient =>
      split at h
      next hg =>
        cases h
        exact .rebalanced hg
      next hg =>
        have hu : s.Undisturbed env := ⟨by simpa using htoken, by simpa using hclient, by simpa using hg⟩
        split at h
        next => simp at h
        next hr =>
          cases h
          obtain ⟨claim, hi, hj, hc⟩ := returned?_some hr
          exact .joined hu hi hj hc
        next hr =>
          cases h
          obtain ⟨claim, hi, hj, hc⟩ := returned?_some hr
          exact .failed hu (List.mem_of_getElem? hi) hj hc

/-- A session that serves leaves its claims to their handlers. -/
theorem ServingStep.phases (h : ServingStep env s after t) : t.claims.map (·.phase) = s.claims.map (·.phase) := by
  cases h with
  | cancelled | closed | rebalanced | failed => rfl
  | joined => exact map_modify_same _ _ fun _ => rfl

end Session

namespace GroupRun

variable {α : Type} {env after : Environment} {run next : GroupRun α}

def Waits (run : GroupRun α) : Prop :=
  (∃ failure delay, run.loop = .reporting failure delay) ∨ (∃ failure, run.loop = .givingUp failure) ∨
    ∃ deadline, run.loop = .sleeping deadline

inductive LoopStep (env : Environment) (run : GroupRun α) : Environment → GroupRun α → Prop where
  | stopped : (run.loop = .top ∨ run.Waits) → env.cancelled run.token = true →
      LoopStep env run env { run with loop := .done }
  | begun {session after} : run.loop = .top → env.cancelled run.token = false →
      Session.begin env run.client [run.topic] run.token = (.ok session, after) →
      LoopStep env run after { run with loop := .serving session }
  | refused {failure after} : run.loop = .top → env.cancelled run.token = false →
      Session.begin (α := α) env run.client [run.topic] run.token = (.error failure, after) →
      LoopStep env run (run.afterSession after (.error failure)).1 (run.afterSession after (.error failure)).2
  | ended {session result} : run.loop = .serving session → session.phase = .ended result →
      LoopStep env run (run.afterSession env result).1 (run.afterSession env result).2
  | crashed {session} : run.loop = .serving session → session.phase = .crashed →
      LoopStep env run env { run with loop := .done }
  | served {session later after} : run.loop = .serving session → session.step env = some (after, later) →
      LoopStep env run after { run with loop := .serving later }
  | reported {failure delay errors} : run.loop = .reporting failure delay →
      run.errors.offer failure = .queued errors →
      LoopStep env run env { run with errors := errors, loop := afterReport env delay }
  | gaveUp {failure errors} : run.loop = .givingUp failure → run.errors.offer failure = .queued errors →
      LoopStep env run env { run with errors := errors, loop := .done }
  | unheard {failure} : ((∃ delay, run.loop = .reporting failure delay) ∨ run.loop = .givingUp failure) →
      run.errors.offer failure = .refused → LoopStep env run env { run with loop := .done }
  | woken {deadline} : run.loop = .sleeping deadline → deadline ≤ env.now →
      LoopStep env run env { run with loop := .top }

theorem stepLoop_cases {stop : Bool} (h : run.stepLoop env stop = some (after, next)) :
    LoopStep env run after next := by
  unfold stepLoop at h
  split at h
  next hl =>
    split at h
    next hc =>
      cases h
      exact .stopped (.inl hl) hc
    next hc =>
      have hc : env.cancelled run.token = false := by simpa using hc
      split at h
      next hb =>
        cases h
        exact .begun hl hc hb
      next hb =>
        obtain ⟨rfl, rfl⟩ := Prod.mk.inj (Option.some.inj h)
        exact .refused hl hc hb
  next hl =>
    split at h
    next hp =>
      obtain ⟨rfl, rfl⟩ := Prod.mk.inj (Option.some.inj h)
      exact .ended hl hp
    next hp =>
      cases h
      exact .crashed hl hp
    next =>
      split at h
      next => simp at h
      next hs =>
        cases h
        exact .served hl hs
  next hl =>
    split at h
    next hc =>
      cases h
      exact .stopped (.inr (.inl ⟨_, _, hl⟩)) hc
    next => simp at h
  next hl =>
    split at h
    next ho =>
      cases h
      exact .reported hl ho
    next ho =>
      cases h
      exact .unheard (.inl ⟨_, hl⟩) ho
    next => simp at h
  next hl =>
    split at h
    next hc =>
      cases h
      exact .stopped (.inr (.inr (.inl ⟨_, hl⟩))) hc
    next => simp at h
  next hl =>
    split at h
    next ho =>
      cases h
      exact .gaveUp hl ho
    next ho =>
      cases h
      exact .unheard (.inr hl) ho
    next => simp at h
  next hl =>
    split at h
    next hc =>
      cases h
      exact .stopped (.inr (.inr (.inr ⟨_, hl⟩))) hc
    next => simp at h
  next hl =>
    split at h
    next hd =>
      cases h
      exact .woken hl hd
    next => simp at h
  next => simp at h

inductive HandlerStep (env : Environment) (run : GroupRun α) (session : Token) (claim : Claim α) :
    Environment → GroupRun α → Claim α → Prop where
  | stopped : ((∃ stage, claim.phase = .asking stage) ∨ ∃ m ticket, claim.phase = .sending m ticket) →
      env.cancelled session = true → HandlerStep env run session claim env run (claim.finish (.ok ()))
  | asked {stage broker later found} : claim.phase = .asking stage →
      claim.ask env.broker stage = some (broker, later, found) →
      HandlerStep env run session claim { env with broker := broker } run later
  | measured {record after} : claim.phase = .taken record →
      env.measure run.group claim.source record = .ok after →
      HandlerStep env run session claim after run { claim with phase := .measured record }
  | crashed {record overflow} : claim.phase = .taken record →
      env.measure run.group claim.source record = .error overflow →
      HandlerStep env run session claim env run { claim with phase := .crashed }
  | rejected {record failure} : claim.phase = .measured record →
      record.decode run.decoder (some run.group) = .error failure →
      HandlerStep env run session claim env run (claim.finish (.error failure))
  | decoded {record message} : claim.phase = .measured record →
      record.decode run.decoder (some run.group) = .ok message →
      HandlerStep env run session claim env { run with tickets := run.tickets + 1 }
        { claim with phase := .sending message run.tickets }
  | queued {message ticket messages} : claim.phase = .sending message ticket →
      run.messages.offer message = .queued messages →
      HandlerStep env run session claim env { run with messages := messages }
        { claim with phase := .asking .marking }
  | unheard {message ticket} : claim.phase = .sending message ticket →
      run.messages.offer message = .refused →
      HandlerStep env run session claim env run (claim.finish (.ok ()))

theorem stepHandler_cases {session : Token} {claim later : Claim α} {stop : Bool}
    (h : run.stepHandler env session claim stop = some (after, next, later)) :
    HandlerStep env run session claim after next later := by
  unfold stepHandler at h
  split at h
  next hp =>
    split at h
    next hc =>
      cases h
      exact .stopped (.inl ⟨_, hp⟩) hc
    next => simp at h
  next hp =>
    obtain ⟨⟨broker, asked, found⟩, ha, he⟩ := Option.map_eq_some_iff.mp h
    cases he
    exact .asked hp ha
  next hp =>
    split at h
    next hm =>
      cases h
      exact .measured hp hm
    next hm =>
      cases h
      exact .crashed hp hm
  next hp =>
    split at h
    next hd =>
      cases h
      exact .rejected hp hd
    next hd =>
      cases h
      exact .decoded hp hd
  next hp =>
    split at h
    next hc =>
      cases h
      exact .stopped (.inr ⟨_, _, hp⟩) hc
    next => simp at h
  next hp =>
    split at h
    next ho =>
      cases h
      exact .queued hp ho
    next ho =>
      cases h
      exact .unheard hp ho
    next => simp at h
  next => simp at h

theorem HandlerStep.running {session : Token} {claim later : Claim α}
    (h : HandlerStep env run session claim after next later) : claim.isOver = false := by
  cases h with
  | stopped hp => obtain ⟨_, hp⟩ | ⟨_, _, hp⟩ := hp <;> simp [Claim.isOver, hp]
  | asked hp | measured hp | crashed hp | rejected hp | decoded hp | queued hp | unheard hp =>
    simp [Claim.isOver, hp]

theorem stepClaim_cases {i : Nat} {stop : Bool} (h : run.stepClaim env i stop = some (after, next)) :
    ∃ session claim handled later, run.loop = .serving session ∧ session.claims[i]? = some claim ∧
      HandlerStep env run session.token claim after handled later ∧
      next = { handled with loop := .serving { session with claims := session.claims.set i later } } := by
  unfold stepClaim at h
  split at h
  next session hl =>
    split at h
    next => simp at h
    next claim hc =>
      split at h
      next => simp at h
      next hs =>
        cases h
        exact ⟨session, claim, _, _, hl, hc, stepHandler_cases hs, rfl⟩
  next => simp at h

theorem afterClose_run (env : Environment) (run : GroupRun α) (fatal : Option Failure)
    (result : Except Failure Unit) : ∃ watch, (run.afterClose env fatal result).2 = { run with watch := watch } ∧
      (watch = .done ∨ ∃ failure, watch = .forwarding failure) := by
  cases fatal with
  | none => exact ⟨_, rfl, .inl rfl⟩
  | some failure => exact ⟨_, rfl, .inr ⟨failure, rfl⟩⟩

/-- The steps of the watchdog, and whether they come from being cancelled or from the end of the client. -/
inductive WatchMove (env : Environment) (run : GroupRun α) : Bool → Environment → GroupRun α → Prop where
  | cancelled : run.watch = .watching → env.cancelled run.token = true →
      WatchMove env run true env { run with watch := .closing none }
  | ended {stop later} : run.watch = .watching → env.nextFatal run.client stop = some (none, later) →
      WatchMove env run stop later { run with watch := if later.cancelled run.token then .closing none else .done }
  | failed {stop failure later} : run.watch = .watching →
      env.nextFatal run.client stop = some (some failure, later) →
      WatchMove env run stop (later.log (errorLine ("consumer group client failed: " ++ failure.message)))
        { run with watch := .closing (some failure) }
  | began {fatal} : run.watch = .closing fatal → run.closed = .idle →
      WatchMove env run false env { run with closed := .running, watch := .performing fatal }
  | learned {fatal result} : run.watch = .closing fatal → run.closed = .done result →
      WatchMove env run false (run.afterClose env fatal result).1 (run.afterClose env fatal result).2
  | performed {fatal result later} : run.watch = .performing fatal → env.closeGroup run.client = (result, later) →
      WatchMove env run false (afterClose later { run with closed := .done result } fatal result).1
        (afterClose later { run with closed := .done result } fatal result).2
  | quit {failure} : run.watch = .forwarding failure → env.cancelled run.token = true →
      WatchMove env run true env { run with watch := .done }
  | unheard {failure} : run.watch = .forwarding failure → run.errors.offer failure = .refused →
      WatchMove env run false env { run with watch := .done }
  | reported {failure errors} : run.watch = .forwarding failure → run.errors.offer failure = .queued errors →
      WatchMove env run false env { run with errors := errors, watch := .done }

theorem stepWatch_move {stop : Bool} (h : run.stepWatch env stop = some (after, next)) :
    WatchMove env run stop after next := by
  unfold stepWatch at h
  split at h
  next hw =>
    split at h
    next hc =>
      cases h
      obtain ⟨rfl, hc⟩ := Bool.and_eq_true_iff.mp hc
      exact .cancelled hw hc
    next =>
      split at h <;> cases h
      next hf => exact .ended hw hf
      next hf => exact .failed hw hf
  next hw =>
    split at h <;> cases h
    next hc => exact .began hw hc
    next hc => exact .learned hw hc
  next hw =>
    cases h
    exact .performed hw rfl
  next hw =>
    split at h <;> cases h
    next hc => exact .quit hw hc
  next hw =>
    split at h <;> cases h
    next ho => exact .reported hw ho
    next ho => exact .unheard hw ho
  next => simp at h

inductive CloserMove (env : Environment) (run : GroupRun α) : Environment → GroupRun α → Prop where
  | began : run.closer = .waiting → run.closed = .idle →
      CloserMove env run env { run with closed := .running, closer := .performing }
  | learned {result} : run.closer = .waiting → run.closed = .done result →
      CloserMove env run env { run with closer := .returned (result.mapError .close) }
  | performed {result later} : run.closer = .performing → env.closeGroup run.client = (result, later) →
      CloserMove env run later { run with closed := .done result, closer := .returned (result.mapError .close) }

theorem stepCloser_move (h : run.stepCloser env = some (after, next)) : CloserMove env run after next := by
  unfold stepCloser at h
  dsimp only at h
  split at h
  next hp hc =>
    cases h
    exact .began hp hc
  next result hp hc =>
    cases h
    cases result <;> exact .learned hp hc
  next hp =>
    generalize hc : env.closeGroup run.client = closed
    obtain ⟨result, later⟩ := closed
    simp only [performClose, hc] at h
    cases h
    cases result <;> exact .performed hp hc
  next => simp at h

/-- The watchdog only closes the client and reports its failure. -/
theorem stepWatch_run {stop : Bool} (h : run.stepWatch env stop = some (after, next)) :
    ∃ watch closed errors, next = { run with watch := watch, closed := closed, errors := errors } ∧
      (run.errors.held = false → errors.held = false) := by
  cases stepWatch_move h with
  | cancelled | ended | failed | quit | unheard => exact ⟨_, run.closed, run.errors, rfl, id⟩
  | began => exact ⟨_, _, run.errors, rfl, id⟩
  | learned => exact ⟨_, run.closed, run.errors, (afterClose_run _ _ _ _).choose_spec.1, id⟩
  | performed => exact ⟨_, _, run.errors, (afterClose_run _ _ _ _).choose_spec.1, id⟩
  | reported _ ho =>
    refine ⟨_, run.closed, _, rfl, fun hh => ?_⟩
    rw [(Queue.offer_queued ho).1] at hh
    simp at hh

theorem stepCloser_run (h : run.stepCloser env = some (after, next)) :
    ∃ closed closer, next = { run with closed := closed, closer := closer } := by
  cases stepCloser_move h with
  | began | performed => exact ⟨_, _, rfl⟩
  | learned => exact ⟨run.closed, _, rfl⟩

end GroupRun

end TopicConsumer
