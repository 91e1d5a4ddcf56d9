import TopicConsumer.Proofs.Chronicle

namespace TopicConsumer

open Environment

variable {α : Type} {topic : String}

theorem Environment.Keeps.changeLog {env : Environment} {key : PartitionKey} {b : Broker}
    {f : PartitionLog → PartitionLog} (hf : ∀ log, log.records <+: (f log).records)
    (h : env.broker.changeLog key f = .ok b) : Keeps topic env (env.withBroker b) := by
  unfold Broker.changeLog at h
  split at h
  next => simp at h
  next hl =>
    cases h
    exact Keeps.modify (Broker.log?_nonneg hl) hf rfl rfl

theorem Environment.Keeps.createTopic {env : Environment} {name : String} {partitions : Nat}
    (h : env.broker.topics.get? name = none ∨ name ≠ topic) :
    Keeps topic env (env.withBroker (env.broker.createTopic name partitions)) := by
  have hlog : ∀ key : PartitionKey, key.1 = topic → (env.broker.log? key).isSome →
      (env.broker.createTopic name partitions).log? key = env.broker.log? key := by
    intro key ht hs
    have hn : key.1 ≠ name := by
      rintro rfl
      rcases h with h | h
      · simp [Broker.log?, h] at hs
      · exact h ht
    simp [Broker.log?, Broker.createTopic, Table.get?_set, hn]
  refine ⟨⟨fun key offset payload ht hp => ?_, fun key ht hs => ?_, fun _ _ _ h => h⟩, rfl, .of_eq rfl rfl rfl⟩
  · obtain ⟨ho, log, hl, hr⟩ := Broker.payload?_eq_some.mp hp
    exact Broker.payload?_eq_some.mpr ⟨ho, log, by rwa [withBroker, hlog key ht (by simp [hl])], hr⟩
  · rwa [withBroker, hlog key ht hs]

theorem Environment.KeepsRecords.accept (env : Environment) (ack : Ack) :
    KeepsRecords topic env (env.withBroker (env.broker.accept ack)) :=
  ⟨fun _ _ _ _ hp => hp, fun _ _ hl => hl, fun _ _ _ hj => hj⟩

theorem Environment.Keeps.failGroup {env : Environment} (group reason : String) :
    Keeps topic env (env.failGroup group reason) where
  payloads _ _ _ _ h := h
  logs _ _ h := h
  members client group start h := by
    obtain ⟨c, hc, hs⟩ := h
    refine ⟨_, by simp [Environment.failGroup, hc]; rfl, ?_⟩
    simp only [hs]
    split
    next => rfl
    next => exact hs
  committed := rfl
  later := .of_eq rfl rfl rfl

theorem Environment.change?_keeps {env after : Environment} {change : Outside}
    (h : env.change? change = some after) (hr : ∀ n, change ≠ .replaceTopic topic n) :
    Keeps topic env after := by
  cases change with
  | createTopic name partitions =>
    simp only [change?] at h
    split at h
    next => simp at h
    next hn =>
      cases h
      exact Keeps.createTopic (.inl (by simpa using hn))
  | replaceTopic name partitions =>
    cases h
    exact Keeps.createTopic (.inr fun he => hr partitions (he ▸ rfl))
  | produce key payload =>
    simp only [change?] at h
    split at h
    next hp =>
      cases h
      unfold Broker.produce at hp
      split at hp
      next hc =>
        cases hp
        exact Keeps.changeLog (fun log => List.prefix_append _ _) hc
      next => simp at hp
    next => simp at h
  | failPartition key reason =>
    simp only [change?] at h
    split at h
    next hp =>
      cases h
      exact Keeps.changeLog (f := fun log => { log with failure := some reason })
        (fun _ => List.prefix_refl _) hp
    next => simp at h
  | failGroup group reason =>
    cases h
    exact Keeps.failGroup group reason
  | cancel token =>
    cases h
    exact Keeps.of_eq rfl rfl rfl (env.later_cancel token)
  | elapse now wall lapse =>
    cases h
    exact Keeps.of_eq rfl rfl rfl ⟨Nat.le_add_right _ _, Nat.le_add_right _ _, fun _ ht => ht⟩
  | rebalance | refuseConnections | refusePartition | failClose | deriveToken | reportPanics =>
    cases h
    exact Keeps.of_eq rfl rfl rfl (.of_eq rfl rfl rfl)

/-- A group client that a configuration describes joins the configured group and starts where the
configuration says. -/
theorem Broker.connectGroup_groupClient {b : Broker} {config : Config α} {group joined : String}
    {start : StartOffset} (h : b.connectGroup (config.groupClient group) = .ok (joined, start)) :
    joined = group ∧ start = config.start := by
  have hg : (config.groupClient group).get? "group.id" = some group := by
    simp [Config.groupClient, Table.get?_set]
  have hs : (config.groupClient group).get? "auto.offset.reset" = some config.start.name := by
    simp [Config.groupClient, Table.get?_set]
  unfold Broker.connectGroup at h
  rw [hg, hs] at h
  split at h
  next => simp at h
  next =>
    cases h
    refine ⟨rfl, ?_⟩
    cases config.start <;> simp [StartOffset.name]

/-- One step of a group run: of its session loop, of the handler of a claim, or of something that leaves
its messages and its session alone. -/
inductive GroupRun.Step (env : Environment) (run : GroupRun α) : Environment → GroupRun α → Prop where
  | loop {stop after next} : run.stepLoop env stop = some (after, next) → Step env run after next
  | claim {i stop after next} : run.stepClaim env i stop = some (after, next) → Step env run after next
  | aside {after} (watch : WatchPhase) (closed : CloseCell) (closer : CloserPhase)
      (errors : Queue Failure) : (∀ topic, Keeps topic env after) →
      (run.errors.held = false → errors.held = false) →
      Step env run after { run with watch := watch, closed := closed, closer := closer, errors := errors }

theorem GroupRun.Step.keeps {env after : Environment} {run next : GroupRun α}
    (h : run.Step env after next) : Keeps topic env after := by
  cases h with
  | loop hs => exact (stepLoop_cases hs).keeps
  | claim hs =>
    obtain ⟨_, _, _, _, _, _, hh, _⟩ := GroupRun.stepClaim_cases hs
    exact hh.keeps
  | aside _ _ _ _ hk _ => exact hk topic

inductive Chronicle.Turn (topic : String) (c : Chronicle α) (a : Act α) : Chronicle α → Prop where
  | aside {env directs} : Keeps topic c.world.env env →
      Turn topic c a ⟨{ c.world with env := env, directs := directs }, c.notes⟩
  | acknowledged {i : Nat} {note : RunNote α} {message : Message α} {ack : Ack} :
      c.notes[i]? = some note → message ∈ note.received → message.ack = some ack →
      Turn topic c a (c.setEnv (c.world.env.withBroker (c.world.env.broker.accept ack)))
  | stepped {i run env next} : c.world.groups[i]? = some run → run.Step c.world.env env next →
      Turn topic c a ⟨c.world.setGroup i (env, next), c.notes.modify i (·.observe c.world.env run next)⟩
  | begun {env run config token} : a = .start (.grouped run.group config) token →
      Keeps topic c.world.env env → env.Joined run.client run.group config.start → run.loop = .top →
      run.streak = {} → run.messages.items = [] →
      Turn topic c a ⟨{ c.world with env := env, groups := c.world.groups ++ [run] },
        c.notes ++ [{ start := config.start }]⟩
  | received {i run message messages} : c.world.groups[i]? = some run →
      run.messages.take? = some (message, messages) →
      Turn topic c a { c.setRun i { run with messages := messages } with
        notes := c.notes.modify i fun note => { note with received := note.received ++ [message] } }
  | dropped {i run} : c.world.groups[i]? = some run →
      Turn topic c a (c.setRun i { run with messages := run.messages.drop })

theorem World.setGroup_getElem? (w : World α) {i : Nat} {run : GroupRun α} (env : Environment) (next : GroupRun α)
    (h : w.groups[i]? = some run) : (w.setGroup i (env, next)).groups[i]? = some next :=
  List.getElem?_set_self (List.getElem?_eq_some_iff.mp h).1

inductive World.Moved (w : World α) : Move → World α → Prop where
  | watch {i stop run env next} : w.groups[i]? = some run → run.stepWatch w.env stop = some (env, next) →
      Moved w ⟨.watch i, stop⟩ (w.setGroup i (env, next))
  | closer {i run env next} : w.groups[i]? = some run → run.stepCloser w.env = some (env, next) →
      Moved w ⟨.closer i, false⟩ (w.setGroup i (env, next))
  | loop {i stop run env next} : w.groups[i]? = some run → run.stepLoop w.env stop = some (env, next) →
      Moved w ⟨.loop i, stop⟩ (w.setGroup i (env, next))
  | claim {i j stop run env next} : w.groups[i]? = some run → run.stepClaim w.env j stop = some (env, next) →
      Moved w ⟨.claim i j, stop⟩ (w.setGroup i (env, next))
  | pump {i j stop run env next} : w.directs[i]? = some run → run.stepPump w.env j stop = some (env, next) →
      Moved w ⟨.pump i j, stop⟩ (w.setDirect i (env, next))
  | task {i j stop run next} : w.directs[i]? = some run → run.stepTask w.env j stop = some next →
      Moved w ⟨.task i j, stop⟩ (w.setDirect i (w.env, next))

inductive World.Collected (w : World α) : Move → World α → Prop where
  | session {i run env next} : w.collects[i]? = some run → run.stepSession w.env = some (env, next) →
      Collected w ⟨.collect i, false⟩ (w.setCollect i (env, next))
  | claim {i j stop run env next} : w.collects[i]? = some run → run.stepClaim w.env j stop = some (env, next) →
      Collected w ⟨.collectClaim i j, stop⟩ (w.setCollect i (env, next))

theorem World.moved_or_collected {w v : World α} {move : Move} (h : w.step? move = some v) :
    w.Moved move v ∨ w.Collected move v := by
  obtain ⟨actor, stop⟩ := move
  cases actor with
  | watch i =>
    obtain ⟨run, hr, h⟩ := Option.bind_eq_some_iff.mp h
    obtain ⟨⟨env, next⟩, hs, h⟩ := Option.bind_eq_some_iff.mp h
    cases h
    exact .inl (.watch hr hs)
  | closer i =>
    obtain ⟨run, hr, h⟩ := Option.bind_eq_some_iff.mp h
    cases stop with
    | true => simp at h
    | false =>
      obtain ⟨⟨env, next⟩, hs, h⟩ := Option.bind_eq_some_iff.mp h
      cases h
      exact .inl (.closer hr hs)
  | loop i =>
    obtain ⟨run, hr, h⟩ := Option.bind_eq_some_iff.mp h
    obtain ⟨⟨env, next⟩, hs, h⟩ := Option.bind_eq_some_iff.mp h
    cases h
    exact .inl (.loop hr hs)
  | claim i j =>
    obtain ⟨run, hr, h⟩ := Option.bind_eq_some_iff.mp h
    obtain ⟨⟨env, next⟩, hs, h⟩ := Option.bind_eq_some_iff.mp h
    cases h
    exact .inl (.claim hr hs)
  | pump i j =>
    obtain ⟨run, hr, h⟩ := Option.bind_eq_some_iff.mp h
    obtain ⟨⟨env, next⟩, hs, h⟩ := Option.bind_eq_some_iff.mp h
    cases h
    exact .inl (.pump hr hs)
  | task i j =>
    obtain ⟨run, hr, h⟩ := Option.bind_eq_some_iff.mp h
    obtain ⟨next, hs, h⟩ := Option.bind_eq_some_iff.mp h
    cases h
    exact .inl (.task hr hs)
  | collect i =>
    obtain ⟨run, hr, h⟩ := Option.bind_eq_some_iff.mp h
    cases stop with
    | true => simp at h
    | false =>
      obtain ⟨⟨env, next⟩, hs, h⟩ := Option.bind_eq_some_iff.mp h
      cases h
      exact .inr (.session hr hs)
  | collectClaim i j =>
    obtain ⟨run, hr, h⟩ := Option.bind_eq_some_iff.mp h
    obtain ⟨⟨env, next⟩, hs, h⟩ := Option.bind_eq_some_iff.mp h
    cases h
    exact .inr (.claim hr hs)

theorem World.moved_of_step? {w v : World α} {move : Move} (hc : w.collects = []) (h : w.step? move = some v) :
    w.Moved move v := by
  refine (moved_or_collected h).resolve_right fun hcollected => ?_
  cases hcollected with
  | session hr | claim hr => simp [hc] at hr

/-- A move is a step of a group run, or leaves all of them alone. -/
theorem World.Moved.group_step {w v : World α} {move : Move} (h : w.Moved move v) :
    (∃ env directs, v = { w with env := env, directs := directs } ∧ ∀ topic, Keeps topic w.env env) ∨
      ∃ i run env next, w.groups[i]? = some run ∧ run.Step w.env env next ∧ v = w.setGroup i (env, next) := by
  cases h with
  | @watch i _ run env _ hr hs =>
    obtain ⟨watch, closed, errors, rfl, hheld⟩ := GroupRun.stepWatch_run hs
    have hk : ∀ topic, Keeps topic w.env env := fun _ => GroupRun.stepWatch_keeps hs
    exact .inr ⟨i, run, env, _, hr, .aside watch closed run.closer errors hk hheld, rfl⟩
  | @closer i run env _ hr hs =>
    obtain ⟨closed, closer, rfl⟩ := GroupRun.stepCloser_run hs
    have hk : ∀ topic, Keeps topic w.env env := fun _ => GroupRun.stepCloser_keeps hs
    exact .inr ⟨i, run, env, _, hr, .aside run.watch closed closer run.errors hk id, rfl⟩
  | loop hr hs => exact .inr ⟨_, _, _, _, hr, .loop hs, rfl⟩
  | claim hr hs => exact .inr ⟨_, _, _, _, hr, .claim hs, rfl⟩
  | pump _ hs => exact .inl ⟨_, _, rfl, fun _ => DirectRun.stepPump_keeps hs⟩
  | task => exact .inl ⟨_, _, rfl, fun _ => Keeps.refl _⟩

/-- What an act does to a chronicle. -/
inductive Chronicle.Acted (c : Chronicle α) : Act α → Chronicle α → Prop where
  | moved {move w} : c.world.Moved move w → Acted c (.move move) (c.observe w)
  | changed {change env} : c.world.env.change? change = some env → Acted c (.outside change) (c.setEnv env)
  | started {blueprint token d} : c.act? (.start blueprint token) = some d → Acted c (.start blueprint token) d
  | called {i run} : c.world.groups[i]? = some run → run.closer ≠ .waiting → run.closer ≠ .performing →
      Acted c (.close i) { c with world := c.world.setGroup i (run.beginClose c.world.env) }
  | received {i run message messages} : c.world.groups[i]? = some run →
      run.messages.take? = some (message, messages) →
      Acted c (.receive i) { c.setRun i { run with messages := messages } with
        notes := c.notes.modify i fun note => { note with received := note.received ++ [message] } }
  | unasked {i j} : Acted c (.acknowledge i j) c
  | acknowledged {i j note message ack} : c.notes[i]? = some note → message ∈ note.received →
      message.ack = some ack →
      Acted c (.acknowledge i j) (c.setEnv (c.world.env.withBroker (c.world.env.broker.accept ack)))
  | tookError {i run error errors} : c.world.groups[i]? = some run → run.errors.take? = some (error, errors) →
      Acted c (.receiveError i) (c.setRun i { run with errors := errors })
  | droppedMessages {i run} : c.world.groups[i]? = some run →
      Acted c (.dropMessages i) (c.setRun i { run with messages := run.messages.drop })
  | droppedErrors {i run} : c.world.groups[i]? = some run →
      Acted c (.dropErrors i) (c.setRun i { run with errors := run.errors.drop })
  | closedDirect {client} :
      Acted c (.closeDirect client) (c.setEnv (Consumer.closeClientLogging c.world.env client))
  | usedDirect {i messages errors} : Acted c (.useDirect i messages errors) { c with world := { c.world with
      directs := c.world.directs.modify i fun run => { run with messages := messages, errors := errors } } }

theorem Chronicle.world_started {c d : Chronicle α} {blueprint : Blueprint α} {token : Token}
    (h : c.act? (.start blueprint token) = some d) :
    d.world = (Consumer.start c.world { blueprint := blueprint, connector := .broker } token).2.1 :=
  congrArg Chronicle.world (Option.some.inj h).symm

/-- Only a move can be that of a collecting run. -/
theorem Chronicle.acted_of_not_move {c d : Chronicle α} {a : Act α} (hm : ∀ move, a ≠ .move move)
    (h : c.act? a = some d) : c.Acted a d := by
  cases a with
  | move move => exact absurd rfl (hm move)
  | outside change =>
    obtain ⟨env, he, rfl⟩ := Option.map_eq_some_iff.mp h
    exact .changed he
  | start blueprint token => exact .started h
  | close i =>
    simp only [act?] at h
    split at h
    next => simp at h
    next run hr =>
      split at h <;> cases h
      next hw hp => exact .called hr hw hp
  | receive i =>
    simp only [act?] at h
    split at h
    next => simp at h
    next run hr =>
      split at h <;> cases h
      next ht => exact .received hr ht
  | acknowledge i j =>
    simp only [act?] at h
    split at h
    next => simp at h
    next message hm =>
      obtain ⟨note, hn, hj⟩ := Option.bind_eq_some_iff.mp hm
      split at h <;> cases h
      next => exact .unasked
      next ha => exact .acknowledged hn (List.mem_of_getElem? hj) ha
  | receiveError i =>
    simp only [act?] at h
    split at h
    next => simp at h
    next run hr =>
      obtain ⟨_, ht, rfl⟩ := Option.map_eq_some_iff.mp h
      exact .tookError hr ht
  | dropMessages i =>
    obtain ⟨run, hr, rfl⟩ := Option.map_eq_some_iff.mp h
    exact .droppedMessages hr
  | dropErrors i =>
    obtain ⟨run, hr, rfl⟩ := Option.map_eq_some_iff.mp h
    exact .droppedErrors hr
  | closeDirect client =>
    cases Option.some.inj h
    exact .closedDirect
  | useDirect i messages errors =>
    cases Option.some.inj h
    exact .usedDirect

theorem Chronicle.acted_of_act? {c d : Chronicle α} {a : Act α} (hc : c.world.collects = [])
    (h : c.act? a = some d) : c.Acted a d := by
  cases a with
  | move move =>
    obtain ⟨w, hw, rfl⟩ := Option.map_eq_some_iff.mp h
    exact .moved (World.moved_of_step? hc hw)
  | _ => exact acted_of_not_move (by simp) h

theorem RunNote.observe_same {note : RunNote α} {env : Environment} {before after : GroupRun α}
    (hl : after.loop = before.loop) (hm : after.messages = before.messages) :
    note.observe env before after = note := by
  simp [RunNote.observe, RunNote.made, SessionNote.extend, GroupRun.isServing, GroupRun.claims, hl, hm]

namespace Consumer

theorem start_grouped (w : World α) (group : String) (config : Config α) (token : Token) :
    let started := (start w { blueprint := .grouped group config, connector := .broker } token).2.1
    (∃ env, started = { w with env := env } ∧ ∀ topic, Keeps topic w.env env) ∨
      ∃ env run, run.group = group ∧ started = { w with env := env, groups := w.groups ++ [run] } ∧
        (∀ topic, Keeps topic w.env env) ∧ env.Joined run.client run.group config.start ∧
        run.loop = .top ∧ run.streak = {} ∧ run.messages.items = [] := by
  have hd : ∀ topic, Keeps topic w.env { w.env with tokens := (w.env.tokens.derive token).2 } :=
    fun _ => Keeps.of_eq rfl rfl rfl (.of_eq rfl rfl rfl)
  simp only [start, Option.isSome_none, Bool.false_eq_true, if_false, openGroup, Blueprint.config]
  cases hb : w.env.broker.connectGroup (config.groupClient group) with
  | error failure => exact .inl ⟨_, rfl, hd⟩
  | ok joined =>
    obtain ⟨joined, first⟩ := joined
    obtain ⟨rfl, rfl⟩ := Broker.connectGroup_groupClient hb
    refine .inr ⟨_, _, rfl, rfl, fun topic => (hd topic).trans (Keeps.append _), ?_, rfl, rfl, rfl⟩
    exact ⟨⟨.broker joined config.start, [], false⟩, by simp, rfl⟩

theorem start_direct (w : World α) (config : Config α) (token : Token) :
    let started := (start w { blueprint := .direct config, connector := .broker } token).2.1
    ∃ env directs, started = { w with env := env, directs := directs } ∧ ∀ topic, Keeps topic w.env env := by
  have ho : ∀ topic, Keeps topic w.env (w.env.openDirect .broker config.directClient).2 :=
    fun _ => openDirect_keeps _ _
  simp only [start, Option.isSome_none, Bool.false_eq_true, if_false, Blueprint.config]
  split
  next hs =>
    rw [hs] at ho
    exact ⟨_, w.directs, rfl, ho⟩
  next client env hs =>
    rw [hs] at ho
    have hr : ∀ topic, Keeps topic env (openReaders env client config.topic config.start).2 :=
      fun _ => openReaders_keeps _ _ _
    split
    next hf =>
      rw [hf] at hr
      exact ⟨_, w.directs, rfl, fun topic => (ho topic).trans ((hr topic).trans (closeClientLogging_keeps _))⟩
    next hf =>
      rw [hf] at hr
      refine ⟨_, _, rfl, fun topic => (ho topic).trans ((hr topic).trans ?_)⟩
      exact Keeps.of_eq rfl rfl rfl (.of_eq rfl rfl rfl)

theorem start_keeps (w : World α) (blueprint : Blueprint α) (token : Token) :
    Keeps topic w.env (start w { blueprint := blueprint, connector := .broker } token).2.1.env := by
  cases blueprint with
  | grouped group config =>
    obtain ⟨_, hw, hk⟩ | ⟨_, _, _, hw, hk, _⟩ := start_grouped w group config token
    · exact hw ▸ hk topic
    · exact hw ▸ hk topic
  | direct config =>
    obtain ⟨_, _, hw, hk⟩ := start_direct w config token
    exact hw ▸ hk topic

end Consumer

theorem getElem?_set_cases {β : Type} {xs : List β} {i j : Nat} {x y : β} (h : (xs.set i x)[j]? = some y) :
    (i = j ∧ x = y) ∨ (i ≠ j ∧ xs[j]? = some y) := by
  rw [List.getElem?_set] at h
  split at h
  next he =>
    split at h
    next => exact .inl ⟨he, Option.some.inj h⟩
    next => simp at h
  next he => exact .inr ⟨he, h⟩

theorem getElem?_of_set {β : Type} {xs ys : List β} {i : Nat} {x y : β} (hs : ys = xs.set i y)
    (hi : xs[i]? = some x) : ys[i]? = some y :=
  hs ▸ List.getElem?_set_self (List.getElem?_eq_some_iff.mp hi).1

namespace Chronicle

variable {c d : Chronicle α}

theorem observe_setGroup {i : Nat} {run next : GroupRun α} {env : Environment}
    (hr : c.world.groups[i]? = some run) :
    c.observe (c.world.setGroup i (env, next)) =
      ⟨c.world.setGroup i (env, next), c.notes.modify i (·.observe c.world.env run next)⟩ := by
  have hb := (List.getElem?_eq_some_iff.mp hr).1
  refine congrArg (Chronicle.mk _) (List.ext_getElem? fun j => ?_)
  rw [List.getElem?_mapIdx, List.getElem?_modify]
  by_cases hj : i = j
  · subst hj
    simp [World.setGroup, hr, List.getElem?_set_self hb]
  · have hs : (c.world.groups.set i next)[j]? = c.world.groups[j]? := List.getElem?_set_ne hj
    cases hg : c.world.groups[j]? <;> simp [World.setGroup, hs, hg, hj, RunNote.observe_same]

theorem observe_aside {w : World α} (h : w.groups = c.world.groups) : c.observe w = ⟨w, c.notes⟩ := by
  refine congrArg (Chronicle.mk _) (List.ext_getElem? fun j => ?_)
  rw [List.getElem?_mapIdx, h]
  cases c.world.groups[j]? <;> simp [RunNote.observe_same]

theorem turn_of_same {a : Act α} {i : Nat} {run : GroupRun α} (hr : c.world.groups[i]? = some run)
    (watch : WatchPhase) (closed : CloseCell) (closer : CloserPhase) (errors : Queue Failure)
    {env : Environment} (hk : ∀ topic, Keeps topic c.world.env env)
    (hh : run.errors.held = false → errors.held = false) :
    Turn topic c a ⟨c.world.setGroup i (env, { run with
      watch := watch, closed := closed, closer := closer, errors := errors }), c.notes⟩ := by
  have ht : Turn topic c a _ := Turn.stepped hr (.aside watch closed closer errors hk hh)
  have hn : c.notes.modify i (·.observe c.world.env run
      { run with watch := watch, closed := closed, closer := closer, errors := errors }) = c.notes := by
    have hid : (fun note : RunNote α => note.observe c.world.env run
        { run with watch := watch, closed := closed, closer := closer, errors := errors }) = id :=
      funext fun note => RunNote.observe_same rfl rfl
    rw [hid, List.modify_id]
  rw [hn] at ht
  exact ht

theorem start_turn {blueprint : Blueprint α} {token : Token}
    (h : c.act? (.start blueprint token) = some d) : Turn topic c (.start blueprint token) d := by
  simp only [act?] at h
  cases blueprint with
  | grouped group config =>
    obtain ⟨env, hw, hk⟩ | ⟨env, run, rfl, hw, hk, hj, hl, hs, hm⟩ :=
        Consumer.start_grouped c.world group config token
    · rw [hw] at h
      cases h
      simpa using Turn.aside (a := .start (.grouped group config) token) (c := c) (hk topic)
    · rw [hw] at h
      cases h
      simpa [Blueprint.config] using Turn.begun (c := c) rfl (hk topic) hj hl hs hm
  | direct config =>
    obtain ⟨env, directs, hw, hk⟩ := Consumer.start_direct c.world config token
    rw [hw] at h
    cases h
    simpa using Turn.aside (a := .start (.direct config) token) (c := c) (hk topic)

theorem Acted.turn {a : Act α} (h : c.Acted a d) (hr : ∀ n, a ≠ .outside (.replaceTopic topic n)) :
    Turn topic c a d := by
  cases h with
  | moved hm =>
    obtain ⟨env, directs, rfl, hk⟩ | ⟨i, run, env, next, hg, hs, rfl⟩ := hm.group_step
    · exact observe_aside (w := { c.world with env := env, directs := directs }) rfl ▸ Turn.aside (hk topic)
    · exact observe_setGroup hg ▸ Turn.stepped hg hs
  | changed he => exact Turn.aside (change?_keeps he fun n hn => hr n (hn ▸ rfl))
  | started hd => exact start_turn hd
  | @called i run hg =>
    have hk : ∀ topic, Keeps topic c.world.env (c.world.env.cancel run.token) :=
      fun _ => Keeps.of_eq rfl rfl rfl (c.world.env.later_cancel _)
    exact turn_of_same hg run.watch run.closed .waiting run.errors hk id
  | received hg ht => exact Turn.received hg ht
  | unasked => exact Turn.aside (Keeps.refl _)
  | acknowledged hn hm ha => exact Turn.acknowledged hn hm ha
  | tookError hg ht =>
    exact turn_of_same hg _ _ _ _ (fun _ => Keeps.refl _) fun hh => (Queue.take?_held ht).trans hh
  | droppedMessages hg => exact Turn.dropped hg
  | droppedErrors hg => exact turn_of_same hg _ _ _ _ (fun _ => Keeps.refl _) fun _ => rfl
  | closedDirect => exact Turn.aside (Consumer.closeClientLogging_keeps _)
  | usedDirect => exact Turn.aside (Keeps.refl _)

theorem act?_turn {a : Act α} (h : c.act? a = some d) (hc : c.world.collects = [])
    (hr : ∀ n, a ≠ .outside (.replaceTopic topic n)) : Turn topic c a d := (acted_of_act? hc h).turn hr

theorem Turn.collects {a : Act α} (h : Turn topic c a d) : d.world.collects = c.world.collects := by
  cases h <;> rfl

end Chronicle

end TopicConsumer
