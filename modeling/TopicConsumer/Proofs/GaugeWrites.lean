import TopicConsumer.Proofs.Starts

namespace TopicConsumer

open Environment

variable {α : Type} {env after : Environment}

namespace Environment

theorem closeGroup_gauge (env : Environment) (client : Nat) : (env.closeGroup client).2.gauge = env.gauge := by
  unfold closeGroup
  split
  next => rfl
  next =>
    split
    next => rfl
    next =>
      dsimp only
      split <;> rfl

theorem closeDirect_gauge (env : Environment) (client : Nat) : (env.closeDirect client).2.gauge = env.gauge := by
  unfold closeDirect
  split
  next => rfl
  next =>
    split
    next => rfl
    next =>
      dsimp only
      split <;> rfl

theorem closeClientLogging_gauge (env : Environment) (client : Nat) :
    (Consumer.closeClientLogging env client).gauge = env.gauge := by
  have h := env.closeDirect_gauge client
  unfold Consumer.closeClientLogging
  split
  next hc => rwa [hc] at h
  next hc =>
    rw [hc] at h
    exact h

theorem closeReaderLogging_gauge (env : Environment) (reader : Reader) :
    (env.closeReaderLogging reader).2.gauge = env.gauge := by
  have h : (env.closeReader reader).2.2.gauge = env.gauge := by
    unfold closeReader
    split
    next => rfl
    next =>
      dsimp only
      split <;> rfl
  unfold closeReaderLogging
  dsimp only
  split
  next => exact h
  next => exact h

theorem nextFatal_gauge {client : Nat} {stop : Bool} {failure : Option Failure}
    (h : env.nextFatal client stop = some (failure, after)) : after.gauge = env.gauge := by
  obtain ⟨_, _, _, rfl⟩ | ⟨_, _, _, _, _, rfl⟩ := nextFatal_cases h <;> rfl

theorem change?_gauge {change : Outside} (h : env.change? change = some after) : after.gauge = env.gauge := by
  cases change with
  | createTopic | produce | failPartition =>
    simp only [change?] at h
    split at h <;> cases h
    rfl
  | replaceTopic | failGroup | rebalance | refuseConnections | refusePartition | failClose | deriveToken | cancel
  | elapse | reportPanics =>
    cases h
    rfl

end Environment

theorem Session.begin_gauge (env : Environment) (client : Nat) (topics : List String) (token : Token) :
    (Session.begin (α := α) env client topics token).2.gauge = env.gauge := by
  unfold Session.begin
  split
  next => rfl
  next =>
    split
    next => split <;> rfl
    next =>
      dsimp only
      split <;> rfl
    next => rfl

theorem Session.step_gauge {s t : Session α} (h : s.step env = some (after, t)) : after.gauge = env.gauge := by
  unfold Session.step at h
  split at h
  next => cases h; rfl
  next => cases stepServing_cases h <;> rfl
  next => split at h <;> cases h; rfl
  next =>
    obtain ⟨_, _, he⟩ := Option.map_eq_some_iff.mp h
    cases he
    rfl
  next => simp at h
  next => simp at h

namespace GroupRun

variable {run next : GroupRun α}

theorem afterSession_gauge (env : Environment) (run : GroupRun α) (result : Except Failure Unit) :
    (run.afterSession env result).1.gauge = env.gauge := by
  unfold afterSession
  split
  next => rfl
  next => rfl
  next =>
    dsimp only
    split <;> rfl

theorem afterClose_gauge (env : Environment) (run : GroupRun α) (fatal : Option Failure)
    (result : Except Failure Unit) : (run.afterClose env fatal result).1.gauge = env.gauge := by
  unfold afterClose
  dsimp only
  split <;> rfl

theorem stepWatch_gauge {stop : Bool} (h : run.stepWatch env stop = some (after, next)) :
    after.gauge = env.gauge := by
  cases stepWatch_move h with
  | ended _ hf => exact nextFatal_gauge hf
  | failed _ hf => exact (nextFatal_gauge hf :)
  | learned => exact afterClose_gauge _ _ _ _
  | performed _ hc =>
    have hg := env.closeGroup_gauge run.client
    rw [hc] at hg
    exact (afterClose_gauge _ _ _ _).trans hg
  | cancelled | began | quit | unheard | reported => rfl

theorem stepCloser_gauge (h : run.stepCloser env = some (after, next)) : after.gauge = env.gauge := by
  cases stepCloser_move h with
  | began | learned => rfl
  | performed _ hc =>
    have hg := env.closeGroup_gauge run.client
    rwa [hc] at hg

theorem LoopStep.gauge (h : LoopStep env run after next) : after.gauge = env.gauge := by
  have hbegin := Session.begin_gauge (α := α) env run.client [run.topic] run.token
  cases h with
  | begun _ _ hb => rwa [hb] at hbegin
  | refused _ _ hb =>
    rw [hb] at hbegin
    exact (afterSession_gauge _ run _).trans hbegin
  | ended => exact afterSession_gauge _ run _
  | served _ hs => exact Session.step_gauge hs
  | stopped | crashed | reported | gaveUp | unheard | woken => rfl

end GroupRun

/-- A start sets no series, and the run that it adds, if any, has taken no record. -/
theorem Consumer.start_gauge (w : World α) (blueprint : Blueprint α) (token : Token) :
    let v := (start w { blueprint := blueprint, connector := .broker } token).2.1
    v.env.gauge = w.env.gauge ∧
      (v.groups = w.groups ∨ ∃ run, v.groups = w.groups ++ [run] ∧ run.loop = .top) ∧
      (v.directs = w.directs ∨ ∃ run, v.directs = w.directs ++ [run] ∧ run.tasks = [] ∧
        ∀ pump ∈ run.pumps, pump.reader.Open ∧ pump.phase = .asking .marking) := by
  cases blueprint with
  | grouped group config =>
    simp only [start, Option.isSome_none, Bool.false_eq_true, if_false, openGroup, Blueprint.config]
    cases w.env.broker.connectGroup (config.groupClient group) with
    | error failure => exact ⟨rfl, .inl rfl, .inl rfl⟩
    | ok joined => exact ⟨rfl, .inr ⟨_, rfl, rfl⟩, .inl rfl⟩
  | direct config =>
    have hs := start_direct_readers w config token
    dsimp only at hs
    split at hs
    next =>
      obtain ⟨_, hs, rfl | ⟨n, rfl⟩⟩ := hs
      · rw [hs]
        exact ⟨rfl, .inl rfl, .inl rfl⟩
      · rw [hs]
        exact ⟨closeClientLogging_gauge _ _, .inl rfl, .inl rfl⟩
    next =>
      obtain ⟨_, run, _, hs, _, _, _, hg, htasks, _, hpumps⟩ := hs
      rw [hs]
      exact ⟨hg, .inl rfl, .inr ⟨run, rfl, htasks, hpumps⟩⟩

end TopicConsumer
