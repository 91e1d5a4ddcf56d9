import TopicConsumer.Proofs.CloseOnce
import TopicConsumer.Proofs.DirectOutcomes
import TopicConsumer.Proofs.LogBounds

namespace TopicConsumer

def GroupService.atBroker : GroupService → Bool
  | .broker _ _ => true
  | _ => false

def DirectService.atBroker : DirectService → Bool
  | .broker => true
  | _ => false

/-- A client: whether it is connected to the broker, and whether it is closed. -/
structure ClientFlags where
  atBroker : Bool
  closed : Bool
deriving DecidableEq

def GroupClient.flags (c : GroupClient) : ClientFlags := ⟨c.service.atBroker, c.closed⟩

def DirectClient.flags (c : DirectClient) : ClientFlags := ⟨c.service.atBroker, c.closed⟩

/-- What becomes of some clients when one of them is closed, and whether this is counted. A client that is
closed already is left as it is. -/
def ClientFlags.release (clients : List ClientFlags) (i : Nat) : List ClientFlags × Nat :=
  match clients[i]? with
  | some ⟨atBroker, false⟩ => (clients.set i ⟨atBroker, true⟩, if atBroker then 1 else 0)
  | _ => (clients, 0)

/-- What is counted at a broker. -/
structure Tally where
  openedReaders : Nat
  closedReaders : Nat
  closedClients : Nat
  groups : List ClientFlags
  directs : List ClientFlags
  marks : PartitionKey → Int

namespace Tally

def closeGroup (t : Tally) (client : Nat) : Tally :=
  let released := ClientFlags.release t.groups client
  { t with groups := released.1, closedClients := t.closedClients + released.2 }

def closeDirect (t : Tally) (client : Nat) : Tally :=
  let released := ClientFlags.release t.directs client
  { t with directs := released.1, closedClients := t.closedClients + released.2 }

end Tally

namespace Environment

def tally (env : Environment) : Tally where
  openedReaders := env.broker.openedReaders
  closedReaders := env.broker.closedReaders
  closedClients := env.broker.closedClients
  groups := env.groupClients.map GroupClient.flags
  directs := env.directClients.map DirectClient.flags
  marks := env.broker.highWaterMark

variable {env after : Environment}

theorem closeGroup_tally (env : Environment) (client : Nat) :
    (env.closeGroup client).2.tally = env.tally.closeGroup client := by
  unfold closeGroup groupClient? Tally.closeGroup ClientFlags.release
  cases hc : env.groupClients[client]? with
  | none => simp [tally, hc]
  | some c =>
    cases hclosed : c.closed with
    | true => simp [tally, hc, hclosed, GroupClient.flags]
    | false =>
      cases hs : c.service <;>
        simp [tally, hc, hclosed, hs, GroupClient.flags, GroupService.atBroker, setGroupClient, List.map_set,
          Broker.closeClient, call]
      rfl

theorem closeDirect_tally (env : Environment) (client : Nat) :
    (env.closeDirect client).2.tally = env.tally.closeDirect client := by
  unfold closeDirect Tally.closeDirect ClientFlags.release
  cases hc : env.directClients[client]? with
  | none => simp [tally, hc]
  | some c =>
    cases hclosed : c.closed with
    | true => simp [tally, hc, hclosed, DirectClient.flags]
    | false =>
      cases hs : c.service <;>
        simp [tally, hc, hclosed, hs, DirectClient.flags, DirectService.atBroker, List.map_set, Broker.closeClient,
          call]
      rfl

theorem closeClientLogging_tally (env : Environment) (client : Nat) :
    (Consumer.closeClientLogging env client).tally = env.tally.closeDirect client := by
  have h := env.closeDirect_tally client
  unfold Consumer.closeClientLogging
  split
  next hc => rwa [hc] at h
  next hc =>
    rw [hc] at h
    exact h

theorem tally_setGroupClient {client : Nat} {c d : GroupClient} (hc : env.groupClients[client]? = some c)
    (hf : d.flags = c.flags) : (env.setGroupClient client d).tally = env.tally := by
  have hmap : (env.groupClients.set client d).map GroupClient.flags = env.groupClients.map GroupClient.flags :=
    map_set_same hc hf
  simp only [tally, setGroupClient, hmap]

theorem nextFatal_tally {client : Nat} {stop : Bool} {failure : Option Failure}
    (h : env.nextFatal client stop = some (failure, after)) : after.tally = env.tally := by
  obtain ⟨_, _, _, rfl⟩ | ⟨_, _, _, hc, _, rfl⟩ := nextFatal_cases h
  · rfl
  · exact tally_setGroupClient hc rfl

theorem measure_tally {group : String} {source : Source} {record : Record}
    (h : env.measure group source record = .ok after) : after.tally = env.tally := by
  unfold measure at h
  dsimp only at h
  split at h
  next => cases h; rfl
  next => simp at h

end Environment

theorem Broker.takeFailure_marks {b after : Broker} {key : PartitionKey} {reason : String}
    (h : b.takeFailure key = some (reason, after)) : after.highWaterMark = b.highWaterMark := by
  obtain ⟨_, _, hlog⟩ := takeFailure_eq_some h
  funext other
  rw [highWaterMark, highWaterMark, hlog]
  by_cases ho : other = key
  · cases hb : b.log? other <;> simp [ho]
  · rw [if_neg ho]

theorem Cursor.step_tally {env : Environment} {c d : Cursor} {checks : Bool} {stage : Stage} {b : Broker}
    {found : Found} (h : c.step env.broker checks stage = some (b, d, found)) :
    ({ env with broker := b } : Environment).tally = env.tally := by
  cases step_cases h with
  | @failed reason _ hf =>
    have hmarks : b.highWaterMark = env.broker.highWaterMark := Broker.takeFailure_marks hf
    unfold Broker.takeFailure at hf
    split at hf
    next => simp at hf
    next =>
      split at hf <;> cases hf
      simp only [Environment.tally, hmarks]
  | _ => rfl

theorem Source.step_tally {env : Environment} {s t : Source} {checks : Bool} {stage : Stage} {b : Broker}
    {found : Found} (h : s.step env.broker checks stage = some (b, t, found)) :
    ({ env with broker := b } : Environment).tally = env.tally := by
  cases s with
  | log c =>
    obtain ⟨⟨_, _, _⟩, hs, he⟩ := Option.map_eq_some_iff.mp h
    cases he
    exact Cursor.step_tally hs
  | feed f =>
    obtain ⟨_, _, he⟩ := Option.map_eq_some_iff.mp h
    cases he
    rfl

section Tasks

variable {α : Type} {env after : Environment}

theorem Claim.ask_tally {c d : Claim α} {stage : Stage} {b : Broker} {found : Found}
    (h : c.ask env.broker stage = some (b, d, found)) :
    ({ env with broker := b } : Environment).tally = env.tally := by
  obtain ⟨⟨b', _, found'⟩, hs, he⟩ := Option.map_eq_some_iff.mp h
  have hb : b' = b := by
    dsimp only at he
    split at he <;> cases he <;> rfl
  exact hb ▸ Source.step_tally hs

theorem Session.begin_tally (env : Environment) (client : Nat) (topics : List String) (token : Token) :
    (Session.begin (α := α) env client topics token).2.tally = env.tally := by
  unfold Session.begin
  split
  next => rfl
  next c hc =>
    split
    next => split <;> rfl
    next hs =>
      dsimp only
      split
      next => rfl
      next => exact Environment.tally_setGroupClient hc (by simp [GroupClient.flags, hs, GroupService.atBroker])
    next hs => exact Environment.tally_setGroupClient hc (by simp [GroupClient.flags, hs, GroupService.atBroker])

theorem Session.step_tally {s t : Session α} (h : s.step env = some (after, t)) : after.tally = env.tally := by
  unfold Session.step at h
  split at h
  next => cases h; rfl
  next => cases stepServing_cases h <;> rfl
  next => split at h <;> cases h; rfl
  next =>
    obtain ⟨_, _, he⟩ := Option.map_eq_some_iff.mp h
    cases he
    rfl
  next => simp at h
  next => simp at h

namespace GroupRun

variable {run next : GroupRun α}

theorem afterSession_tally (env : Environment) (run : GroupRun α) (result : Except Failure Unit) :
    (run.afterSession env result).1.tally = env.tally := by
  unfold afterSession
  split
  next => rfl
  next => rfl
  next => dsimp only; split <;> rfl

theorem LoopStep.tally (h : LoopStep env run after next) : after.tally = env.tally := by
  have hbegin := Session.begin_tally (α := α) env run.client [run.topic] run.token
  cases h with
  | begun _ _ hb => rwa [hb] at hbegin
  | refused _ _ hb =>
    rw [hb] at hbegin
    exact (afterSession_tally _ run _).trans hbegin
  | ended => exact afterSession_tally _ run _
  | served _ hs => exact Session.step_tally hs
  | stopped | crashed | reported | gaveUp | unheard | woken => rfl

theorem HandlerStep.tally {session : Token} {claim later : Claim α}
    (h : HandlerStep env run session claim after next later) : after.tally = env.tally := by
  cases h with
  | asked _ ha => exact Claim.ask_tally ha
  | measured _ hm => exact Environment.measure_tally hm
  | stopped | crashed | rejected | decoded | queued | unheard => rfl

theorem afterClose_tally (env : Environment) (run : GroupRun α) (fatal : Option Failure)
    (result : Except Failure Unit) : (run.afterClose env fatal result).1.tally = env.tally := by
  unfold afterClose
  dsimp only
  split <;> rfl

theorem stepWatch_tally {stop : Bool} (h : run.stepWatch env stop = some (after, next)) :
    after.tally = env.tally ∧ performedOf (run.watchCloses env stop) = [] ∨
      after.tally = env.tally.closeGroup run.client ∧ performedOf (run.watchCloses env stop) ≠ [] := by
  cases stepWatch_move h with
  | ended hw hf => exact .inl ⟨Environment.nextFatal_tally hf, by simp [watchCloses, hw]⟩
  | failed hw hf =>
    have ht := Environment.nextFatal_tally hf
    exact .inl ⟨ht, by simp [watchCloses, hw]⟩
  | learned hw => exact .inl ⟨afterClose_tally _ _ _ _, by simp [watchCloses, hw]⟩
  | performed hw hc =>
    have ht := env.closeGroup_tally run.client
    rw [hc] at ht
    exact .inr ⟨(afterClose_tally _ _ _ _).trans ht, by simp [watchCloses, hw]⟩
  | cancelled hw | began hw | quit hw => exact .inl ⟨rfl, by simp [watchCloses, hw]⟩
  | unheard hw ho | reported hw ho => exact .inl ⟨rfl, by simp [watchCloses, hw, ho]⟩

theorem stepCloser_tally (h : run.stepCloser env = some (after, next)) :
    after.tally = env.tally ∧ performedOf (run.closerCloses env next) = [] ∨
      after.tally = env.tally.closeGroup run.client ∧ performedOf (run.closerCloses env next) ≠ [] := by
  cases stepCloser_move h with
  | began hp | learned hp => exact .inl ⟨rfl, by simp [closerCloses, hp]⟩
  | performed hp hc =>
    have ht := env.closeGroup_tally run.client
    rw [hc] at ht
    exact .inr ⟨ht, by simp [closerCloses, hp]⟩

end GroupRun

end Tasks

namespace Broker

variable {b after : Broker}

theorem changeLog_mark {changed : PartitionKey} {f : PartitionLog → PartitionLog} (h : b.changeLog changed f = .ok after)
    (hf : ∀ log, (f log).records.length ≤ log.records.length + 1) (key : PartitionKey) :
    after.highWaterMark key ≤ b.highWaterMark key + 1 := by
  have hlog := log?_changeLog h key
  unfold highWaterMark
  rw [hlog]
  cases hb : b.log? key with
  | none => simp
  | some log =>
    have hone := hf log
    by_cases hk : key = changed
    · simp only [if_pos hk, Option.map_some]
      omega
    · simp only [if_neg hk]
      omega

theorem createTopic_mark (topic : String) (n : Nat) (key : PartitionKey) :
    (b.createTopic topic n).highWaterMark key ≤ b.highWaterMark key + 1 := by
  have hnonneg := b.highWaterMark_nonneg key
  by_cases ht : key.1 = topic
  · subst ht
    rw [highWaterMark_createTopic]
    omega
  · have hsame : (b.createTopic topic n).highWaterMark key = b.highWaterMark key := by
      unfold highWaterMark
      rw [log?_createTopic, if_neg ht]
    omega

end Broker

theorem Environment.failGroup_tally (env : Environment) (group reason : String) :
    (env.failGroup group reason).tally = env.tally := by
  have hflags : (env.failGroup group reason).groupClients.map GroupClient.flags =
      env.groupClients.map GroupClient.flags := by
    simp only [failGroup, List.map_map]
    refine List.map_congr_left fun c _ => ?_
    simp only [Function.comp_apply]
    split
    next => split <;> simp [GroupClient.flags]
    next => rfl
  simp only [tally, hflags]
  rfl

/-- What happens outside concerns only the logs, each of which gets one record more at most. -/
theorem Environment.change?_tally {env after : Environment} {change : Outside} (h : env.change? change = some after) :
    after.tally = { env.tally with marks := after.broker.highWaterMark } ∧
      ∀ key, after.broker.highWaterMark key ≤ env.broker.highWaterMark key + 1 := by
  have hsame : ∀ key, env.broker.highWaterMark key ≤ env.broker.highWaterMark key + 1 := fun key => by omega
  cases change with
  | createTopic name n =>
    simp only [change?] at h
    split at h <;> cases h
    exact ⟨rfl, env.broker.createTopic_mark name n⟩
  | replaceTopic name n =>
    cases h
    exact ⟨rfl, env.broker.createTopic_mark name n⟩
  | produce key payload =>
    simp only [change?, Broker.produce] at h
    split at h
    next hp =>
      split at hp
      next hc =>
        cases h
        cases hp
        have hmark := Broker.changeLog_mark hc (by simp)
        obtain ⟨_, _, rfl⟩ := Broker.changeLog_ok hc
        exact ⟨rfl, hmark⟩
      next => simp at hp
    next => simp at h
  | failPartition key reason =>
    simp only [change?] at h
    split at h
    next hp =>
      cases h
      have hmark := Broker.changeLog_mark hp (by simp)
      obtain ⟨_, _, rfl⟩ := Broker.changeLog_ok hp
      exact ⟨rfl, hmark⟩
    next => simp at h
  | failGroup group reason =>
    cases h
    exact ⟨env.failGroup_tally group reason, hsame⟩
  | rebalance | refuseConnections | refusePartition | failClose | deriveToken | cancel | elapse |
  reportPanics =>
    cases h
    exact ⟨rfl, hsame⟩

namespace Chronicle

variable {α : Type} {c d : Chronicle α}

/-- What an act does to what is counted, and to the pumps. -/
inductive Tallied (c : Chronicle α) : Act α → Chronicle α → Prop where
  | aside {a d} : d.world.env.tally = { c.world.env.tally with marks := d.world.env.broker.highWaterMark } →
      (∀ key, d.world.env.broker.highWaterMark key ≤ c.world.env.broker.highWaterMark key + 1) →
      d.world.directs.map (·.pumps) = c.world.directs.map (·.pumps) → Tallied c a d
  | closed {a d} {i : Nat} {run : GroupRun α} : c.world.groups[i]? = some run →
      d.world.env.tally = c.world.env.tally.closeGroup run.client → d.world.directs = c.world.directs →
      Tallied c a d
  | pumped {a d} {i j : Nat} {run handled : DirectRun α} {pump later : Pump α} :
      c.world.directs[i]? = some run → run.pumps[j]? = some pump →
      DirectRun.PumpStep c.world.env run pump d.world.env handled later →
      d.world.directs = c.world.directs.set i { handled with pumps := handled.pumps.set j later } →
      Tallied c a d
  | started {d blueprint token} :
      d.world = (Consumer.start c.world { blueprint := blueprint, connector := .broker } token).2.1 →
      Tallied c (.start blueprint token) d
  | closedDirect {d client} : d.world.env.tally = c.world.env.tally.closeDirect client →
      d.world.directs = c.world.directs → Tallied c (.closeDirect client) d

theorem Tallied.of_same {a : Act α} (ht : d.world.env.tally = c.world.env.tally)
    (hd : d.world.directs = c.world.directs) : Tallied c a d := by
  have hmarks : d.world.env.broker.highWaterMark = c.world.env.broker.highWaterMark := congrArg Tally.marks ht
  refine .aside ?_ (fun key => ?_) (by rw [hd])
  · rw [ht, hmarks]
    rfl
  · rw [hmarks]
    omega

theorem move_tallied {move : Move} {w : World α} (h : c.world.Moved move w) :
    Tallied c (.move move) (c.observe w) := by
  cases h with
  | watch hr hs =>
    obtain ⟨ht, _⟩ | ⟨ht, _⟩ := GroupRun.stepWatch_tally hs
    · exact .of_same ht rfl
    · exact .closed hr ht rfl
  | closer hr hs =>
    obtain ⟨ht, _⟩ | ⟨ht, _⟩ := GroupRun.stepCloser_tally hs
    · exact .of_same ht rfl
    · exact .closed hr ht rfl
  | loop _ hs => exact .of_same (GroupRun.stepLoop_cases hs).tally rfl
  | claim _ hs =>
    obtain ⟨_, _, _, _, _, _, hh, _⟩ := GroupRun.stepClaim_cases hs
    exact .of_same hh.tally rfl
  | pump hr hs =>
    obtain ⟨pump, handled, later, hp, hstep, rfl⟩ := DirectRun.stepPump_cases hs
    exact .pumped hr hp hstep rfl
  | @task _ _ _ run _ hr hs =>
    obtain ⟨_, handled, _, _, hstep, rfl⟩ := DirectRun.stepTask_cases hs
    have hpumps : handled.pumps = run.pumps := hstep.steady.2.1
    refine .aside rfl (fun key => Int.le_add_one (Int.le_refl _)) ?_
    exact map_set_same hr hpumps

theorem act?_tallied {a : Act α} (hc : c.world.collects = []) (h : c.act? a = some d) : Tallied c a d := by
  cases acted_of_act? hc h with
  | moved hm => exact move_tallied hm
  | changed he =>
    obtain ⟨ht, hmark⟩ := Environment.change?_tally he
    exact .aside ht hmark rfl
  | started hd => exact .started (world_started hd)
  | called | received | unasked | acknowledged | tookError | droppedMessages | droppedErrors =>
    exact .of_same rfl rfl
  | closedDirect => exact .closedDirect (Environment.closeClientLogging_tally _ _) rfl
  | @usedDirect i messages errors =>
    exact .aside rfl (fun key => Int.le_add_one (Int.le_refl _)) (map_modify_same _ _ fun _ => rfl)

end Chronicle

end TopicConsumer
