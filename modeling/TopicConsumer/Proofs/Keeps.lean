import TopicConsumer.Consumer
import TopicConsumer.Proofs.DirectSteps

namespace TopicConsumer

namespace Broker

variable {b : Broker} {key : PartitionKey}

theorem payload?_congr {c : Broker} (h : c.topics = b.topics) : c.payload? = b.payload? := by
  funext key offset
  simp only [payload?, log?, h]

theorem log?_nonneg {log : PartitionLog} (h : b.log? key = some log) : 0 ≤ key.2 := by
  unfold log? at h
  split at h
  next => simp at h
  next hn => omega

theorem log?_modify (hk : 0 ≤ key.2) (f : PartitionLog → PartitionLog) (other : PartitionKey) :
    ({ b with topics := Table.modify key.1 (·.modify key.2.toNat f) b.topics }).log? other =
      if other = key then (b.log? other).map f else b.log? other := by
  unfold log?
  rw [Table.get?_modify]
  by_cases hn : other.2 < 0
  · have : other ≠ key := fun he => by rw [he] at hn; omega
    simp [hn, this]
  · by_cases ht : other.1 = key.1
    · by_cases hp : other.2 = key.2
      · have he : other = key := Prod.ext ht hp
        subst he
        cases b.topics.get? other.1 <;> simp [hn]
      · have he : other ≠ key := fun he => hp (by rw [he])
        have hi : key.2.toNat ≠ other.2.toNat := by omega
        cases hg : b.topics.get? key.1 <;> simp [hn, ht, he, hi, hg]
    · have he : other ≠ key := fun he => ht (by rw [he])
      simp [hn, ht, he]

theorem payload?_eq_some {offset : Int} {payload : Bytes} :
    b.payload? key offset = some payload ↔
      0 ≤ offset ∧ ∃ log, b.log? key = some log ∧ log.records[offset.toNat]? = some payload := by
  unfold payload?
  by_cases hn : offset < 0
  · simp [hn, Int.not_le.mpr hn]
  · cases b.log? key <;> simp [hn, Int.not_lt.mp hn]

theorem payload?_modify (hk : 0 ≤ key.2) {f : PartitionLog → PartitionLog}
    (hf : ∀ log, log.records <+: (f log).records) {other : PartitionKey} {offset : Int} {payload : Bytes}
    (h : b.payload? other offset = some payload) :
    ({ b with topics := Table.modify key.1 (·.modify key.2.toNat f) b.topics }).payload? other offset =
      some payload := by
  obtain ⟨hn, log, hl, hr⟩ := payload?_eq_some.mp h
  refine payload?_eq_some.mpr ⟨hn, ?_⟩
  rw [log?_modify hk, hl]
  split
  next =>
    obtain ⟨more, hm⟩ := hf log
    have hb := (List.getElem?_eq_some_iff.mp hr).1
    exact ⟨f log, rfl, by rw [← hm, List.getElem?_append_left hb, hr]⟩
  next => exact ⟨log, rfl, hr⟩

end Broker

namespace Environment

/-- A client at the broker is a member of a group, which reads a partition from `start` on if it has
committed nothing there. -/
def Joined (env : Environment) (client : Nat) (group : String) (start : StartOffset) : Prop :=
  ∃ c, env.groupClients[client]? = some c ∧ c.service = .broker group start

/-- The logs of a topic with their records and the members of the groups stay. -/
structure KeepsRecords (topic : String) (before after : Environment) : Prop where
  payloads : ∀ (key : PartitionKey) (offset : Int) (payload : Bytes), key.1 = topic →
    before.broker.payload? key offset = some payload → after.broker.payload? key offset = some payload
  logs : ∀ key : PartitionKey, key.1 = topic → (before.broker.log? key).isSome → (after.broker.log? key).isSome
  members : ∀ (client : Nat) (group : String) (start : StartOffset),
    before.Joined client group start → after.Joined client group start

/-- Nobody turns a clock back or takes a cancellation back. -/
structure Later (before after : Environment) : Prop where
  now : before.now ≤ after.now
  wall : before.wall ≤ after.wall
  cancelled : ∀ token, before.cancelled token = true → after.cancelled token = true

/-- Besides, nothing is committed. -/
structure Keeps (topic : String) (before after : Environment) : Prop
    extends KeepsRecords topic before after where
  committed : after.broker.committed = before.broker.committed
  later : before.Later after

variable {topic : String} {env before after : Environment}

theorem later_refl (env : Environment) : env.Later env :=
  ⟨Nat.le_refl _, Nat.le_refl _, fun _ h => h⟩

theorem Later.of_eq (hn : after.now = before.now) (hw : after.wall = before.wall)
    (ht : after.tokens.cancelled = before.tokens.cancelled) : before.Later after where
  now := Nat.le_of_eq hn.symm
  wall := Nat.le_of_eq hw.symm
  cancelled token h := by
    rw [Environment.cancelled, Tokens.isCancelled, ht]
    exact h

theorem Later.trans {last : Environment} (h : before.Later after) (k : after.Later last) :
    before.Later last where
  now := Nat.le_trans h.now k.now
  wall := Nat.le_trans h.wall k.wall
  cancelled token ht := k.cancelled token (h.cancelled token ht)

theorem later_cancel (env : Environment) (token : Token) : env.Later (env.cancel token) :=
  ⟨Nat.le_refl _, Nat.le_refl _, fun _ => Tokens.isCancelled_cancel⟩

theorem Keeps.refl (env : Environment) : Keeps topic env env :=
  ⟨⟨fun _ _ _ _ h => h, fun _ _ h => h, fun _ _ _ h => h⟩, rfl, env.later_refl⟩

theorem Keeps.trans {last : Environment} (h : Keeps topic before after) (k : Keeps topic after last) :
    Keeps topic before last where
  payloads key offset payload ht hp := k.payloads key offset payload ht (h.payloads key offset payload ht hp)
  logs key ht hs := k.logs key ht (h.logs key ht hs)
  members client group start hj := k.members client group start (h.members client group start hj)
  committed := k.committed.trans h.committed
  later := h.later.trans k.later

theorem Keeps.of_eq (ht : after.broker.topics = before.broker.topics)
    (hc : after.broker.committed = before.broker.committed)
    (hg : after.groupClients = before.groupClients) (hl : before.Later after) :
    Keeps topic before after where
  payloads key offset payload _ h := Broker.payload?_congr ht ▸ h
  logs key _ h := by
    rw [Broker.log?, ht]
    exact h
  members client group start h := by
    rw [Joined, hg]
    exact h
  committed := hc
  later := hl

theorem Keeps.modify {key : PartitionKey} (hk : 0 ≤ key.2) {f : PartitionLog → PartitionLog}
    (hf : ∀ log, log.records <+: (f log).records) {b : Broker}
    (ht : b.topics = Table.modify key.1 (·.modify key.2.toNat f) env.broker.topics)
    (hc : b.committed = env.broker.committed) : Keeps topic env { env with broker := b } where
  payloads other offset payload _ h := by
    have hm := Broker.payload?_congr (b := { env.broker with
      topics := Table.modify key.1 (·.modify key.2.toNat f) env.broker.topics }) (c := b) ht
    rw [hm]
    exact Broker.payload?_modify hk hf h
  logs other _ h := by
    have hm := Broker.log?_modify (b := env.broker) hk f other
    simp only [Broker.log?, ht] at hm ⊢
    rw [hm]
    split
    next => rwa [Option.isSome_map]
    next => exact h
  members client group start h := h
  committed := hc
  later := .of_eq rfl rfl rfl

theorem Keeps.setGroupClient {client : Nat} {c d : GroupClient} (hc : env.groupClients[client]? = some c)
    (hs : ∀ group start, c.service = .broker group start → d.service = .broker group start) :
    Keeps topic env (env.setGroupClient client d) where
  payloads _ _ _ _ h := h
  logs _ _ h := h
  members other group start h := by
    obtain ⟨e, he, hj⟩ := h
    by_cases ho : client = other
    · subst ho
      cases Option.some.inj (hc.symm.trans he)
      have hb := (List.getElem?_eq_some_iff.mp hc).1
      exact ⟨d, List.getElem?_set_self hb, hs group start hj⟩
    · exact ⟨e, (List.getElem?_set_ne ho).trans he, hj⟩
  committed := rfl
  later := .of_eq rfl rfl rfl

theorem Keeps.append (c : GroupClient) :
    Keeps topic env { env with groupClients := env.groupClients ++ [c] } where
  payloads _ _ _ _ h := h
  logs _ _ h := h
  members client group start h := by
    obtain ⟨e, he, hj⟩ := h
    have hb := (List.getElem?_eq_some_iff.mp he).1
    exact ⟨e, (List.getElem?_append_left hb).trans he, hj⟩
  committed := rfl
  later := .of_eq rfl rfl rfl

theorem closeGroup_keeps (client : Nat) : Keeps topic env (env.closeGroup client).2 := by
  unfold closeGroup
  split
  next => exact Keeps.refl env
  next c hc =>
    split
    next => exact Keeps.refl env
    next =>
      have hset : Keeps topic env (env.setGroupClient client { c with closed := true }) :=
        Keeps.setGroupClient hc fun _ _ h => h
      split
      next => exact hset.trans (Keeps.of_eq rfl rfl rfl (.of_eq rfl rfl rfl))
      next => exact hset.trans (Keeps.of_eq rfl rfl rfl (.of_eq rfl rfl rfl))
      next => exact hset

theorem nextFatal_keeps {client : Nat} {stop : Bool} {failure : Option Failure}
    (h : env.nextFatal client stop = some (failure, after)) : Keeps topic env after := by
  obtain ⟨_, _, _, rfl⟩ | ⟨_, _, _, hc, _, rfl⟩ := nextFatal_cases h
  · exact Keeps.refl after
  · exact Keeps.setGroupClient hc fun group start hs => hs

theorem measure_keeps {group : String} {source : Source} {record : Record}
    (h : env.measure group source record = .ok after) : Keeps topic env after := by
  unfold measure at h
  dsimp only at h
  split at h
  next =>
    cases h
    exact Keeps.of_eq rfl rfl rfl (.of_eq rfl rfl rfl)
  next => simp at h

theorem partitions_keeps (client : Nat) (name : String) :
    Keeps topic env (env.partitions client name).2 := by
  unfold partitions
  split
  next => exact Keeps.refl env
  next =>
    split
    next => split <;> exact Keeps.refl env
    next => exact Keeps.of_eq rfl rfl rfl (.of_eq rfl rfl rfl)
    next => exact Keeps.refl env

theorem openBrokerReader_keeps (key : PartitionKey) (start : StartOffset) :
    Keeps topic env (env.openBrokerReader key start).2 := by
  unfold openBrokerReader
  split
  next => exact Keeps.refl env
  next =>
    split
    next => exact Keeps.refl env
    next => exact Keeps.of_eq rfl rfl rfl (.of_eq rfl rfl rfl)

theorem openReader_keeps (client : Nat) (key : PartitionKey) (start : StartOffset) :
    Keeps topic env (env.openReader client key start).2 := by
  unfold openReader
  split
  next => exact Keeps.refl env
  next =>
    split
    next =>
      split
      next => exact Keeps.refl env
      next => exact openBrokerReader_keeps key start
    next owner script _ =>
      have hcall : Keeps topic env (env.call owner (.openReader key.1 key.2 start)) :=
        Keeps.of_eq rfl rfl rfl (.of_eq rfl rfl rfl)
      dsimp only
      split
      next => exact hcall
      next => split <;> exact hcall
    next => exact Keeps.refl env

theorem closeReader_keeps (reader : Reader) : Keeps topic env (env.closeReader reader).2.2 := by
  unfold closeReader
  split
  next => exact Keeps.refl env
  next =>
    dsimp only
    split <;> exact Keeps.of_eq rfl rfl rfl (.of_eq rfl rfl rfl)

theorem closeReaderLogging_keeps (reader : Reader) : Keeps topic env (env.closeReaderLogging reader).2 := by
  have h : Keeps topic env (env.closeReader reader).2.2 := closeReader_keeps reader
  unfold closeReaderLogging
  dsimp only
  split
  next => exact h
  next => exact h.trans (Keeps.of_eq rfl rfl rfl (.of_eq rfl rfl rfl))

theorem openDirect_keeps (connector : Connector) (settings : Settings) :
    Keeps topic env (env.openDirect connector settings).2 := by
  unfold openDirect
  split
  next => split <;> exact Keeps.of_eq rfl rfl rfl (.of_eq rfl rfl rfl)
  next =>
    dsimp only
    split <;> exact Keeps.of_eq rfl rfl rfl (.of_eq rfl rfl rfl)
  next => split <;> exact Keeps.of_eq rfl rfl rfl (.of_eq rfl rfl rfl)

theorem closeDirect_keeps (client : Nat) : Keeps topic env (env.closeDirect client).2 := by
  unfold closeDirect
  split
  next => exact Keeps.refl env
  next =>
    split
    next => exact Keeps.refl env
    next =>
      dsimp only
      split <;> exact Keeps.of_eq rfl rfl rfl (.of_eq rfl rfl rfl)

end Environment

section Tasks

open Environment

variable {α : Type} {topic : String} {env after : Environment}

theorem Cursor.step_keeps {c d : Cursor} {checks : Bool} {stage : Stage} {b : Broker} {found : Found}
    (h : c.step env.broker checks stage = some (b, d, found)) : Keeps topic env { env with broker := b } := by
  cases stage with
  | marking =>
    cases h
    exact Keeps.refl env
  | checking =>
    simp only [Cursor.step] at h
    split at h
    next hf =>
      cases h
      unfold Broker.takeFailure at hf
      split at hf
      next => simp at hf
      next log hl =>
        split at hf
        next => simp at hf
        next =>
          cases hf
          exact Keeps.modify (f := fun log => { log with failure := none }) (Broker.log?_nonneg hl)
            (fun _ => List.prefix_refl _) rfl rfl
    next =>
      cases h
      exact Keeps.refl env
  | looking =>
    simp only [Cursor.step] at h
    split at h <;> cases h <;> exact Keeps.refl env
  | parked =>
    simp only [Cursor.step] at h
    split at h
    next =>
      cases h
      exact Keeps.refl env
    next =>
      split at h
      next => simp at h
      next =>
        cases h
        exact Keeps.refl env

theorem Source.step_keeps {s t : Source} {checks : Bool} {stage : Stage} {b : Broker} {found : Found}
    (h : s.step env.broker checks stage = some (b, t, found)) : Keeps topic env { env with broker := b } := by
  cases s with
  | log c =>
    obtain ⟨⟨b', d, found'⟩, hs, he⟩ := Option.map_eq_some_iff.mp h
    cases he
    exact Cursor.step_keeps hs
  | feed f =>
    obtain ⟨_, _, he⟩ := Option.map_eq_some_iff.mp h
    cases he
    exact Keeps.refl env

theorem Claim.ask_keeps {c d : Claim α} {stage : Stage} {b : Broker} {found : Found}
    (h : c.ask env.broker stage = some (b, d, found)) : Keeps topic env { env with broker := b } := by
  obtain ⟨⟨b', source, found'⟩, hs, he⟩ := Option.map_eq_some_iff.mp h
  have hb : b' = b := by
    dsimp only at he
    split at he <;> cases he <;> rfl
  exact hb ▸ Source.step_keeps hs

theorem Session.begin_keeps (client : Nat) (topics : List String) (token : Token) :
    Keeps topic env (Session.begin (α := α) env client topics token).2 := by
  unfold Session.begin
  split
  next => exact Keeps.refl env
  next c hc =>
    split
    next => split <;> exact Keeps.of_eq rfl rfl rfl (.of_eq rfl rfl rfl)
    next owner script started hs =>
      have hcall : Keeps topic env (env.call owner (.session topics)) :=
        Keeps.of_eq rfl rfl rfl (.of_eq rfl rfl rfl)
      dsimp only
      split
      next => exact hcall
      next =>
        refine hcall.trans (Keeps.setGroupClient hc ?_)
        intro group start h
        rw [hs] at h
        cases h
    next subscribed hs =>
      refine Keeps.setGroupClient hc ?_
      intro group start h
      rw [hs] at h
      cases h

theorem Session.step_keeps {s t : Session α} (h : s.step env = some (after, t)) : Keeps topic env after := by
  unfold Session.step at h
  split at h
  next =>
    cases h
    exact Keeps.refl env
  next =>
    have hcancel : Keeps topic env (env.cancel s.token) := Keeps.of_eq rfl rfl rfl (env.later_cancel _)
    cases Session.stepServing_cases h with
    | cancelled | closed | rebalanced | failed => exact hcancel
    | joined => exact Keeps.refl env
  next =>
    split at h
    next => cases h; exact Keeps.refl env
    next => simp at h
  next =>
    obtain ⟨_, _, he⟩ := Option.map_eq_some_iff.mp h
    cases he
    exact Keeps.refl env
  next => simp at h
  next => simp at h

namespace GroupRun

variable {run next : GroupRun α}

theorem afterSession_keeps (result : Except Failure Unit) :
    Keeps topic env (run.afterSession env result).1 := by
  unfold afterSession
  split
  next => exact Keeps.refl env
  next => exact Keeps.refl env
  next =>
    dsimp only
    split <;> exact Keeps.of_eq rfl rfl rfl ⟨Nat.le_refl _, Nat.le_add_right _ _, fun _ ht => ht⟩

theorem afterClose_keeps (fatal : Option Failure) (result : Except Failure Unit) :
    Keeps topic env (run.afterClose env fatal result).1 := by
  unfold afterClose
  dsimp only
  split
  next => exact Keeps.refl env
  next => exact Keeps.of_eq rfl rfl rfl (.of_eq rfl rfl rfl)

theorem stepWatch_keeps {stop : Bool} (h : run.stepWatch env stop = some (after, next)) :
    Keeps topic env after := by
  cases stepWatch_move h with
  | ended _ hf => exact nextFatal_keeps hf
  | failed _ hf => exact (nextFatal_keeps hf).trans (Keeps.of_eq rfl rfl rfl (.of_eq rfl rfl rfl))
  | learned => exact afterClose_keeps _ _
  | performed _ hc =>
    have hclose : Keeps topic env (env.closeGroup run.client).2 := closeGroup_keeps run.client
    rw [hc] at hclose
    exact hclose.trans (afterClose_keeps _ _)
  | cancelled | began | quit | unheard | reported => exact Keeps.refl env

theorem stepCloser_keeps (h : run.stepCloser env = some (after, next)) : Keeps topic env after := by
  cases stepCloser_move h with
  | began | learned => exact Keeps.refl env
  | performed _ hc =>
    have hclose : Keeps topic env (env.closeGroup run.client).2 := closeGroup_keeps run.client
    rwa [hc] at hclose

theorem LoopStep.keeps (h : LoopStep env run after next) : Keeps topic env after := by
  have hbegin : Keeps topic env (Session.begin (α := α) env run.client [run.topic] run.token).2 :=
    Session.begin_keeps _ _ _
  cases h with
  | begun _ _ hb =>
    rw [hb] at hbegin
    exact hbegin
  | refused _ _ hb =>
    rw [hb] at hbegin
    exact hbegin.trans (afterSession_keeps _)
  | ended => exact afterSession_keeps _
  | served _ hs => exact Session.step_keeps hs
  | stopped | crashed | reported | gaveUp | unheard | woken => exact Keeps.refl env

theorem HandlerStep.keeps {session : Token} {claim later : Claim α}
    (h : HandlerStep env run session claim after next later) : Keeps topic env after := by
  cases h with
  | asked _ ha => exact Claim.ask_keeps ha
  | measured _ hm => exact measure_keeps hm
  | stopped | crashed | rejected | decoded | queued | unheard => exact Keeps.refl env

end GroupRun

namespace DirectRun

variable {run next : DirectRun α}

theorem PumpStep.keeps {pump later : Pump α} (h : PumpStep env run pump after next later) :
    Keeps topic env after := by
  cases h with
  | asked _ _ hs => exact Source.step_keeps hs
  | measured _ hm => exact measure_keeps hm
  | closed | failed => exact closeReaderLogging_keeps _
  | _ => exact Keeps.refl env

theorem stepPump_keeps {i : Nat} {stop : Bool} (h : run.stepPump env i stop = some (after, next)) :
    Keeps topic env after := by
  obtain ⟨_, _, _, _, hs, rfl⟩ := stepPump_cases h
  exact hs.keeps

end DirectRun

namespace Consumer

theorem closeClientLogging_keeps (client : Nat) : Keeps topic env (closeClientLogging env client) := by
  have h : Keeps topic env (env.closeDirect client).2 := closeDirect_keeps client
  unfold closeClientLogging
  split
  next hc =>
    rw [hc] at h
    exact h
  next hc =>
    rw [hc] at h
    exact h.trans (Keeps.of_eq rfl rfl rfl (.of_eq rfl rfl rfl))

theorem openEach_keeps (client : Nat) (name : String) (start : StartOffset) (readers : List Reader)
    (partitions : List Int) :
    Keeps topic env (openReaders.openEach client name start env readers partitions).2 := by
  have hclose : ∀ (readers : List Reader) (env : Environment),
      Keeps topic env (readers.foldl (fun env reader => (env.closeReaderLogging reader).2) env) := by
    intro readers
    induction readers with
    | nil => exact Keeps.refl
    | cons reader rest ih => exact fun env => (closeReaderLogging_keeps reader).trans (ih _)
  induction partitions generalizing env readers with
  | nil => exact Keeps.refl env
  | cons partition rest ih =>
    have ho : Keeps topic env (env.openReader client (name, partition) start).2 := openReader_keeps _ _ _
    unfold openReaders.openEach
    split
    next h =>
      rw [h] at ho
      exact ho.trans (ih _)
    next h =>
      rw [h] at ho
      exact ho.trans (hclose _ _)

theorem openReaders_keeps (client : Nat) (name : String) (start : StartOffset) :
    Keeps topic env (openReaders env client name start).2 := by
  have hp : Keeps topic env (env.partitions client name).2 := partitions_keeps _ _
  unfold openReaders
  split
  next h =>
    rw [h] at hp
    exact hp
  next h =>
    rw [h] at hp
    exact hp
  next h =>
    rw [h] at hp
    exact hp.trans (openEach_keeps _ _ _ _ _)

end Consumer

end Tasks

end TopicConsumer
