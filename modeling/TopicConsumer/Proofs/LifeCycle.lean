import TopicConsumer.Proofs.Lifetimes

namespace TopicConsumer

open Environment

variable {α : Type}

namespace Consumer

theorem start_spent (w : World α) {consumer : Consumer α} (token : Token) (h : consumer.streams.isSome = true) :
    start w consumer token = (.error .alreadyConsuming, w, consumer) := by
  unfold start
  rw [if_pos h]

theorem start_again (w : World α) {blueprint : Blueprint α} {own : Option Token} (token : Token)
    (h : blueprint.isGrouped = true ∨ own = none) :
    start w { blueprint := blueprint, connector := .broker, token := own } token =
      start w { blueprint := blueprint, connector := .broker } token := by
  cases blueprint with
  | grouped group config => rfl
  | direct config =>
    have hown : own = none := h.resolve_left (by simp [Blueprint.isGrouped])
    rw [hown]

end Consumer

namespace Tally

variable {t u : Tally}

theorem opened_none (h : u.clients = t.clients) : t.opened u = [] := by
  simp only [clients, Prod.mk.injEq] at h
  simp [opened, h]

theorem opened_group {closed : Bool} {count : Nat} (h : u.clients = (t.groups ++ [⟨true, closed⟩], t.directs, count)) :
    t.opened u = [.group t.groups.length] ∧ t.closed? (.group t.groups.length) = none ∧
      u.closed? (.group t.groups.length) = some closed := by
  simp only [clients, Prod.mk.injEq] at h
  obtain ⟨hg, hd, _⟩ := h
  refine ⟨?_, by simp [closed?], by simp [closed?, hg]⟩
  simp [opened, hg, hd]

theorem opened_direct {closed : Bool} {count : Nat} (h : u.clients = (t.groups, t.directs ++ [⟨true, closed⟩], count)) :
    t.opened u = [.direct t.directs.length] ∧ t.closed? (.direct t.directs.length) = none ∧
      u.closed? (.direct t.directs.length) = some closed := by
  simp only [clients, Prod.mk.injEq] at h
  obtain ⟨hg, hd, _⟩ := h
  refine ⟨?_, by simp [closed?], by simp [closed?, hd]⟩
  simp [opened, hg, hd]

end Tally

namespace Lifetime

variable {blueprint : Blueprint α} {l m : Lifetime α}

def Closed (l : Lifetime α) (ref : ClientRef) : Prop := l.tally.closed? ref = some true

/-- Where a consumer is in its life, and which of its clients can be open. -/
inductive Stage (blueprint : Blueprint α) (l : Lifetime α) : Prop where
  | unstarted {own : Option Token} : (blueprint.isGrouped = true ∨ own = none) →
      l.consumer = { blueprint := blueprint, connector := .broker, token := own } → startsOf l.calls = [] →
      (∀ ref ∈ l.clients, l.Closed ref) → Stage blueprint l
  | grouped {i : Nat} {run : GroupRun α} : blueprint.isGrouped = true → l.consumer.streams = some (.group i) →
      l.chronicle.world.groups[i]? = some run → startsOf l.calls ≠ [] →
      (∀ ref ∈ l.clients, l.Closed ref ∨ ref = .group run.client) → Stage blueprint l
  | direct {i client : Nat} : blueprint.isGrouped = false → l.consumer.streams = some (.direct i) →
      l.consumer.client = some client → startsOf l.calls ≠ [] →
      (∀ ref ∈ l.clients, l.Closed ref ∨ ref = .direct client) → Stage blueprint l
  | finished {i : Nat} : blueprint.isGrouped = false → l.consumer.streams = some (.direct i) →
      l.consumer.client = none → startsOf l.calls ≠ [] → (∀ ref ∈ l.clients, l.Closed ref) → Stage blueprint l

/-- What holds of a consumer after every call and every act. -/
structure Lives (blueprint : Blueprint α) (l : Lifetime α) : Prop where
  reachable : l.chronicle.Reachable
  stage : l.Stage blueprint
  lawful : Lawful blueprint.isGrouped l.calls
  distinct : l.clients.Nodup
  known : ∀ ref ∈ l.clients, (l.tally.closed? ref).isSome
  ended : Ended l.calls → ∀ ref ∈ l.clients, l.Closed ref

theorem Stage.spent (h : l.Stage blueprint) (hs : startsOf l.calls ≠ []) : l.consumer.streams.isSome = true := by
  cases h with
  | unstarted _ _ hn => exact absurd hn hs
  | grouped _ hstreams | direct _ hstreams | finished _ hstreams => simp [hstreams]

theorem Stage.fresh (h : l.Stage blueprint) (hs : startsOf l.calls = []) :
    (∀ ref ∈ l.clients, l.Closed ref) ∧ ∃ own, (blueprint.isGrouped = true ∨ own = none) ∧
      l.consumer = { blueprint := blueprint, connector := .broker, token := own } := by
  cases h with
  | unstarted hown hc _ hclosed => exact ⟨hclosed, _, hown, hc⟩
  | grouped _ _ _ hn | direct _ _ _ hn | finished _ _ _ hn => exact absurd hs hn

theorem Lives.refused (h : l.Lives blueprint) (hs : startsOf l.calls ≠ []) :
    Lives blueprint { l with calls := l.calls ++ [.started (.error .alreadyConsuming)] } where
  reachable := h.reachable
  stage := by
    have hcalls : startsOf (l.calls ++ [.started (.error .alreadyConsuming)]) = startsOf l.calls := by simp
    cases h.stage with
    | unstarted _ _ hn => exact absurd hn hs
    | grouped hb hstreams hr hn hc => exact .grouped hb hstreams hr (hcalls ▸ hn) hc
    | direct hb hstreams hclient hn hc => exact .direct hb hstreams hclient (hcalls ▸ hn) hc
    | finished hb hstreams hclient hn hc => exact .finished hb hstreams hclient (hcalls ▸ hn) hc
  lawful := h.lawful.started fun _ => rfl
  distinct := h.distinct
  known := h.known
  ended he := h.ended he.of_started

/-- A start before any has succeeded: what it opens is new. -/
theorem Lives.started (h : l.Lives blueprint) (hs : startsOf l.calls = []) (hreach : m.chronicle.Reachable)
    (hlater : l.tally.Later m.tally) {result : Except Failure Nat} (hcalls : m.calls = l.calls ++ [.started result])
    {fresh : List ClientRef} (hclients : m.clients = l.clients ++ fresh) (hfresh : fresh.Nodup)
    (hnew : ∀ ref ∈ fresh, l.tally.closed? ref = none ∧ (m.tally.closed? ref).isSome) (hstage : m.Stage blueprint) :
    m.Lives blueprint where
  reachable := hreach
  stage := hstage
  lawful := by
    rw [hcalls]
    exact h.lawful.started (absurd hs)
  distinct := by
    rw [hclients]
    refine List.nodup_append.mpr ⟨h.distinct, hfresh, ?_⟩
    rintro ref hold _ hm rfl
    have hknown := h.known ref hold
    simp [(hnew ref hm).1] at hknown
  known ref hm := by
    rw [hclients] at hm
    rcases List.mem_append.mp hm with hm | hm
    · exact hlater.known (h.known ref hm)
    · exact (hnew ref hm).2
  ended he := by
    rw [hcalls] at he
    exact absurd he.of_started (not_ended hs)

/-- Until a start succeeds each is like the first. -/
theorem Lives.first_start (h : l.Lives blueprint) (hs : startsOf l.calls = []) {token : Token}
    (ha : l.act? (.consume token) = some m) :
    ∃ result, Consumer.start l.chronicle.world { blueprint := blueprint, connector := .broker } token =
        (result, m.chronicle.world, m.consumer) ∧
      m.calls = l.calls ++ [.started result] ∧ m.clients = l.clients ++ l.tally.opened m.tally ∧
      m.chronicle.Reachable ∧ l.tally.Later m.tally := by
  simp only [act?] at ha
  split at ha
  next => simp at ha
  next =>
    obtain ⟨_, own, hown, hconsumer⟩ := h.stage.fresh hs
    have hblueprint : l.consumer.blueprint = blueprint := by rw [hconsumer]
    generalize hstart : Consumer.start l.chronicle.world l.consumer token = started at ha
    obtain ⟨result, world, consumer⟩ := started
    rw [hconsumer, Consumer.start_again _ token hown] at hstart
    have hact : l.chronicle.act? (.start blueprint token) = some m.chronicle := by
      cases ha
      simp only [Chronicle.act?, hstart, hblueprint]
    have hreach := h.reachable.act hact
    cases ha
    exact ⟨result, hstart, rfl, rfl, hreach⟩

theorem Lives.consume_first (h : l.Lives blueprint) (hs : startsOf l.calls = []) {token : Token}
    (ha : l.act? (.consume token) = some m) : m.Lives blueprint := by
  obtain ⟨result, hstart, hcalls, hclients, hreach, hlater⟩ := h.first_start hs ha
  -- What was opened before is closed, so that only the client that this start opens can be open.
  have hold : ∀ ref ∈ l.clients, m.Closed ref := fun ref hm => hlater.closed ((h.stage.fresh hs).1 ref hm)
  have hone {ref : ClientRef} (hopened : l.tally.opened m.tally = [ref]) : ∀ r ∈ m.clients, m.Closed r ∨ r = ref := by
    intro r hm
    rw [hclients, hopened] at hm
    rcases List.mem_append.mp hm with hm | hm
    · exact .inl (hold r hm)
    · exact .inr (List.mem_singleton.mp hm)
  have hlives {ref : ClientRef} {closed : Bool} (hopened : l.tally.opened m.tally = [ref])
      (hnone : l.tally.closed? ref = none) (hsome : m.tally.closed? ref = some closed)
      (hstage : m.Stage blueprint) : m.Lives blueprint := by
    refine h.started hs hreach hlater hcalls hclients (hopened ▸ List.nodup_singleton ref) (fun r hm => ?_) hstage
    rw [hopened, List.mem_singleton] at hm
    rw [hm, hsome]
    exact ⟨hnone, rfl⟩
  generalize hconsumer : m.consumer = consumer at hstart
  cases Consumer.start_cases _ blueprint token hstart with
  | refused hown hc =>
    have hopened : l.tally.opened m.tally = [] := Tally.opened_none hc
    rw [hopened] at hclients
    refine h.started hs hreach hlater hcalls hclients List.nodup_nil (by simp) ?_
    exact .unstarted hown hconsumer (by simp [hcalls, hs]) (by simpa [hclients] using hold)
  | returned hb hc =>
    obtain ⟨hopened, hnone, hdone⟩ := Tally.opened_direct (t := l.tally) hc
    refine hlives hopened hnone hdone (.unstarted (.inr rfl) hconsumer (by simp [hcalls, hs]) fun ref hm => ?_)
    rcases hone hopened ref hm with hm | rfl
    · exact hm
    · exact hdone
  | @grouped _ _ run _ hb hc hgroups hrun hstreams =>
    obtain ⟨hopened, hnone, hopen⟩ := Tally.opened_group (t := l.tally) hc
    have hget : m.chronicle.world.groups[l.chronicle.world.groups.length]? = some run := by
      rw [hgroups]
      simp
    have hclient : run.client = l.tally.groups.length := hrun
    exact hlives hopened hnone hopen
      (.grouped hb (hconsumer ▸ hstreams) hget (by simp [hcalls]) (hclient ▸ hone hopened))
  | direct hb hc hstreams hclient =>
    obtain ⟨hopened, hnone, hopen⟩ := Tally.opened_direct (t := l.tally) hc
    exact hlives hopened hnone hopen
      (.direct hb (hconsumer ▸ hstreams) (hconsumer ▸ hclient) (by simp [hcalls]) (hone hopened))

theorem Lives.consume (h : l.Lives blueprint) {token : Token} (ha : l.act? (.consume token) = some m) :
    m.Lives blueprint := by
  by_cases hs : startsOf l.calls = []
  · exact h.consume_first hs ha
  · have hspent := Consumer.start_spent l.chronicle.world token (h.stage.spent hs)
    have hnone : l.chronicle.world.env.tally.opened l.chronicle.world.env.tally = [] := by
      simp [Tally.opened]
    simp only [act?, hspent] at ha
    split at ha <;> cases ha
    simpa [hnone] using h.refused hs

theorem Lives.returned (h : l.Lives blueprint) (hreach : m.chronicle.Reachable) (hlater : l.tally.Later m.tally)
    {result : Except Failure Unit} (hcalls : m.calls = l.calls ++ [.closed result]) (hclients : m.clients = l.clients)
    (hresult : startsOf l.calls = [] ∨ blueprint.isGrouped = false → result = .ok ())
    (hclosed : startsOf l.calls ≠ [] → ∀ ref ∈ l.clients, m.Closed ref) (hstage : m.Stage blueprint) :
    m.Lives blueprint where
  reachable := hreach
  stage := hstage
  lawful := by
    rw [hcalls]
    exact h.lawful.closed hresult
  distinct := hclients ▸ h.distinct
  known ref hm := hlater.known (h.known ref (hclients ▸ hm))
  ended he := by
    rw [hcalls] at he
    rw [hclients]
    exact hclosed he.of_closed

theorem Lives.quiet (h : l.Lives blueprint) (hreach : m.chronicle.Reachable) (hlater : l.tally.Later m.tally)
    (hcalls : m.calls = l.calls) (hclients : m.clients = l.clients) (hstage : m.Stage blueprint) :
    m.Lives blueprint where
  reachable := hreach
  stage := hstage
  lawful := hcalls ▸ h.lawful
  distinct := hclients ▸ h.distinct
  known ref hm := hlater.known (h.known ref (hclients ▸ hm))
  ended he ref hm := hlater.closed (h.ended (hcalls ▸ he) ref (hclients ▸ hm))

theorem Lives.close_idle (h : l.Lives blueprint) (hs : ∀ i, l.consumer.streams ≠ some (.group i))
    (hc : l.consumer.client = none) (hclosed : ∀ ref ∈ l.clients, l.Closed ref)
    (hstage : ∀ m : Lifetime α, m.consumer = l.consumer → startsOf m.calls = startsOf l.calls →
      (∀ ref ∈ m.clients, m.Closed ref) → m.Stage blueprint) (ha : l.act? .close = some m) : m.Lives blueprint := by
  obtain ⟨hnotes, _, htally⟩ := l.chronicle.stopped_same l.consumer.token
  simp only [act?, Consumer.beginClose_idle hs hc, Chronicle.with_world hnotes] at ha
  split at ha
  next => simp at ha
  next =>
    cases ha
    have hlater : l.tally.Later (l.chronicle.stopped l.consumer.token).world.env.tally := by
      rw [htally]
      exact .refl _
    have hall : ∀ ref ∈ l.clients, (l.chronicle.stopped l.consumer.token).world.env.tally.closed? ref = some true :=
      fun ref hm => hlater.closed (hclosed ref hm)
    exact h.returned (h.reachable.stopped _) hlater rfl rfl (fun _ => rfl) (fun _ => hall)
      (hstage _ rfl (by simp) hall)

theorem Lives.close_direct (h : l.Lives blueprint) {i client : Nat} (hb : blueprint.isGrouped = false)
    (hs : l.consumer.streams = some (.direct i)) (hc : l.consumer.client = some client) (hn : startsOf l.calls ≠ [])
    (hclosed : ∀ ref ∈ l.clients, l.Closed ref ∨ ref = .direct client) (ha : l.act? .close = some m) :
    m.Lives blueprint := by
  obtain ⟨hnotes, _, htally⟩ := l.chronicle.stopped_same l.consumer.token
  generalize hstopped : l.chronicle.stopped l.consumer.token = stopped at hnotes htally
  have hbegin := Consumer.beginClose_direct (c := l.chronicle) (by simp [hs]) hc
  rw [hstopped] at hbegin
  have hact : stopped.act? (.closeDirect client) =
      some (stopped.setEnv (Consumer.closeClientLogging stopped.world.env client)) := rfl
  obtain ⟨hreach, hlater⟩ := (hstopped ▸ h.reachable.stopped _ : stopped.Reachable).act hact
  rw [htally] at hlater
  simp only [act?, hbegin] at ha
  split at ha
  next => simp at ha
  next =>
    have hsame : (stopped.setEnv (Consumer.closeClientLogging stopped.world.env client)).notes = l.chronicle.notes :=
      hnotes
    rw [Chronicle.with_world hsame] at ha
    cases ha
    have hall : ∀ ref ∈ l.clients,
        (Consumer.closeClientLogging stopped.world.env client).tally.closed? ref = some true := by
      intro ref hm
      rcases hclosed ref hm with hdone | rfl
      · exact hlater.closed hdone
      · obtain ⟨closed, hknown⟩ := Option.isSome_iff_exists.mp (h.known _ hm)
        rw [tally, ← htally] at hknown
        rw [closeClientLogging_tally, Tally.closed?_closeDirect, hknown]
        simp
    exact h.returned hreach hlater rfl rfl (fun _ => rfl) (fun _ => hall)
      (.finished hb hs rfl (by simp [hn]) hall)

theorem Lives.close_grouped (h : l.Lives blueprint) {i : Nat} {run : GroupRun α} (hb : blueprint.isGrouped = true)
    (hs : l.consumer.streams = some (.group i)) (hr : l.chronicle.world.groups[i]? = some run)
    (hn : startsOf l.calls ≠ []) (hclosed : ∀ ref ∈ l.clients, l.Closed ref ∨ ref = .group run.client)
    (ha : l.act? .close = some m) : m.Lives blueprint := by
  obtain ⟨hnotes, hgroups, htally⟩ := l.chronicle.stopped_same l.consumer.token
  generalize hstopped : l.chronicle.stopped l.consumer.token = stopped at hnotes hgroups htally
  have hbegin := Consumer.beginClose_group hs hr
  rw [hstopped] at hbegin
  simp only [act?, hbegin] at ha
  split at ha
  next => simp at ha
  next hopen =>
    have hidle : run.isClosing = false := by simpa [isClosing, run?, hs, hr] using hopen
    have hact := Chronicle.act?_close (hgroups ▸ hr : stopped.world.groups[i]? = some run) hidle
    rw [hnotes] at hact
    obtain ⟨hreach, hlater⟩ := (hstopped ▸ h.reachable.stopped _ : stopped.Reachable).act hact
    rw [htally] at hlater
    cases ha
    have hb' : i < stopped.world.groups.length := by
      rw [hgroups]
      exact (List.getElem?_eq_some_iff.mp hr).1
    have hnext : (stopped.world.groups.set i (run.beginClose stopped.world.env).2)[i]? =
        some (run.beginClose stopped.world.env).2 := List.getElem?_set_self hb'
    refine h.quiet hreach hlater (List.append_nil _) rfl (.grouped hb hs hnext (by simp [hn]) ?_)
    intro ref hm
    exact (hclosed ref hm).imp_left hlater.closed

theorem Lives.close (h : l.Lives blueprint) (ha : l.act? .close = some m) : m.Lives blueprint := by
  cases h.stage with
  | unstarted hown hc hs hclosed =>
    refine h.close_idle (by simp [hc]) (by rw [hc]) hclosed (fun m hconsumer hcalls hclosed => ?_) ha
    exact .unstarted hown (hconsumer.trans hc) (hcalls.trans hs) hclosed
  | finished hb hstreams hclient hs hclosed =>
    refine h.close_idle (by simp [hstreams]) hclient hclosed (fun m hconsumer hcalls hclosed => ?_) ha
    exact .finished hb (hconsumer ▸ hstreams) (hconsumer ▸ hclient) (hcalls ▸ hs) hclosed
  | direct hb hstreams hclient hs hclosed => exact h.close_direct hb hstreams hclient hs hclosed ha
  | grouped hb hstreams hr hs hclosed => exact h.close_grouped hb hstreams hr hs hclosed ha

theorem Lives.other (h : l.Lives blueprint) {a : Act α} (ha : l.act? (.other a) = some m) : m.Lives blueprint := by
  obtain ⟨d, hd, rfl⟩ := Option.map_eq_some_iff.mp ha
  obtain ⟨hreach, hlater⟩ := h.reachable.act hd
  have hquiet (hnone : l.answers d a = []) : l.calls ++ l.answers d a = l.calls := by rw [hnone, List.append_nil]
  cases h.stage with
  | unstarted hown hc hs hclosed =>
    have hcalls := hquiet (by simp [answers, run?, hc])
    exact h.quiet hreach hlater hcalls rfl
      (.unstarted hown hc (hcalls.symm ▸ hs) fun ref hm => hlater.closed (hclosed ref hm))
  | direct hb hs hc hn hclosed =>
    have hcalls := hquiet (by simp [answers, run?, hs])
    exact h.quiet hreach hlater hcalls rfl
      (.direct hb hs hc (hcalls.symm ▸ hn) fun ref hm => (hclosed ref hm).imp_left hlater.closed)
  | finished hb hs hc hn hclosed =>
    have hcalls := hquiet (by simp [answers, run?, hs])
    exact h.quiet hreach hlater hcalls rfl
      (.finished hb hs hc (hcalls.symm ▸ hn) fun ref hm => hlater.closed (hclosed ref hm))
  | @grouped i run hb hs hr hn hclosed =>
    obtain ⟨next, hnext, hclient⟩ := h.reachable.run_kept hd hr
    have hone : ∀ ref ∈ l.clients, d.world.env.tally.closed? ref = some true ∨ ref = .group next.client :=
      fun ref hm => hclient.symm ▸ (hclosed ref hm).imp_left hlater.closed
    have hanswers : l.answers d a = (l.chronicle.closes d i a).filterMap ClosingEvent.answer? := by
      simp [answers, run?, hs, hr]
    have hstarts : startsOf (l.calls ++ l.answers d a) ≠ [] := by simp [hn]
    rcases h.reachable.answers_closed hd i with hnone | ⟨result, after, outcome, hreturned, hafter, hdone⟩
    · have hcalls := hquiet (hanswers.trans hnone)
      exact h.quiet hreach hlater hcalls rfl (.grouped hb hs hnext hstarts hone)
    · cases Option.some.inj (hnext.symm.trans hafter)
      have hgone : d.world.env.tally.closed? (.group next.client) = some true :=
        hreach.follow.closed i next outcome hnext hdone
      have hall : ∀ ref ∈ l.clients, d.world.env.tally.closed? ref = some true := by
        intro ref hm
        rcases hone ref hm with hc | rfl
        · exact hc
        · exact hgone
      refine h.returned hreach hlater (by rw [hanswers, hreturned]) rfl (fun hcase => ?_) (fun _ => hall)
        (.grouped hb hs hnext hstarts hone)
      simp [hn, hb] at hcase

theorem Lives.run {life : List (LifeAct α)} (h : l.Lives blueprint) (hl : l.run life = some m) :
    m.Lives blueprint := by
  induction life generalizing l with
  | nil => exact Option.some.inj hl ▸ h
  | cons a rest ih =>
    obtain ⟨next, ha, hrest⟩ := Option.bind_eq_some_iff.mp hl
    refine ih ?_ hrest
    cases a with
    | consume token => exact h.consume ha
    | close => exact h.close ha
    | other a => exact h.other ha

theorem lives_create {acts : List (Act α)} {c : Chronicle α} (h : Chronicle.run {} acts = some c)
    (blueprint : Blueprint α) : (create c blueprint).Lives blueprint where
  reachable := ⟨acts, h⟩
  stage := .unstarted (.inr rfl) rfl rfl (by simp [create])
  lawful := ⟨by simp [create], by simp [create], by simp [create]⟩
  distinct := List.nodup_nil
  known := by simp [create]
  ended he := absurd he (not_ended rfl)

/-- The call of close that waits for a run can return after `n` steps, of its own or of the watchdog. -/
def ReturnsWithin (l : Lifetime α) (i n : Nat) : Prop :=
  ∃ (moves : List Move) (m : Lifetime α) (result : Except Failure Unit), moves.length ≤ n ∧
    (∀ move ∈ moves, move = ⟨.watch i, false⟩ ∨ move = ⟨.closer i, false⟩) ∧
    l.run (moves.map fun move => .other (.move move)) = some m ∧ m.calls = l.calls ++ [.closed result]

theorem ReturnsWithin.before {i n : Nat} {move : Move} (h : m.ReturnsWithin i n)
    (hmove : move = ⟨.watch i, false⟩ ∨ move = ⟨.closer i, false⟩) (hm : l.act? (.other (.move move)) = some m)
    (hcalls : m.calls = l.calls) : l.ReturnsWithin i (n + 1) := by
  obtain ⟨moves, last, result, hlength, hmoves, hrun, hlast⟩ := h
  refine ⟨move :: moves, last, result, by simpa using hlength, fun other ho => ?_, ?_, hcalls ▸ hlast⟩
  · rcases List.mem_cons.mp ho with rfl | ho
    · exact hmove
    · exact hmoves other ho
  · simp [Lifetime.run, hm, hrun]

section Returns

variable {i : Nat} {run next : GroupRun α} {after : Environment}

/-- A move that is about the run of a consumer may answer its call of close. -/
theorem act?_move {move : Move} {w : World α} {events : List ClosingEvent}
    (hs : l.consumer.streams = some (.group i)) (hr : l.chronicle.world.groups[i]? = some run)
    (h : l.chronicle.world.step? move = some w)
    (he : l.chronicle.closes (l.chronicle.observe w) i (.move move) = events) :
    l.act? (.other (.move move)) = some { l with
      chronicle := l.chronicle.observe w
      calls := l.calls ++ events.filterMap ClosingEvent.answer? } := by
  simp [act?, Chronicle.act?, h, answers, run?, hs, hr, he]

theorem act?_closer (hs : l.consumer.streams = some (.group i)) (hr : l.chronicle.world.groups[i]? = some run)
    (h : run.stepCloser l.chronicle.world.env = some (after, next)) :
    l.act? (.other (.move ⟨.closer i, false⟩)) = some { l with
      chronicle := l.chronicle.observe (l.chronicle.world.setGroup i (after, next))
      calls := l.calls ++ (run.closerCloses l.chronicle.world.env next).filterMap ClosingEvent.answer? } :=
  act?_move hs hr (by simp [World.step?, hr, h])
    (Chronicle.closes_closer hr (l.chronicle.world.setGroup_getElem? after next hr))

theorem act?_watch (hs : l.consumer.streams = some (.group i)) (hr : l.chronicle.world.groups[i]? = some run)
    (h : run.stepWatch l.chronicle.world.env false = some (after, next)) :
    l.act? (.other (.move ⟨.watch i, false⟩)) = some { l with
      chronicle := l.chronicle.observe (l.chronicle.world.setGroup i (after, next))
      calls := l.calls ++ (run.watchCloses l.chronicle.world.env false).filterMap ClosingEvent.answer? } :=
  act?_move hs hr (by simp [World.step?, hr, h])
    (Chronicle.closes_watch hr (l.chronicle.world.setGroup_getElem? after next hr))

/-- A call of close that performs the close of the client, or finds it done, returns in its next step. -/
theorem returns_now (hs : l.consumer.streams = some (.group i)) (hr : l.chronicle.world.groups[i]? = some run)
    (h : run.closer = .performing ∨ run.closer = .waiting ∧ ∃ outcome, run.closed = .done outcome) :
    l.ReturnsWithin i 1 := by
  obtain ⟨after, next, result, hstep, hreturned⟩ : ∃ after next result,
      run.stepCloser l.chronicle.world.env = some (after, next) ∧ next.closer = .returned result := by
    rcases h with hp | ⟨hp, outcome, hc⟩
    · exact ⟨_, _, _, by simp only [GroupRun.stepCloser, hp]; rfl, rfl⟩
    · exact ⟨_, _, _, by simp only [GroupRun.stepCloser, hp, hc]; rfl, rfl⟩
  obtain ⟨m, hm, hcalls⟩ : ∃ m, l.act? (.other (.move ⟨.closer i, false⟩)) = some m ∧
      m.calls = l.calls ++ [.closed result] := by
    refine ⟨_, act?_closer hs hr hstep, ?_⟩
    rcases h with hp | ⟨hp, _⟩ <;> simp [GroupRun.closerCloses, hp, hreturned, List.filterMap_cons]
  exact ⟨[⟨.closer i, false⟩], m, result, Nat.le_refl _, by simp, by simp [Lifetime.run, hm], hcalls⟩

theorem Lives.returns (h : l.Lives blueprint) (hc : l.isClosing = true) :
    ∃ i, l.consumer.streams = some (.group i) ∧ l.ReturnsWithin i 2 := by
  obtain ⟨i, run, hs, hr, hclosing⟩ : ∃ i run, l.consumer.streams = some (.group i) ∧
      l.chronicle.world.groups[i]? = some run ∧ run.isClosing = true := by
    unfold isClosing run? at hc
    split at hc
    next hrun =>
      split at hrun
      next i hs =>
        obtain ⟨run, hr, he⟩ := Option.map_eq_some_iff.mp hrun
        cases he
        exact ⟨_, _, hs, hr, hc⟩
      next => simp at hrun
    next => simp at hc
  have hb : i < l.chronicle.world.groups.length := (List.getElem?_eq_some_iff.mp hr).1
  have hone (hnow : run.closer = .performing ∨ run.closer = .waiting ∧ ∃ outcome, run.closed = .done outcome) :
      l.ReturnsWithin i 2 := by
    obtain ⟨moves, m, result, hlength, hrest⟩ := returns_now hs hr hnow
    exact ⟨moves, m, result, Nat.le_succ_of_le hlength, hrest⟩
  refine ⟨i, hs, ?_⟩
  cases hp : run.closer with
  | idle | returned => simp [GroupRun.isClosing, hp] at hclosing
  | performing => exact hone (.inl hp)
  | waiting =>
    cases hcell : run.closed with
    | done outcome => exact hone (.inr ⟨hp, outcome, hcell⟩)
    | idle =>
      have hstep : run.stepCloser l.chronicle.world.env =
          some (l.chronicle.world.env, { run with closed := .running, closer := .performing }) := by
        simp [GroupRun.stepCloser, hp, hcell]
      refine ReturnsWithin.before ?_ (.inr rfl) (act?_closer hs hr hstep) (by simp [GroupRun.closerCloses, hp])
      exact returns_now hs (List.getElem?_set_self hb) (.inl rfl)
    | running =>
      -- The client is being closed by the watchdog, as the call of close does not do it.
      obtain ⟨acts, hacts⟩ := h.reachable
      obtain ⟨fatal, hw⟩ := ((Chronicle.settles_of_run hacts hr).busy hcell).resolve_right (by simp [hp])
      have hstep : run.stepWatch l.chronicle.world.env false = some (GroupRun.afterClose
          (run.performClose l.chronicle.world.env).2.1 (run.performClose l.chronicle.world.env).2.2 fatal
          (run.performClose l.chronicle.world.env).1) := by simp only [GroupRun.stepWatch, hw]
      refine ReturnsWithin.before ?_ (.inl rfl) (act?_watch hs hr hstep)
        (by simp [GroupRun.watchCloses, hw, List.filterMap_cons])
      exact returns_now hs (List.getElem?_set_self hb) (.inr ⟨hp, _, rfl⟩)

end Returns

/-- The life of a consumer. Starts are refused once one has succeeded, and until then are all like the first. Each
client is closed at most once, none is left open by a start that fails or by a call of close that returns after the
start, and there is never more than one open. A call of close has nothing to wait for, unless it closes the client
of a group. -/
structure LifeCycle (blueprint : Blueprint α) (l : Lifetime α) : Prop extends
    Lawful blueprint.isGrouped l.calls where
  spent : startsOf l.calls ≠ [] → ∀ w token,
    Consumer.start w l.consumer token = (.error .alreadyConsuming, w, l.consumer)
  fresh : startsOf l.calls = [] → (∀ ref ∈ l.clients, l.tally.closed? ref = some true) ∧
    ∀ w token, Consumer.start w l.consumer token = Consumer.start w { blueprint := blueprint, connector := .broker } token
  distinct : l.clients.Nodup
  counted : l.tally.ClosesCounted
  known : ∀ ref ∈ l.clients, (l.tally.closed? ref).isSome
  single : l.clients.countP (fun ref => l.tally.closed? ref = some false) ≤ 1
  ended : Ended l.calls → ∀ ref ∈ l.clients, l.tally.closed? ref = some true
  atOnce : startsOf l.calls = [] ∨ blueprint.isGrouped = false →
    ∀ w, (Consumer.beginClose w l.consumer).1 = .returned (.ok ())
  returns : l.isClosing = true → ∃ i, l.consumer.streams = some (.group i) ∧ l.ReturnsWithin i 2

theorem Stage.current (h : l.Stage blueprint) : ∃ current, ∀ ref ∈ l.clients, l.Closed ref ∨ ref = current := by
  cases h with
  | unstarted _ _ _ hclosed | finished _ _ _ _ hclosed => exact ⟨.group 0, fun ref hm => .inl (hclosed ref hm)⟩
  | grouped _ _ _ _ hclosed | direct _ _ _ _ hclosed => exact ⟨_, hclosed⟩

theorem Stage.close_atOnce (h : l.Stage blueprint) (hc : startsOf l.calls = [] ∨ blueprint.isGrouped = false)
    (w : World α) : (Consumer.beginClose w l.consumer).1 = .returned (.ok ()) := by
  let c : Chronicle α := { world := w }
  cases h with
  | unstarted _ hconsumer =>
    have hs : ∀ i, l.consumer.streams ≠ some (.group i) := by simp [hconsumer]
    have hbegin := Consumer.beginClose_idle (c := c) hs (by rw [hconsumer])
    exact congrArg Prod.fst hbegin
  | finished _ hs hclient =>
    have hbegin := Consumer.beginClose_idle (c := c) (by simp [hs]) hclient
    exact congrArg Prod.fst hbegin
  | direct _ hs hclient =>
    have hbegin := Consumer.beginClose_direct (c := c) (by simp [hs]) hclient
    exact congrArg Prod.fst hbegin
  | grouped hb _ _ hn => simp [hn, hb] at hc

theorem Lives.lifeCycle (h : l.Lives blueprint) : l.LifeCycle blueprint where
  toLawful := h.lawful
  spent hs w token := Consumer.start_spent w token (h.stage.spent hs)
  fresh hs := by
    obtain ⟨hclosed, own, hown, hconsumer⟩ := h.stage.fresh hs
    exact ⟨hclosed, fun w token => by rw [hconsumer]; exact Consumer.start_again w token hown⟩
  distinct := h.distinct
  counted := h.reachable.elim fun _ => Chronicle.closesCounted_of_run
  known := h.known
  single := by
    obtain ⟨current, hcurrent⟩ := h.stage.current
    have hopen : ∀ ref ∈ l.clients, decide (l.tally.closed? ref = some false) = true → (ref == current) = true := by
      intro ref hm ho
      have hfalse : l.tally.closed? ref = some false := of_decide_eq_true ho
      rcases hcurrent ref hm with hc | rfl
      · rw [Closed, hfalse] at hc
        simp at hc
      · exact beq_self_eq_true ref
    calc l.clients.countP (fun ref => decide (l.tally.closed? ref = some false))
        ≤ l.clients.count current := List.countP_mono_left hopen
      _ ≤ 1 := List.nodup_iff_count_le_one.mp h.distinct current
  ended := h.ended
  atOnce hc w := h.stage.close_atOnce hc w
  returns := h.returns

end Lifetime

/-- Whatever is done with a consumer, and whatever happens around it, its life keeps the law. -/
theorem consumer_life_cycle {acts : List (Act α)} {c : Chronicle α} {blueprint : Blueprint α}
    {life : List (LifeAct α)} {l : Lifetime α} (h : Chronicle.run {} acts = some c)
    (hl : (Lifetime.create c blueprint).run life = some l) : l.LifeCycle blueprint :=
  ((Lifetime.lives_create h blueprint).run hl).lifeCycle

def refusedThenClosedLife : List (LifeAct Nat) :=
  let closer : LifeAct Nat := .other (.move ⟨.closer 0, false⟩)
  [.other (.outside (.refuseConnections true)), .consume [], .close, .other (.outside (.refuseConnections false)),
    .consume [], .consume [], .other (.outside (.failClose (some "leave group timed out"))), .close, closer, closer,
    .consume [], .close, closer]

theorem refused_then_closed : ∃ l, (Lifetime.create {} (.grouped "billing" billing)).run refusedThenClosedLife = some l ∧
    l.LifeCycle (.grouped "billing" billing) ∧ l.clients = [.group 0] ∧
    l.calls = [.started (.error (.broker "connection refused")), .closed (.ok ()), .started (.ok 1),
      .started (.error .alreadyConsuming), .closed (.error (.close (.broker "leave group timed out"))),
      .started (.error .alreadyConsuming), .closed (.error (.close (.broker "leave group timed out")))] := by
  have hstate : ((Lifetime.create {} (.grouped "billing" billing)).run refusedThenClosedLife).map
      (fun l => (l.clients, l.calls)) = some ([.group 0],
        [.started (.error (.broker "connection refused")), .closed (.ok ()), .started (.ok 1),
          .started (.error .alreadyConsuming), .closed (.error (.close (.broker "leave group timed out"))),
          .started (.error .alreadyConsuming), .closed (.error (.close (.broker "leave group timed out")))]) := by rfl
  obtain ⟨l, hl, he⟩ := Option.map_eq_some_iff.mp hstate
  obtain ⟨hclients, hcalls⟩ := Prod.mk.inj he
  have hcreated : Chronicle.run ({} : Chronicle Nat) [] = some {} := rfl
  exact ⟨l, hl, consumer_life_cycle hcreated hl, hclients, hcalls⟩

end TopicConsumer
