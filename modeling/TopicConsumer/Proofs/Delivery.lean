import TopicConsumer.Proofs.SessionNotes

namespace TopicConsumer

open Environment

/-- The notes of a run tell what its queue got, and agree with the session that is running. -/
structure GroupRun.Delivered (topic : String) (env : Environment) (run : GroupRun α) (note : RunNote α) :
    Prop where
  joined : env.Joined run.client run.group note.start
  queue : ∃ lost, note.received ++ run.messages.items ++ lost = note.sent ∧
    (run.messages.held = true → lost = [])
  exact : ∀ b ∈ note.sessions, b.Exact (env.broker.contents topic) run.subscription
  session : ∀ s, run.loop = .serving s → s.Follows (env.broker.contents topic) run.subscription note

variable {α : Type} {topic : String} {env after : Environment} {note : RunNote α} {run next : GroupRun α}

namespace GroupRun

theorem Delivered.exact_current (h : run.Delivered topic env note) :
    note.current.Exact (env.broker.contents topic) run.subscription := h.exact _ (by simp [RunNote.sessions])

theorem Delivered.advance (h : run.Delivered topic env note) (hk : KeepsRecords topic env after)
    (hu : next.subscription = run.subscription) {current : SessionNote α} {put : List (Message α)}
    (hsent : current.sent = note.current.sent ++ put)
    (hitems : next.messages.items = run.messages.items ++ put)
    (hheld : next.messages.held = run.messages.held) (hput : run.messages.held = false → put = [])
    (hexact : current.Exact (after.broker.contents topic) run.subscription)
    (hs : ∀ s, next.loop = .serving s →
      s.Follows (after.broker.contents topic) run.subscription { note with current := current }) :
    next.Delivered topic after { note with current := current } where
  joined := by
    have hj := hk.members run.client run.group note.start h.joined
    have hc : next.client = run.client := congrArg Subscription.client hu
    have hg : next.group = run.group := congrArg Subscription.group hu
    rwa [hc, hg]
  queue := by
    obtain ⟨lost, hq, hl⟩ := h.queue
    have hnote : note.sent = note.past.flatMap (·.sent) ++ note.current.sent :=
      RunNote.sent_current note.current
    have hnew : ({ note with current := current } : RunNote α).sent = note.sent ++ put := by
      rw [RunNote.sent_current, hsent, hnote, List.append_assoc]
    rw [hnew, hitems, hheld, ← hq]
    cases hb : run.messages.held with
    | true =>
      rw [hl hb]
      exact ⟨[], by simp, fun _ => rfl⟩
    | false =>
      rw [hput hb]
      exact ⟨lost, by simp, fun hc => absurd hc (by simp)⟩
  exact b hb := by
    rw [hu]
    rcases List.mem_append.mp hb with hb | hb
    · exact (h.exact b (List.mem_append_left _ hb)).keep hk.contents
    · exact List.mem_singleton.mp hb ▸ hexact
  session s hl := hu ▸ hs s hl

theorem Delivered.quiet (h : run.Delivered topic env note) (hk : KeepsRecords topic env after)
    (hu : next.subscription = run.subscription) (hm : next.messages = run.messages)
    (hs : ∀ s, next.loop = .serving s → s.Follows (after.broker.contents topic) run.subscription note) :
    next.Delivered topic after note :=
  h.advance hk hu (List.append_nil _).symm (by rw [hm, List.append_nil]) (by rw [hm]) (fun _ => rfl)
    (h.exact_current.keep hk.contents) hs

theorem Delivered.keep (h : run.Delivered topic env note) (hk : KeepsRecords topic env after)
    (hu : next.subscription = run.subscription) (hm : next.messages = run.messages)
    (hl : next.loop = run.loop) : next.Delivered topic after note :=
  h.quiet hk hu hm fun s hs =>
    (h.session s (hl ▸ hs)).keep hk.contents

theorem Delivered.leave (h : run.Delivered topic env note) (hk : KeepsRecords topic env after)
    (hu : next.subscription = run.subscription) (hm : next.messages = run.messages)
    (hl : next.loop = run.loop) : next.Delivered topic after (note.observe env run next) := by
  rw [RunNote.observe_same hl hm]
  exact h.keep hk hu hm hl

theorem Delivered.idle (h : run.Delivered topic env note) (hk : KeepsRecords topic env after)
    (hu : next.subscription = run.subscription) (hm : next.messages = run.messages)
    (hs : next.isServing = false) : next.Delivered topic after (note.observe env run next) := by
  rw [RunNote.observe_idle hs hm]
  refine h.quiet hk hu hm fun s hl => ?_
  rw [isServing, hl] at hs
  simp at hs

theorem Delivered.begin (h : run.Delivered topic env note) (ht : run.loop = .top) {s : Session α}
    (hb : Session.begin env run.client [run.topic] run.token = (.ok s, after)) :
    ({ run with loop := .serving s } : GroupRun α).Delivered topic after
      (note.observe env run { run with loop := .serving s }) := by
  have hbegin : Keeps topic env (Session.begin (α := α) env run.client [run.topic] run.token).2 :=
    Session.begin_keeps _ _ _
  rw [hb] at hbegin
  obtain ⟨hg, hstart, hp, hc⟩ := Session.begin_joined h.joined hb
  rw [RunNote.observe_begun ht hc]
  refine ⟨hbegin.members _ _ _ h.joined, ?_, ?_, ?_⟩
  · obtain ⟨lost, hq, hl⟩ := h.queue
    refine ⟨lost, ?_, hl⟩
    rw [hq]
    simp [RunNote.sent, RunNote.sessions]
  · intro b hm
    rcases List.mem_append.mp hm with hm | hm
    · exact (h.exact b hm).keep hbegin.contents
    · exact List.mem_singleton.mp hm ▸ SessionNote.exact_new _ _
  · intro later hl
    cases hl
    refine ⟨hg, hstart, ?_, ?_, ?_, ?_⟩
    · simp [hc]
    · intro todo htodo
      rw [hp] at htodo
      cases htodo
      exact ⟨by simp [hc], .inl ⟨rfl, rfl⟩⟩
    · simp [hp]
    · simp [hp]

end GroupRun

namespace GroupRun

theorem Delivered.serve (h : run.Delivered topic env note) {s later : Session α} (hl : run.loop = .serving s)
    (hs : s.step env = some (after, later)) :
    ({ run with loop := .serving later } : GroupRun α).Delivered topic after
      (note.observe env run { run with loop := .serving later }) := by
  have hk : Keeps topic env after := Session.step_keeps hs
  obtain ⟨hexact, hfollows⟩ := (h.session s hl).step h.exact_current hs
  rw [RunNote.observe_serving hl rfl, List.drop_length]
  refine h.advance hk.toKeepsRecords ?_ ?_ ?_ ?_ (fun _ => rfl) (hexact.keep hk.contents) ?_
  · rfl
  · rfl
  · exact (List.append_nil _).symm
  · rfl
  · rintro _ ⟨⟩
    exact hfollows.keep hk.contents

theorem Delivered.handle (h : run.Delivered topic env note) {i : Nat} {stop : Bool}
    (hs : run.stepClaim env i stop = some (after, next)) :
    next.Delivered topic after (note.observe env run next) := by
  obtain ⟨s, claim, handled, later, hl, hi, hstep, hnext⟩ := stepClaim_cases hs
  have hk : Keeps topic env after := hstep.keeps
  have hexact := h.exact_current.keep hk.contents
  have hf := (h.session s hl).keep hk.contents
  obtain ⟨key, first, hclaimed, hclaim⟩ := (h.session s hl).claims i claim hi
  have hu : next.subscription = run.subscription := hnext ▸ hstep.subscription
  have hm : next.messages = handled.messages := by rw [hnext]
  have hserving : next.loop = .serving { s with claims := s.claims.set i later } := by rw [hnext]
  have hmade : note.made env.broker run.group s.claims (s.claims.set i later) = [] := by
    simp [RunNote.made]
  rw [RunNote.observe_serving hl hserving, hmade]
  obtain ⟨hsame, hlater⟩ | ⟨m, ho, hd, hlater⟩ := hstep.follows hclaim
  · rw [hm, hsame, List.drop_length]
    refine h.advance hk.toKeepsRecords hu rfl (by rw [hm, hsame, List.append_nil]) (by rw [hm, hsame])
      (fun _ => rfl) (by simpa using hexact) fun t ht => ?_
    cases hserving.symm.trans ht
    exact hf.set hexact hi hclaimed hstep.running (by simp) (by simpa using hlater)
  · obtain ⟨hheld, hnext, hitems⟩ := Queue.offer_queued ho
    rw [hm, hitems, List.drop_left]
    refine h.advance hk.toKeepsRecords hu rfl (by rw [hm, hitems]) (by rw [hm, hnext, hheld])
      (by simp [hheld]) (hexact.send (List.mem_of_getElem? hclaimed) hd) fun t ht => ?_
    cases hserving.symm.trans ht
    refine hf.set hexact hi hclaimed hstep.running (by simp [hd.place]) ?_
    rw [SessionNote.offsets_send, if_pos hd.place]
    simpa [Int.add_assoc] using hlater

theorem afterSession_run (env : Environment) (run : GroupRun α) (result : Except Failure Unit) :
    (run.afterSession env result).2.subscription = run.subscription ∧
      (run.afterSession env result).2.messages = run.messages ∧
      (run.afterSession env result).2.isServing = false := by
  unfold afterSession
  split
  next => exact ⟨rfl, rfl, rfl⟩
  next => exact ⟨rfl, rfl, rfl⟩
  next =>
    dsimp only
    split <;> exact ⟨rfl, rfl, rfl⟩

theorem Step.subscription (hs : run.Step env after next) : next.subscription = run.subscription := by
  cases hs with
  | aside => rfl
  | claim hs =>
    obtain ⟨_, _, _, _, _, _, hh, rfl⟩ := stepClaim_cases hs
    exact hh.subscription
  | loop hs =>
    cases stepLoop_cases hs with
    | refused | ended => exact (afterSession_run _ run _).1
    | begun | served | stopped | crashed | reported | gaveUp | unheard | woken => rfl

/-- What a run does in one step is noted. -/
theorem Delivered.step (h : run.Delivered topic env note) (hs : run.Step env after next) :
    next.Delivered topic after (note.observe env run next) := by
  have hk : Keeps topic env after := hs.keeps
  cases hs with
  | claim hs => exact h.handle hs
  | aside => exact h.leave hk.toKeepsRecords rfl rfl rfl
  | loop hs =>
    cases stepLoop_cases hs with
    | begun ht _ hb => exact h.begin ht hb
    | served hl hstep => exact h.serve hl hstep
    | refused | ended =>
      obtain ⟨hu, hm, hi⟩ := afterSession_run _ run _
      exact h.idle hk.toKeepsRecords hu hm hi
    | @reported _ delay =>
      refine h.idle hk.toKeepsRecords rfl rfl ?_
      by_cases hd : delay = Duration.zero <;> simp [isServing, afterReport, hd]
    | stopped | crashed | gaveUp | unheard | woken => exact h.idle hk.toKeepsRecords rfl rfl rfl

theorem Delivered.receive (h : run.Delivered topic env note) {m : Message α} {messages : Queue (Message α)}
    (ht : run.messages.take? = some (m, messages)) :
    ({ run with messages := messages } : GroupRun α).Delivered topic env
      { note with received := note.received ++ [m] } := by
  refine ⟨h.joined, ?_, h.exact, fun s hs => ?_⟩
  · obtain ⟨lost, hq, hl⟩ := h.queue
    unfold Queue.take? at ht
    split at ht
    next => simp at ht
    next hitems =>
      cases ht
      refine ⟨lost, ?_, hl⟩
      rw [hitems] at hq
      simpa [RunNote.sent, RunNote.sessions] using hq
  · obtain ⟨hg, hstart, hc, ho, hu, he⟩ := h.session s hs
    exact ⟨hg, hstart, hc, ho, hu, he⟩

theorem Delivered.drop (h : run.Delivered topic env note) :
    ({ run with messages := run.messages.drop } : GroupRun α).Delivered topic env note := by
  refine ⟨h.joined, ?_, h.exact, h.session⟩
  obtain ⟨lost, hq, _⟩ := h.queue
  exact ⟨run.messages.items ++ lost, by simpa [Queue.drop] using hq, by simp [Queue.drop]⟩

theorem delivered_new {start : StartOffset} (hj : env.Joined run.client run.group start)
    (hl : run.loop = .top) (hm : run.messages.items = []) : run.Delivered topic env { start := start } := by
  refine ⟨hj, ⟨[], by simp [hm, RunNote.sent, RunNote.sessions], fun _ => rfl⟩, ?_, ?_⟩
  · intro b hb
    simp only [RunNote.sessions, List.nil_append, List.mem_singleton] at hb
    exact hb ▸ SessionNote.exact_new _ _
  · intro s hs
    simp [hl] at hs

end GroupRun

namespace Chronicle

variable {topic : String} {c d : Chronicle α}

/-- The notes fit the runs that read a topic. -/
structure Faithful (topic : String) (c : Chronicle α) : Prop where
  paired : c.notes.length = c.world.groups.length
  collects : c.world.collects = []
  delivered : ∀ (i : Nat) (run : GroupRun α) (note : RunNote α), c.world.groups[i]? = some run →
    c.notes[i]? = some note → run.Delivered topic c.world.env note

theorem faithful_new (topic : String) : ({} : Chronicle α).Faithful topic :=
  ⟨rfl, rfl, fun _ _ _ h => by simp at h⟩

theorem Faithful.keep (h : c.Faithful topic) {env : Environment} (hk : KeepsRecords topic c.world.env env)
    {i : Nat} {run : GroupRun α} {note : RunNote α} (hr : c.world.groups[i]? = some run)
    (hn : c.notes[i]? = some note) : run.Delivered topic env note :=
  (h.delivered i run note hr hn).keep hk rfl rfl rfl

theorem getElem?_set_modify {i j : Nat} {runs : List (GroupRun α)} {notes : List (RunNote α)}
    {next after : GroupRun α} {note : RunNote α} {f : RunNote α → RunNote α}
    (hr : (runs.set i next)[j]? = some after) (hn : (notes.modify i f)[j]? = some note) :
    (i = j ∧ next = after ∧ ∃ old, notes[j]? = some old ∧ f old = note) ∨
      (runs[j]? = some after ∧ notes[j]? = some note) := by
  rw [List.getElem?_modify] at hn
  rcases getElem?_set_cases hr with ⟨rfl, rfl⟩ | ⟨hi, hr⟩
  · obtain ⟨old, hold, hf⟩ := Option.map_eq_some_iff.mp hn
    exact .inl ⟨rfl, rfl, old, hold, by simpa using hf⟩
  · exact .inr ⟨hr, by simpa [hi] using hn⟩

theorem Faithful.turn (h : c.Faithful topic) {a : Act α} (ht : Turn topic c a d) : d.Faithful topic := by
  refine ⟨?_, ht.collects.trans h.collects, ?_⟩
  · have hp := h.paired
    cases ht <;> simp [World.setGroup, Chronicle.setEnv, Chronicle.setRun, hp]
  · intro j after note hr hn
    cases ht with
    | aside hk => exact h.keep hk.toKeepsRecords hr hn
    | acknowledged => exact h.keep (.accept _ _) hr hn
    | @stepped i run env next hg hs =>
      rcases getElem?_set_modify hr hn with ⟨rfl, rfl, old, hold, rfl⟩ | ⟨hr, hn⟩
      · exact (h.delivered _ run old hg hold).step hs
      · exact h.keep hs.keeps.toKeepsRecords hr hn
    | @begun env run config token _ hk hj hl _ hm =>
      rcases Nat.lt_or_ge j c.world.groups.length with hb | hb
      · rw [List.getElem?_append_left hb] at hr
        rw [List.getElem?_append_left (h.paired ▸ hb)] at hn
        exact h.keep hk.toKeepsRecords hr hn
      · rw [List.getElem?_append_right hb, List.getElem?_singleton] at hr
        rw [List.getElem?_append_right (h.paired ▸ hb), h.paired, List.getElem?_singleton] at hn
        split at hr <;> simp at hr
        next hz =>
          rw [if_pos hz] at hn
          cases hr
          cases hn
          exact GroupRun.delivered_new hj hl hm
    | @received i run m messages hg ht =>
      rcases getElem?_set_modify hr hn with ⟨rfl, rfl, old, hold, rfl⟩ | ⟨hr, hn⟩
      · exact (h.delivered _ run old hg hold).receive ht
      · exact h.delivered j after note hr hn
    | @dropped i run hg =>
      rcases getElem?_set_cases hr with ⟨rfl, rfl⟩ | ⟨_, hr⟩
      · exact (h.delivered _ run note hg hn).drop
      · exact h.delivered j after note hr hn

theorem faithful_of_run {acts : List (Act α)} (h : c.Faithful topic) (hr : c.run acts = some d)
    (ht : ∀ n, Act.outside (.replaceTopic topic n) ∉ acts) : d.Faithful topic := by
  induction acts generalizing c with
  | nil => exact Option.some.inj hr ▸ h
  | cons a rest ih =>
    obtain ⟨next, ha, hrest⟩ := Option.bind_eq_some_iff.mp hr
    have hturn : Turn topic c a next :=
      act?_turn ha h.collects fun n he => ht n (he ▸ List.mem_cons_self)
    exact ih (h.turn hturn) hrest fun n hn => ht n (List.mem_cons_of_mem _ hn)

end Chronicle

def billing : Config Nat where
  brokers := ["memory"]
  topic := "orders"
  group := some "billing"
  bufferSize := 1
  decoder
    | [] => .error "empty"
    | byte :: _ => .ok byte.toNat
  client := []
  start := .earliest
  decodeMode := .ordered
  retry := .forever

/-- Two records of which the second is refused: the session fails after the first one, whose message is
acknowledged, and the next session begins at the second one and fails as well. -/
def refusedRecordActs : List (Act Nat) :=
  let loop : Act Nat := .move ⟨.loop 0, false⟩
  let claim : Act Nat := .move ⟨.claim 0 0, false⟩
  [.outside (.createTopic "orders" 1), .outside (.produce ("orders", 0) [7]),
    .outside (.produce ("orders", 0) []), .start (.grouped "billing" billing) [],
    loop, loop, loop, loop, claim, claim, claim, claim, claim, .receive 0, claim, claim, claim, claim,
    loop, loop, loop, loop, .acknowledge 0 0, loop, loop, loop, loop, claim, claim, claim, claim, loop]

end TopicConsumer
