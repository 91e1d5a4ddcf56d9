import TopicConsumer.Proofs.LagWorld
import TopicConsumer.Proofs.RoutedRun

namespace TopicConsumer

open Environment

variable {α : Type}

namespace RoutedRun

/-- The mark that counts for a record: what was told last of its partition, but at least the offset behind it. -/
def markOf (r : RoutedRun α) (held : Held) : Int :=
  let next := held.offset + 1
  max ((r.session.marks.get? (held.labels.topic, held.labels.partition)).getD next) next

/-- How far the handler of a claim is with the record in its hands. -/
def hands (r : RoutedRun α) (i : Nat) : List Handling := [(r.hand i).handling r.run.group]

def noted (r s : RoutedRun α) : RoutedAct → List (LagEvent Nat)
  | .take i _ => ((r.hand i).handling r.run.group).noted i r.markOf ((s.hand i).handling r.run.group)
  | .handle i _ => ((r.hand i).handling r.run.group).noted i r.markOf ((s.hand i).handling r.run.group)
  | _ => []

def ledger (r : RoutedRun α) : List RoutedAct → List (LagEvent Nat)
  | [] => []
  | a :: rest =>
    match r.act? a with
    | none => []
    | some s => r.noted s a ++ s.ledger rest

/-- The handler of each claim has a record of the claim in hand, if any, and has returned where the claim says so. -/
structure Sound (r : RoutedRun α) : Prop where
  respawned : Respawned r.looped.play r.looped.joined
  ranged : r.looped.play.Ranged
  marks : ∀ key high, r.session.marks.get? key = some high → high ≤ maxOffset
  taken : ∀ (i : Nat) x, r.hand i = .taken x → ∃ c, r.session.claims[i]? = some c ∧ c.claim.key = x.place ∧
    c.claim.taken = some x.offset ∧ x.Countable
  returned : ∀ (i : Nat) c, r.session.claims[i]? = some c → c.result.isSome = true →
    ∃ result, r.hand i = .finished result
  fresh : ∀ (i : Nat), r.session.claims[i]? = none → r.hand i = .asking .marking

theorem sound_new (run : GroupRun α) (gauge : Gauge) : Sound { run := run, gauge := gauge } where
  respawned := .new false []
  ranged := ⟨by simp [LoopedSession.new, RoutedSession.new], by simp [LoopedSession.new]⟩
  marks := by simp [session, LoopedSession.new, RoutedSession.new, Table.get?]
  taken := by simp
  returned := by simp [session, LoopedSession.new, RoutedSession.new]
  fresh _ _ := rfl

variable {r s : RoutedRun α}

/-- A handler whose record is measured sees a mark that is ahead of it. -/
theorem Sound.ahead (h : r.Sound) {i : Nat} {x : Record} (hx : r.hand i = .taken x) :
    ∃ c high, r.session.claims[i]? = some c ∧ c.claim.highWaterMark r.session.marks = .ok high ∧
      Ahead r.markOf (x.held r.run.group) high := by
  obtain ⟨c, hc, hkey, htaken, h0, hmax⟩ := h.taken i x hx
  have hnext : nextOffset x.offset = .ok (x.offset + 1) := if_pos hmax
  have hplace : x.place = (x.topic, x.partition) := rfl
  have hmark : c.claim.highWaterMark r.session.marks = .ok (r.markOf (x.held r.run.group)) := by
    simp only [RoutedClaim.highWaterMark, Watermarks.mark, htaken, Option.getD_some, hnext, hkey, hplace, markOf,
      Record.held]
    cases r.session.marks.get? (x.topic, x.partition) <;> simp
  refine ⟨c, _, hc, hmark, rfl, h0, ?_, ?_⟩
  · have hle : x.offset + 1 ≤ r.markOf (x.held r.run.group) := Int.le_max_right _ _
    exact Int.lt_of_lt_of_le (Int.lt_succ x.offset) hle
  · refine Int.max_le.mpr ⟨?_, hmax⟩
    cases hm : r.session.marks.get? ((x.held r.run.group).labels.topic, (x.held r.run.group).labels.partition) with
    | none => exact hmax
    | some high => exact h.marks _ high hm

theorem Sound.keep (h : r.Sound) (hk : r.looped.play.KeepsHandlers s.looped.play)
    (hw : Respawned s.looped.play s.looped.joined) (hq : s.looped.play.Ranged) (hh : s.hand = r.hand) : s.Sound where
  respawned := hw
  ranged := hq
  marks key high hm := h.marks key high (hk.marks ▸ hm)
  taken i x hx := by
    obtain ⟨c, hc, hkey, htaken, hx⟩ := h.taken i x (hh ▸ hx)
    obtain ⟨d, hd, hdkey, hdtaken, _⟩ := hk.kept i c hc
    exact ⟨d, hd, hdkey.trans hkey, hdtaken.trans htaken, hx⟩
  returned i d hd hr := by
    rw [hh]
    cases hc : r.session.claims[i]? with
    | none => simp [hk.fresh i d hd hc] at hr
    | some c =>
      obtain ⟨e, he, _, _, hsame⟩ := hk.kept i c hc
      cases Option.some.inj (he.symm.trans hd)
      exact h.returned i c hc (hsame ▸ hr)
  fresh i hn := by
    have hlength := hk.length
    have hb : s.looped.play.session.claims.length ≤ i := List.getElem?_eq_none_iff.mp hn
    rw [hh]
    exact h.fresh i (List.getElem?_eq_none (Nat.le_trans hlength hb))

theorem Sound.set (h : r.Sound) {i : Nat} {c d : HandledClaim} (hi : r.session.claims[i]? = some c)
    (hq : s.session.claims = r.session.claims.set i d) (hm : s.session.marks = r.session.marks)
    (hw : Respawned s.looped.play s.looped.joined) (hp : s.looped.play.Ranged)
    (hh : ∀ j, j ≠ i → s.hand j = r.hand j)
    (ht : ∀ x, s.hand i = .taken x → d.claim.key = x.place ∧ d.claim.taken = some x.offset ∧ x.Countable)
    (hr : d.result.isSome = true → ∃ result, s.hand i = .finished result) : s.Sound where
  respawned := hw
  ranged := hp
  marks key high hk := h.marks key high (hm ▸ hk)
  taken j x hx := by
    by_cases hj : j = i
    · subst hj
      exact ⟨d, getElem?_of_set hq hi, ht x hx⟩
    · obtain ⟨e, he, hx⟩ := h.taken j x (hh j hj ▸ hx)
      rw [hq]
      exact ⟨e, (List.getElem?_set_ne (Ne.symm hj)).trans he, hx⟩
  returned j e he hs := by
    rw [hq] at he
    rcases getElem?_set_cases he with ⟨rfl, rfl⟩ | ⟨hj, he⟩
    · exact hr hs
    · rw [hh j (Ne.symm hj)]
      exact h.returned j e he hs
  fresh j hn := by
    rw [hq, List.getElem?_eq_none_iff, List.length_set] at hn
    have hj : j ≠ i := by
      rintro rfl
      exact absurd (List.getElem?_eq_some_iff.mp hi).1 (Nat.not_lt.mpr hn)
    rw [hh j hj]
    exact h.fresh j (List.getElem?_eq_none hn)

end RoutedRun

theorem Watermarks.record_le {marks : Watermarks} {report : Table PartitionKey Int} {bound : Int}
    (hm : ∀ key high, marks.get? key = some high → high ≤ bound) (hr : ∀ p ∈ report, p.2 ≤ bound) {key : PartitionKey}
    {high : Int} (h : (Watermarks.record marks report).get? key = some high) : high ≤ bound := by
  induction report generalizing marks with
  | nil => exact hm key high h
  | cons p rest ih =>
    refine ih (fun k v hv => ?_) (fun q hq => hr q (List.mem_cons_of_mem _ hq)) h
    simp only [update] at hv
    split at hv
    next => exact hm k v hv
    next =>
      rw [Table.get?_set] at hv
      split at hv
      next =>
        cases hv
        exact hr p List.mem_cons_self
      next => exact hm k v hv

theorem Feed.step_empty {f g : Feed} {found : Found} (hp : f.payloads = []) (h : f.step = some (g, found)) :
    ∀ x, found ≠ .record x := by
  unfold step at h
  rw [hp] at h
  dsimp only at h
  split at h <;> cases h <;> simp

theorem LoopedSession.act?_event {l m : LoopedSession} {e : SessionEvent} (h : l.act? (.event e) = some m) :
    ∃ play, l.play.step? e = some play ∧ m = { l with play := play, history := l.history ++ [e] } := by
  simp only [act?] at h
  split at h
  next =>
    obtain ⟨play, hp, rfl⟩ := Option.map_eq_some_iff.mp h
    exact ⟨play, hp, rfl⟩
  next => simp at h

theorem LoopedSession.act?_aside {l m : LoopedSession} {a : LoopAct} (h : l.act? a = some m) (ha : ∀ e, a ≠ .event e) :
    m.play.session.claims = l.play.session.claims ∧ m.play.session.marks = l.play.session.marks ∧
      m.play.routing = l.play.routing := by
  cases a with
  | event e => exact absurd rfl (ha e)
  | join i =>
    simp only [act?] at h
    split at h
    next =>
      split at h
      next => simp at h
      next =>
        split at h <;> cases h
        all_goals exact ⟨rfl, rfl, rfl⟩
    next => simp at h
  | quit ending =>
    simp only [act?] at h
    split at h <;> cases h
    exact ⟨rfl, rfl, rfl⟩

namespace RoutedRun

variable {r s : RoutedRun α}

theorem Sound.loop (h : r.Sound) {a : LoopAct} {looped : LoopedSession} (hh : a.isHandlers = false)
    (hs : r.looped.act? a = some looped) (hr : (RoutedAct.loop a).InRange) :
    Sound { r with looped := looped } := by
  have hw := h.respawned.act hs
  cases a with
  | event e =>
    obtain ⟨play, hp, rfl⟩ := LoopedSession.act?_event hs
    refine h.keep (SessionPlay.keepsHandlers_of_step hp hh) hw (h.ranged.step hp h.respawned.found ?_) rfl
    rintro x rfl
    exact hr
  | join | quit =>
    obtain ⟨hclaims, hmarks, hrouting⟩ := LoopedSession.act?_aside hs (by simp)
    exact h.keep (.of_claims hclaims hmarks) hw (h.ranged.of_claims hclaims fun _ hq => hrouting ▸ hq) rfl

theorem event?_cases {e : SessionEvent} (h : r.Sound) (hs : r.event? e = some s) (he : ∀ x, e ≠ .fetch x) :
    ∃ play, r.looped.play.step? e = some play ∧
      s = { r with looped := { r.looped with play := play, history := r.looped.history ++ [e] } } ∧
      Respawned play r.looped.joined ∧ play.Ranged := by
  obtain ⟨looped, hl, rfl⟩ := Option.map_eq_some_iff.mp hs
  have hw := h.respawned.act hl
  obtain ⟨play, hp, rfl⟩ := LoopedSession.act?_event hl
  exact ⟨play, hp, rfl, hw, h.ranged.step hp h.respawned.found fun x hx => absurd hx (he x)⟩

theorem handle?_cases (h : r.Sound) {i : Nat} {stop : Bool} (hs : r.handle? i stop = some s) :
    ∃ c high env run later, r.session.claims[i]? = some c ∧
      (∀ x, r.hand i = .taken x → Ahead r.markOf (x.held r.run.group) high) ∧
      r.run.stepHandler r.env [0] (r.claim i c high) stop = some (env, run, later) ∧
      s = { r.setHand i later.phase with run := run, gauge := env.gauge } := by
  unfold handle? at hs
  split at hs
  next => simp at hs
  next c hc =>
    split at hs
    next x overflow hx he =>
      -- The mark of a record that was handed to the claim can always be told.
      obtain ⟨d, high, hd, hmark, _⟩ := h.ahead hx
      cases Option.some.inj (hc.symm.trans hd)
      rw [hmark] at he
      simp at he
    next =>
      obtain ⟨⟨env, run, later⟩, hstep, rfl⟩ := Option.map_eq_some_iff.mp hs
      refine ⟨c, _, env, run, later, hc, fun x hx => ?_, hstep, rfl⟩
      obtain ⟨d, high, hd, hmark, hahead⟩ := h.ahead hx
      cases Option.some.inj (hc.symm.trans hd)
      rw [hmark]
      exact hahead

theorem claim_not_taken {i : Nat} {c : HandledClaim} {high : Int} {env : Environment} {run : GroupRun α}
    {later : Claim α} (hs : GroupRun.HandlerStep r.env r.run [0] (r.claim i c high) env run later) (x : Record) :
    later.phase ≠ .taken x := by
  cases hs with
  | asked _ ha =>
    obtain ⟨⟨_, _, found⟩, hstep, he⟩ := Option.map_eq_some_iff.mp ha
    obtain ⟨⟨_, found'⟩, hfeed, hf⟩ := Option.map_eq_some_iff.mp hstep
    cases hf
    have hnone := Feed.step_empty rfl hfeed
    cases found <;> cases he <;> simp [Claim.finish] at hnone ⊢
  | stopped | measured | crashed | rejected | decoded | queued | unheard => simp [Claim.finish]

theorem Sound.act (h : r.Sound) {a : RoutedAct} (ha : r.act? a = some s) (hr : a.InRange) : s.Sound := by
  cases a with
  | loop a =>
    simp only [act?] at ha
    split at ha
    next => simp at ha
    next hh =>
      obtain ⟨looped, hl, rfl⟩ := Option.map_eq_some_iff.mp ha
      exact h.loop (by simpa using hh) hl hr
  | ask i =>
    simp only [act?] at ha
    split at ha
    next hhand =>
      obtain ⟨play, hp, rfl, hw, hq⟩ := event?_cases h ha (by simp)
      obtain ⟨c, _, hc, hresult, _, rfl, _⟩ := r.looped.play.step_ask hp
      refine h.set hc rfl rfl hw hq (fun _ _ => rfl) (fun x hx => ?_) fun hs => ?_
      · rw [hhand] at hx
        simp at hx
      · simp [hresult] at hs
    next => simp at ha
  | take i x =>
    simp only [act?] at ha
    split at ha
    next =>
      obtain ⟨t, ht, rfl⟩ := Option.map_eq_some_iff.mp ha
      obtain ⟨play, hp, rfl, hw, hq⟩ := event?_cases h ht (by simp)
      obtain ⟨c, rest, hc, hresult, _, hqueue, rfl⟩ := r.looped.play.step_take hp
      refine h.set hc rfl rfl hw hq (fun j hj => Function.update_of_ne hj _ _) (fun y hy => ?_) fun hs => ?_
      · have hy : x = y := by simpa [setHand] using hy
        subst hy
        obtain ⟨hplace, hx⟩ := h.ranged.queued i c hc x (by rw [hqueue]; exact List.mem_cons_self)
        exact ⟨hplace.symm, rfl, hx⟩
      · simp [hresult] at hs
    next => simp at ha
  | handle i stop =>
    obtain ⟨c, high, env, run, later, hc, _, hstep, rfl⟩ := handle?_cases h ha
    have hcases := GroupRun.stepHandler_cases hstep
    have hset : r.session.claims = r.session.claims.set i c := by
      obtain ⟨hb, he⟩ := List.getElem?_eq_some_iff.mp hc
      rw [← he, List.set_getElem_self]
    refine h.set hc hset rfl h.respawned h.ranged (fun j hj => Function.update_of_ne hj _ _) (fun x hx => ?_)
      fun hs => ?_
    · exact absurd (by simpa [setHand] using hx) (claim_not_taken hcases x)
    · -- A handler that has returned does not go on.
      obtain ⟨result, hfinished⟩ := h.returned i c hc hs
      have hrunning := hcases.running
      simp [Claim.isOver, claim, hfinished] at hrunning
  | finish i =>
    simp only [act?] at ha
    split at ha
    next result hhand =>
      obtain ⟨play, hp, rfl, hw, hq⟩ := event?_cases h ha (by simp)
      obtain ⟨c, hc, _, rfl⟩ := r.looped.play.step_finish hp
      refine h.set hc rfl rfl hw hq (fun _ _ => rfl) (fun x hx => ?_) fun _ => ⟨result, hhand⟩
      rw [hhand] at hx
      simp at hx
    next => simp at ha
  | report marks =>
    cases Option.some.inj ha
    refine ⟨⟨h.respawned.found, h.respawned.sender, h.respawned.returned, h.respawned.single⟩,
      ⟨h.ranged.queued, h.ranged.routing⟩, fun key high hm => ?_, h.taken, h.returned, h.fresh⟩
    exact Watermarks.record_le h.marks hr hm
  | receive =>
    obtain ⟨_, _, rfl⟩ := Option.map_eq_some_iff.mp ha
    exact ⟨h.respawned, h.ranged, h.marks, h.taken, h.returned, h.fresh⟩
  | dropMessages =>
    cases Option.some.inj ha
    exact ⟨h.respawned, h.ranged, h.marks, h.taken, h.returned, h.fresh⟩
  | begin cancelled =>
    obtain ⟨_, _, rfl⟩ := Option.map_eq_some_iff.mp ha
    refine ⟨.new _ _, ⟨?_, ?_⟩, h.marks, ?_, ?_, fun _ _ => rfl⟩ <;>
      simp [session, LoopedSession.new, RoutedSession.new]

/-- Nothing is in hand when a session has ended. -/
theorem Sound.idle (h : r.Sound) {points : List (PartitionKey × Int)} (hp : r.looped.play.finished? = some points)
    (i : Nat) : (r.hand i).handling r.run.group = .waiting ∨ (r.hand i).handling r.run.group = .past := by
  unfold SessionPlay.finished? at hp
  split at hp
  next hdone =>
    obtain ⟨_, hreturned⟩ := by simpa using hdone
    cases hc : r.session.claims[i]? with
    | none =>
      rw [h.fresh i hc]
      exact .inl rfl
    | some c =>
      obtain ⟨result, hhand⟩ := h.returned i c hc (hreturned c (List.mem_of_getElem? hc))
      rw [hhand]
      exact .inr rfl
  next => simp at hp

variable {start : Gauge} {events : List (LagEvent Nat)}

theorem turned (h : Lagging start r.gauge r.hands events) {i : Nat} {later : ClaimPhase α} {gauge : Gauge}
    (ht : Handling.Turn r.markOf r.gauge ((r.hand i).handling r.run.group) (later.handling r.run.group) gauge)
    (hg : s.run.group = r.run.group) (hh : s.hand = Function.update r.hand i later) :
    Lagging start gauge s.hands (events ++
      ((r.hand i).handling r.run.group).noted i r.markOf ((s.hand i).handling r.run.group)) := by
  have hmine : s.hand i = later := by rw [hh, Function.update_self]
  rw [hmine]
  refine h.turn ht (fun j hj => ?_) fun f => ?_
  · rw [hands, hh, Function.update_of_ne hj, hg, hands]
  · simpa [hands, hmine, hg] using List.perm_append_comm

theorem act_lagging (h : Lagging start r.gauge r.hands events) (hs : r.Sound) {a : RoutedAct} (ha : r.act? a = some s) :
    Lagging start s.gauge s.hands (events ++ r.noted s a) := by
  have hquiet (hg : s.gauge = r.gauge) (hh : s.hands = r.hands) (hn : r.noted s a = []) :
      Lagging start s.gauge s.hands (events ++ r.noted s a) := by
    rwa [hg, hh, hn, List.append_nil]
  cases a with
  | loop =>
    simp only [act?] at ha
    split at ha
    next => simp at ha
    next =>
      obtain ⟨_, _, rfl⟩ := Option.map_eq_some_iff.mp ha
      exact hquiet rfl rfl rfl
  | ask | finish =>
    simp only [act?] at ha
    split at ha
    next =>
      obtain ⟨_, _, rfl⟩ := Option.map_eq_some_iff.mp ha
      exact hquiet rfl rfl rfl
    next => simp at ha
  | take i x =>
    simp only [act?] at ha
    split at ha
    next hhand =>
      obtain ⟨_, ht, rfl⟩ := Option.map_eq_some_iff.mp ha
      obtain ⟨_, _, rfl⟩ := Option.map_eq_some_iff.mp ht
      refine turned h ?_ rfl rfl
      rw [hhand]
      exact .taken _
    next => simp at ha
  | handle i stop =>
    obtain ⟨c, high, env, run, later, _, hahead, hstep, rfl⟩ := handle?_cases hs ha
    have hcases := GroupRun.stepHandler_cases hstep
    have hgroup : run.group = r.run.group := congrArg Subscription.group hcases.subscription
    exact turned h (hcases.turn hahead) hgroup rfl
  | report =>
    cases Option.some.inj ha
    exact hquiet rfl rfl rfl
  | receive =>
    obtain ⟨_, _, rfl⟩ := Option.map_eq_some_iff.mp ha
    exact hquiet rfl rfl rfl
  | dropMessages =>
    cases Option.some.inj ha
    exact hquiet rfl rfl rfl
  | begin =>
    obtain ⟨_, hp, rfl⟩ := Option.map_eq_some_iff.mp ha
    -- The handlers of the session before have returned and those of the next one wait: nothing is in hand.
    have hnone (f : Handling → List Held) (hw : f .waiting = []) (hd : f .past = []) (i : Nat) :
        [Handling.waiting].flatMap f = (r.hands i).flatMap f := by
      rw [hands]
      obtain hi | hi := hs.idle hp i
      · rw [hi]
      · rw [hi, List.flatMap_singleton, List.flatMap_singleton, hw, hd]
    simp only [noted, List.append_nil]
    exact h.same (fun i => .of_eq (hnone _ rfl rfl i)) fun i => .of_eq (hnone _ rfl rfl i)

/-- Acts keep the ledger, and what is known of the claims. -/
theorem lagging_of_runs (h : Lagging start r.gauge r.hands events) (hs : r.Sound) {acts : List RoutedAct}
    (ha : r.runs acts = some s) (hr : ∀ a ∈ acts, a.InRange) :
    Lagging start s.gauge s.hands (events ++ r.ledger acts) ∧ s.Sound := by
  induction acts generalizing r events with
  | nil =>
    cases ha
    rw [ledger, List.append_nil]
    exact ⟨h, hs⟩
  | cons a rest ih =>
    obtain ⟨next, hn, ha⟩ := Option.bind_eq_some_iff.mp ha
    have hnext := ih (act_lagging h hs hn) (hs.act hn (hr a List.mem_cons_self)) ha
      fun b hb => hr b (List.mem_cons_of_mem _ hb)
    simpa only [ledger, hn, List.append_assoc] using hnext

/-- A record that was taken is measured next: its handler neither crashes nor stops before. -/
theorem Sound.measures (h : r.Sound) {i : Nat} {x : Record} (hx : r.hand i = .taken x) :
    r.act? (.handle i true) = none ∧ ∃ s, r.act? (.handle i false) = some s ∧ s.hand i = .measured x := by
  obtain ⟨c, high, hc, hmark, hahead⟩ := h.ahead hx
  have hphase : (r.claim i c high).phase = .taken x := hx
  have hsees : Ahead r.markOf (x.held r.run.group) ((r.claim i c high).source.highWaterMark r.env.broker) := hahead
  obtain ⟨hstop, after, hgo⟩ := GroupRun.stepHandler_taken [0] hphase hsees
  simp only [act?, handle?, hc, hx, hmark, Except.toOption, Option.getD_some]
  refine ⟨by rw [hstop]; rfl, ?_⟩
  rw [hgo]
  exact ⟨_, rfl, Function.update_self i _ r.hand⟩

end RoutedRun

/-- Each record that is taken sets its series to a lag of one at least before it is decoded, or refused, and nothing
else sets any. That holds in a world where no topic is created anew, and for claims that are fed through queues,
whatever is reported to their client. -/
theorem lag_current_at_decode :
    (∀ (acts : List (Act α)) c, Chronicle.run {} acts = some c →
      (∀ topic n, Act.outside (.replaceTopic topic n) ∉ acts) → Chronicle.Fitting acts →
      Lagging [] c.world.env.gauge c.world.hands (Chronicle.ledger {} acts) ∧
        ∀ actor owner held, c.world.handling? actor = some (owner, .taken held) →
          c.world.step? ⟨actor, true⟩ = none ∧
            ∃ v, c.world.step? ⟨actor, false⟩ = some v ∧ v.handling? actor = some (owner, .measured held)) ∧
    ∀ (run : GroupRun α) (start : Gauge) (acts : List RoutedAct) s,
      RoutedRun.runs { run := run, gauge := start } acts = some s → (∀ a ∈ acts, a.InRange) →
      Lagging start s.gauge s.hands (RoutedRun.ledger { run := run, gauge := start } acts) ∧
        ∀ i x, s.hand i = .taken x →
          s.act? (.handle i true) = none ∧ ∃ t, s.act? (.handle i false) = some t ∧ t.hand i = .measured x := by
  refine ⟨fun acts c h hr hf => ⟨Chronicle.lagging_of_run h hr hf, fun actor owner held ha => ?_⟩,
    fun run start acts s h hr => ?_⟩
  · exact (Chronicle.tracked_of_run h hr).measures (hf acts [] c (List.append_nil acts).symm h) ha
  · have hnew : Lagging start start (RoutedRun.hands { run := run, gauge := start }) [] :=
      .new start (fun _ => rfl) fun _ => rfl
    obtain ⟨hlag, hs⟩ := RoutedRun.lagging_of_runs hnew (RoutedRun.sound_new run start) h hr
    exact ⟨hlag, fun i x hx => hs.measures hx⟩

/-- Records are produced while others are taken and not yet measured, by a group and then by a consumer without one
whose tasks decode. The group gets an empty record and refuses it, and so does the task. -/
def refusedLateActs : List (Act Nat) :=
  let loop : Act Nat := .move ⟨.loop 0, false⟩
  let claim : Act Nat := .move ⟨.claim 0 0, false⟩
  let pump : Act Nat := .move ⟨.pump 0 0, false⟩
  [.outside (.createTopic "orders" 1), .outside (.produce ("orders", 0) []), .start (.grouped "billing" billing) [],
    loop, loop, loop, loop, claim, claim, .outside (.produce ("orders", 0) [7]), claim, claim,
    .start (.direct { billing with decodeMode := .concurrent }) [], pump, pump, pump,
    .outside (.produce ("orders", 0) [8]), pump, pump, .move ⟨.task 0 0, false⟩]

def billingRun : GroupRun Nat where
  group := "billing"
  topic := "orders"
  decoder := billing.decoder
  retry := .forever
  client := 0
  token := []
  messages := ⟨1, [], true⟩
  errors := ⟨1, [], true⟩

/-- What was reported when a record is measured is behind the record, and the next report comes too late for it. -/
def staleReportActs : List RoutedAct :=
  let order : Record := { topic := "orders", partition := 0, offset := 5 }
  [.report [(("orders", 0), 3)], .loop (.event (.fetch order)), .loop (.event (.send order)), .ask 0, .take 0 order,
    .handle 0 false, .report [(("orders", 0), 9)], .handle 0 false]

theorem late_and_stale_lag : ∃ c s, Chronicle.run {} refusedLateActs = some c ∧
    RoutedRun.runs { run := billingRun } staleReportActs = some s ∧
    c.world.env.gauge = [(⟨"billing", "orders", 0⟩, 2), (⟨"", "orders", 0⟩, 3)] ∧
    s.gauge = [(⟨"billing", "orders", 0⟩, 1)] ∧
    Lagging [] c.world.env.gauge c.world.hands (Chronicle.ledger {} refusedLateActs) ∧
    Lagging [] s.gauge s.hands (RoutedRun.ledger { run := billingRun } staleReportActs) := by
  have hworld : (Chronicle.run {} refusedLateActs).map (·.world.env.gauge) =
      some [(⟨"billing", "orders", 0⟩, 2), (⟨"", "orders", 0⟩, 3)] := by rfl
  have hrouted : (RoutedRun.runs { run := billingRun } staleReportActs).map (·.gauge) =
      some [(⟨"billing", "orders", 0⟩, 1)] := by rfl
  obtain ⟨c, hc, hgauge⟩ := Option.map_eq_some_iff.mp hworld
  obtain ⟨s, hs, hseries⟩ := Option.map_eq_some_iff.mp hrouted
  have hf : Chronicle.Fitting refusedLateActs := Chronicle.fitting_of_length (by decide)
  have hrange : ∀ a ∈ staleReportActs, a.InRange := by
    simp only [staleReportActs, List.forall_mem_cons, List.not_mem_nil, false_implies, implies_true, RoutedAct.InRange]
    decide
  obtain ⟨hlate, _⟩ := lag_current_at_decode.1 refusedLateActs c hc (by simp [refusedLateActs]) hf
  obtain ⟨hstale, _⟩ := lag_current_at_decode.2 billingRun [] staleReportActs s hs hrange
  exact ⟨c, s, hc, hs, hgauge, hseries, hlate, hstale⟩

end TopicConsumer
