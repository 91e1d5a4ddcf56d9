import Mathlib.Logic.Function.Basic
import TopicConsumer.Proofs.HandledRecords
import TopicConsumer.Proofs.LoopedSession

namespace TopicConsumer

/-- A group consumer whose claims are fed through queues, in one session after the other. The high water marks that its
handlers see are what the client was told last, and that may be any time ago. -/
structure RoutedRun (α : Type) where
  run : GroupRun α
  gauge : Gauge := []
  looped : LoopedSession := .new false []
  hand : Nat → ClaimPhase α := fun _ => .asking .marking

inductive RoutedAct where
  | loop (a : LoopAct)
  | ask (i : Nat)
  | take (i : Nat) (record : Record)
  /-- The handler goes on. With `stop` it is the step taken because the session is cancelled. -/
  | handle (i : Nat) (stop : Bool)
  | finish (i : Nat)
  | report (marks : Table PartitionKey Int)
  | receive
  | dropMessages
  /-- The next session begins, once all handlers of the one before have returned. -/
  | begin (cancelled : Bool)

def SessionEvent.isHandlers : SessionEvent → Bool
  | .ask _ => true
  | .take _ _ => true
  | .abandon _ => true
  | .finish _ _ => true
  | _ => false

def LoopAct.isHandlers : LoopAct → Bool
  | .event e => e.isHandlers
  | _ => false

namespace RoutedRun

variable {α : Type}

def session (r : RoutedRun α) : RoutedSession := r.looped.play.session

def setHand (r : RoutedRun α) (i : Nat) (phase : ClaimPhase α) : RoutedRun α :=
  { r with hand := Function.update r.hand i phase }

/-- The environment as the handlers see it, whose sessions have the token `[0]`. -/
def env (r : RoutedRun α) : Environment where
  gauge := r.gauge
  tokens := if r.session.cancelled then ({} : Tokens).cancel [0] else {}

/-- A claim as its handler sees it: its records come when they are taken, and end when its queue does. -/
def claim (r : RoutedRun α) (i : Nat) (c : HandledClaim) (high : Int) : Claim α where
  source := .feed ⟨c.claim.key, [], 0, high, if c.asking && c.claim.queue.isEmpty && !c.claim.fed then .stop else .wait⟩
  ackGroup := none
  phase := r.hand i

/-- One step of the handler of a claim. Where it measures a record, the high water mark of its claim is asked for, and
if that fails, the handler crashes. -/
def handle? (r : RoutedRun α) (i : Nat) (stop : Bool) : Option (RoutedRun α) :=
  match r.session.claims[i]? with
  | none => none
  | some c =>
    match r.hand i, stop, c.claim.highWaterMark r.session.marks with
    | .taken _, false, .error _ => some (r.setHand i .crashed)
    | _, _, high =>
      (r.run.stepHandler r.env [0] (r.claim i c (high.toOption.getD 0)) stop).map fun (env, run, claim) =>
        { r.setHand i claim.phase with run := run, gauge := env.gauge }

def event? (r : RoutedRun α) (e : SessionEvent) : Option (RoutedRun α) :=
  (r.looped.act? (.event e)).map fun looped => { r with looped := looped }

def act? (r : RoutedRun α) : RoutedAct → Option (RoutedRun α)
  | .loop a => if a.isHandlers then none else (r.looped.act? a).map fun looped => { r with looped := looped }
  | .ask i =>
    match r.hand i with
    | .asking _ => r.event? (.ask i)
    | _ => none
  | .take i record =>
    match r.hand i with
    | .asking _ => (r.event? (.take i record)).map (·.setHand i (.taken record))
    | _ => none
  | .handle i stop => r.handle? i stop
  | .finish i =>
    match r.hand i with
    | .finished result => r.event? (.finish i result)
    | _ => none
  | .report marks =>
    let session := { r.session with marks := Watermarks.record r.session.marks marks }
    some { r with looped := { r.looped with play := { r.looped.play with session := session } } }
  | .receive => r.run.messages.take?.map fun (_, messages) => { r with run := { r.run with messages := messages } }
  | .dropMessages => some { r with run := { r.run with messages := r.run.messages.drop } }
  | .begin cancelled =>
    r.looped.play.finished?.map fun _ =>
      { r with looped := .new cancelled r.session.marks, hand := fun _ => .asking .marking }

def runs (r : RoutedRun α) : List RoutedAct → Option (RoutedRun α)
  | [] => some r
  | a :: rest => (r.act? a).bind (·.runs rest)

end RoutedRun

/-- The offset of a record that is fetched can be counted up, and reported marks are offsets. -/
def RoutedAct.InRange : RoutedAct → Prop
  | .loop (.event (.fetch r)) => 0 ≤ r.offset ∧ r.offset < maxOffset
  | .report marks => ∀ p ∈ marks, p.2 ≤ maxOffset
  | _ => True

theorem Respawned.act {l m : LoopedSession} {a : LoopAct} (h : Respawned l.play l.joined) (hs : l.act? a = some m) :
    Respawned m.play m.joined := by
  cases LoopedSession.act?_cases hs with
  | happened hf hp => exact h.step hp hf
  | joined hc hr hi ho _ => exact h.forget ho hc (by simp [hr]) hi
  | ended hl hm => exact h.more hm hl

def Record.Countable (r : Record) : Prop := 0 ≤ r.offset ∧ r.offset < maxOffset

/-- The records on their way through a session are those of the claims that they are queued for. -/
structure SessionPlay.Ranged (p : SessionPlay) : Prop where
  queued : ∀ (i : Nat) c, p.session.claims[i]? = some c → ∀ r ∈ c.claim.queue, r.place = c.claim.key ∧ r.Countable
  routing : ∀ r, p.routing = some r → r.Countable

/-- Besides their queues nothing changes for handlers at work; claims may be added. -/
structure SessionPlay.KeepsHandlers (p q : SessionPlay) : Prop where
  kept : ∀ (i : Nat) c, p.session.claims[i]? = some c → ∃ d, q.session.claims[i]? = some d ∧
    d.claim.key = c.claim.key ∧ d.claim.taken = c.claim.taken ∧ d.result = c.result
  fresh : ∀ (i : Nat) d, q.session.claims[i]? = some d → p.session.claims[i]? = none → d.result = none
  length : p.session.claims.length ≤ q.session.claims.length
  marks : q.session.marks = p.session.marks

namespace SessionPlay

variable {p q : SessionPlay} {e : SessionEvent}

theorem KeepsHandlers.of_claims (hc : q.session.claims = p.session.claims) (hm : q.session.marks = p.session.marks) :
    p.KeepsHandlers q where
  kept i c hi := ⟨c, hc ▸ hi, rfl, rfl, rfl⟩
  fresh i d hd hn := by simp [← hc, hd] at hn
  length := Nat.le_of_eq (by rw [hc])
  marks := hm

theorem keepsHandlers_claim (p : SessionPlay) (key : PartitionKey) :
    p.KeepsHandlers { p with session := p.session.claim key } where
  kept i c hi := by
    refine ⟨c, ?_, rfl, rfl, rfl⟩
    rw [RoutedSession.claims_claim]
    split
    next => exact hi
    next => rw [List.getElem?_append_left (List.getElem?_eq_some_iff.mp hi).1, hi]
  fresh i d hd hn := by
    obtain hd | ⟨_, rfl⟩ := RoutedSession.claim_getElem? hd
    · simp [hn] at hd
    · rfl
  length := by
    rw [RoutedSession.claims_claim]
    split <;> simp
  marks := by
    simp only [RoutedSession.claim]
    split <;> rfl

theorem KeepsHandlers.set {i : Nat} {c d : HandledClaim} (hi : p.session.claims[i]? = some c)
    (hq : q.session.claims = p.session.claims.set i d) (hk : d.claim.key = c.claim.key)
    (ht : d.claim.taken = c.claim.taken) (hr : d.result = c.result) (hm : q.session.marks = p.session.marks) :
    p.KeepsHandlers q where
  kept j x hj := by
    by_cases he : i = j
    · subst he
      cases Option.some.inj (hi.symm.trans hj)
      exact ⟨d, getElem?_of_set hq hi, hk, ht, hr⟩
    · rw [hq]
      exact ⟨x, (List.getElem?_set_ne he).trans hj, rfl, rfl, rfl⟩
  fresh j x hj hn := by
    rw [hq] at hj
    rcases getElem?_set_cases hj with ⟨rfl, rfl⟩ | ⟨_, hj⟩
    · simp [hi] at hn
    · simp [hn] at hj
  length := by rw [hq, List.length_set]
  marks := hm

theorem keepsHandlers_stop (p : SessionPlay) :
    p.KeepsHandlers { p with session := p.session.stop, stopped := true } where
  kept i c hi := ⟨{ c with claim := { c.claim with fed := false } }, by simp [RoutedSession.stop, hi], rfl, rfl, rfl⟩
  fresh i d hd hn := by simp [RoutedSession.stop, hn] at hd
  length := by simp [RoutedSession.stop]
  marks := rfl

/-- What happens in a session apart from its handlers. -/
theorem keepsHandlers_of_step (hs : p.step? e = some q) (hh : e.isHandlers = false) : p.KeepsHandlers q := by
  cases e with
  | claim key =>
    obtain ⟨_, _, rfl⟩ := p.step_claim hs
    exact p.keepsHandlers_claim key
  | fetch r =>
    obtain ⟨_, _, rfl⟩ := p.step_fetch hs
    have h := p.keepsHandlers_claim r.place
    exact ⟨h.kept, h.fresh, h.length, h.marks⟩
  | send r =>
    obtain ⟨_, _, t, ht, rfl⟩ := p.step_send hs
    obtain rfl | ⟨i, c, _, hc, rfl⟩ := RoutedSession.sendNow_cases ht
    · exact .of_claims rfl rfl
    · exact .set hc rfl rfl rfl rfl rfl
  | giveUp r =>
    obtain ⟨_, rfl⟩ := p.step_giveUp hs
    exact .of_claims rfl rfl
  | cancel =>
    cases Option.some.inj hs
    exact .of_claims rfl rfl
  | forget key =>
    obtain ⟨_, _, rfl⟩ := p.step_forget hs
    exact .of_claims rfl rfl
  | stop =>
    obtain ⟨_, _, rfl⟩ := p.step_stop hs
    exact p.keepsHandlers_stop
  | ask | take | abandon | finish => simp [SessionEvent.isHandlers] at hh

theorem Ranged.of_claims (h : p.Ranged) (hc : q.session.claims = p.session.claims)
    (hr : ∀ r, q.routing = some r → p.routing = some r) : q.Ranged :=
  ⟨fun i c hi => h.queued i c (hc ▸ hi), fun r hq => h.routing r (hr r hq)⟩

theorem Ranged.set (h : p.Ranged) {i : Nat} {d : HandledClaim} (hq : q.session.claims = p.session.claims.set i d)
    (hd : ∀ r ∈ d.claim.queue, r.place = d.claim.key ∧ r.Countable)
    (hr : ∀ r, q.routing = some r → p.routing = some r) : q.Ranged where
  queued j c hj := by
    rw [hq] at hj
    rcases getElem?_set_cases hj with ⟨rfl, rfl⟩ | ⟨_, hj⟩
    · exact hd
    · exact h.queued j c hj
  routing r hq := h.routing r (hr r hq)

theorem Ranged.claim (h : p.Ranged) (key : PartitionKey) : Ranged { p with session := p.session.claim key } where
  queued i c hi := by
    obtain hi | ⟨_, rfl⟩ := RoutedSession.claim_getElem? hi
    · exact h.queued i c hi
    · simp
  routing := h.routing

/-- As long as what is fetched can be counted up, all that is queued can, and is queued where it belongs. -/
theorem Ranged.step (h : p.Ranged) (hs : p.step? e = some q)
    (hf : ∀ key (i : Nat), p.session.senders.get? key = some i →
      ∃ c, p.session.claims[i]? = some c ∧ c.claim.key = key)
    (he : ∀ r, e = .fetch r → r.Countable) : q.Ranged := by
  cases e with
  | claim key =>
    obtain ⟨_, _, rfl⟩ := p.step_claim hs
    exact h.claim key
  | fetch r =>
    obtain ⟨_, _, rfl⟩ := p.step_fetch hs
    refine ⟨(h.claim r.place).queued, fun x hx => ?_⟩
    cases Option.some.inj hx
    exact he r rfl
  | send r =>
    obtain ⟨hr, _, t, ht, rfl⟩ := p.step_send hs
    obtain rfl | ⟨i, c, hi, hc, rfl⟩ := RoutedSession.sendNow_cases ht
    · exact h.of_claims rfl (by simp)
    · refine h.set rfl (fun x hx => ?_) (by simp)
      -- The sender of a place leads to a claim of that place.
      obtain ⟨d, hd, hkey⟩ := hf r.place i hi
      cases Option.some.inj (hd.symm.trans hc)
      rcases List.mem_append.mp hx with hx | hx
      · exact h.queued i c hc x hx
      · cases List.mem_singleton.mp hx
        exact ⟨hkey.symm, h.routing r hr⟩
  | giveUp r =>
    obtain ⟨_, rfl⟩ := p.step_giveUp hs
    exact h.of_claims rfl (by simp)
  | ask i =>
    obtain ⟨c, point, hc, _, _, rfl, _⟩ := p.step_ask hs
    exact h.set rfl (h.queued i c hc) fun _ hr => hr
  | take i r =>
    obtain ⟨c, rest, hc, _, _, hq, rfl⟩ := p.step_take hs
    refine h.set rfl (fun x hx => h.queued i c hc x ?_) fun _ hr => hr
    rw [hq]
    exact List.mem_cons_of_mem _ hx
  | abandon i =>
    obtain ⟨c, hc, _, rfl⟩ := p.step_abandon hs
    exact h.set rfl (h.queued i c hc) fun _ hr => hr
  | finish i result =>
    obtain ⟨c, hc, _, rfl⟩ := p.step_finish hs
    exact h.set rfl (h.queued i c hc) fun _ hr => hr
  | cancel =>
    cases Option.some.inj hs
    exact h.of_claims rfl fun _ hr => hr
  | forget key =>
    obtain ⟨_, _, rfl⟩ := p.step_forget hs
    exact h.of_claims rfl fun _ hr => hr
  | stop =>
    obtain ⟨_, _, rfl⟩ := p.step_stop hs
    refine ⟨fun i c hi => ?_, h.routing⟩
    simp only [RoutedSession.stop, List.getElem?_map, Option.map_eq_some_iff] at hi
    obtain ⟨d, hd, rfl⟩ := hi
    exact h.queued i d hd

end SessionPlay

end TopicConsumer
