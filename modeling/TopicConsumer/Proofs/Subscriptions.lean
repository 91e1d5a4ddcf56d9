import TopicConsumer.Session

namespace TopicConsumer

namespace OfflineGroup

def subscribes (client : OfflineGroup) : Bool := !client.closed && !client.subscribed

/-- Begins a session of a client whose subscription would get the given answer. -/
def enterWith (client : OfflineGroup) (answer : Except Failure Unit) : Except Failure Unit × OfflineGroup :=
  if client.closed then (.error .clientClosed, client)
  else if client.subscribed then (.ok (), client)
  else (answer, { client with subscribed := true })

def consumeWith (client : OfflineGroup) (answer : Except Failure Unit) (cancelled : Bool) :
    Waiting (Except Failure Unit) × OfflineGroup :=
  let (entered, client) := client.enterWith answer
  match entered with
  | .error failure => (.returned (.error failure), client)
  | .ok () => (if cancelled then .returned (.ok ()) else .pending, client)

/-- The answer that a client gets to a subscription is decided by its topics alone, if it knows no cluster. -/
theorem consume_eq (client : OfflineGroup) (topics : List String) (cancelled : Bool) :
    client.consume topics cancelled = client.consumeWith (subscribe topics) cancelled := rfl

theorem enterWith_settled {client : OfflineGroup} (h : client.subscribes = false) (answer : Except Failure Unit) :
    client.enterWith answer = (if client.closed then .error .clientClosed else .ok (), client) := by
  unfold enterWith
  cases hc : client.closed with
  | true => rfl
  | false =>
    have hs : client.subscribed = true := by simpa [subscribes, hc] using h
    simp [hs]

end OfflineGroup

/-- A call on a group client, with the answer that a subscription to the topics would get now. -/
inductive GroupCall where
  | consume (topics : List String) (cancelled : Bool) (answer : Except Failure Unit)
  | close

/-- A group client with the subscriptions that it has asked for, and the answers that it got. -/
structure Subscriber where
  client : OfflineGroup := {}
  asked : List (List String × Except Failure Unit) := []

namespace Subscriber

def call (s : Subscriber) : GroupCall → Waiting (Except Failure Unit) × Subscriber
  | .consume topics cancelled answer =>
    let (result, client) := s.client.consumeWith answer cancelled
    (result, ⟨client, if s.client.subscribes then s.asked ++ [(topics, answer)] else s.asked⟩)
  | .close => (.returned (.ok ()), { s with client := s.client.close })

def run (s : Subscriber) (calls : List GroupCall) : Subscriber := calls.foldl (fun s c => (s.call c).2) s

/-- The subscription that the first of some calls asks for. -/
def first? : List GroupCall → Option (List String × Except Failure Unit)
  | .consume topics _ answer :: _ => some (topics, answer)
  | _ => none

/-- A client that is closed or counts itself as subscribed asks for nothing. -/
theorem consume_settled {s : Subscriber} (h : s.client.subscribes = false) (topics : List String) (cancelled : Bool)
    (answer : Except Failure Unit) :
    s.call (.consume topics cancelled answer) =
      (if s.client.closed then .returned (.error .clientClosed)
        else if cancelled then .returned (.ok ()) else .pending, s) := by
  simp only [call, OfflineGroup.consumeWith, OfflineGroup.enterWith_settled h, h]
  cases s.client.closed <;> simp

theorem call_settled {s : Subscriber} (h : s.client.subscribes = false) (c : GroupCall) :
    (s.call c).2.client.subscribes = false ∧ (s.call c).2.client.subscribed = s.client.subscribed ∧
      (s.call c).2.asked = s.asked := by
  cases c with
  | consume topics cancelled answer =>
    rw [consume_settled h]
    exact ⟨h, rfl, rfl⟩
  | close => exact ⟨rfl, rfl, rfl⟩

theorem run_settled {s : Subscriber} (h : s.client.subscribes = false) (calls : List GroupCall) :
    (s.run calls).client.subscribed = s.client.subscribed ∧ (s.run calls).asked = s.asked := by
  induction calls generalizing s with
  | nil => exact ⟨rfl, rfl⟩
  | cons c rest ih =>
    obtain ⟨hsettled, hsubscribed, hasked⟩ := call_settled h c
    obtain ⟨hlater, hmore⟩ := ih hsettled
    exact ⟨hlater.trans hsubscribed, hmore.trans hasked⟩

/-- The first call decides: if it begins a session, the client asks for a subscription, and never again. -/
theorem run_new (calls : List GroupCall) :
    (run {} calls).client.subscribed = (first? calls).isSome ∧ (run {} calls).asked = (first? calls).toList := by
  cases calls with
  | nil => exact ⟨rfl, rfl⟩
  | cons c rest =>
    cases c with
    | consume topics cancelled answer =>
      have hcall : (call {} (.consume topics cancelled answer)).2 = ⟨{ subscribed := true }, [(topics, answer)]⟩ := by
        cases answer <;> rfl
      obtain ⟨hsubscribed, hasked⟩ := run_settled (s := ⟨{ subscribed := true }, [(topics, answer)]⟩) rfl rest
      rw [run, List.foldl_cons, hcall, ← run]
      exact ⟨hsubscribed, hasked⟩
    | close =>
      obtain ⟨hsubscribed, hasked⟩ := run_settled (s := ⟨{ closed := true }, []⟩) rfl rest
      exact ⟨hsubscribed, hasked⟩

end Subscriber

namespace Session

variable {α : Type} {env : Environment} {client : Nat} {c : GroupClient} {topics : List String} {token : Token}

/-- A session of a client that counts itself as subscribed has no claims, and waits for its end. -/
theorem begin_subscribed (hclient : env.groupClient? client = some c) (hservice : c.service = .silent true)
    (hopen : c.closed = false) : ∃ (session : Session α) (after : Environment),
      Session.begin env client topics token = (.ok session, after) ∧ session.claims = [] ∧
        ∀ later : Environment, later.groupClosed client = false → later.cancelled token = false →
          session.step later = none := by
  refine ⟨⟨client, "", .earliest, token, 0, .script [] .wait, []⟩, env.setGroupClient client
    { c with service := .silent true }, ?_, rfl, fun later hlive hgoing => ?_⟩
  · simp [Session.begin, hclient, hservice, hopen, OfflineGroup.enter, Except.map]
  · simp [step, stepScript, stepScript.advance, hlive, hgoing]

end Session

/-- A client asks for one subscription at most, in the first session that it begins, and counts itself as subscribed
from then on. So it does so without a subscription exactly if that one was refused. Any session that follows on the
open client asks for none, and neither reads nor ends unless it is cancelled or the client is closed. -/
theorem subscription_tried_once (calls : List GroupCall) :
    let s := Subscriber.run {} calls
    s.asked = (Subscriber.first? calls).toList ∧
      (s.client.subscribed = true ↔ s.asked ≠ []) ∧
      ((s.client.subscribed = true → ∃ topics, (topics, .ok ()) ∈ s.asked) ↔
        ∀ topics failure, Subscriber.first? calls ≠ some (topics, .error failure)) ∧
      (s.client.closed = false → s.client.subscribed = true →
        (∀ topics cancelled answer, s.call (.consume topics cancelled answer) =
          (if cancelled then .returned (.ok ()) else .pending, s)) ∧
        (∀ topics cancelled, s.client.consume topics cancelled =
          (if cancelled then .returned (.ok ()) else .pending, s.client)) ∧
        ∀ (env : Environment) (client : Nat) (c : GroupClient) (topics : List String) (token : Token),
          env.groupClient? client = some c → c.service = .silent s.client.subscribed → c.closed = s.client.closed →
            ∃ (session : Session Nat) (after : Environment),
              Session.begin env client topics token = (.ok session, after) ∧ session.claims = [] ∧
                ∀ later : Environment, later.groupClosed client = false → later.cancelled token = false →
                  session.step later = none) := by
  intro s
  obtain ⟨hsubscribed, hasked⟩ := Subscriber.run_new calls
  have hasks : s.asked = (Subscriber.first? calls).toList := hasked
  have hsettled (hs : s.client.subscribed = true) : s.client.subscribes = false := by
    simp [OfflineGroup.subscribes, hs]
  refine ⟨hasked, ?_, ?_, fun hopen hs => ⟨fun topics cancelled answer => ?_, fun topics cancelled => ?_, ?_⟩⟩
  · rw [hsubscribed, hasks]
    cases Subscriber.first? calls <;> simp
  · rw [hsubscribed, hasks]
    cases hf : Subscriber.first? calls with
    | none => simp
    | some asked =>
      obtain ⟨topics, _ | _⟩ := asked <;> simp
  · rw [Subscriber.consume_settled (hsettled hs), hopen]
    rfl
  · rw [OfflineGroup.consume_eq, OfflineGroup.consumeWith, OfflineGroup.enterWith_settled (hsettled hs), hopen]
    rfl
  · intro env client c topics token hclient hservice hclosed
    exact Session.begin_subscribed hclient (hs ▸ hservice) (hclosed.trans hopen)

/-- A client whose first subscription is refused, and that could subscribe to the topics of its second session. -/
theorem second_session_unsubscribed :
    let refused : Failure := .kafka (.subscription "Local: Unknown topic or partition")
    let calls : List GroupCall := [.consume ["orders"] true (.error refused), .consume ["audit"] true (.ok ())]
    let s := Subscriber.run {} calls
    s.client.subscribed = true ∧ s.asked = [(["orders"], .error refused)] ∧
      (¬ ∃ topics, (topics, .ok ()) ∈ s.asked) ∧
      s.call (.consume ["audit"] false (.ok ())) = (.pending, s) := by
  intro refused calls s
  obtain ⟨hasked, hsubscribed, hgranted, hlater⟩ := subscription_tried_once calls
  have hcounted : s.client.subscribed = true := hsubscribed.mpr (by rw [hasked]; simp [calls, Subscriber.first?])
  refine ⟨hcounted, hasked, fun hgot => ?_, (hlater rfl hcounted).1 ["audit"] false (.ok ())⟩
  exact hgranted.mp (fun _ => hgot) ["orders"] refused rfl

/-- A session on no topics is refused its subscription, and the client is subscribed afterwards: the next session
on no topics is not refused, and one on a topic waits without having subscribed to it. -/
theorem refused_client_counts_as_subscribed :
    let refused : Failure := .kafka (.subscription "Local: Invalid argument or configuration")
    let (answer, client) := ({} : OfflineGroup).consume [] false
    OfflineGroup.subscribe [] = .error refused ∧ answer = .returned (.error refused) ∧
      client.closed = false ∧ client.subscribed = true ∧
      client.consume [] false = (.pending, client) ∧ client.consume ["orders"] false = (.pending, client) := by
  exact ⟨rfl, rfl, rfl, rfl, rfl, rfl⟩

end TopicConsumer
