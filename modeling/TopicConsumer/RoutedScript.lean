import TopicConsumer.RoutedSession

namespace TopicConsumer

inductive Ending where
  | ok
  | fail
  | hold
  | holdFail
deriving DecidableEq, Repr

/-- How claims of one partition, or of all, are handled. -/
structure HandlerRule where
  partition : Option Int
  take : Nat
  ending : Ending

/-- A handler at work: how many records it still takes, without end if `none`, and since when it
waits. -/
structure RuledHandler where
  left : Option Nat
  ending : Ending
  waitingSince : Option Nat := none
  running : Bool := true

structure Sighting where
  key : PartitionKey
  offset : Int
  high : Int

structure RoutedScript where
  session : RoutedSession := {}
  rules : List HandlerRule
  handlers : List RuledHandler := []
  /-- The records taken since they were last asked for. -/
  seen : List Sighting := []
  /-- Claims whose handlers have returned, waiting to be joined. -/
  returned : List Nat := []
  waits : Nat := 0

namespace RoutedScript

private def handlerFor (rules : List HandlerRule) (partition : Int) : RuledHandler :=
  match rules.find? fun r => r.partition.all (· == partition) with
  | some rule => { left := some rule.take, ending := rule.ending }
  | none => { left := none, ending := .ok }

def assign (s : RoutedScript) : RoutedScript :=
  { s with
    handlers := s.handlers ++
      (s.session.claims.drop s.handlers.length).map fun c => handlerFor s.rules c.claim.key.2 }

private def failureOf (key : PartitionKey) (late : Bool) : Failure :=
  .broker ("claim " ++ key.1 ++ "/" ++ toString key.2 ++ (if late then " failed late" else " failed"))

def setHandler (s : RoutedScript) (i : Nat) (h : RuledHandler) : RoutedScript :=
  { s with handlers := s.handlers.set i h }

private def give (s : RoutedScript) (i : Nat) (h : RuledHandler) (result : Except Failure Unit) :
    RoutedScript :=
  { s.setHandler i { h with running := false } with
    session := s.session.finishClaim i result, returned := s.returned ++ [i] }

private def await (s : RoutedScript) (i : Nat) (h : RuledHandler) : RoutedScript :=
  if h.waitingSince.isSome then s
  else { s.setHandler i { h with waitingSince := some s.waits } with waits := s.waits + 1 }

private def conclude (s : RoutedScript) (i : Nat) (h : RuledHandler) (key : PartitionKey) : RoutedScript :=
  match h.ending with
  | .ok => give s i h (.ok ())
  | .fail => give s i h (.error (failureOf key false))
  | .hold => if s.session.cancelled then give s i h (.ok ()) else await s i h
  | .holdFail =>
    if s.session.cancelled then give s i h (.error (failureOf key true)) else await s i h

/-- Lets a handler run until it waits or has returned. A cancelled session comes before any record. -/
private def advance : Nat → Nat → RoutedScript → RoutedScript
  | 0, _, s => s
  | fuel + 1, i, s =>
    match s.handlers[i]?, s.session.claims[i]? with
    | some h, some c =>
      let key := c.claim.key
      if !h.running then s
      else if h.left = some 0 then conclude s i h key
      else if s.session.cancelled then give s i h (.ok ())
      else
        match s.session.ask i with
        | .error _ => s.setHandler i { h with running := false }
        | .ok session =>
          let s := { s with session := session }
          match session.take i with
          | some (record, session) =>
            let high := match session.claims[i]? with
              | some c => (c.claim.highWaterMark session.marks).toOption.getD record.offset
              | none => record.offset
            let sighting : Sighting := ⟨key, record.offset, high⟩
            let s := { s with session := session, seen := s.seen ++ [sighting] }
            let h := { h with left := h.left.map (· - 1), waitingSince := none }
            advance fuel i (s.setHandler i h)
          | none => if c.claim.fed then await s i h else give s i h (.ok ())
    | _, _ => s

/-- Lets every handler run, in the order in which they began to wait. -/
def settle (s : RoutedScript) : RoutedScript :=
  let s := s.assign
  let order := (s.handlers.mapIdx fun i h => (h.waitingSince.getD s.waits, i)).mergeSort
    fun a b => a.1 ≤ b.1
  order.foldl (fun s p => advance (claimBuffer + 2) p.2 s) s

def claim (s : RoutedScript) (key : PartitionKey) : Option Int × RoutedScript :=
  let s := settle { s with session := s.session.claim key }
  ((s.session.resumePoint key).offset?, s)

/-- Routes some records with consecutive offsets up to the first that is blocked, and counts them. -/
def route (s : RoutedScript) (key : PartitionKey) (offset : Int) : Nat → Nat × RoutedScript
  | 0 => (0, s)
  | count + 1 =>
    match s.session.route { topic := key.1, partition := key.2, offset := offset } with
    | .blocked session => (0, settle { s with session := session })
    | .routed session =>
      let (n, s) := route (settle { s with session := session }) key (offset + 1) count
      (n + 1, s)

inductive Joining where
  | claim (key : PartitionKey) (result : Except Failure Unit)
  | pending
  | none

/-- Joins the claim whose handler returned first of those not joined yet. -/
def join (s : RoutedScript) : Joining × RoutedScript :=
  match s.returned with
  | i :: rest =>
    let s := { s with returned := rest }
    match s.session.claims[i]? with
    | some c => (.claim c.claim.key (c.result.getD (.ok ())), s)
    | none => (.none, s)
  | [] => (if s.handlers.any (·.running) then .pending else .none, s)

def cancel (s : RoutedScript) : RoutedScript := settle { s with session := s.session.cancel }

def finish (s : RoutedScript) : List (PartitionKey × Int) × RoutedScript :=
  let s := settle { s with session := s.session.stop }
  (s.session.resumeOffsets, s)

def sightings (s : RoutedScript) : List Sighting × RoutedScript :=
  let sorted := s.seen.mergeSort fun a b =>
    decide (a.key.1 < b.key.1) || (decide (a.key.1 = b.key.1) && decide (a.key.2 ≤ b.key.2))
  (sorted, { s with seen := [] })

end RoutedScript

end TopicConsumer
