import TopicConsumer.RoutedClaim

namespace TopicConsumer

/-- The records queued for a claim at most. -/
def claimBuffer : Nat := 64

structure HandledClaim where
  claim : RoutedClaim
  asking : Bool := false
  result : Option (Except Failure Unit) := none

/-- A group session that hands each fetched record to the claim of its partition, which a handler of its own reads. -/
structure RoutedSession where
  cancelled : Bool := false
  marks : Watermarks := []
  /-- The claims, in the order in which they were made. -/
  claims : List HandledClaim := []
  /-- For each partition its latest claim that records are sent to. -/
  senders : Table PartitionKey Nat := []
  resume : Table PartitionKey ResumePoint := []

inductive Routing where
  | routed (session : RoutedSession)
  | blocked (session : RoutedSession)

namespace RoutedSession

def resumePoint (s : RoutedSession) (key : PartitionKey) : ResumePoint := (s.resume.get? key).getD {}

/-- Makes sure that a partition has a claim and a resume point. -/
def claim (s : RoutedSession) (key : PartitionKey) : RoutedSession :=
  let s := { s with resume := Table.set key (s.resumePoint key) s.resume }
  if (s.senders.get? key).isSome then s
  else
    { s with
      claims := s.claims ++ [{ claim := { key := key, capacity := claimBuffer } }]
      senders := Table.set key s.claims.length s.senders }

def setClaim (s : RoutedSession) (i : Nat) (c : HandledClaim) : RoutedSession :=
  { s with claims := s.claims.set i c }

/-- Notes in the resume point of its partition that a record was fetched. -/
def noteFetched (s : RoutedSession) (key : PartitionKey) (offset : Int) : RoutedSession :=
  { s with resume := Table.set key ((s.resumePoint key).routed offset) s.resume }

/-- Sends a record to the claim of its partition. A claim whose handler has returned loses it, and so
may a claim of a cancelled session, which takes it if it has room. -/
def sendNow (s : RoutedSession) (record : Record) : Routing :=
  match s.senders.get? (record.topic, record.partition) with
  | none => .routed s
  | some i =>
    match s.claims[i]? with
    | none => .routed s
    | some c =>
      match c.claim.send record with
      | .sent claim => .routed (s.setClaim i { c with claim := claim })
      | .full => if s.cancelled then .routed s else .blocked s
      | .closed => .routed s

/-- Routes a record: its partition gets a claim, its offset is noted, and it is sent. -/
def route (s : RoutedSession) (record : Record) : Routing :=
  let key := (record.topic, record.partition)
  ((s.claim key).noteFetched key record.offset).sendNow record

def ask (s : RoutedSession) (i : Nat) : Except Overflow RoutedSession :=
  match s.claims[i]? with
  | none => .ok s
  | some c =>
    match c.claim.ask (s.resumePoint c.claim.key) with
    | .error overflow => .error overflow
    | .ok (claim, point) =>
      .ok { s.setClaim i { c with claim := claim, asking := true } with
        resume := Table.set claim.key point s.resume }

def take (s : RoutedSession) (i : Nat) : Option (Record × RoutedSession) :=
  match s.claims[i]? with
  | none => none
  | some c =>
    match c.claim.receive with
    | .record record claim point =>
      some (record, { s.setClaim i { c with claim := claim, asking := false } with
        resume := Table.set claim.key point s.resume })
    | .pending => none
    | .ended => none

/-- The handler of a claim stops waiting for a record. -/
def abandon (s : RoutedSession) (i : Nat) : RoutedSession :=
  match s.claims[i]? with
  | none => s
  | some c => s.setClaim i { c with asking := false }

/-- The handler of a claim returns. Records still queued for the claim are lost. -/
def finishClaim (s : RoutedSession) (i : Nat) (result : Except Failure Unit) : RoutedSession :=
  match s.claims[i]? with
  | none => s
  | some c =>
    s.setClaim i
      { c with claim := { c.claim with held := false }, asking := false, result := some result }

def cancel (s : RoutedSession) : RoutedSession := { s with cancelled := true }

/-- Stops sending records to the claim of a partition, so that the next record makes a new claim. -/
def forget (s : RoutedSession) (key : PartitionKey) : RoutedSession :=
  { s with senders := Table.erase key s.senders }

def stop (s : RoutedSession) : RoutedSession :=
  { s with
    cancelled := true
    senders := []
    claims := s.claims.map fun c => { c with claim := { c.claim with fed := false } } }

private def keyLE (a b : PartitionKey) : Bool :=
  decide (a.1 < b.1) || (decide (a.1 = b.1) && decide (a.2 ≤ b.2))

def points (s : RoutedSession) : List (PartitionKey × Option Int) :=
  (s.resume.map fun p => (p.1, p.2.offset?)).mergeSort fun a b => keyLE a.1 b.1

/-- Where each partition that has a resume point is to be read again. -/
def resumeOffsets (s : RoutedSession) : List (PartitionKey × Int) :=
  s.points.filterMap fun p => p.2.map (p.1, ·)

end RoutedSession

end TopicConsumer
