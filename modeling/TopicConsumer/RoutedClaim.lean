import TopicConsumer.Record
import TopicConsumer.Watermarks

namespace TopicConsumer

/-- Where to read a partition again; -1 as long as nothing was fetched. -/
structure ResumePoint where
  value : Int := -1
deriving DecidableEq, Repr

namespace ResumePoint

/-- Notes that a record was fetched. Only the first one counts. -/
def routed (point : ResumePoint) (offset : Int) : ResumePoint :=
  if point.value = -1 then ⟨offset⟩ else point

def offset? (point : ResumePoint) : Option Int := if 0 ≤ point.value then some point.value else none

end ResumePoint

structure RoutedClaim where
  key : PartitionKey
  capacity : Nat
  queue : List Record := []
  /-- Whether more records can come. -/
  fed : Bool := true
  /-- Whether the claim still takes records. -/
  held : Bool := true
  /-- The offset of the record handed over last, until the next one is asked for. -/
  taken : Option Int := none

inductive Sending where
  | sent (claim : RoutedClaim)
  | full
  | closed

inductive Receiving where
  | record (record : Record) (claim : RoutedClaim) (point : ResumePoint)
  | pending
  | ended

namespace RoutedClaim

def send (claim : RoutedClaim) (record : Record) : Sending :=
  if !claim.held || !claim.fed then .closed
  else if claim.queue.length < claim.capacity then
    .sent { claim with queue := claim.queue ++ [record] }
  else .full

/-- Asks for the next record, which means that the one before it is handled. -/
def ask (claim : RoutedClaim) (point : ResumePoint) : Except Overflow (RoutedClaim × ResumePoint) :=
  match claim.taken with
  | none => .ok (claim, point)
  | some previous =>
    match nextOffset previous with
    | .ok next => .ok ({ claim with taken := none }, ⟨next⟩)
    | .error overflow => .error overflow

def receive (claim : RoutedClaim) : Receiving :=
  match claim.queue with
  | record :: rest =>
    .record record { claim with queue := rest, taken := some record.offset } ⟨record.offset⟩
  | [] => if claim.fed then .pending else .ended

def highWaterMark (claim : RoutedClaim) (marks : Watermarks) : Except Overflow Int :=
  Watermarks.mark marks claim.key (claim.taken.getD (-1))

end RoutedClaim

end TopicConsumer
