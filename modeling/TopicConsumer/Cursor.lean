import TopicConsumer.Broker

namespace TopicConsumer

/-- A place in the log of a partition, and the changes of the log that were seen. -/
structure Cursor where
  key : PartitionKey
  position : Int
  channel : Nat
  seen : Nat
deriving DecidableEq, Repr

/-- Where a call for the next record stands. -/
inductive Stage where
  | marking
  | checking
  | looking
  | parked
deriving DecidableEq, Repr

/-- What one step of a call for the next record leads to. -/
inductive Found where
  | going (stage : Stage)
  | record (record : Record)
  | failed (failure : Failure)
  | ended

namespace Cursor

def open? (b : Broker) (key : PartitionKey) (position : Int) : Except Failure Cursor :=
  match b.watch key with
  | .error failure => .error failure
  | .ok channel => .ok ⟨key, position, channel, (b.channel channel).version⟩

/-- One step of a call for the next record. Readers also check for a failure of their partition, before
they look. A parked call goes on when its log has changed, and ends when its log was replaced. -/
def step (b : Broker) (c : Cursor) (checks : Bool) : Stage → Option (Broker × Cursor × Found)
  | .marking =>
    let c := { c with seen := (b.channel c.channel).version }
    some (b, c, .going (if checks then .checking else .looking))
  | .checking =>
    match b.takeFailure c.key with
    | some (reason, b) => some (b, c, .failed (.broker reason))
    | none => some (b, c, .going .looking)
  | .looking =>
    match b.payload? c.key c.position with
    | some payload =>
      let record := { topic := c.key.1, partition := c.key.2, offset := c.position, payload := some payload }
      some (b, { c with position := c.position + 1 }, .record record)
    | none => some (b, c, .going .parked)
  | .parked =>
    let channel := b.channel c.channel
    if channel.version ≠ c.seen then some (b, { c with seen := channel.version }, .going .marking)
    else if channel.live then none
    else some (b, c, .ended)

end Cursor

/-- What a feed does after its records. -/
inductive FeedEnd where
  | wait
  | stop
  | fail (reason : String)
deriving DecidableEq, Repr

/-- The records of a partition as a script lists them. -/
structure Feed where
  key : PartitionKey
  payloads : List (Option Bytes)
  offset : Int
  high : Int
  ending : FeedEnd
deriving DecidableEq

def Feed.step (feed : Feed) : Option (Feed × Found) :=
  match feed.payloads with
  | payload :: rest =>
    let record := { topic := feed.key.1, partition := feed.key.2, offset := feed.offset, payload := payload }
    some ({ feed with payloads := rest, offset := feed.offset + 1 }, .record record)
  | [] =>
    match feed.ending with
    | .wait => none
    | .stop => some (feed, .ended)
    | .fail reason => some (feed, .failed (.broker reason))

/-- Where the records of a partition come from. -/
inductive Source where
  | log (cursor : Cursor)
  | feed (feed : Feed)

namespace Source

def key : Source → PartitionKey
  | log c => c.key
  | feed f => f.key

def highWaterMark (b : Broker) : Source → Int
  | log c => b.highWaterMark c.key
  | feed f => f.high

def step (b : Broker) (checks : Bool) (stage : Stage) : Source → Option (Broker × Source × Found)
  | log c => (c.step b checks stage).map fun (b, c, found) => (b, log c, found)
  | feed f => f.step.map fun (f, found) => (b, feed f, found)

end Source

end TopicConsumer
