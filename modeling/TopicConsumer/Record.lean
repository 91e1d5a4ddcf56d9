import TopicConsumer.Decoder
import TopicConsumer.Failure

namespace TopicConsumer

/-- Acknowledges one record for one group. -/
structure Ack where
  group : String
  topic : String
  partition : Int
  offset : Int
deriving DecidableEq, Repr

def Ack.describe (ack : Ack) : String :=
  "Ack \x7b topic: " ++ quoted ack.topic ++ ", partition: " ++ toString ack.partition ++
    ", offset: " ++ toString ack.offset ++ " \x7d"

/-- A record that is not decoded yet. Offsets grow within a partition. -/
structure Record where
  topic : String
  partition : Int
  offset : Int
  key : Option Bytes := none
  payload : Option Bytes := none
  timestamp : Option Int := none
  ack : Option Ack := none
deriving DecidableEq

/-- A decoded record, tagged with the group it was read for, if any. -/
structure Message (α : Type) where
  value : α
  group : Option String
  topic : String
  partition : Int
  offset : Int
  key : Option Bytes
  timestamp : Option Int
  ack : Option Ack

structure Span where
  name : String
  level : String
  group : Option String
  topic : String
  partition : Int
  offset : Int

namespace Message

def span (m : Message α) : Span :=
  ⟨"kafka_consume", "INFO", m.group, m.topic, m.partition, m.offset⟩

/-- Acknowledges a message through a broker. Without an acknowledgment nothing is to be done. -/
def acknowledge (m : Message α) (accept : Ack → Except Failure Unit) : Except Failure Unit :=
  match m.ack with
  | none => .ok ()
  | some ack => accept ack

end Message

namespace Record

def bytes (r : Record) : Bytes := r.payload.getD []

/-- Decodes a record. A decoder's refusal is told with the place of the record. -/
def decode (r : Record) (decoder : Decoder α) (group : Option String) : Except Failure (Message α) :=
  match decoder r.bytes with
  | .ok value => .ok ⟨value, group, r.topic, r.partition, r.offset, r.key, r.timestamp, r.ack⟩
  | .error reason => .error (.decode r.topic r.partition r.offset reason)

end Record

end TopicConsumer
