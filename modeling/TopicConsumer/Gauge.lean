import TopicConsumer.Failure
import TopicConsumer.Table

namespace TopicConsumer

structure GaugeLabels where
  group : String
  topic : String
  partition : Int
deriving DecidableEq, Repr

abbrev Gauge := Table GaugeLabels Int

namespace Gauge

def name : String := "kafka_consumer_offset_diff"

def help : String := "Difference between the partition high water mark and the offset being processed"

/-- Sets a series to the distance of an offset to a high water mark. -/
def measure (gauge : Gauge) (labels : GaugeLabels) (high offset : Int) : Except Overflow (Int × Gauge) :=
  match offsetGap high offset with
  | .ok gap => .ok (gap, Table.set labels gap gauge)
  | .error overflow => .error overflow

/-- Reads a series, which exists from then on. -/
def read (gauge : Gauge) (labels : GaugeLabels) : Int × Gauge :=
  match gauge.get? labels with
  | some value => (value, gauge)
  | none => (0, Table.set labels 0 gauge)

private def escaped (s : String) : List Char :=
  s.toList.flatMap fun c =>
    if c = '"' ∨ c = '\\' then ['\\', c]
    else if c = '\n' then ['\\', 'n']
    else if c = '\r' then ['\\', 'r']
    else if c = '\t' then ['\\', 't']
    else if c = '\x08' then ['\\', 'b']
    else if c = '\x0c' then ['\\', 'f']
    else if c.toNat < 32 then
      "\\u00".toList ++ (if c.toNat < 16 then ['0'] else []) ++ Nat.toDigits 16 c.toNat
    else [c]

/-- The labels of a series as they are compared: name by name in their alphabetical order, each value
quoted. -/
def sortKey (labels : GaugeLabels) : String :=
  String.ofList (escaped labels.group) ++ "\",\"partition\":\"" ++ toString labels.partition ++
    "\",\"topic\":\"" ++ String.ofList (escaped labels.topic) ++ "\""

def series (gauge : Gauge) : List (GaugeLabels × Int) :=
  gauge.mergeSort fun a b => !decide (sortKey b.1 < sortKey a.1)

end Gauge

end TopicConsumer
