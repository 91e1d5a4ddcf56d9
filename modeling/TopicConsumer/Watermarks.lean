import TopicConsumer.Failure
import TopicConsumer.Table

namespace TopicConsumer

abbrev PartitionKey := String × Int

/-- For each partition the offset that the next record will get, as the client's statistics report it. -/
abbrev Watermarks := Table PartitionKey Int

namespace Watermarks

/-- Takes a reported mark. Negative marks and partitions are not known ones. -/
def update (marks : Watermarks) (key : PartitionKey) (high : Int) : Watermarks :=
  if key.2 < 0 ∨ high < 0 then marks else Table.set key high marks

def record (marks : Watermarks) (report : Table PartitionKey Int) : Watermarks :=
  report.foldl (fun marks p => update marks p.1 p.2) marks

/-- The high water mark as seen by a reader whose last record is at `position`: never below the offset
after it, since the report may be older than the record. -/
def mark (marks : Watermarks) (key : PartitionKey) (position : Int) : Except Overflow Int :=
  match nextOffset position with
  | .error overflow => .error overflow
  | .ok next =>
    match marks.get? key with
    | none => .ok next
    | some high => .ok (max high next)

def sorted (marks : Watermarks) : List (PartitionKey × Int) :=
  marks.mergeSort fun a b =>
    decide (a.1.1 < b.1.1) || (decide (a.1.1 = b.1.1) && decide (a.1.2 ≤ b.1.2))

end Watermarks

end TopicConsumer
