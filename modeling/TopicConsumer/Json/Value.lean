namespace TopicConsumer

inductive Json where
  | null
  | bool (value : Bool)
  | int (value : Int)
  | float (bits : UInt64)
  | text (value : String)
  | list (items : List Json)
  | record (members : List (String × Json))

namespace Json

private def dropRepeats : List (String × Json) → List (String × Json)
  | [] => []
  | [m] => [m]
  | m :: n :: rest => if m.1 = n.1 then dropRepeats (m :: rest) else m :: dropRepeats (n :: rest)
termination_by ms => ms.length

/-- A record of members given latest first: sorted by name, and of each name the latest. -/
def recordOfLatest (members : List (String × Json)) : Json :=
  .record (dropRepeats (members.mergeSort fun a b => !decide (b.1 < a.1)))

end Json

end TopicConsumer
