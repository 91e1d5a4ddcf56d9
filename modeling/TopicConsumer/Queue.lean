namespace TopicConsumer

/-- A bounded queue between tasks. When its receiver is dropped, nothing can be sent any more. -/
structure Queue (β : Type) where
  capacity : Nat
  items : List β := []
  held : Bool := true

/-- What became of a value offered to a queue. -/
inductive Offer (β : Type) where
  | queued (queue : Queue β)
  | full
  | refused

namespace Queue

def offer (queue : Queue β) (value : β) : Offer β :=
  if !queue.held then .refused
  else if queue.items.length < queue.capacity then .queued { queue with items := queue.items ++ [value] }
  else .full

def take? (queue : Queue β) : Option (β × Queue β) :=
  match queue.items with
  | [] => none
  | value :: rest => some (value, { queue with items := rest })

/-- Drops the receiver, and with it what is queued. -/
def drop (queue : Queue β) : Queue β := { queue with items := [], held := false }

end Queue

end TopicConsumer
