import TopicConsumer.Json.Event

namespace TopicConsumer

abbrev Decoder (α : Type) := Bytes → Except String α

/-- Types of values that are written as JSON documents. -/
class FromJson (α : Type) where
  parse : Bytes → Except JsonFault α

instance : FromJson Json := ⟨Json.parse⟩

instance : FromJson Event := ⟨Event.parse⟩

namespace Decoder

def json [FromJson α] : Decoder α := fun payload =>
  match FromJson.parse payload with
  | .ok value => .ok value
  | .error fault => .error fault.describe

def map (f : α → β) (decode : Decoder α) : Decoder β := fun payload => (decode payload).map f

def length : Decoder Nat := fun payload => .ok payload.length

def refuse (reason : String) : Decoder α := fun _ => .error reason

/-- Decodes payloads as text. A text that begins with an exclamation mark is refused for what follows
the mark. -/
def text : Decoder String := fun payload =>
  match utf8Text? payload with
  | none => .error "not utf-8"
  | some s =>
    match s.toList with
    | '!' :: reason => .error ("refused: " ++ String.ofList reason)
    | _ => .ok s

end Decoder

private def hexDigit (n : Nat) : Char := Char.ofNat (if n < 10 then 48 + n else 87 + n)

def hexText (bytes : Bytes) : String :=
  String.ofList (bytes.flatMap fun b => [hexDigit (b.toNat / 16), hexDigit (b.toNat % 16)])

inductive PayloadFormat where
  | json
  | event
  | length
  | hex
  | none
  | text
deriving DecidableEq

def PayloadFormat.decoder : PayloadFormat → Decoder Json
  | json => Decoder.json
  | event => Decoder.map (fun e : Event => Json.record [("n", .int e.n.toNat)]) Decoder.json
  | length => Decoder.map (fun n : Nat => Json.int n) Decoder.length
  | hex => fun payload => .ok (.text (hexText payload))
  | none => Decoder.refuse "not an event"
  | text => Decoder.map Json.text Decoder.text

end TopicConsumer
