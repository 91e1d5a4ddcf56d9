import TopicConsumer.ClientProperty

namespace TopicConsumer

namespace Settings

/-- The value that the settings give a property under any of its names. -/
def value? (settings : Settings) (key : String) : Option String :=
  (settings.find? fun p => (findProperty? clientProperties p.1).any (·.1 = key)).map (·.2)

/-- The text of a property, if it is not empty. Blanks that it starts with do not count. -/
def text? (settings : Settings) (key : String) : Option String :=
  match settings.value? key with
  | some "" => none
  | value => value.map trimmed

def word (settings : Settings) (key : String) : String :=
  ((settings.text? key).getD "").map Char.toLower

def number? (settings : Settings) (key : String) : Option Int :=
  ((settings.value? key).bind fun value => leadingNumber? value.toList).map narrow

/-- What a group that its brokers manage leaves to them. -/
def leftToBrokers : Table String String := [
  ("session.timeout.ms", "It is defined broker side"),
  ("partition.assignment.strategy", "Use `group.remote.assignor` instead"),
  ("group.protocol.type", ""),
  ("heartbeat.interval.ms", "It is defined broker side")]

def groupConflict? (settings : Settings) : Option String :=
  if settings.word "group.protocol" = "consumer" then
    leftToBrokers.findSome? fun (key, advice) =>
      if (settings.value? key).isNone then none
      else
        some ("`" ++ key ++ "` is not supported for `group.protocol=consumer`" ++
          (if advice = "" then "" else ". " ++ advice))
  else if (settings.number? "max.poll.interval.ms").getD 300000 <
      (settings.number? "session.timeout.ms").getD 45000 then
    some "`max.poll.interval.ms`must be >= `session.timeout.ms`"
  else none

def limitConflict? (settings : Settings) : Option String :=
  let number (key : String) (otherwise : Int) : Int := (settings.number? key).getD otherwise
  let messageMax := number "message.max.bytes" 1000000
  let queued := number "queued.max.messages.kbytes" 65536 * 1024
  let fetchMax := (settings.number? "fetch.max.bytes").getD (max (min 52428800 queued) messageMax)
  if fetchMax < messageMax then some "`fetch.max.bytes` must be >= `message.max.bytes`"
  else if (settings.number? "receive.message.max.bytes").any (· < fetchMax + 512) then
    some "`receive.message.max.bytes` must be >= `fetch.max.bytes` + 512"
  else if number "reconnect.backoff.max.ms" 10000 < number "reconnect.backoff.ms" 100 then
    some "`reconnect.backoff.max.ms` must be >= `reconnect.backoff.ms`"
  else none

/-- The strategies known, and whether their members give up their partitions one by one. -/
def strategies : Table String Bool := [
  ("range", false), ("roundrobin", false), ("cooperative-sticky", true)]

/-- The strategies that a text names between commas. Blanks and commas may precede one; behind them at
the end of the text there is one without a name. The limit is on the number of strategies. -/
def strategyNames : Nat → List Char → List String
  | 0, _ => []
  | _ + 1, [] => []
  | limit + 1, text =>
    let text := text.dropWhile fun c => c = ' ' ∨ c = ','
    let name := text.takeWhile (· ≠ ',')
    String.ofList name :: strategyNames limit (text.drop (name.length + 1))

def strategyConflict? (settings : Settings) : Option String :=
  let text := (settings.text? "partition.assignment.strategy").getD "range,roundrobin"
  let names := strategyNames text.length text.toList
  match names.find? fun name => (strategies.get? name).isNone with
  | some name => some ("Unsupported partition.assignment.strategy: " ++ name)
  | none =>
    let steps := names.filterMap strategies.get?
    if steps.contains true && steps.contains false then
      some ("All partition.assignment.strategy (" ++ text ++ ") assignors must have the same protocol " ++
        "type, online migration between assignors with different protocol types is not supported")
    else none

/-- What is wrong with how the client is to sign in. A cluster of its own needs no signing in. -/
def signInConflict? (settings : Settings) : Option String :=
  let mechanism := (settings.text? "sasl.mechanisms").getD "GSSAPI"
  if settings.word "security.protocol" ≠ "sasl_plaintext" ∨
      0 < (settings.number? "test.mock.num.brokers").getD 0 then none
  else if mechanism = "PLAIN" then
    if (settings.text? "sasl.username").isSome ∧ (settings.text? "sasl.password").isSome then none
    else some "sasl.username and sasl.password must be set"
  else if mechanism = "GSSAPI" ∨ mechanism = "OAUTHBEARER" ∨ "SCRAM-SHA-".isPrefixOf mechanism then
    some ("No provider for SASL mechanism " ++ mechanism ++ ": recompile librdkafka with libsasl2 or " ++
      "openssl support. Current build options: PLAIN")
  else some ("Unsupported SASL mechanism: " ++ mechanism)

/-- A client that is given a group has a queue for it only if the group has a name. -/
def queueConflict? (settings : Settings) : Option String :=
  if (settings.value? "group.id").any (trimmed · = "") then
    some "rdkafka consumer queue not available"
  else none

def conflict? (settings : Settings) : Option String :=
  (settings.groupConflict?.or <| settings.limitConflict?.or <| settings.strategyConflict?.or <|
    settings.signInConflict?.or settings.queueConflict?).map cutComplaint

end Settings

def openClient (settings : Settings) : Except Failure Unit := do
  settings.forM fun p => checkProperty p.1 p.2
  match settings.conflict? with
  | none => .ok ()
  | some reason => .error (.kafka (.creation reason))

end TopicConsumer
