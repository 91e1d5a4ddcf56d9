import TopicConsumer.Config

namespace TopicConsumer

inductive ConsumerOption (α : Type) where
  | buffer (size : Nat)
  | decoder (decode : Decoder α)
  | json [FromJson α]
  | start (place : StartOffset)
  | clientSetting (key value : String)
  | sessionTimeout (timeout : Duration)
  | decodeMode (mode : DecodeMode)
  | retryPolicy (policy : RetryPolicy)
  | custom (name : String) (edit : Config α → Except String (Config α))

namespace ConsumerOption

def name : ConsumerOption α → String
  | buffer _ => "buffer"
  | decoder _ => "decoder"
  | json => "json_decoder"
  | start _ => "start"
  | clientSetting _ _ => "client_setting"
  | sessionTimeout _ => "session_timeout"
  | decodeMode _ => "decode_mode"
  | retryPolicy _ => "retry_policy"
  | custom name _ => name

def describe (option : ConsumerOption α) : String := "ConsumerOption(" ++ quoted option.name ++ ")"

def apply : ConsumerOption α → Config α → Except String (Config α)
  | buffer size, config => .ok { config with bufferSize := size }
  | decoder decode, config => .ok { config with decoder := decode }
  | json, config => .ok { config with decoder := Decoder.json }
  | start place, config => .ok { config with start := place }
  | clientSetting key value, config =>
    if key = "" ∨ value = "" then .error "client setting key and value must not be empty"
    else .ok { config with client := Table.set key value config.client }
  | sessionTimeout timeout, config =>
    if timeout = Duration.zero then .error "session timeout must be positive"
    else
      .ok { config with client := Table.set sessionTimeoutKey (toString timeout.millis) config.client }
  | decodeMode mode, config => .ok { config with decodeMode := mode }
  | retryPolicy policy, config =>
    if policy.maxAttempts = some 0 then .error "retry policy must allow at least one attempt"
    else .ok { config with retry := policy }
  | custom _ edit, config => edit config

/-- Applies options one after the other, up to the first that refuses. -/
def applyAll : List (ConsumerOption α) → Config α → Except Failure (Config α)
  | [], config => .ok config
  | option :: options, config =>
    match option.apply config with
    | .ok config => applyAll options config
    | .error reason => .error (.option option.name reason)

end ConsumerOption

/-- A custom change, part by part. A part that is absent changes nothing. -/
structure ConfigEdit where
  /-- Refuses with this reason and changes nothing. -/
  refusal : Option String := none
  topicSuffix : Option String := none
  broker : Option String := none
  group : Option (Option String) := none
  bufferFactor : Option Nat := none
  dropSetting : Option String := none

namespace ConfigEdit

private def when (part : Option β) (change : β → Config α → Config α) (config : Config α) :
    Config α :=
  match part with
  | none => config
  | some b => change b config

def apply (edit : ConfigEdit) (config : Config α) : Except String (Config α) :=
  match edit.refusal with
  | some reason => .error reason
  | none =>
    .ok (config
      |> when edit.topicSuffix (fun suffix c => { c with topic := c.topic ++ suffix })
      |> when edit.broker (fun broker c => { c with brokers := c.brokers ++ [broker] })
      |> when edit.group (fun group c => { c with group := group })
      |> when edit.bufferFactor (fun k c => { c with bufferSize := c.bufferSize * k })
      |> when edit.dropSetting (fun key c => { c with client := Table.erase key c.client }))

end ConfigEdit

end TopicConsumer
