import TopicConsumer.LeadingDecimal
import TopicConsumer.Pattern
import TopicConsumer.Table

namespace TopicConsumer

inductive TextRule where
  | free
  /-- One word: no comma and no space. -/
  | single
  | brokerVersion
  | partitioner
deriving DecidableEq, Repr

/-- What values a property takes. -/
inductive PropertyKind where
  | text (rule : TextRule)
  | flag
  | number (least greatest : Int) (named : Table String Int)
  | decimal (greatest : Nat)
  /-- One of some words. Others are known but cannot be had, for a reason. -/
  | choice (words : List String) (lacking : Table String String)
  /-- Some words between commas, each of which may carry a sign. -/
  | words (known : List String) (lacking : Table String String)
  /-- Regular expressions between commas. -/
  | patterns
  /-- Files to load, between semicolons. No file can be had. -/
  | plugins
  | sameAs (key : String)
  /-- Known, but not to be had, for a reason. -/
  | lacking (reason : String)
  | callback
  | internal
  /-- Known elsewhere, with advice on what to do here. -/
  | foreign (advice : String)

def trimmed (value : String) : String := String.ofList (value.toList.dropWhile isBlank)

def isAmong (known : List String) (word : String) : Bool := known.contains (word.map Char.toLower)

namespace TextRule

def accepts (rule : TextRule) (value : String) : Bool :=
  match rule with
  | free => true
  | single => !value.toList.contains ',' && !value.toList.contains ' '
  | brokerVersion => !"0.7.".isPrefixOf value && !"0.6.".isPrefixOf value
  | partitioner =>
    ["random", "consistent", "consistent_random", "murmur2", "murmur2_random", "fnv1a",
      "fnv1a_random"].contains value

end TextRule

namespace PropertyKind

private def inQuotes (s : String) : String := "\"" ++ s ++ "\""

private def invalidWord (word key : String) : String :=
  "Invalid value " ++ inQuotes word ++ " for configuration property " ++ inQuotes key

def wordComplaint? (known : List String) (missing : Table String String) (key word : String) :
    Option String :=
  if word = "" ∨ isAmong known word then none
  else
    match missing.get? (word.map Char.toLower) with
    | some reason =>
      some ("Unsupported value " ++ inQuotes word ++ " for configuration property " ++ inQuotes key ++
        ": " ++ reason)
    | none => some (invalidWord word key)

private def unsigned (word : String) : String :=
  match word.toList with
  | '+' :: rest => String.ofList rest
  | '-' :: rest => String.ofList rest
  | _ => word

private def textComplaint? (rule : TextRule) (key value : String) : Option String :=
  if rule = .free ∨ (value ≠ "" ∧ rule.accepts (trimmed value)) then none
  else
    some ("Invalid value for configuration property " ++ inQuotes key ++ ": " ++
      (if value = "" then "(null)" else trimmed value))

private def rangeComplaint (key value least greatest : String) : String :=
  "Configuration property " ++ inQuotes key ++ " value " ++ value ++ " is outside allowed range " ++
    least ++ ".." ++ greatest ++ "\n"

private def unreadable (key : String) : String :=
  "Invalid value for configuration property " ++ inQuotes key

private def numberComplaint? (least greatest : Int) (named : Table String Int) (key value : String) :
    Option String :=
  let number := (leadingNumber? value.toList).map narrow
  match number.or (named.get? (value.map Char.toLower)) with
  | none => some (unreadable key)
  | some n =>
    if least ≤ n ∧ n ≤ greatest then none
    else some (rangeComplaint key (toString n) (toString least) (toString greatest))

private def decimalComplaint? (greatest : Nat) (key value : String) : Option String :=
  match LeadingDecimal.read? value.toList with
  | none => some (unreadable key)
  | some x =>
    if x.isOutside greatest then some (rangeComplaint key x.text "0" (toString greatest)) else none

/-- The expressions of a list between commas. None is behind a comma that ends the list. -/
def patternsOf (value : String) : List String :=
  let parts := value.splitOn ","
  if parts.getLast? = some "" then parts.dropLast else parts

private def patternComplaint? (pattern : String) : Option String :=
  (Pattern.fault? pattern).map fun fault =>
    "Failed to parse pattern " ++ inQuotes pattern ++ ": " ++ fault.message

/-- The file that is looked for in the end: a name without an ending gets one. -/
def pluginFile (path : String) : String :=
  let name := (path.splitOn "/").getLastD path
  if (name.toList.drop (name.length - 3)).contains '.' then path else path ++ ".so"

private def pluginComplaint (path : String) : String :=
  "dlopen() failed: " ++ pluginFile path ++
    ": cannot open shared object file: No such file or directory (plugin " ++ path ++ ")"

private def emptyComplaint (what key : String) : Option String :=
  some (what ++ " " ++ inQuotes key ++ " cannot be set to empty value")

def complaint? (kind : PropertyKind) (key value : String) : Option String :=
  match kind with
  | text rule => textComplaint? rule key value
  | flag =>
    if value = "" then emptyComplaint "Bool configuration property" key
    else if isAmong ["true", "false", "t", "f"] value ∨ value = "1" ∨ value = "0" then none
    else some ("Expected bool value for " ++ inQuotes key ++ ": true or false")
  | number least greatest named =>
    if value = "" then emptyComplaint "Integer configuration property" key
    else numberComplaint? least greatest named key value
  | decimal greatest =>
    if value = "" then emptyComplaint "Float configuration property" key
    else decimalComplaint? greatest key value
  | choice known missing =>
    if value = "" then emptyComplaint "Configuration property" key
    else wordComplaint? known missing key (trimmed value)
  | words known missing =>
    if value = "" then emptyComplaint "Configuration property" key
    else
      (value.splitOn ",").findSome? fun part =>
        wordComplaint? known missing key (unsigned (trimmed part))
  | patterns => (patternsOf value).findSome? patternComplaint?
  | plugins =>
    ((trimmed value).splitOn ";").findSome? fun path =>
      if path = "" then none else some (pluginComplaint path)
  | sameAs _ => none
  | lacking reason =>
    some ("Configuration property " ++ inQuotes key ++ " not supported in this build: " ++ reason)
  | callback =>
    some ("Property " ++ inQuotes key ++ " must be set through dedicated .._set_..() function")
  | internal => some ("Internal property " ++ inQuotes key ++ " not settable")
  | foreign advice => some advice

end PropertyKind

end TopicConsumer
