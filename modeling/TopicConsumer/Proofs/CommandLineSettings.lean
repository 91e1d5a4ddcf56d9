import Mathlib.Data.String.Basic
import TopicConsumer.CommandLine
import TopicConsumer.Proofs.OptionOrder

namespace TopicConsumer

variable {α : Type}

open String in
theorem splitOnAux_comma (l m r : List Char) (pieces : List String) :
    splitOnAux (ofList (l ++ m ++ r)) "," ⟨utf8Len l⟩ ⟨utf8Len l + utf8Len m⟩ 0 pieces =
      pieces.reverse ++ (List.splitOnPPrepend (· == ',') r m.reverse).map ofList := by
  -- By induction on what is still to be read. The pieces of `l` are done, and `m` is what has been read of the next.
  induction r generalizing l m pieces with
  | nil =>
    have hend : Pos.Raw.atEnd (ofList (l ++ m ++ [])) ⟨utf8Len l + utf8Len m⟩ = true := by
      simp [atEnd_iff, -ofList_append]
    rw [splitOnAux, if_pos hend, extract_of_valid]
    simp
  | cons c r ih =>
    have hmore : ¬ Pos.Raw.atEnd (ofList (l ++ m ++ c :: r)) ⟨utf8Len l + utf8Len m⟩ = true := by
      have hsize := c.utf8Size_pos
      simp [atEnd_iff, -ofList_append]
      omega
    have hget : Pos.Raw.get (ofList (l ++ m ++ c :: r)) ⟨utf8Len l + utf8Len m⟩ = c := by
      simpa [-ofList_append] using get_of_valid (l ++ m) (c :: r)
    have hnext : Pos.Raw.next (ofList (l ++ m ++ c :: r)) ⟨utf8Len l + utf8Len m⟩ =
        ⟨utf8Len l + utf8Len m + c.utf8Size⟩ := by
      simpa [-ofList_append] using next_of_valid (l ++ m) c r
    have hcomma : Pos.Raw.get "," 0 = ',' := by decide
    have hone : Pos.Raw.next "," 0 = ⟨1⟩ := by decide
    rw [splitOnAux, if_neg hmore, hget, hcomma, hone, hnext, List.splitOnPPrepend_cons_eq_if]
    by_cases hc : c = ','
    · subst hc
      have hlast : Pos.Raw.atEnd "," ⟨1⟩ = true := by decide
      have hback : (⟨utf8Len l + utf8Len m + ','.utf8Size⟩ : Pos.Raw).unoffsetBy ⟨1⟩ =
          ⟨utf8Len l + utf8Len m⟩ := rfl
      have hrest := ih (l ++ m ++ [',']) [] (ofList m :: pieces)
      simp only [beq_self_eq_true, if_true, hlast, hback, extract_of_valid]
      simpa [Nat.add_assoc] using hrest
    · have hsame : (⟨utf8Len l + utf8Len m⟩ : Pos.Raw).unoffsetBy 0 = ⟨utf8Len l + utf8Len m⟩ := rfl
      have hrest := ih l (m ++ [c]) pieces
      rw [if_neg (by simpa using hc), if_neg (by simpa using hc), hsame, hnext]
      simpa [Nat.add_assoc] using hrest

theorem splitOn_comma (text : String) : text.splitOn "," = (text.toList.splitOn ',').map String.ofList := by
  have hsplit := splitOnAux_comma [] [] text.toList []
  rw [String.splitOn, if_neg (by decide)]
  simpa [List.splitOn] using hsplit

theorem splitOn_comma_ne_nil (text : String) : text.splitOn "," ≠ [] := by
  rw [splitOn_comma]
  simp [List.splitOn, List.splitOnP_ne_nil]

theorem intercalate_splitOn_comma (text : String) : ",".intercalate (text.splitOn ",") = text := by
  have hchars : String.toList ∘ String.ofList = id := funext fun _ => String.toList_ofList
  rw [splitOn_comma, ← String.toList_inj, String.toList_intercalate, List.map_map, hchars, List.map_id]
  exact List.intercalate_splitOn ','

theorem intercalate_flatMap_splitOn (texts : List String) :
    ",".intercalate (texts.flatMap (·.splitOn ",")) = ",".intercalate texts := by
  induction texts with
  | nil => rfl
  | cons text rest ih =>
    rw [List.flatMap_cons]
    cases rest with
    | nil => simp [intercalate_splitOn_comma]
    | cons next rest =>
      have hpieces : (next :: rest).flatMap (·.splitOn ",") ≠ [] := by
        simp [splitOn_comma_ne_nil]
      rw [String.intercalate_append_of_ne_nil (splitOn_comma_ne_nil text) hpieces, ih, intercalate_splitOn_comma,
        String.intercalate_cons_of_ne_nil (List.cons_ne_nil _ _)]

/-- A flag on the command line with its value, which stands behind an equals sign or is a word of its own. -/
structure Occurrence where
  flag : Flag
  value : String
  attached : Bool

namespace Occurrence

def words (occurrence : Occurrence) : List String :=
  if occurrence.attached then ["--" ++ occurrence.flag.long ++ "=" ++ occurrence.value]
  else ["--" ++ occurrence.flag.long, occurrence.value]

def broker? (occurrence : Occurrence) : Option String :=
  if occurrence.flag = .brokers then some occurrence.value else none

end Occurrence

/-- The texts of the brokers: those that were written, or else that of the environment. -/
def orEnvironment (env : Table String String) (texts : List String) : List String :=
  if texts = [] then (env.get? Flag.brokers.envName).toList else texts

theorem orEnvironment_twice (env : Table String String) (texts : List String) :
    orEnvironment env (orEnvironment env texts) = orEnvironment env texts := by
  unfold orEnvironment
  by_cases hnone : texts = []
  · rw [if_pos hnone]
    exact ite_self _
  · rw [if_neg hnone, if_neg hnone]

theorem Flag.long_chars (flag : Flag) : flag.long.toList ≠ [] ∧ '=' ∉ flag.long.toList := by
  cases flag <;> simp [Flag.long]

theorem Flag.ofLong?_long (flag : Flag) : Flag.ofLong? flag.long = some flag := by
  cases flag <;> decide

theorem Flag.long_ne_help (flag : Flag) : flag.long ≠ "help" := by
  cases flag <;> decide

theorem bind_eq_ok {ε β γ : Type} {made : Except ε β} {next : β → Except ε γ} {result : γ} :
    made.bind next = .ok result ↔ ∃ value, made = .ok value ∧ next value = .ok result := by
  cases made with
  | error => simp [Except.bind]
  | ok value => simp [Except.bind]

namespace GivenFlags

variable {given after : GivenFlags} {last : Option (Flag × Option String)} {flag : Flag} {value : String}
  {texts rest : List String}

theorem readWords_long (given : GivenFlags) (last : Option (Flag × Option String)) (flag : Flag)
    {behind : List Char} (hbehind : behind = [] ∨ ∃ value, behind = '=' :: value) (rest : List String) :
    readWords given last (("--" ++ flag.long ++ String.ofList behind) :: rest) =
      (given.complete last).bind fun completed => match behind.tail?.map String.ofList with
        | none => readWords completed (some (flag, none)) rest
        | some value => (completed.take flag value).bind fun taken => readWords taken none rest := by
  obtain ⟨hne, hfree⟩ := flag.long_chars
  have hname : ∀ c ∈ flag.long.toList, decide (c ≠ '=') = true := fun c hc =>
    decide_eq_true fun he => hfree (he ▸ hc)
  obtain ⟨c, name, hlong⟩ := List.exists_cons_of_ne_nil hne
  have hword : ("--" ++ flag.long ++ String.ofList behind).toList = '-' :: '-' :: c :: (name ++ behind) := by
    simp [hlong]
  have htake : (c :: (name ++ behind)).takeWhile (· ≠ '=') = flag.long.toList := by
    rw [← List.cons_append, ← hlong, List.takeWhile_append_of_pos hname]
    rcases hbehind with rfl | ⟨value, rfl⟩ <;> simp
  have hdrop : (c :: (name ++ behind)).dropWhile (· ≠ '=') = behind := by
    rw [← List.cons_append, ← hlong, List.dropWhile_append_of_pos hname]
    rcases hbehind with rfl | ⟨value, rfl⟩ <;> simp
  rw [readWords.eq_def]
  simp only [hword]
  simp only [htake, hdrop, String.ofList_toList, flag.long_ne_help, if_false, flag.ofLong?_long]
  cases behind.tail?.map String.ofList <;> rfl

theorem readWords_flag (given : GivenFlags) (last : Option (Flag × Option String)) (flag : Flag)
    (rest : List String) :
    readWords given last (("--" ++ flag.long) :: rest) =
      (given.complete last).bind fun completed => readWords completed (some (flag, none)) rest := by
  simpa using readWords_long given last flag (Or.inl rfl) rest

theorem readWords_attached (given : GivenFlags) (last : Option (Flag × Option String)) (flag : Flag)
    (value : String) (rest : List String) :
    readWords given last (("--" ++ flag.long ++ "=" ++ value) :: rest) =
      (given.complete last).bind fun completed =>
        (completed.take flag value).bind fun taken => readWords taken none rest := by
  have hbehind : String.ofList ('=' :: value.toList) = "=" ++ value := by
    rw [← String.toList_inj]
    simp
  have hread := readWords_long given last flag (Or.inr ⟨value.toList, rfl⟩) rest
  rw [hbehind, ← String.append_assoc] at hread
  simpa using hread

theorem readWords_value (h : readWords given (some (flag, none)) (value :: rest) = .ok after) :
    readWords given (some (flag, some value)) rest = .ok after := by
  -- A word that looks like a flag is refused where a value is missing, and every other word is the value.
  rw [readWords.eq_def] at h
  simp only [complete] at h
  split at h
  next => split at h <;> cases h
  next =>
    split at h
    · split at h <;> cases h
    · split at h <;> cases h
  next => cases h
  next => cases h
  next => exact h

def HasBrokers (given : GivenFlags) (texts : List String) : Prop :=
  given.get? .brokers = if texts = [] then none else some (.texts (texts.flatMap (·.splitOn ",")))

theorem take_brokers (h : HasBrokers given texts) (htake : given.take .brokers value = .ok after) :
    HasBrokers after (texts ++ [value]) := by
  have hset : after = Table.set .brokers (.texts ((texts ++ [value]).flatMap (·.splitOn ","))) given := by
    unfold HasBrokers at h
    by_cases hnone : texts = []
    · rw [take, h, if_pos hnone] at htake
      cases htake
      simp [hnone]
    · rw [take, h, if_neg hnone] at htake
      cases htake
      simp
  rw [HasBrokers, hset, Table.get?_set, if_pos rfl, if_neg (by simp)]

theorem take_other (hother : flag ≠ .brokers) (h : HasBrokers given texts)
    (htake : given.take flag value = .ok after) : HasBrokers after texts := by
  have hset : ∃ v, after = Table.set flag v given := by
    rw [take] at htake
    split at htake
    next => cases htake
    next =>
      cases hread : FlagValue.read flag value with
      | error =>
        rw [hread] at htake
        cases htake
      | ok v =>
        rw [hread] at htake
        dsimp only [bind, Except.bind] at htake
        split at htake <;> cases htake <;> exact ⟨_, rfl⟩
  obtain ⟨v, rfl⟩ := hset
  rw [HasBrokers, Table.get?_set, if_neg (Ne.symm hother), h]

theorem HasBrokers.take (attached : Bool) (h : HasBrokers given texts) (htake : given.take flag value = .ok after) :
    HasBrokers after (texts ++ (Occurrence.broker? ⟨flag, value, attached⟩).toList) := by
  by_cases hbrokers : flag = .brokers
  · subst hbrokers
    simpa [Occurrence.broker?] using take_brokers h htake
  · simpa [Occurrence.broker?, hbrokers] using take_other hbrokers h htake

def pending : Option (Flag × Option String) → List String
  | some (.brokers, some value) => [value]
  | _ => []

theorem HasBrokers.complete (h : HasBrokers given texts) (hcomplete : given.complete last = .ok after) :
    HasBrokers after (texts ++ pending last) := by
  rcases last with _ | ⟨flag, _ | value⟩
  · cases hcomplete
    simpa [pending] using h
  · cases hcomplete
  · have htaken := h.take false hcomplete
    cases flag <;> exact htaken

theorem HasBrokers.readWords (occurrences : List Occurrence) (h : HasBrokers given texts)
    (hread : given.readWords last (occurrences.flatMap Occurrence.words) = .ok after) :
    HasBrokers after (texts ++ pending last ++ occurrences.filterMap Occurrence.broker?) := by
  -- By induction on the occurrences. A flag that was read with its value is pending until the next one, or the end.
  induction occurrences generalizing given last texts with
  | nil => simpa using h.complete hread
  | cons occurrence occurrences ih =>
    obtain ⟨flag, value, attached⟩ := occurrence
    rw [List.flatMap_cons] at hread
    cases attached with
    | true =>
      change given.readWords last (("--" ++ flag.long ++ "=" ++ value) :: _) = _ at hread
      rw [readWords_attached] at hread
      obtain ⟨completed, hcomplete, hread⟩ := bind_eq_ok.mp hread
      obtain ⟨taken, htake, hread⟩ := bind_eq_ok.mp hread
      have hall := ih ((h.complete hcomplete).take true htake) hread
      cases flag <;> simpa [pending, Occurrence.broker?] using hall
    | false =>
      change given.readWords last (("--" ++ flag.long) :: value :: _) = _ at hread
      rw [readWords_flag] at hread
      obtain ⟨completed, hcomplete, hread⟩ := bind_eq_ok.mp hread
      have hall := ih (h.complete hcomplete) (readWords_value hread)
      cases flag <;> simpa [pending, Occurrence.broker?] using hall

theorem HasBrokers.fillIn_cons (env : Table String String) (asked : List Flag) (h : HasBrokers given texts)
    (hfill : given.fillIn env (flag :: asked) = .ok after) :
    ∃ filled : GivenFlags, filled.fillIn env asked = .ok after ∧
      HasBrokers filled (if flag = .brokers then orEnvironment env texts else texts) := by
  rw [GivenFlags.fillIn] at hfill
  split at hfill
  next value habsent henv =>
    obtain ⟨filled, htake, hfill⟩ := bind_eq_ok.mp hfill
    refine ⟨filled, hfill, ?_⟩
    by_cases hbrokers : flag = .brokers
    · subst hbrokers
      have hnone : texts = [] := by
        by_contra hsome
        rw [h, if_neg hsome] at habsent
        cases habsent
      have htaken := take_brokers h htake
      simpa [orEnvironment, hnone, henv] using htaken
    · rw [if_neg hbrokers]
      exact take_other hbrokers h htake
  next hgiven =>
    refine ⟨given, hfill, ?_⟩
    by_cases hbrokers : flag = .brokers
    · subst hbrokers
      by_cases hnone : texts = []
      · have habsent : given.get? .brokers = none := by rw [h, if_pos hnone]
        have henv : env.get? Flag.brokers.envName = none :=
          Option.eq_none_iff_forall_ne_some.mpr fun value hvalue => hgiven value habsent hvalue
        simpa [orEnvironment, hnone, henv] using h
      · simpa [orEnvironment, hnone] using h
    · rw [if_neg hbrokers]
      exact h

theorem HasBrokers.fillIn (env : Table String String) (asked : List Flag) (h : HasBrokers given texts)
    (hfill : given.fillIn env asked = .ok after) :
    HasBrokers after (if .brokers ∈ asked then orEnvironment env texts else texts) := by
  induction asked generalizing given texts with
  | nil =>
    cases hfill
    simpa using h
  | cons flag asked ih =>
    obtain ⟨filled, hrest, hfilled⟩ := h.fillIn_cons env asked hfill
    have hall := ih hfilled hrest
    by_cases hbrokers : flag = .brokers
    · subst hbrokers
      simpa [orEnvironment_twice] using hall
    · simpa [hbrokers, Ne.symm hbrokers] using hall

theorem HasBrokers.flags {flags : Flags} (h : HasBrokers given texts) (hflags : given.flags = .ok flags) :
    flags.brokers = texts.flatMap (·.splitOn ",") := by
  have hfound : given.get? .brokers = if texts = [] then none else some (.texts (texts.flatMap (·.splitOn ","))) := h
  unfold GivenFlags.flags at hflags
  by_cases hnone : texts = []
  · rw [if_pos hnone] at hfound
    rw [hfound] at hflags
    cases hflags
  · rw [if_neg hnone] at hfound
    rw [hfound] at hflags
    cases htopic : given.text? .topic with
    | none =>
      rw [htopic] at hflags
      cases hflags
    | some topic =>
      rw [htopic] at hflags
      cases hflags
      rfl

end GivenFlags

namespace Flags

variable {flags : Flags} {occurrences : List Occurrence} {env : Table String String}

/-- The brokers of a command line are the texts that were written on it, each of them parted at its commas, or else
that of the environment. -/
theorem parse_brokers (h : parse (occurrences.flatMap Occurrence.words) env = .ok flags) :
    flags.brokers = (orEnvironment env (occurrences.filterMap Occurrence.broker?)).flatMap (·.splitOn ",") := by
  change (GivenFlags.readWords [] none _).bind (fun given =>
    (given.fillIn env Flag.all).bind GivenFlags.flags) = _ at h
  obtain ⟨given, hread, h⟩ := bind_eq_ok.mp h
  obtain ⟨filled, hfill, hflags⟩ := bind_eq_ok.mp h
  have hempty : GivenFlags.HasBrokers [] [] := rfl
  have hgiven := hempty.readWords occurrences hread
  have hfilled := hgiven.fillIn env Flag.all hfill
  rw [if_pos (by decide)] at hfilled
  exact hfilled.flags hflags

/-- A command line that a consumer can be made of. -/
structure Sufficient (flags : Flags) : Prop where
  name : flags.name ≠ ""
  topic : flags.topic ≠ ""
  brokers : flags.brokers ≠ []
  group : flags.groupId ≠ some ""
  timeout : flags.sessionTimeoutMs ≠ 0

/-- A configuration with the settings of a command line. -/
structure Arrived (flags : Flags) (config : Config α) : Prop where
  name : config.client.get? "client.id" = some flags.name
  timeout : config.client.get? sessionTimeoutKey = some (toString flags.sessionTimeoutMs.toNat)
  start : config.start = flags.start
  mode : config.decodeMode = flags.decodeMode
  size : config.bufferSize =
    flags.bufferSize.getD (if flags.groupId.isSome then Factory.groupBuffer else Factory.directBuffer)
  brokers : ∀ texts, flags.brokers = texts.flatMap (·.splitOn ",") → ∀ group,
    (config.groupClient group).get? "bootstrap.servers" = some (",".intercalate texts) ∧
      config.directClient.get? "bootstrap.servers" = some (",".intercalate texts)

end Flags

theorem nanos_ofMillis (millis : UInt64) : (Duration.ofMillis millis.toNat).nanos = millis.toNat * 1000000 := by
  -- The longest duration has as many seconds as a word can count, so no number of milliseconds is cut.
  have hword : millis.toNat < 18446744073709551616 := millis.toNat_lt
  have hlongest : Duration.longest.nanos = 18446744073709551616 * 1000000000 - 1 := rfl
  rw [Duration.ofMillis, Duration.nanos_ofNanos]
  omega

theorem millis_ofMillis (millis : UInt64) : (Duration.ofMillis millis.toNat).millis = millis.toNat := by
  rw [Duration.millis, nanos_ofMillis]
  omega

theorem ofMillis_eq_zero (millis : UInt64) : Duration.ofMillis millis.toNat = Duration.zero ↔ millis = 0 := by
  constructor
  · intro hzero
    have hnanos : millis.toNat * 1000000 = 0 := by rw [← nanos_ofMillis, hzero, Duration.zero]
    exact UInt64.toNat_inj.mp ((Nat.mul_eq_zero.mp hnanos).resolve_right (by decide))
  · rintro rfl
    exact Duration.ext rfl

theorem Factory.check_ok {factory made : Factory α} :
    factory.check = .ok made ↔
      made = factory ∧ factory.name ≠ "" ∧ factory.topic ≠ "" ∧ factory.brokers ≠ [] ∧ factory.group ≠ some "" := by
  unfold check
  split
  next hname => simp [hname]
  next hname =>
    split
    next hbrokers => simp [hbrokers]
    next hbrokers =>
      split
      next htopic => simp [htopic]
      next htopic =>
        split
        next hgroup => simp [hgroup]
        next hgroup => simp [hname, hbrokers, htopic, hgroup, eq_comm]

open ConsumerOption

namespace Flags

theorem custom_not_mem_options (flags : Flags) (name : String) (edit : Config α → Except String (Config α)) :
    .custom name edit ∉ (flags.options : List (ConsumerOption α)) := by
  cases hsize : flags.bufferSize <;> simp [options, hsize]

theorem options_faultless (flags : Flags) :
    (flags.options : List (ConsumerOption α)).findSome? fault? = none ↔ flags.sessionTimeoutMs ≠ 0 := by
  have htimeout := ofMillis_eq_zero flags.sessionTimeoutMs
  cases hsize : flags.bufferSize <;> simp [options, hsize, fault?, refusal?, htimeout]

variable {flags : Flags} {base config : Config α}

theorem arrived_of_lastWritten (h : LastWritten flags.options base config)
    (hclient : base.client = defaultClient flags.name) (hbrokers : base.brokers = flags.brokers)
    (hsize : base.bufferSize = if flags.groupId.isSome then Factory.groupBuffer else Factory.directBuffer) :
    Arrived flags config := by
  have hlast {β : Type} (writes : ConsumerOption α → Option β) :
      last? writes flags.options = last? writes ([.start flags.start,
        .sessionTimeout (Duration.ofMillis flags.sessionTimeoutMs.toNat), .decodeMode flags.decodeMode] ++
          (flags.bufferSize.map ConsumerOption.buffer).toList) := rfl
  constructor
  case name =>
    rw [h.property, hclient, hlast]
    cases flags.bufferSize <;> rfl
  case timeout =>
    have hmillis := millis_ofMillis flags.sessionTimeoutMs
    rw [h.property, hlast]
    cases flags.bufferSize <;> exact congrArg (fun millis => some (toString millis)) hmillis
  case start =>
    rw [h.start, hlast]
    cases flags.bufferSize <;> rfl
  case mode =>
    rw [h.mode, hlast]
    cases flags.bufferSize <;> rfl
  case size =>
    rw [h.size, hlast, ← hsize]
    cases flags.bufferSize <;> rfl
  case brokers =>
    intro texts htexts group
    have hbootstrap : config.bootstrap = ",".intercalate texts := by
      rw [Config.bootstrap, h.brokers, hbrokers, htexts, intercalate_flatMap_splitOn]
    simp [Config.groupClient, Config.directClient, Table.get?_set, hbootstrap]

end Flags

theorem Factory.config_made_iff {factory : Factory α} (hown : ∀ name edit, .custom name edit ∉ factory.options) :
    (∃ config, factory.config = .ok config) ↔ factory.options.findSome? fault? = none := by
  have hfault (failure : Failure) :
      factory.config = .error failure ↔ factory.options.findSome? fault? = some failure :=
    applyAll_first_fault hown
  cases hconfig : factory.config with
  | error failure => simp [(hfault failure).mp hconfig]
  | ok config =>
    have hnone : factory.options.findSome? fault? = none := by
      refine Option.eq_none_iff_forall_ne_some.mpr fun failure hsome => ?_
      have herror := (hfault failure).mpr hsome
      rw [hconfig] at herror
      cases herror
    simp [hnone]

namespace Flags

/-- The settings of a command line arrive as they were given. A configuration is made exactly if the command line is
sufficient. It has the name as the identity of the client, the session timeout in decimal digits, the start and the
decode mode, the buffer or else the default of the mode that the group decides, and as bootstrap servers the texts of
the brokers joined by commas, if these were parted at their commas. -/
theorem settings_arrive (flags : Flags) (decoder : Decoder α) :
    ((∃ config, (flags.factory decoder).bind Factory.config = .ok config) ↔ flags.Sufficient) ∧
      ∀ config, (flags.factory decoder).bind Factory.config = .ok config → flags.Arrived config := by
  let draft : Factory α := ⟨flags.name, flags.groupId, flags.topic, flags.brokers, decoder, flags.options⟩
  have hown : ∀ name edit, .custom name edit ∉ draft.options := flags.custom_not_mem_options
  have hmade (config : Config α) : (flags.factory decoder).bind Factory.config = .ok config ↔
      (flags.name ≠ "" ∧ flags.topic ≠ "" ∧ flags.brokers ≠ [] ∧ flags.groupId ≠ some "") ∧
        draft.config = .ok config := by
    change draft.check.bind Factory.config = .ok config ↔ _
    rw [bind_eq_ok]
    simp only [Factory.check_ok]
    constructor
    · rintro ⟨_, ⟨rfl, hchecked⟩, hconfig⟩
      exact ⟨hchecked, hconfig⟩
    · rintro ⟨hchecked, hconfig⟩
      exact ⟨draft, ⟨rfl, hchecked⟩, hconfig⟩
  have htaken : (∃ config, draft.config = .ok config) ↔ flags.sessionTimeoutMs ≠ 0 :=
    (Factory.config_made_iff hown).trans flags.options_faultless
  refine ⟨?_, ?_⟩
  · constructor
    · rintro ⟨config, h⟩
      obtain ⟨⟨hname, htopic, hbrokers, hgroup⟩, hconfig⟩ := (hmade config).mp h
      exact ⟨hname, htopic, hbrokers, hgroup, htaken.mp ⟨config, hconfig⟩⟩
    · intro h
      obtain ⟨config, hconfig⟩ := htaken.mpr h.timeout
      exact ⟨config, (hmade config).mpr ⟨⟨h.name, h.topic, h.brokers, h.group⟩, hconfig⟩⟩
  · intro config h
    exact arrived_of_lastWritten (applyAll_lastWritten hown ((hmade config).mp h).2) rfl rfl rfl

/-- Two texts of brokers, of which each has an empty entry, and the longest session timeout. -/
theorem empty_brokers_arrive :
    let args := ["--brokers", "a,,b", "--topic", "t", "--session-timeout-ms=18446744073709551615", "--brokers=,c"]
    ∃ flags config, parse args [] = .ok flags ∧
      (flags.factory Decoder.length).bind Factory.config = .ok config ∧
      config.client.get? "client.id" = some "async-kafka" ∧
      config.client.get? sessionTimeoutKey = some "18446744073709551615" ∧
      config.bufferSize = 1000 ∧ config.directClient.get? "bootstrap.servers" = some "a,,b,,c" := by
  intro args
  let flags : Flags :=
    ⟨"async-kafka", "a,,b".splitOn "," ++ ",c".splitOn ",", "t", none, none, .earliest, 18446744073709551615,
      .concurrent⟩
  let occurrences : List Occurrence :=
    [⟨.brokers, "a,,b", false⟩, ⟨.topic, "t", false⟩, ⟨.sessionTimeout, "18446744073709551615", true⟩,
      ⟨.brokers, ",c", true⟩]
  have hparse : parse (occurrences.flatMap Occurrence.words) [] = .ok flags := rfl
  obtain ⟨hmade, harrived⟩ := settings_arrive flags Decoder.length
  have htexts : flags.brokers = ["a,,b", ",c"].flatMap (·.splitOn ",") := parse_brokers hparse
  have hsufficient : flags.Sufficient :=
    ⟨by decide, by decide, by simp [htexts, splitOn_comma_ne_nil], by decide, by decide⟩
  obtain ⟨config, hconfig⟩ := hmade.mpr hsufficient
  have h := harrived config hconfig
  have hdigits : toString flags.sessionTimeoutMs.toNat = "18446744073709551615" := by decide
  exact ⟨flags, config, hparse, hconfig, h.name, hdigits ▸ h.timeout, h.size, (h.brokers _ htexts "").2⟩

end Flags

end TopicConsumer
