import RocketWatcher.Config
import RocketWatcher.Library.Fallible

/-!
# Loading the behavior config

`loadConfig` of `config.cpp`. A TOML document is the table its parser returns, and the
loader looks at string, integer, array and table nodes only. An integer is 64-bit in the
document and a C++ `int` in the config.

`loadConfig_eq_ok` says what an accepted document is : every required text is there, include
terms and recipients are non-empty, recipient names are distinct, and each integer setting
is the converted value of a positive one. The conversion keeps the value of a setting below
`2 ^ 31` and of no larger one (`castInt_eq_iff`), so an accepted config has the numbers of its
document exactly when these fit in an `int` (`numbersKept_iff`).
-/

namespace RocketWatcher

/-- A node of a TOML document. The other kinds are floats, booleans, dates and times. -/
inductive TomlNode where
  | string (value : String)
  | integer (value : Int)
  | array (elements : List TomlNode)
  | table (entries : List (String × TomlNode))
  | other

abbrev TomlTable := List (String × TomlNode)

def TomlNode.asString : TomlNode → Option String
  | string value => some value
  | _ => none

def TomlNode.asInteger : TomlNode → Option Int
  | integer value => some value
  | _ => none

def TomlNode.asArray : TomlNode → Option (List TomlNode)
  | array elements => some elements
  | _ => none

def TomlNode.asTable : TomlNode → Option TomlTable
  | table entries => some entries
  | _ => none

/-- `table->get(key)`, of a table that may be missing. -/
def tomlGet (table : Option TomlTable) (key : String) : Option TomlNode :=
  table.bind fun entries => entries.lookup key

/-- What is found under the path of the config file. -/
inductive ConfigFile where
  | missing
  | invalid (description : String)
  | parsed (data : TomlTable)

/-- A text of the table `place`, trimmed. -/
def requireString (table : Option TomlTable) (key place : String) : Except Exn String :=
  match (tomlGet table key).bind TomlNode.asString with
  | some value =>
    if (trim value).isEmpty then
      throw (.configError (place ++ "." ++ key ++ " must be a non-empty string"))
    else
      return trim value
  | none => throw (.configError (place ++ "." ++ key ++ " must be a non-empty string"))

def optionalPositiveInt (table : Option TomlTable) (key place : String) (defaultValue : Int) :
    Except Exn Int :=
  match tomlGet table key with
  | none => return defaultValue
  | some node =>
    match node.asInteger with
    | some value =>
      if value ≤ 0 then
        throw (.configError (place ++ "." ++ key ++ " must be a positive integer"))
      else
        return castInt value
    | none => throw (.configError (place ++ "." ++ key ++ " must be a positive integer"))

def optionalString (table : Option TomlTable) (key defaultValue : String) : String :=
  ((tomlGet table key).bind TomlNode.asString).getD defaultValue

/-- One entry of `relevance.include_terms`. -/
def loadIncludeTerm (node : TomlNode) : Except Exn String :=
  match node.asString with
  | some term =>
    if (trim term).isEmpty then
      throw (.configError "relevance.include_terms entries must be non-empty strings")
    else
      return trim term
  | none => throw (.configError "relevance.include_terms entries must be non-empty strings")

def loadIncludeTerms (relevance : Option TomlTable) : Except Exn (List String) :=
  match (tomlGet relevance "include_terms").bind TomlNode.asArray with
  | none | some [] =>
    throw (.configError ("relevance.include_terms must be a non-empty list; " ++
      "an implicit all-provider mode is not supported"))
  | some rawTerms => rawTerms.mapM loadIncludeTerm

/-- The body of the recipient loop : the entry at position `i`, after the recipients so far. -/
def loadRecipient (recipients : List Recipient) (entry : TomlNode × Nat) :
    Except Exn (List Recipient) := do
  let place := "recipients[" ++ toString entry.2 ++ "]"
  let name ← requireString entry.1.asTable "name" place
  let userKeyEnv ← requireString entry.1.asTable "user_key_env" place
  if name ∈ recipients.map Recipient.name then
    throw (.configError "recipient names must be unique")
  else
    return recipients ++ [⟨name, userKeyEnv⟩]

def loadRecipients (data : TomlTable) : Except Exn (List Recipient) :=
  match (data.lookup "recipients").bind TomlNode.asArray with
  | none | some [] => throw (.configError "at least one [[recipients]] entry is required")
  | some rawRecipients => rawRecipients.zipIdx.foldlM loadRecipient []

/-- The settings of the document, before the checks across them. -/
def loadSettings (data : TomlTable) : Except Exn Config := do
  let relevance := (data.lookup "relevance").bind TomlNode.asTable
  let launchProvider ← requireString relevance "launch_provider" "relevance"
  let includeTerms ← loadIncludeTerms relevance
  let recipients ← loadRecipients data
  let pushover := (data.lookup "pushover").bind TomlNode.asTable
  let pushoverTokenEnv ← requireString pushover "token_env" "pushover"
  let alerts := (data.lookup "alerts").bind TomlNode.asTable
  let watcher := (data.lookup "watcher").bind TomlNode.asTable
  let launchSoonMinutes ← optionalPositiveInt alerts "launch_soon_minutes" "alerts" 60
  let launchImminentMinutes ← optionalPositiveInt alerts "launch_imminent_minutes" "alerts" 10
  let correctionTimeShiftMinutes ←
    optionalPositiveInt alerts "correction_time_shift_minutes" "alerts" 30
  let scheduleLookaheadHours ← optionalPositiveInt alerts "schedule_lookahead_hours" "alerts" 30
  let pollIntervalMinutes ← optionalPositiveInt watcher "poll_interval_minutes" "watcher" 5
  let retentionDays ← optionalPositiveInt watcher "retention_days" "watcher" 30
  return {
    launchProvider, includeTerms, recipients, pushoverTokenEnv
    launchSoonMinutes, launchImminentMinutes, correctionTimeShiftMinutes
    scheduleLookaheadHours, pollIntervalMinutes, retentionDays
    displayTimezone := optionalString watcher "display_timezone" "America/Los_Angeles"
    alertRecordsPath := optionalString watcher "alert_records_path" "data/alert_records.json"
    logPath := optionalString watcher "log_path" "logs/watcher.log" }

def loadConfig (locateZone : String → Except Exn TimeZone) (path : String) (file : ConfigFile) :
    Except Exn Config :=
  match file with
  | .missing => throw (.configError ("config file not found: " ++ path))
  | .invalid description =>
    throw (.configError ("invalid TOML in " ++ path ++ ": " ++ description))
  | .parsed data => do
    let config ← loadSettings data
    if config.launchImminentMinutes ≥ config.launchSoonMinutes then
      throw (.configError "alerts.launch_imminent_minutes must be less than launch_soon_minutes")
    else
      match config.displayZone locateZone with
      | .ok _ => return config
      | .error _ =>
        throw (.configError ("watcher.display_timezone is not a valid IANA timezone: \"" ++
          config.displayTimezone ++ "\""))

/-! ## What is accepted -/

/-- An integer setting : where the document has it, its default, and where the config has it. -/
structure IntSetting where
  place : String
  key : String
  defaultValue : Int
  stored : Config → Int

namespace IntSetting

def launchSoonMinutes : IntSetting :=
  ⟨"alerts", "launch_soon_minutes", 60, Config.launchSoonMinutes⟩

def launchImminentMinutes : IntSetting :=
  ⟨"alerts", "launch_imminent_minutes", 10, Config.launchImminentMinutes⟩

def correctionTimeShiftMinutes : IntSetting :=
  ⟨"alerts", "correction_time_shift_minutes", 30, Config.correctionTimeShiftMinutes⟩

def scheduleLookaheadHours : IntSetting :=
  ⟨"alerts", "schedule_lookahead_hours", 30, Config.scheduleLookaheadHours⟩

def pollIntervalMinutes : IntSetting :=
  ⟨"watcher", "poll_interval_minutes", 5, Config.pollIntervalMinutes⟩

def retentionDays : IntSetting :=
  ⟨"watcher", "retention_days", 30, Config.retentionDays⟩

end IntSetting

def intSettings : List IntSetting :=
  [.launchSoonMinutes, .launchImminentMinutes, .correctionTimeShiftMinutes,
    .scheduleLookaheadHours, .pollIntervalMinutes, .retentionDays]

/-- The value the document has for a setting, the default if it has none. -/
def IntSetting.written (setting : IntSetting) (data : TomlTable) : Option Int :=
  match tomlGet ((data.lookup setting.place).bind TomlNode.asTable) setting.key with
  | none => some setting.defaultValue
  | some node => node.asInteger

/-- Every default is a setting the loader would accept and keep. -/
theorem defaultValue_bounds : ∀ s ∈ intSettings, 0 < s.defaultValue ∧ s.defaultValue < 2 ^ 31 := by
  decide

/-- The conversion keeps the positive values that fit in an `int`. -/
theorem castInt_eq_iff {value : Int} (h : 0 < value) : castInt value = value ↔ value < 2 ^ 31 := by
  constructor
  · intro heq
    have := Int.bmod_lt (x := value) (m := 2 ^ 32) (by decide)
    rw [castInt] at heq
    omega
  · intro hlt
    exact Int.bmod_eq_of_le (by omega) (by omega)

theorem requireString_eq_ok {table : Option TomlTable} {key place text : String}
    (h : requireString table key place = .ok text) :
    ∃ value, tomlGet table key = some (.string value) ∧ text = trim value ∧ text ≠ "" := by
  unfold requireString at h
  split at h
  · next value hvalue =>
    split at h
    · cases h
    · next hempty =>
      obtain rfl : trim value = text := by simpa using h
      obtain ⟨node, hnode, hstring⟩ := Option.bind_eq_some_iff.mp hvalue
      cases node <;> simp only [TomlNode.asString, reduceCtorEq, Option.some.injEq] at hstring
      subst hstring
      exact ⟨_, hnode, rfl, by simpa using hempty⟩
  · cases h

theorem optionalPositiveInt_eq_ok {table : Option TomlTable} {key place : String}
    {defaultValue n : Int} (h : optionalPositiveInt table key place defaultValue = .ok n) :
    (tomlGet table key = none ∧ n = defaultValue) ∨
      ∃ value, tomlGet table key = some (.integer value) ∧ 0 < value ∧ n = castInt value := by
  unfold optionalPositiveInt at h
  split at h
  · next hnone => exact Or.inl ⟨hnone, by simpa [eq_comm] using h⟩
  · next node hnode =>
    right
    split at h
    · next value hvalue =>
      split at h
      · cases h
      · next hpos =>
        obtain rfl : castInt value = n := by simpa using h
        cases node <;> simp only [TomlNode.asInteger, reduceCtorEq, Option.some.injEq] at hvalue
        subst hvalue
        exact ⟨_, hnode, by omega, rfl⟩
    · cases h

/-- The stored value of an integer setting is the converted written one. -/
theorem IntSetting.stored_eq {setting : IntSetting} (hmem : setting ∈ intSettings)
    {data : TomlTable} {n : Int}
    (h : optionalPositiveInt ((data.lookup setting.place).bind TomlNode.asTable) setting.key
      setting.place setting.defaultValue = .ok n) :
    ∃ value, setting.written data = some value ∧ 0 < value ∧ n = castInt value := by
  unfold IntSetting.written
  rcases optionalPositiveInt_eq_ok h with ⟨hnone, rfl⟩ | ⟨value, hsome, hpos, rfl⟩
  · obtain ⟨hpos, hlt⟩ := defaultValue_bounds setting hmem
    exact ⟨_, by rw [hnone], hpos, ((castInt_eq_iff hpos).mpr hlt).symm⟩
  · exact ⟨value, by rw [hsome]; rfl, hpos, rfl⟩

theorem loadIncludeTerm_eq_ok {node : TomlNode} {term : String}
    (h : loadIncludeTerm node = .ok term) : term ≠ "" := by
  unfold loadIncludeTerm at h
  split at h
  · split at h
    · cases h
    · next hempty =>
      obtain rfl : _ = term := by simpa using h
      simpa using hempty
  · cases h

/-- At least one include term, none of them empty. -/
theorem loadIncludeTerms_eq_ok {relevance : Option TomlTable} {terms : List String}
    (h : loadIncludeTerms relevance = .ok terms) : terms ≠ [] ∧ ∀ term ∈ terms, term ≠ "" := by
  unfold loadIncludeTerms at h
  split at h
  · cases h
  · cases h
  · next rawTerms hne _ =>
    have hall := Except.mapM_eq_ok.mp h
    refine ⟨?_, fun term hterm => ?_⟩
    · rintro rfl
      exact hne (List.forall₂_nil_right_iff.mp hall)
    · obtain ⟨i, hi, rfl⟩ := List.getElem_of_mem hterm
      exact loadIncludeTerm_eq_ok ((List.forall₂_iff_get.mp hall).2 i (hall.length_eq ▸ hi) hi)

theorem loadRecipient_eq_ok {recipients recipients' : List Recipient} {entry : TomlNode × Nat}
    (h : loadRecipient recipients entry = .ok recipients') :
    ∃ r : Recipient, r.name ∉ recipients.map Recipient.name ∧ recipients' = recipients ++ [r] := by
  obtain ⟨name, -, h⟩ := Except.bind_eq_ok.mp h
  obtain ⟨userKeyEnv, -, h⟩ := Except.bind_eq_ok.mp h
  split at h
  · cases h
  · next hnew => exact ⟨⟨name, userKeyEnv⟩, hnew, by simpa [eq_comm] using h⟩

/-- The recipient loop takes every entry, under a new name. -/
theorem foldlM_loadRecipient {entries : List (TomlNode × Nat)} {before after : List Recipient}
    (h : entries.foldlM loadRecipient before = .ok after)
    (hnodup : (before.map Recipient.name).Nodup) :
    after.length = before.length + entries.length ∧ (after.map Recipient.name).Nodup := by
  induction entries generalizing before with
  | nil =>
    obtain rfl : before = after := by simpa using h
    exact ⟨rfl, hnodup⟩
  | cons entry entries ih =>
    rw [List.foldlM_cons] at h
    obtain ⟨next, hentry, hrest⟩ := Except.bind_eq_ok.mp h
    obtain ⟨r, hnew, rfl⟩ := loadRecipient_eq_ok hentry
    have hnext : ((before ++ [r]).map Recipient.name).Nodup := by
      rw [List.map_append]
      simpa [List.nodup_append] using
        ⟨hnodup, fun r' hr' heq => hnew (heq ▸ List.mem_map_of_mem hr')⟩
    obtain ⟨hlength, hnodup'⟩ := ih hrest hnext
    refine ⟨?_, hnodup'⟩
    simp only [List.length_append, List.length_cons, List.length_nil] at hlength ⊢
    omega

/-- At least one recipient, no name twice. -/
theorem loadRecipients_eq_ok {data : TomlTable} {recipients : List Recipient}
    (h : loadRecipients data = .ok recipients) :
    recipients ≠ [] ∧ (recipients.map Recipient.name).Nodup := by
  unfold loadRecipients at h
  split at h
  · cases h
  · cases h
  · next rawRecipients hne _ =>
    obtain ⟨hlength, hnodup⟩ := foldlM_loadRecipient h List.nodup_nil
    refine ⟨?_, hnodup⟩
    rintro rfl
    exact hne (by simpa [eq_comm] using hlength)

theorem forall_mem_intSettings {P : IntSetting → Prop} :
    (∀ s ∈ intSettings, P s) ↔ P .launchSoonMinutes ∧ P .launchImminentMinutes ∧
      P .correctionTimeShiftMinutes ∧ P .scheduleLookaheadHours ∧ P .pollIntervalMinutes ∧
      P .retentionDays := by
  simp [intSettings]

/-- What the loader checks of a document and the config it makes of it. -/
structure Accepted (locateZone : String → Except Exn TimeZone) (data : TomlTable)
    (config : Config) : Prop where
  launchProvider : config.launchProvider ≠ ""
  includeTerms : config.includeTerms ≠ []
  includeTerm : ∀ term ∈ config.includeTerms, term ≠ ""
  recipients : config.recipients ≠ []
  names : (config.recipients.map Recipient.name).Nodup
  settings : ∀ s ∈ intSettings, ∃ value, s.written data = some value ∧ 0 < value ∧
    s.stored config = castInt value
  imminent_lt_soon : config.launchImminentMinutes < config.launchSoonMinutes
  zone : ∃ zone, config.displayZone locateZone = .ok zone

variable {locateZone : String → Except Exn TimeZone} {path : String} {config : Config}

theorem loadConfig_eq_ok {file : ConfigFile} (h : loadConfig locateZone path file = .ok config) :
    ∃ data, file = .parsed data ∧ Accepted locateZone data config := by
  cases file with
  | missing | invalid => cases h
  | parsed data =>
    obtain ⟨config', hsettings, h⟩ := Except.bind_eq_ok.mp h
    split at h
    · cases h
    next hlt =>
    split at h
    case h_2 => cases h
    next zone hzone =>
    obtain rfl : config' = config := by simpa using h
    refine ⟨data, rfl, ?_⟩
    obtain ⟨provider, hprovider, h⟩ := Except.bind_eq_ok.mp hsettings
    obtain ⟨terms, hterms, h⟩ := Except.bind_eq_ok.mp h
    obtain ⟨recipients, hrecipients, h⟩ := Except.bind_eq_ok.mp h
    obtain ⟨tokenEnv, -, h⟩ := Except.bind_eq_ok.mp h
    obtain ⟨soon, hsoon, h⟩ := Except.bind_eq_ok.mp h
    obtain ⟨imminent, himminent, h⟩ := Except.bind_eq_ok.mp h
    obtain ⟨shift, hshift, h⟩ := Except.bind_eq_ok.mp h
    obtain ⟨lookahead, hlookahead, h⟩ := Except.bind_eq_ok.mp h
    obtain ⟨poll, hpoll, h⟩ := Except.bind_eq_ok.mp h
    obtain ⟨retention, hretention, h⟩ := Except.bind_eq_ok.mp h
    obtain rfl := Except.ok.inj h
    obtain ⟨-, -, -, hne⟩ := requireString_eq_ok hprovider
    obtain ⟨htermsNe, hterm⟩ := loadIncludeTerms_eq_ok hterms
    obtain ⟨hrecipientsNe, hnames⟩ := loadRecipients_eq_ok hrecipients
    refine ⟨hne, htermsNe, hterm, hrecipientsNe, hnames, ?_, by simpa using hlt, zone, hzone⟩
    rw [forall_mem_intSettings]
    obtain ⟨h₁, h₂, h₃, h₄, h₅, h₆⟩ := forall_mem_intSettings.mp fun s (hs : s ∈ intSettings) => hs
    exact ⟨IntSetting.stored_eq h₁ hsoon, IntSetting.stored_eq h₂ himminent,
      IntSetting.stored_eq h₃ hshift, IntSetting.stored_eq h₄ hlookahead,
      IntSetting.stored_eq h₅ hpoll, IntSetting.stored_eq h₆ hretention⟩

/-! ## The numbers of the document -/

/-- Every integer setting of the document fits in an `int`. -/
def SettingsFit (data : TomlTable) : Prop :=
  ∀ s ∈ intSettings, ∀ value, s.written data = some value → value < 2 ^ 31

variable {data : TomlTable}

theorem Accepted.stored_eq_written (h : Accepted locateZone data config) (hfit : SettingsFit data)
    {s : IntSetting} (hs : s ∈ intSettings) :
    s.written data = some (s.stored config) ∧ 1 ≤ s.stored config := by
  obtain ⟨value, hwritten, hpos, hstored⟩ := h.settings s hs
  rw [hstored, (castInt_eq_iff hpos).mpr (hfit s hs value hwritten)]
  exact ⟨hwritten, hpos⟩

/-- The policy of a config whose numbers are kept. -/
structure AlertPolicy.Ordered (policy : AlertPolicy) : Prop where
  launchImminent : 0 < policy.launchImminent
  launchSoon : policy.launchImminent < policy.launchSoon
  correctionTimeShift : 0 < policy.correctionTimeShift
  scheduleLookahead : 0 < policy.scheduleLookahead
  retention : 0 < policy.retention

theorem Accepted.policy_ordered (h : Accepted locateZone data config) (hfit : SettingsFit data) :
    config.policy.Ordered := by
  obtain ⟨-, himminent, hshift, hlookahead, -, hretention⟩ :=
    forall_mem_intSettings.mp fun s hs => (h.stored_eq_written hfit hs).2
  have hlt := h.imminent_lt_soon
  simp only [IntSetting.launchImminentMinutes, IntSetting.correctionTimeShiftMinutes,
    IntSetting.scheduleLookaheadHours, IntSetting.retentionDays] at *
  constructor <;> simp only [Config.policy] <;> omega

/-- Every setting of the config is the one written in the document, and positive; the policy
counts the written values in seconds, and its durations are ordered. -/
structure NumbersKept (data : TomlTable) (config : Config) : Prop where
  stored : ∀ s ∈ intSettings, s.written data = some (s.stored config) ∧ 1 ≤ s.stored config
  policy : ∀ soon imminent shift lookahead retention,
    IntSetting.launchSoonMinutes.written data = some soon →
    IntSetting.launchImminentMinutes.written data = some imminent →
    IntSetting.correctionTimeShiftMinutes.written data = some shift →
    IntSetting.scheduleLookaheadHours.written data = some lookahead →
    IntSetting.retentionDays.written data = some retention →
    config.policy = ⟨soon * 60, imminent * 60, shift * 60, lookahead * 3600, retention * 86400⟩
  ordered : config.policy.Ordered

/-- An accepted config has the numbers of its document exactly when they fit in an `int`. -/
theorem numbersKept_iff (h : loadConfig locateZone path (.parsed data) = .ok config) :
    NumbersKept data config ↔ SettingsFit data := by
  obtain ⟨_, hdata, haccepted⟩ := loadConfig_eq_ok h
  obtain rfl := ConfigFile.parsed.inj hdata
  constructor
  · intro hkept s hs value hwritten
    obtain ⟨value', hwritten', hpos, hstored⟩ := haccepted.settings s hs
    obtain rfl : value = value' := by simpa [hwritten] using hwritten'
    obtain rfl : value = s.stored config := by simpa [hwritten] using (hkept.stored s hs).1
    exact (castInt_eq_iff hpos).mp hstored.symm
  · intro hfit
    refine ⟨fun s hs => haccepted.stored_eq_written hfit hs, ?_, haccepted.policy_ordered hfit⟩
    intro soon imminent shift lookahead retention hsoon himminent hshift hlookahead hretention
    obtain ⟨h₁, h₂, h₃, h₄, -, h₆⟩ :=
      forall_mem_intSettings.mp fun s hs => (haccepted.stored_eq_written hfit hs).1
    obtain rfl := Option.some.inj (hsoon.symm.trans h₁)
    obtain rfl := Option.some.inj (himminent.symm.trans h₂)
    obtain rfl := Option.some.inj (hshift.symm.trans h₃)
    obtain rfl := Option.some.inj (hlookahead.symm.trans h₄)
    obtain rfl := Option.some.inj (hretention.symm.trans h₆)
    rfl

/-- The document of the test suite, with these two tables. -/
def kValid (alerts watcher : TomlTable) : TomlTable :=
  [("relevance", .table [("launch_provider", .string "SpaceX"),
      ("include_terms", .array [.string "Starlink", .string "Starship"])]),
    ("pushover", .table [("token_env", .string "PUSHOVER_TOKEN")]),
    ("recipients", .array [
      .table [("name", .string "alice"), ("user_key_env", .string "PUSHOVER_USER_ALICE")],
      .table [("name", .string "bob"), ("user_key_env", .string "PUSHOVER_USER_BOB")]]),
    ("alerts", .table alerts),
    ("watcher", .table watcher)]

/-- The config of that document, with the default numbers. -/
def kValidConfig : Config where
  launchProvider := "SpaceX"
  includeTerms := ["Starlink", "Starship"]
  recipients := [⟨"alice", "PUSHOVER_USER_ALICE"⟩, ⟨"bob", "PUSHOVER_USER_BOB"⟩]
  pushoverTokenEnv := "PUSHOVER_TOKEN"

/-- A zone database that knows every name. -/
def anyZone (_ : String) : Except Exn TimeZone :=
  .ok pacificDaylight

theorem numbersKept_iff_kValid :
    loadConfig anyZone "config.toml" (.parsed (kValid [] [("retention_days", .integer 14)])) =
        .ok { kValidConfig with retentionDays := 14 } ∧
      NumbersKept (kValid [] [("retention_days", .integer 14)])
        { kValidConfig with retentionDays := 14 } := by
  have hload : loadConfig anyZone "config.toml"
      (.parsed (kValid [] [("retention_days", .integer 14)])) =
        .ok { kValidConfig with retentionDays := 14 } := rfl
  refine ⟨hload, (numbersKept_iff hload).mpr ?_⟩
  rw [SettingsFit, forall_mem_intSettings]
  decide

/-- A poll interval of `2 ^ 32` minutes is accepted, and stored as none at all. -/
theorem numbers_can_wrap :
    ¬∀ (locateZone : String → Except Exn TimeZone) (path : String) (data : TomlTable)
      (config : Config), loadConfig locateZone path (.parsed data) = .ok config →
        NumbersKept data config := by
  intro hall
  have hload : loadConfig anyZone "config.toml"
      (.parsed (kValid [] [("poll_interval_minutes", .integer 4294967296)])) =
        .ok { kValidConfig with pollIntervalMinutes := 0 } := rfl
  have hpoll := (hall _ _ _ _ hload).stored .pollIntervalMinutes (by simp [intSettings])
  exact absurd hpoll.2 (by decide)

end RocketWatcher
