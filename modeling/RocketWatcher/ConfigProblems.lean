import RocketWatcher.LoadConfig
import RocketWatcher.Library.Checked

/-!
# What is wrong with a config

`problems` lists everything that is wrong with a config file, in the order in which the loader
looks : the texts that are missing or blank, the terms and recipients one by one, names that are
there already, numbers that are not positive integers, thresholds in the wrong order, an unknown
time zone. `configOf` reads a document without looking for problems. The loader accepts exactly
the files with no problem and reads them so, and refuses the others with the first of their
problems (`loadConfig_reports`).
-/

open Checked

namespace RocketWatcher

/-! ## Reading a document -/

def textOf (table : Option TomlTable) (key : String) : String :=
  trim (((tomlGet table key).bind TomlNode.asString).getD "")

def textProblems (table : Option TomlTable) (key place : String) : List String :=
  if textOf table key = "" then [place ++ "." ++ key ++ " must be a non-empty string"] else []

def intOf (table : Option TomlTable) (key : String) (defaultValue : Int) : Int :=
  match tomlGet table key with
  | none => defaultValue
  | some node => castInt (node.asInteger.getD 0)

/-- An integer that is there is positive. -/
def intProblems (table : Option TomlTable) (key place : String) : List String :=
  match tomlGet table key with
  | none => []
  | some node =>
    if node.asInteger.getD 0 ≤ 0 then [place ++ "." ++ key ++ " must be a positive integer"] else []

def termOf (node : TomlNode) : String :=
  trim (node.asString.getD "")

def termNodes (relevance : Option TomlTable) : List TomlNode :=
  ((tomlGet relevance "include_terms").bind TomlNode.asArray).getD []

def termProblems (relevance : Option TomlTable) : List String :=
  if termNodes relevance = [] then ["relevance.include_terms must be a non-empty list; " ++
    "an implicit all-provider mode is not supported"]
  else (termNodes relevance).flatMap fun node =>
    if termOf node = "" then ["relevance.include_terms entries must be non-empty strings"] else []

/-- An entry of `recipients`, with its position. -/
def recipientOf (entry : TomlNode × Nat) : Recipient :=
  ⟨textOf entry.1.asTable "name", textOf entry.1.asTable "user_key_env"⟩

/-- What is wrong with an entry that comes after others. -/
def recipientProblems (before : List (TomlNode × Nat)) (entry : TomlNode × Nat) : List String :=
  let place := "recipients[" ++ toString entry.2 ++ "]"
  textProblems entry.1.asTable "name" place ++ (textProblems entry.1.asTable "user_key_env" place ++
    if (recipientOf entry).name ∈ (before.map recipientOf).map Recipient.name then
      ["recipient names must be unique"]
    else [])

def recipientNodes (data : TomlTable) : List TomlNode :=
  ((data.lookup "recipients").bind TomlNode.asArray).getD []

def recipientsProblems (data : TomlTable) : List String :=
  if recipientNodes data = [] then ["at least one [[recipients]] entry is required"]
  else wrongAfter recipientProblems [] (recipientNodes data).zipIdx

/-- The table of this name. -/
def tableOf (data : TomlTable) (place : String) : Option TomlTable :=
  (data.lookup place).bind TomlNode.asTable

/-- The document as a config, whatever is wrong with it. -/
def configOf (data : TomlTable) : Config where
  launchProvider := textOf (tableOf data "relevance") "launch_provider"
  includeTerms := (termNodes (tableOf data "relevance")).map termOf
  recipients := (recipientNodes data).zipIdx.map recipientOf
  pushoverTokenEnv := textOf (tableOf data "pushover") "token_env"
  launchSoonMinutes := intOf (tableOf data "alerts") "launch_soon_minutes" 60
  launchImminentMinutes := intOf (tableOf data "alerts") "launch_imminent_minutes" 10
  correctionTimeShiftMinutes := intOf (tableOf data "alerts") "correction_time_shift_minutes" 30
  scheduleLookaheadHours := intOf (tableOf data "alerts") "schedule_lookahead_hours" 30
  pollIntervalMinutes := intOf (tableOf data "watcher") "poll_interval_minutes" 5
  retentionDays := intOf (tableOf data "watcher") "retention_days" 30
  displayTimezone := optionalString (tableOf data "watcher") "display_timezone"
    "America/Los_Angeles"
  alertRecordsPath := optionalString (tableOf data "watcher") "alert_records_path"
    "data/alert_records.json"
  logPath := optionalString (tableOf data "watcher") "log_path" "logs/watcher.log"

/-- What is wrong with single settings. -/
def settingProblems (data : TomlTable) : List String :=
  textProblems (tableOf data "relevance") "launch_provider" "relevance" ++
    (termProblems (tableOf data "relevance") ++
    (recipientsProblems data ++
    (textProblems (tableOf data "pushover") "token_env" "pushover" ++
    intSettings.flatMap fun s => intProblems (tableOf data s.place) s.key s.place)))

/-- What is wrong between settings, and with the time zone. -/
def configProblems (locateZone : String → Except Exn TimeZone) (config : Config) : List String :=
  (if config.launchImminentMinutes ≥ config.launchSoonMinutes then
    ["alerts.launch_imminent_minutes must be less than launch_soon_minutes"] else []) ++
  match config.displayZone locateZone with
  | .ok _ => []
  | .error _ => ["watcher.display_timezone is not a valid IANA timezone: \"" ++
      config.displayTimezone ++ "\""]

/-- Everything that is wrong with the file under the path. -/
def problems (locateZone : String → Except Exn TimeZone) (path : String) : ConfigFile → List String
  | .missing => ["config file not found: " ++ path]
  | .invalid description => ["invalid TOML in " ++ path ++ ": " ++ description]
  | .parsed data => settingProblems data ++ configProblems locateZone (configOf data)

/-! ## The loader reports the first of them -/

variable {table : Option TomlTable} {key place : String}

theorem requireString_eq (table : Option TomlTable) (key place : String) :
    requireString table key place =
      orFirst .configError (textProblems table key place) (textOf table key) := by
  unfold requireString textProblems textOf
  cases (tomlGet table key).bind TomlNode.asString with
  | none => rfl
  | some value =>
    by_cases hblank : trim value = ""
    · simp [hblank, orFirst]
    · simp [hblank, orFirst]

theorem optionalPositiveInt_eq (table : Option TomlTable) (key place : String)
    (defaultValue : Int) : optionalPositiveInt table key place defaultValue =
      orFirst .configError (intProblems table key place) (intOf table key defaultValue) := by
  unfold optionalPositiveInt intProblems intOf
  cases tomlGet table key with
  | none => rfl
  | some node =>
    cases hvalue : node.asInteger with
    | none => simp [hvalue, orFirst]
    | some value =>
      by_cases hpos : value ≤ 0
      · simp [hvalue, hpos, orFirst]
      · simp [hvalue, hpos, orFirst]

theorem loadIncludeTerm_eq (node : TomlNode) : loadIncludeTerm node =
    orFirst .configError
      (if termOf node = "" then ["relevance.include_terms entries must be non-empty strings"]
        else []) (termOf node) := by
  unfold loadIncludeTerm termOf
  cases node.asString with
  | none => rfl
  | some term =>
    by_cases hblank : trim term = ""
    · simp [hblank, orFirst]
    · simp [hblank, orFirst]

theorem loadIncludeTerms_eq (relevance : Option TomlTable) : loadIncludeTerms relevance =
    orFirst .configError (termProblems relevance) ((termNodes relevance).map termOf) := by
  unfold loadIncludeTerms termProblems termNodes
  cases (tomlGet relevance "include_terms").bind TomlNode.asArray with
  | none => rfl
  | some nodes =>
    cases nodes with
    | nil => rfl
    | cons node nodes =>
      rw [Option.getD_some, if_neg (List.cons_ne_nil node nodes)]
      exact mapM_orFirst fun node _ => loadIncludeTerm_eq node

theorem loadRecipient_eq (before : List (TomlNode × Nat)) (entry : TomlNode × Nat) :
    loadRecipient (before.map recipientOf) entry =
      orFirst .configError (recipientProblems before entry)
        (before.map recipientOf ++ [recipientOf entry]) := by
  unfold loadRecipient recipientProblems
  dsimp only
  rw [requireString_eq]
  refine orFirst_bind fun _ => ?_
  rw [requireString_eq]
  refine orFirst_bind fun _ => ?_
  by_cases hname : (recipientOf entry).name ∈ (before.map recipientOf).map Recipient.name
  · rw [if_pos hname]
    exact if_pos hname
  · rw [if_neg hname]
    exact if_neg hname

theorem loadRecipients_eq (data : TomlTable) : loadRecipients data =
    orFirst .configError (recipientsProblems data)
      ((recipientNodes data).zipIdx.map recipientOf) := by
  unfold loadRecipients recipientsProblems recipientNodes
  cases (data.lookup "recipients").bind TomlNode.asArray with
  | none => rfl
  | some nodes =>
    cases nodes with
    | nil => rfl
    | cons node nodes =>
      rw [Option.getD_some, if_neg (List.cons_ne_nil node nodes)]
      exact foldlM_orFirst loadRecipient_eq []

theorem loadSettings_eq (data : TomlTable) :
    loadSettings data = orFirst .configError (settingProblems data) (configOf data) := by
  unfold loadSettings settingProblems
  dsimp only
  rw [requireString_eq]
  refine orFirst_bind fun _ => ?_
  rw [loadIncludeTerms_eq]
  refine orFirst_bind fun _ => ?_
  rw [loadRecipients_eq]
  refine orFirst_bind fun _ => ?_
  rw [requireString_eq]
  refine orFirst_bind fun _ => ?_
  simp only [intSettings, List.flatMap_cons, optionalPositiveInt_eq]
  refine orFirst_bind fun _ => orFirst_bind fun _ => orFirst_bind fun _ => ?_
  exact orFirst_bind fun _ => orFirst_bind fun _ => orFirst_bind fun _ => rfl

theorem loadConfig_eq (locateZone : String → Except Exn TimeZone) (path : String)
    (data : TomlTable) : loadConfig locateZone path (.parsed data) =
      orFirst .configError (problems locateZone path (.parsed data)) (configOf data) := by
  unfold loadConfig problems
  dsimp only
  rw [loadSettings_eq]
  refine orFirst_bind fun _ => ?_
  unfold configProblems
  by_cases horder : (configOf data).launchImminentMinutes ≥ (configOf data).launchSoonMinutes
  · rw [if_pos horder, if_pos horder]
    rfl
  · rw [if_neg horder, if_neg horder]
    cases (configOf data).displayZone locateZone <;> rfl

/-! ## Files without problems -/

/-- A document as the loader wants it, by the config it reads as. -/
structure WellFormed (locateZone : String → Except Exn TimeZone) (data : TomlTable) : Prop where
  launchProvider : (configOf data).launchProvider ≠ ""
  includeTerms : (configOf data).includeTerms ≠ [] ∧ "" ∉ (configOf data).includeTerms
  recipients : (configOf data).recipients ≠ []
  recipient : ∀ r ∈ (configOf data).recipients, r.name ≠ "" ∧ r.userKeyEnv ≠ ""
  names : ((configOf data).recipients.map (·.name)).Nodup
  pushoverTokenEnv : (configOf data).pushoverTokenEnv ≠ ""
  integers : ∀ s ∈ intSettings, ∃ value, s.written data = some value ∧ 0 < value
  thresholds : (configOf data).launchImminentMinutes < (configOf data).launchSoonMinutes
  zone : ∃ zone, (configOf data).displayZone locateZone = .ok zone

theorem single_eq_nil {p : Prop} [Decidable p] {what : String} :
    (if p then [what] else []) = [] ↔ ¬p := by
  by_cases hp : p <;> simp [hp]

theorem textProblems_eq_nil : textProblems table key place = [] ↔ textOf table key ≠ "" :=
  single_eq_nil

theorem termProblems_eq_nil {relevance : Option TomlTable} : termProblems relevance = [] ↔
    (termNodes relevance).map termOf ≠ [] ∧ "" ∉ (termNodes relevance).map termOf := by
  unfold termProblems
  by_cases hnone : termNodes relevance = []
  · simp [hnone]
  · simp [hnone]

theorem wrongAfter_recipientProblems (before entries : List (TomlNode × Nat))
    (hbefore : ((before.map recipientOf).map Recipient.name).Nodup) :
    wrongAfter recipientProblems before entries = [] ↔
      (∀ r ∈ entries.map recipientOf, r.name ≠ "" ∧ r.userKeyEnv ≠ "") ∧
        (((before ++ entries).map recipientOf).map Recipient.name).Nodup := by
  induction entries generalizing before with
  | nil => simpa [wrongAfter] using hbefore
  | cons entry entries ih =>
    have hentry : recipientProblems before entry = [] ↔
        ((recipientOf entry).name ≠ "" ∧ (recipientOf entry).userKeyEnv ≠ "") ∧
          (recipientOf entry).name ∉ (before.map recipientOf).map Recipient.name := by
      rw [recipientProblems, List.append_eq_nil_iff, List.append_eq_nil_iff, textProblems_eq_nil,
        textProblems_eq_nil, single_eq_nil, and_assoc]
      rfl
    have hnodup : (((before ++ [entry]).map recipientOf).map Recipient.name).Nodup ↔
        (recipientOf entry).name ∉ (before.map recipientOf).map Recipient.name := by
      rw [List.map_append, List.map_append, List.map_singleton, List.map_singleton,
        List.nodup_append]
      refine ⟨fun h hmem => h.2.2 _ hmem _ (List.mem_singleton_self _) rfl, fun hnew =>
        ⟨hbefore, by simp, fun a ha b hb heq => hnew ?_⟩⟩
      rwa [← List.mem_singleton.mp hb, ← heq]
    rw [wrongAfter, List.append_eq_nil_iff, hentry]
    constructor
    · rintro ⟨⟨htexts, hnew⟩, hrest⟩
      obtain ⟨hall, hdistinct⟩ := (ih _ (hnodup.mpr hnew)).mp hrest
      exact ⟨List.forall_mem_cons.mpr ⟨htexts, hall⟩, by simpa using hdistinct⟩
    · rintro ⟨hall, hdistinct⟩
      obtain ⟨htexts, hall⟩ := List.forall_mem_cons.mp hall
      have hsplit : ((before ++ [entry] ++ entries).map recipientOf).map Recipient.name =
          ((before ++ entry :: entries).map recipientOf).map Recipient.name := by simp
      have hfirst : (((before ++ [entry]).map recipientOf).map Recipient.name).Nodup := by
        rw [← hsplit, List.map_append, List.map_append] at hdistinct
        exact (List.nodup_append.mp hdistinct).1
      exact ⟨⟨htexts, hnodup.mp hfirst⟩, (ih _ hfirst).mpr ⟨hall, by rwa [hsplit]⟩⟩

theorem intProblems_eq_nil {setting : IntSetting} (hmem : setting ∈ intSettings)
    (data : TomlTable) :
    intProblems (tableOf data setting.place) setting.key setting.place = [] ↔
      ∃ value, setting.written data = some value ∧ 0 < value := by
  have hwritten : setting.written data = match tomlGet (tableOf data setting.place) setting.key with
      | none => some setting.defaultValue
      | some node => node.asInteger := rfl
  rw [hwritten]
  unfold intProblems
  cases tomlGet (tableOf data setting.place) setting.key with
  | none => simpa using (defaultValue_bounds setting hmem).1
  | some node => cases hvalue : node.asInteger <;> simp [hvalue]

theorem problems_eq_nil_iff {locateZone : String → Except Exn TimeZone} {path : String}
    {data : TomlTable} :
    problems locateZone path (.parsed data) = [] ↔ WellFormed locateZone data := by
  have hrecipients : recipientsProblems data = [] ↔ (configOf data).recipients ≠ [] ∧
      (∀ r ∈ (configOf data).recipients, r.name ≠ "" ∧ r.userKeyEnv ≠ "") ∧
        ((configOf data).recipients.map (·.name)).Nodup := by
    unfold recipientsProblems
    by_cases hnone : recipientNodes data = []
    · simp [hnone, configOf]
    · rw [if_neg hnone, wrongAfter_recipientProblems [] _ List.nodup_nil]
      simp [hnone, configOf]
  have hconfig : configProblems locateZone (configOf data) = [] ↔
      (configOf data).launchImminentMinutes < (configOf data).launchSoonMinutes ∧
        ∃ zone, (configOf data).displayZone locateZone = .ok zone := by
    unfold configProblems
    cases (configOf data).displayZone locateZone <;> simp
  have hintegers : (intSettings.flatMap fun s =>
      intProblems (tableOf data s.place) s.key s.place) = [] ↔
        ∀ s ∈ intSettings, ∃ value, s.written data = some value ∧ 0 < value := by
    rw [List.flatMap_eq_nil_iff]
    exact forall₂_congr fun s hs => intProblems_eq_nil hs data
  rw [problems, List.append_eq_nil_iff, settingProblems, List.append_eq_nil_iff,
    List.append_eq_nil_iff, List.append_eq_nil_iff, List.append_eq_nil_iff, textProblems_eq_nil,
    termProblems_eq_nil, hrecipients, textProblems_eq_nil, hintegers, hconfig]
  constructor
  · rintro ⟨⟨hprovider, hterms, ⟨hne, htexts, hnames⟩, htoken, hints⟩, horder, hzone⟩
    exact ⟨hprovider, hterms, hne, htexts, hnames, htoken, hints, horder, hzone⟩
  · rintro ⟨hprovider, hterms, hne, htexts, hnames, htoken, hints, horder, hzone⟩
    exact ⟨⟨hprovider, hterms, ⟨hne, htexts, hnames⟩, htoken, hints⟩, horder, hzone⟩

end RocketWatcher
