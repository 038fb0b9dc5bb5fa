import RocketWatcher.Iso8601
import RocketWatcher.Json
import RocketWatcher.Orchestration

/-!
# The Launch Library 2 adapter

`launch_library.cpp` : a response is mapped item by item to launches. A script is traced with
the warnings it pushes, which stay pushed when an item turns out to be unmappable.
-/

namespace RocketWatcher

def kLaunchLibrarySourceName : String := "ll2"

/-- LL2 `net_precision` names. -/
def kPrecisionMap : List (String × TimingPrecision) :=
  [("second", .precise), ("minute", .precise), ("hour", .hour), ("day", .imprecise),
    ("week", .imprecise), ("month", .imprecise), ("quarter", .imprecise), ("year", .imprecise),
    ("decade", .imprecise)]

/-- Families of calendar windows such as "Quarter 2" or "Fiscal Year 2027". -/
def kImprecisePrefixes : List String :=
  ["day", "week", "month", "quarter", "year", "decade", "fiscal"]

/-- LL2 status abbreviations. "TBC" and "TBD" are speculative schedule slots. -/
def kStatusMap : List (String × LaunchStatus) :=
  [("go", .go), ("hold", .noGo), ("success", .ended), ("failure", .ended),
    ("partial failure", .ended), ("in flight", .ended), ("tbc", .unknown), ("tbd", .unknown)]

/-- A mapping that warns. -/
abbrev Mapping := Traced String Exn

def warn (warning : String) : Mapping Unit :=
  .perform warning

/-- A non-empty text under `key`, if `object` is an object that has one. -/
def optionalStringField (object : Json) (key : String) : Option String :=
  match object.find? key with
  | some (.string value) => if value.isEmpty then none else some value
  | _ => none

def parseNet (text : JsonText) (net : Json) (label : String) : Mapping (Option Int) := do
  match net with
  | .null | .string "" => return none
  | net =>
    let written := match net with
      | .string value => value
      | net => text.dump net
    match parseIso8601 written with
    | some time => return some time
    | none =>
      warn (label ++ ": unparseable net time \"" ++ written ++ "\"")
      return none

def mapPrecision (netPrecision : Json) (label : String) : Mapping TimingPrecision := do
  match optionalStringField netPrecision "name" with
  | none =>
    warn (label ++ ": missing net precision; treating timing as unknown")
    return .unknown
  | some name =>
    let normalized := toLower (trim name)
    match kPrecisionMap.lookup normalized with
    | some precision => return precision
    | none =>
      if kImprecisePrefixes.any (startsWith normalized) then
        return .imprecise
      else
        warn (label ++ ": unmapped net precision \"" ++ name ++ "\"; treating timing as unknown")
        return .unknown

def mapStatus (status : Json) (label : String) : Mapping LaunchStatus := do
  match optionalStringField status "abbrev" with
  | none =>
    warn (label ++ ": missing status; treating status as unknown")
    return .unknown
  | some abbreviation =>
    match kStatusMap.lookup (toLower (trim abbreviation)) with
    | some status => return status
    | none =>
      warn (label ++ ": unmapped status \"" ++ abbreviation ++ "\"; treating status as unknown")
      return .unknown

/-- The pad, with its location. -/
def mapPadName (pad : Json) : Option String :=
  let padName := optionalStringField pad "name"
  let locationName := (pad.find? "location").bind fun location =>
    optionalStringField location "name"
  match padName, locationName with
  | some padName, some locationName => some (padName ++ ", " ++ locationName)
  | some padName, none => some padName
  | none, locationName => locationName

def mapLaunch (text : JsonText) (item : Json) : Mapping Launch := do
  let id ← .ofExcept (item.atKey "id")
  let launchId := match id with
    | .string value => value
    | id => text.dump id
  let name := (optionalStringField item "name").getD ("launch " ++ launchId)
  let label := name ++ " [" ++ launchId ++ "]"
  let provider := ((item.find? "launch_service_provider").bind fun provider =>
    optionalStringField provider "name").getD ""
  if provider.isEmpty then
    warn (label ++ ": missing launch service provider name")
  let launchTime ← parseNet text (← .ofExcept (item.valueOr "net" .null)) label
  let precision ← mapPrecision (← .ofExcept (item.valueOr "net_precision" .null)) label
  let precision := if launchTime.isNone then .unknown else precision
  let status ← mapStatus (← .ofExcept (item.valueOr "status" .null)) label
  let mission ← .ofExcept (item.valueOr "mission" .null)
  let pad ← .ofExcept (item.valueOr "pad" .null)
  return {
    sourceName := kLaunchLibrarySourceName
    sourceLaunchId := launchId
    name
    provider
    launchTime
    precision
    status
    missionName := optionalStringField mission "name"
    missionDescription := optionalStringField mission "description"
    padName := mapPadName pad }

structure LaunchLibraryOptions where
  baseUrl : String := "https://ll.thespacedevs.com/2.2.0"
  limit : Int := 50
  timeout : Int := 30

/-- The URL of a fetch. Trailing slashes of the base are dropped. -/
def LaunchLibraryOptions.url (options : LaunchLibraryOptions) : String :=
  String.ofList (options.baseUrl.toList.rdropWhile (· == '/')) ++ "/launch/upcoming/?limit=" ++
    toString options.limit ++ "&hide_recent_previous=true"

/-- The body of the loop over the results. -/
def fetchItem (text : JsonText) (result : FetchResult) (item : Json) : FetchResult :=
  let mapped := mapLaunch text item
  match mapped.result with
  | .ok launch => ⟨result.launches ++ [launch], result.warnings ++ mapped.trace⟩
  | .error error => ⟨result.launches, result.warnings ++ mapped.trace ++
      ["skipped unmappable launch payload: " ++ error.what]⟩

/-- `LaunchLibrarySource::fetch`, over an HTTP transport. -/
def fetch (text : JsonText) (options : LaunchLibraryOptions)
    (httpGet : String → Int → Except Exn String) : Except Exn FetchResult := do
  let body := (httpGet options.url options.timeout).bind text.parse
  let payload ← body.mapError fun error =>
    .sourceError ("Launch Library 2 fetch failed: " ++ error.what)
  let results ← payload.valueOr "results" (.array [])
  return results.elements.foldl (fetchItem text) ⟨[], []⟩

/-! ## What is mapped -/

/-- How warnings call a launch. -/
def Launch.label (launch : Launch) : String :=
  launch.name ++ " [" ++ launch.sourceLaunchId ++ "]"

def itemId (text : JsonText) (id : Json) : String :=
  match id with
  | .string value => value
  | id => text.dump id

def itemName (text : JsonText) (item id : Json) : String :=
  (optionalStringField item "name").getD ("launch " ++ itemId text id)

/-- The provider of an item, empty if it has none. -/
def providerName (item : Json) : String :=
  ((item.find? "launch_service_provider").bind fun provider =>
    optionalStringField provider "name").getD ""

def providerWarnings (item : Json) (label : String) : List String :=
  if (providerName item).isEmpty then [label ++ ": missing launch service provider name"] else []

theorem parseNet_isOk (text : JsonText) (net : Json) (label : String) :
    ∃ warnings time, parseNet text net label = ⟨warnings, .ok time⟩ := by
  unfold parseNet
  split
  · exact ⟨_, _, rfl⟩
  · exact ⟨_, _, rfl⟩
  · dsimp only
    split
    · exact ⟨_, _, rfl⟩
    · exact ⟨_, _, rfl⟩

theorem mapPrecision_isOk (netPrecision : Json) (label : String) :
    ∃ warnings precision, mapPrecision netPrecision label = ⟨warnings, .ok precision⟩ := by
  unfold mapPrecision
  split
  · exact ⟨_, _, rfl⟩
  · dsimp only
    split
    · exact ⟨_, _, rfl⟩
    · split
      · exact ⟨_, _, rfl⟩
      · exact ⟨_, _, rfl⟩

theorem mapStatus_isOk (status : Json) (label : String) :
    ∃ warnings mapped, mapStatus status label = ⟨warnings, .ok mapped⟩ := by
  unfold mapStatus
  split
  · exact ⟨_, _, rfl⟩
  · split
    · exact ⟨_, _, rfl⟩
    · exact ⟨_, _, rfl⟩

/-- An object with an id is mapped : the accessors that can throw are all asked of the object
itself. -/
theorem mapLaunch_of_id (text : JsonText) {item id : Json} (hid : item.find? "id" = some id) :
    ∃ launch netWarnings precisionWarnings precision statusWarnings,
      mapLaunch text item = ⟨providerWarnings item launch.label ++ netWarnings ++
        precisionWarnings ++ statusWarnings, .ok launch⟩ ∧
      launch.sourceName = "ll2" ∧
      parseNet text (item.member "net") launch.label = ⟨netWarnings, .ok launch.launchTime⟩ ∧
      mapPrecision (item.member "net_precision") launch.label =
        ⟨precisionWarnings, .ok precision⟩ ∧
      launch.precision = (if launch.launchTime.isNone then .unknown else precision) ∧
      mapStatus (item.member "status") launch.label = ⟨statusWarnings, .ok launch.status⟩ := by
  have hmember := Json.valueOr_null_of_find hid
  obtain ⟨netWarnings, time, hnet⟩ := parseNet_isOk text (item.member "net")
    (itemName text item id ++ " [" ++ itemId text id ++ "]")
  obtain ⟨precisionWarnings, precision, hprecision⟩ := mapPrecision_isOk
    (item.member "net_precision") (itemName text item id ++ " [" ++ itemId text id ++ "]")
  obtain ⟨statusWarnings, status, hstatus⟩ := mapStatus_isOk (item.member "status")
    (itemName text item id ++ " [" ++ itemId text id ++ "]")
  refine ⟨{
    sourceName := kLaunchLibrarySourceName
    sourceLaunchId := itemId text id
    name := itemName text item id
    provider := providerName item
    launchTime := time
    precision := if time.isNone then .unknown else precision
    status
    missionName := optionalStringField (item.member "mission") "name"
    missionDescription := optionalStringField (item.member "mission") "description"
    padName := mapPadName (item.member "pad") }, netWarnings, precisionWarnings, precision,
    statusWarnings, ?_, rfl, hnet, hprecision, rfl, hstatus⟩
  unfold itemName itemId at hnet hprecision hstatus
  simp only [mapLaunch, Json.atKey_of_find hid, Traced.ofExcept_ok_bind, hmember, hnet, hprecision,
    hstatus, Traced.mk_ok_bind, Traced.pure_eq_mk, itemName, itemId, providerWarnings,
    providerName, Launch.label]
  by_cases hprovider : (((item.find? "launch_service_provider").bind fun provider =>
      optionalStringField provider "name").getD "").isEmpty = true
  · simp only [hprovider, ↓reduceIte, warn, Traced.perform, Traced.mk_ok_bind, List.append_nil,
      List.append_assoc]
  · simp only [hprovider, Bool.false_eq_true, ↓reduceIte, List.append_nil, List.nil_append,
      List.append_assoc]

end RocketWatcher
