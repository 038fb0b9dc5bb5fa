import Mathlib.Data.List.Sort
import Mathlib.Data.String.Basic
import RocketWatcher.Json
import RocketWatcher.Library.Fallible
import RocketWatcher.TimestampRoundTrip

/-!
# The alert record file

The codec of `storage.cpp` : `save` writes the records as one JSON value, in key order, and
`load` reads them back. A file is taken for the JSON value its text parses to; what is written
to disk is the text of the value, and the text of a value parses to it.

A record whose times can be written is read back as it was (`recordFromJson_recordToJson`), so a
saved file loads, to the records in key order (`records_round_trip`).
-/

namespace RocketWatcher

def kFileVersion : Int := 1

def timeToJson : Option Int → Json
  | none => .null
  | some time => .string (formatIso8601Utc time)

def optionalTimeFromJson (value : Json) : Except Exn (Option Int) :=
  if value.isNull then .ok none
  else do
    let text ← value.getString
    match parseIso8601 text with
    | some time => return some time
    | none => throw (.storageError ("invalid timestamp in alert records: " ++ text))

def timeFromJson (value : Json) : Except Exn Int := do
  match ← optionalTimeFromJson value with
  | some time => return time
  | none => throw (.storageError "missing required timestamp in alert records")

def sentAlertToJson (sent : SentAlert) : Json :=
  .object [("kind", .string sent.kind.toString), ("created_at", timeToJson (some sent.createdAt)),
    ("reason", match sent.reason with
      | some reason => .string reason.toString
      | none => .null)]

def recordToJson (record : AlertRecord) : Json :=
  .object [("key", .string record.key), ("source_name", .string record.sourceName),
    ("source_launch_id", .string record.sourceLaunchId), ("launch_name", .string record.launchName),
    ("matched_terms", .array (record.matchedTerms.map .string)),
    ("last_facts", .object [("launch_time", timeToJson record.lastFacts.launchTime),
      ("precision", .string record.lastFacts.precision.toString),
      ("status", .string record.lastFacts.status.toString)]),
    ("sent_alerts", .array (record.sentAlerts.map sentAlertToJson)),
    ("first_alert_at", timeToJson (some record.firstAlertAt)),
    ("last_alert_at", timeToJson (some record.lastAlertAt))]

def factsFromJson (facts : Json) : Except Exn LaunchFacts := do
  let launchTime ← optionalTimeFromJson (← facts.atKey "launch_time")
  let precision ← TimingPrecision.fromString (← (← facts.atKey "precision").getString)
  let status ← LaunchStatus.fromString (← (← facts.atKey "status").getString)
  return ⟨launchTime, precision, status⟩

def sentAlertFromJson (sent : Json) : Except Exn SentAlert := do
  let kind ← AlertKind.fromString (← (← sent.atKey "kind").getString)
  let createdAt ← timeFromJson (← sent.atKey "created_at")
  match sent.find? "reason" with
  | none | some .null => return ⟨kind, createdAt, none⟩
  | some reason =>
    return ⟨kind, createdAt, some (← CorrectionReason.fromString (← reason.getString))⟩

def recordFromJson (data : Json) : Except Exn AlertRecord := do
  let facts ← data.atKey "last_facts"
  let key ← (← data.atKey "key").getString
  let sourceName ← (← data.atKey "source_name").getString
  let sourceLaunchId ← (← data.atKey "source_launch_id").getString
  let launchName ← (← data.atKey "launch_name").getString
  let matchedTerms ← (← data.atKey "matched_terms").getStrings
  let lastFacts ← factsFromJson facts
  let sentAlerts ← (← data.atKey "sent_alerts").elements.mapM sentAlertFromJson
  let firstAlertAt ← timeFromJson (← data.atKey "first_alert_at")
  let lastAlertAt ← timeFromJson (← data.atKey "last_alert_at")
  return ⟨key, sourceName, sourceLaunchId, launchName, matchedTerms, lastFacts, sentAlerts,
    firstAlertAt, lastAlertAt⟩

/-- `JsonAlertRecordStore::load`. There may be no file, and reading or parsing it may fail. -/
def load (path : String) (file : Option (Except Exn Json)) : Except Exn (List AlertRecord) :=
  match file with
  | none => .ok []
  | some content =>
    let records := do
      let data ← content
      (← data.atKey "records").elements.mapM recordFromJson
    records.mapError fun error =>
      .storageError ("failed to load alert records from " ++ path ++ ": " ++ error.what)

/-- `std::ranges::sort` by key. -/
def sortByKey (records : List AlertRecord) : List AlertRecord :=
  records.insertionSort fun a b => a.key ≤ b.key

/-- What `JsonAlertRecordStore::save` writes. -/
def payload (records : List AlertRecord) : Json :=
  .object [("version", .integer kFileVersion),
    ("records", .array ((sortByKey records).map recordToJson))]

/-! ## The codec -/

/-- Every time of the record can be written. -/
structure AlertRecord.Writable (record : AlertRecord) : Prop where
  launchTime : ∀ time ∈ record.lastFacts.launchTime, WritableTime time
  createdAt : ∀ sent ∈ record.sentAlerts, WritableTime sent.createdAt
  firstAlertAt : WritableTime record.firstAlertAt
  lastAlertAt : WritableTime record.lastAlertAt

instance (record : AlertRecord) : Decidable record.Writable :=
  decidable_of_iff ((∀ time ∈ record.lastFacts.launchTime, WritableTime time) ∧
      (∀ sent ∈ record.sentAlerts, WritableTime sent.createdAt) ∧
      WritableTime record.firstAlertAt ∧ WritableTime record.lastAlertAt)
    ⟨fun ⟨h₁, h₂, h₃, h₄⟩ => ⟨h₁, h₂, h₃, h₄⟩, fun ⟨h₁, h₂, h₃, h₄⟩ => ⟨h₁, h₂, h₃, h₄⟩⟩

theorem optionalTimeFromJson_timeToJson {time : Option Int} (h : ∀ t ∈ time, WritableTime t) :
    optionalTimeFromJson (timeToJson time) = .ok time := by
  cases time with
  | none => rfl
  | some time =>
    simp [timeToJson, optionalTimeFromJson, Json.isNull,
      parseIso8601_formatIso8601Utc (h time rfl)]

theorem timeFromJson_timeToJson {time : Int} (h : WritableTime time) :
    timeFromJson (timeToJson (some time)) = .ok time := by
  have hread : optionalTimeFromJson (timeToJson (some time)) = .ok (some time) :=
    optionalTimeFromJson_timeToJson (by simpa using h)
  simp [timeFromJson, hread]

theorem sentAlertFromJson_sentAlertToJson {sent : SentAlert} (h : WritableTime sent.createdAt) :
    sentAlertFromJson (sentAlertToJson sent) = .ok sent := by
  obtain ⟨kind, createdAt, reason⟩ := sent
  have hread := timeFromJson_timeToJson h
  cases reason with
  | none =>
    simp [sentAlertFromJson, sentAlertToJson, Json.atKey, Json.find?, List.lookup_cons, hread]
  | some reason =>
    simp [sentAlertFromJson, sentAlertToJson, Json.atKey, Json.find?, List.lookup_cons, hread]

theorem factsFromJson_toJson (facts : LaunchFacts) (h : ∀ t ∈ facts.launchTime, WritableTime t) :
    factsFromJson (.object [("launch_time", timeToJson facts.launchTime),
      ("precision", .string facts.precision.toString),
      ("status", .string facts.status.toString)]) = .ok facts := by
  have hread := optionalTimeFromJson_timeToJson h
  simp [factsFromJson, Json.atKey, List.lookup_cons, hread]

/-- A record is read back as it was written. -/
theorem recordFromJson_recordToJson {record : AlertRecord} (h : record.Writable) :
    recordFromJson (recordToJson record) = .ok record := by
  have hterms := Json.getStrings_array record.matchedTerms
  have hfacts := factsFromJson_toJson record.lastFacts h.launchTime
  have hsent : (record.sentAlerts.map sentAlertToJson).mapM sentAlertFromJson =
      .ok record.sentAlerts :=
    Except.mapM_map_eq_ok fun sent hsent =>
      sentAlertFromJson_sentAlertToJson (h.createdAt sent hsent)
  have hfirst := timeFromJson_timeToJson h.firstAlertAt
  have hlast := timeFromJson_timeToJson h.lastAlertAt
  simp [recordFromJson, recordToJson, Json.atKey, List.lookup_cons, hterms, hfacts, hsent, hfirst,
    hlast]

/-- A file that is saved with writable records loads, to the records in key order. -/
theorem load_payload (path : String) {records : List AlertRecord}
    (h : ∀ record ∈ records, record.Writable) :
    load path (some (.ok (payload records))) = .ok (sortByKey records) := by
  have hrecords : ((sortByKey records).map recordToJson).mapM recordFromJson =
      .ok (sortByKey records) :=
    Except.mapM_map_eq_ok fun record hrecord =>
      recordFromJson_recordToJson (h record ((List.mem_insertionSort _).mp hrecord))
  simp [load, payload, Json.atKey, List.lookup_cons, hrecords, Except.mapError]

/-! ## What does not load -/

theorem writableTime_of_optionalTimeFromJson {time time' : Option Int}
    (h : optionalTimeFromJson (timeToJson time) = .ok time') : ∀ t ∈ time, WritableTime t := by
  rintro t rfl
  by_contra ht
  simp [timeToJson, optionalTimeFromJson, Json.isNull, parseIso8601_eq_none_of_not_writable ht] at h

theorem writableTime_of_timeFromJson {time time' : Int}
    (h : timeFromJson (timeToJson (some time)) = .ok time') : WritableTime time := by
  obtain ⟨read, hread, -⟩ := Except.bind_eq_ok.mp h
  exact writableTime_of_optionalTimeFromJson hread time rfl

theorem writableTime_of_sentAlertFromJson {sent sent' : SentAlert}
    (h : sentAlertFromJson (sentAlertToJson sent) = .ok sent') : WritableTime sent.createdAt := by
  simp only [sentAlertFromJson, sentAlertToJson, Json.atKey, List.lookup_cons, String.reduceBEq,
    Except.ok_bind, Json.getString_string, AlertKind.fromString_toString] at h
  obtain ⟨createdAt, htime, -⟩ := Except.bind_eq_ok.mp h
  exact writableTime_of_timeFromJson htime

theorem writableTime_of_factsFromJson {facts facts' : LaunchFacts}
    (h : factsFromJson (.object [("launch_time", timeToJson facts.launchTime),
      ("precision", .string facts.precision.toString),
      ("status", .string facts.status.toString)]) = .ok facts') :
    ∀ t ∈ facts.launchTime, WritableTime t := by
  simp only [factsFromJson, Json.atKey, List.lookup_cons, String.reduceBEq, Except.ok_bind] at h
  obtain ⟨launchTime, htime, -⟩ := Except.bind_eq_ok.mp h
  exact writableTime_of_optionalTimeFromJson htime

/-- Only a record whose times can be written is read back at all. -/
theorem writable_of_recordFromJson {record record' : AlertRecord}
    (h : recordFromJson (recordToJson record) = .ok record') : record.Writable := by
  have hterms := Json.getStrings_array record.matchedTerms
  simp only [recordFromJson, recordToJson, Json.atKey, List.lookup_cons, String.reduceBEq,
    Except.ok_bind, Json.getString_string, hterms, Json.elements_array] at h
  obtain ⟨facts, hfacts, h⟩ := Except.bind_eq_ok.mp h
  obtain ⟨sentAlerts, hsent, h⟩ := Except.bind_eq_ok.mp h
  obtain ⟨firstAlertAt, hfirst, h⟩ := Except.bind_eq_ok.mp h
  obtain ⟨lastAlertAt, hlast, -⟩ := Except.bind_eq_ok.mp h
  refine ⟨writableTime_of_factsFromJson hfacts, fun sent hmem => ?_,
    writableTime_of_timeFromJson hfirst, writableTime_of_timeFromJson hlast⟩
  obtain ⟨sent', hread⟩ := Except.ok_of_mem_mapM hsent (List.mem_map_of_mem hmem)
  exact writableTime_of_sentAlertFromJson hread

/-- A saved file loads to the records in key order, or not at all. -/
theorem load_payload_cases (path : String) (records : List AlertRecord) :
    load path (some (.ok (payload records))) = .ok (sortByKey records) ∨
      ∃ what, load path (some (.ok (payload records))) = .error (.storageError what) := by
  by_cases h : ∀ record ∈ records, record.Writable
  · exact .inl (load_payload path h)
  · right
    cases hrecords : ((sortByKey records).map recordToJson).mapM recordFromJson with
    | error error =>
      simp [load, payload, Json.atKey, List.lookup_cons, hrecords, Except.mapError]
    | ok loaded =>
      refine absurd (fun record hmem => ?_) h
      have hsorted : record ∈ sortByKey records := (List.mem_insertionSort _).mpr hmem
      obtain ⟨record', hread⟩ := Except.ok_of_mem_mapM hrecords (List.mem_map_of_mem hsorted)
      exact writable_of_recordFromJson hread

/-! ## Key order -/

theorem sortByKey_perm (records : List AlertRecord) : (sortByKey records).Perm records :=
  List.perm_insertionSort _ _

theorem pairwise_sortByKey {records : List AlertRecord} (h : (records.map (·.key)).Nodup) :
    (sortByKey records).Pairwise fun a b => a.key < b.key := by
  have htotal : Std.Total fun a b : AlertRecord => a.key ≤ b.key := ⟨fun a b => le_total _ _⟩
  have htrans : IsTrans AlertRecord fun a b => a.key ≤ b.key := ⟨fun a b c => le_trans⟩
  have hle : (sortByKey records).Pairwise fun a b => a.key ≤ b.key :=
    List.pairwise_insertionSort _ records
  have hne : (sortByKey records).Pairwise fun a b => a.key ≠ b.key :=
    List.pairwise_map.mp (((sortByKey_perm records).map _).nodup_iff.mpr h)
  exact hle.imp₂ (fun a b hab hkeys => lt_of_le_of_ne hab hkeys) hne

/-- Records with distinct keys and writable times are read back from the file, every one as it
was, in increasing order of key. -/
theorem records_round_trip {records : List AlertRecord} (hkeys : (records.map (·.key)).Nodup)
    (hwritable : ∀ record ∈ records, record.Writable) (path : String) :
    ∃ loaded, load path (some (.ok (payload records))) = .ok loaded ∧ loaded.Perm records ∧
      loaded.Pairwise fun a b => a.key < b.key :=
  ⟨sortByKey records, load_payload path hwritable, sortByKey_perm records,
    pairwise_sortByKey hkeys⟩

/-- The record of a corrected launch. -/
def correctedRecord : AlertRecord where
  key := "ll2:abc-123"
  sourceName := "ll2"
  sourceLaunchId := "abc-123"
  launchName := "Falcon 9 Block 5 | Starlink Group 12-34"
  matchedTerms := ["Starlink", "Falcon"]
  lastFacts := ⟨some 1781030700, .precise, .noGo⟩
  sentAlerts := [⟨.launchSoon, 1781028000, none⟩, ⟨.correction, 1781028300, some .noGo⟩]
  firstAlertAt := 1781028000
  lastAlertAt := 1781028300

/-- One file with two records, out of order when saved. -/
theorem records_round_trip_two :
    ∃ loaded, load "alerts.json" (some (.ok (payload [correctedRecord,
        { correctedRecord with key := "ll2:aaa", lastFacts := ⟨none, .unknown, .go⟩ }]))) =
        .ok loaded ∧
      loaded.Perm [correctedRecord,
        { correctedRecord with key := "ll2:aaa", lastFacts := ⟨none, .unknown, .go⟩ }] ∧
      loaded.Pairwise fun a b => a.key < b.key := by
  exact records_round_trip (by decide) (by decide) "alerts.json"

end RocketWatcher
