import RocketWatcher.Library.KeyedMachine
import RocketWatcher.Relevance

/-!
# The decision core

`decideCycle` of `core.cpp`. It consumes the launches of one fetch, the stored alert
records, the alert policy and the current time, and returns the alerts of the cycle and
the new collection of records. `decideForLaunch` decides for one launch against the
record stored under its key, and `updatedRecord` notes the alert in that record. The
`std::map` of records is a `TreeMap` : a repeated key keeps its first record (`emplace`),
an update replaces it (`insert_or_assign`), and the final pass goes in key order.
-/

open Std

namespace RocketWatcher

/-- An hour-precision launch time marks an hour-sized window. -/
def kHourWindow : Int := 3600

def makeCountdown (launch : Launch) (kind : AlertKind) (matchedTerms : List String)
    (now : Int) : Alert where
  kind := kind
  launch := launch
  createdAt := now
  matchedTerms := matchedTerms
  reason := none
  previous := none

def makeCorrection (launch : Launch) (record : AlertRecord) (reason : CorrectionReason)
    (matchedTerms : List String) (now : Int) : Alert where
  kind := .correction
  launch := launch
  createdAt := now
  matchedTerms := matchedTerms
  reason := some reason
  previous := some record.lastFacts

structure LaunchDecision where
  alert : Option Alert
  note : String
  deriving DecidableEq, Repr

/-- Precise or hour : the precisions a countdown can be given for. -/
def TimingPrecision.isTimed (precision : TimingPrecision) : Bool :=
  precision == .precise || precision == .hour

/-- Imprecise or unknown. -/
def TimingPrecision.isUntimed (precision : TimingPrecision) : Bool :=
  precision == .imprecise || precision == .unknown

/-- The correction of a go launch that already has a record, if one is due. Corrections
come before new countdown alerts and are not subject to the schedule lookahead. -/
def decideGoCorrection (launch : Launch) (record : AlertRecord) (matchedTerms : List String)
    (policy : AlertPolicy) (now : Int) : Option LaunchDecision :=
  let prev := record.lastFacts
  let wasTimed := prev.precision.isTimed
  let nowUntimed := launch.precision.isUntimed
  if wasTimed && nowUntimed then
    some ⟨some (makeCorrection launch record .timingNowImprecise matchedTerms now),
      "correction alert (timing now imprecise)"⟩
  else
    match prev.launchTime, launch.launchTime with
    | some prevTime, some launchTime =>
      let shift := if launchTime ≥ prevTime then launchTime - prevTime else prevTime - launchTime
      if shift ≥ policy.correctionTimeShift then
        some ⟨some (makeCorrection launch record .timeChanged matchedTerms now),
          "correction alert (time changed)"⟩
      else none
    | _, _ => none

/-- The countdown or hour-precision alert of a go launch, once no correction is due. -/
def decideGoCountdown (launch : Launch) (sentKinds : List AlertKind) (matchedTerms : List String)
    (policy : AlertPolicy) (now : Int) : LaunchDecision :=
  if launch.precision.isUntimed then
    ⟨none, "silent (timing " ++ launch.precision.toString ++ ")"⟩
  else
    match launch.launchTime with
    | none => ⟨none, "silent (no launch time)"⟩
    | some launchTime =>
      let timeLeft := launchTime - now
      if timeLeft > policy.scheduleLookahead then
        ⟨none, "silent (beyond schedule lookahead)"⟩
      else if launch.precision = .precise then
        if timeLeft < 0 then
          ⟨none, "silent (launch time already passed)"⟩
        else if timeLeft ≤ policy.launchImminent ∧ .launchImminent ∉ sentKinds then
          ⟨some (makeCountdown launch .launchImminent matchedTerms now), "launch imminent alert"⟩
        else if timeLeft ≤ policy.launchSoon ∧ .launchSoon ∉ sentKinds ∧
            .launchImminent ∉ sentKinds then
          ⟨some (makeCountdown launch .launchSoon matchedTerms now), "launch soon alert"⟩
        else
          ⟨none, "no unsent countdown alert eligible"⟩
      else if -kHourWindow ≤ timeLeft ∧ timeLeft ≤ kHourWindow ∧ .hourPrecision ∉ sentKinds then
        ⟨some (makeCountdown launch .hourPrecision matchedTerms now), "hour-precision alert"⟩
      else
        ⟨none, "no hour-precision alert eligible"⟩

/-- The kinds of the alerts a record lists; none without a record. -/
def sentKinds : Option AlertRecord → List AlertKind
  | none => []
  | some record => record.sentAlerts.map (·.kind)

def decideForLaunch (launch : Launch) (record : Option AlertRecord) (matchedTerms : List String)
    (policy : AlertPolicy) (now : Int) : LaunchDecision :=
  match launch.status, record with
  | .ended, _ | .unknown, _ => ⟨none, "silent (status " ++ launch.status.toString ++ ")"⟩
  | .noGo, none => ⟨none, "silent (no go, no prior alert to correct)"⟩
  | .noGo, some record =>
    if record.lastFacts.status = .noGo then
      ⟨none, "silent (no go already corrected)"⟩
    else
      ⟨some (makeCorrection launch record .noGo matchedTerms now), "correction alert (no go)"⟩
  | .go, record =>
    match record.bind fun record => decideGoCorrection launch record matchedTerms policy now with
    | some decision => decision
    | none => decideGoCountdown launch (sentKinds record) matchedTerms policy now

def updatedRecord (record : Option AlertRecord) (launch : Launch) (alert : Alert)
    (now : Int) : AlertRecord :=
  let sent : SentAlert := ⟨alert.kind, now, alert.reason⟩
  match record with
  | none =>
    { key := launch.key
      sourceName := launch.sourceName
      sourceLaunchId := launch.sourceLaunchId
      launchName := launch.name
      matchedTerms := alert.matchedTerms
      lastFacts := launch.facts
      sentAlerts := [sent]
      firstAlertAt := now
      lastAlertAt := now }
  | some record =>
    { record with
      launchName := launch.name
      matchedTerms := alert.matchedTerms
      lastFacts := launch.facts
      sentAlerts := record.sentAlerts ++ [sent]
      lastAlertAt := now }

structure CycleDecision where
  alerts : List Alert
  updatedRecords : List AlertRecord
  evaluations : List String
  deriving DecidableEq, Repr

/-- What one `decideCycle` call is given besides the records. -/
structure CycleInput where
  launches : List Launch
  policy : AlertPolicy
  launchProvider : String
  includeTerms : List String
  now : Int

/-- The variables of the launch loop. -/
structure LoopState where
  recordMap : TreeMap String AlertRecord
  alerts : List Alert
  evaluations : List String

/-- The body of the launch loop. -/
def decideLaunch (input : CycleInput) (state : LoopState) (launch : Launch) :
    Except Exn LoopState := do
  let label := launch.name ++ " [" ++ launch.key ++ "]"
  let relevance ← evaluateRelevance launch input.launchProvider input.includeTerms
  if !relevance.relevant then
    return { state with
      evaluations := state.evaluations ++ [label ++ ": not relevant (" ++ relevance.reason ++ ")"] }
  let record := state.recordMap[launch.key]?
  let result := decideForLaunch launch record relevance.matchedTerms input.policy input.now
  let evaluations := state.evaluations ++ [label ++ ": " ++ result.note]
  match result.alert with
  | none => return { state with evaluations }
  | some alert =>
    return {
      recordMap := state.recordMap.insert launch.key (updatedRecord record launch alert input.now)
      alerts := state.alerts ++ [alert]
      evaluations }

/-- The launch loop over `launches`, from the loop's initial state. -/
def decideLaunches (input : CycleInput) (records : List AlertRecord) (launches : List Launch) :
    Except Exn LoopState :=
  launches.foldlM (decideLaunch input) ⟨firstByKey AlertRecord.key records, [], []⟩

/-- A record is kept while its last alert is no older than the retention. -/
def retained (input : CycleInput) (record : AlertRecord) : Bool :=
  input.now - record.lastAlertAt ≤ input.policy.retention

def decideCycle (input : CycleInput) (records : List AlertRecord) : Except Exn CycleDecision := do
  let state ← decideLaunches input records input.launches
  return {
    alerts := state.alerts
    updatedRecords := (valuesOf state.recordMap).filter (retained input)
    evaluations := state.evaluations }

/-! ## The launch of the test suite -/

/-- 2026-06-09 18:00:00 UTC. -/
def kNow : Int := 1781028000

/-- A relevant Starlink launch 45 minutes out. -/
def makeLaunch : Launch where
  sourceName := "ll2"
  sourceLaunchId := "abc-123"
  name := "Falcon 9 Block 5 | Starlink Group 12-34"
  provider := "SpaceX"
  launchTime := some (kNow + 2700)
  precision := .precise
  status := .go
  missionName := some "Starlink Group 12-34"
  missionDescription := some "A batch of Starlink satellites."
  padName := some "SLC-40, Cape Canaveral"

/-- Soon 60 min, imminent 10 min, correction shift 30 min, lookahead 30 h, retention 30 d. -/
def makePolicy : AlertPolicy := ⟨3600, 600, 1800, 108000, 2592000⟩

/-- A cycle under the configuration of the test suite. -/
def testCycle (launches : List Launch) (now : Int) : CycleInput :=
  ⟨launches, makePolicy, "SpaceX", ["Starlink"], now⟩

end RocketWatcher
