import Mathlib.Algebra.Group.Int.Defs
import Mathlib.Algebra.Group.Nat.Defs
import RocketWatcher.Library.Fallible
import RocketWatcher.Strings

/-!
# Domain model

The data of `domain.hpp`: launches as a source reports them, the alerts the decision
core creates, and the alert records that remember them. A `TimePoint` is a count of UTC
seconds since the epoch and a `Duration` a count of seconds, 64-bit in the program. Both
are `Int` here: the program only adds and subtracts them, and no time it handles comes
near the ends of the 64-bit range.
-/

namespace RocketWatcher

/-- An exception, with its `what()`. -/
inductive Exn where
  | invalidArgument (what : String)
  | runtimeError (what : String)
  | configError (what : String)
  | sourceError (what : String)
  | storageError (what : String)
  | jsonError (what : String)
  deriving DecidableEq, Repr

/-- `error.what()`. -/
def Exn.what : Exn → String
  | invalidArgument text | runtimeError text | configError text | sourceError text
  | storageError text | jsonError text => text

/-- `static_cast<int>` of a 64-bit value. -/
def castInt (value : Int) : Int :=
  value.bmod (2 ^ 32)

inductive TimingPrecision where
  | precise
  | hour
  | imprecise
  | unknown
  deriving DecidableEq, Repr

inductive LaunchStatus where
  | go
  | noGo
  | ended
  | unknown
  deriving DecidableEq, Repr

inductive AlertKind where
  | launchSoon
  | launchImminent
  | hourPrecision
  | correction
  deriving DecidableEq, Repr

inductive CorrectionReason where
  | noGo
  | timeChanged
  | timingNowImprecise
  deriving DecidableEq, Repr

def TimingPrecision.toString : TimingPrecision → String
  | precise => "precise"
  | hour => "hour"
  | imprecise => "imprecise"
  | unknown => "unknown"

def LaunchStatus.toString : LaunchStatus → String
  | go => "go"
  | noGo => "no_go"
  | ended => "ended"
  | unknown => "unknown"

def AlertKind.toString : AlertKind → String
  | launchSoon => "launch_soon"
  | launchImminent => "launch_imminent"
  | hourPrecision => "hour_precision"
  | correction => "correction"

def CorrectionReason.toString : CorrectionReason → String
  | noGo => "no_go"
  | timeChanged => "time_changed"
  | timingNowImprecise => "timing_now_imprecise"

def TimingPrecision.fromString (value : String) : Except Exn TimingPrecision :=
  if value = "precise" then .ok .precise
  else if value = "hour" then .ok .hour
  else if value = "imprecise" then .ok .imprecise
  else if value = "unknown" then .ok .unknown
  else .error (.invalidArgument ("unknown timing precision: " ++ value))

def LaunchStatus.fromString (value : String) : Except Exn LaunchStatus :=
  if value = "go" then .ok .go
  else if value = "no_go" then .ok .noGo
  else if value = "ended" then .ok .ended
  else if value = "unknown" then .ok .unknown
  else .error (.invalidArgument ("unknown launch status: " ++ value))

def AlertKind.fromString (value : String) : Except Exn AlertKind :=
  if value = "launch_soon" then .ok .launchSoon
  else if value = "launch_imminent" then .ok .launchImminent
  else if value = "hour_precision" then .ok .hourPrecision
  else if value = "correction" then .ok .correction
  else .error (.invalidArgument ("unknown alert kind: " ++ value))

def CorrectionReason.fromString (value : String) : Except Exn CorrectionReason :=
  if value = "no_go" then .ok .noGo
  else if value = "time_changed" then .ok .timeChanged
  else if value = "timing_now_imprecise" then .ok .timingNowImprecise
  else .error (.invalidArgument ("unknown correction reason: " ++ value))

@[simp] theorem TimingPrecision.fromString_toString (p : TimingPrecision) :
    fromString p.toString = .ok p := by
  cases p <;> rfl

@[simp] theorem LaunchStatus.fromString_toString (s : LaunchStatus) :
    fromString s.toString = .ok s := by
  cases s <;> rfl

@[simp] theorem AlertKind.fromString_toString (k : AlertKind) : fromString k.toString = .ok k := by
  cases k <;> rfl

@[simp] theorem CorrectionReason.fromString_toString (r : CorrectionReason) :
    fromString r.toString = .ok r := by
  cases r <;> rfl

/-- A normalized launch per the launch schedule source contract. -/
structure Launch where
  sourceName : String
  sourceLaunchId : String
  name : String
  provider : String
  launchTime : Option Int
  precision : TimingPrecision
  status : LaunchStatus
  missionName : Option String
  missionDescription : Option String
  padName : Option String
  deriving DecidableEq, Repr

/-- Combined stable identity key, backed by the source. -/
def Launch.key (launch : Launch) : String :=
  launch.sourceName ++ ":" ++ launch.sourceLaunchId

/-- The non-empty fields include terms are matched against. -/
def Launch.searchableFields (launch : Launch) : List String :=
  (if launch.name.isEmpty then [] else [launch.name]) ++
    [launch.missionName, launch.missionDescription, launch.padName].filterMap
      fun optionalField => optionalField.filter fun field => !field.isEmpty

/-- Correction-relevant snapshot of a launch at alert time. -/
structure LaunchFacts where
  launchTime : Option Int
  precision : TimingPrecision
  status : LaunchStatus
  deriving DecidableEq, Repr

/-- The snapshot `updatedRecord` takes of a launch. -/
def Launch.facts (launch : Launch) : LaunchFacts where
  launchTime := launch.launchTime
  precision := launch.precision
  status := launch.status

/-- A semantic alert decision produced by the decision core. -/
structure Alert where
  kind : AlertKind
  launch : Launch
  createdAt : Int
  matchedTerms : List String
  reason : Option CorrectionReason
  previous : Option LaunchFacts
  deriving DecidableEq, Repr

structure SentAlert where
  kind : AlertKind
  createdAt : Int
  reason : Option CorrectionReason
  deriving DecidableEq, Repr

/-- Persistent memory of the alert decisions for one launch. -/
structure AlertRecord where
  key : String
  sourceName : String
  sourceLaunchId : String
  launchName : String
  matchedTerms : List String
  lastFacts : LaunchFacts
  sentAlerts : List SentAlert
  firstAlertAt : Int
  lastAlertAt : Int
  deriving DecidableEq, Repr

/-- Pure policy inputs for the decision core. -/
structure AlertPolicy where
  launchSoon : Int
  launchImminent : Int
  correctionTimeShift : Int
  scheduleLookahead : Int
  retention : Int
  deriving DecidableEq, Repr

end RocketWatcher
