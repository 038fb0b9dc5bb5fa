import RocketWatcher.TimeUtils

/-!
# Messages

`formatAlert` of `formatting.cpp` : the text of an alert in the display time zone, with the
kind and the launch key a delivery is told. A message names the key of its alert's launch,
and its kind is a countdown or hour-precision kind exactly when the alert's is.
-/

namespace RocketWatcher

structure Message where
  title : String
  body : String
  alertKind : String
  launchKey : String
  launchName : String
  deriving DecidableEq, Repr

/-- Countdown and hour-precision alerts are only created for known launch times. -/
def requiredLaunchTime (alert : Alert) : Except Exn Int :=
  match alert.launch.launchTime with
  | none => throw (.invalidArgument "countdown alert requires a launch time")
  | some launchTime => return launchTime

def minutesAway (alert : Alert) : Except Exn Int := do
  let remaining := ((← requiredLaunchTime alert) - alert.createdAt) / 60
  return max 0 remaining

def formatCorrection (alert : Alert) (displayZone : TimeZone) : Except Exn Message := do
  let name := alert.launch.name
  let was := formatDisplay (alert.previous.bind (·.launchTime)) displayZone
  let message (title body : String) (reason : CorrectionReason) : Message :=
    { title := title
      body := body
      alertKind := "correction:" ++ reason.toString
      launchKey := alert.launch.key
      launchName := name }
  match alert.reason with
  | some .noGo =>
    return message ("Launch no longer go: " ++ name)
      (name ++ " is no longer go for launch. Was expected at " ++ was ++ ".") .noGo
  | some .timeChanged =>
    let nowWhen := formatDisplay alert.launch.launchTime displayZone
    return message ("Launch time changed: " ++ name)
      ("New estimated liftoff: " ++ nowWhen ++ ". Was " ++ was ++ ".") .timeChanged
  | some .timingNowImprecise =>
    return message ("Launch timing now uncertain: " ++ name)
      ("Launch timing is no longer precise. Last estimate was " ++ was ++ ".") .timingNowImprecise
  | none => throw (.invalidArgument "correction alert without a known reason")

def formatAlert (alert : Alert) (displayZone : TimeZone) : Except Exn Message := do
  let name := alert.launch.name
  let when := formatDisplay alert.launch.launchTime displayZone
  let message (title body : String) : Message :=
    { title := title
      body := body
      alertKind := alert.kind.toString
      launchKey := alert.launch.key
      launchName := name }
  match alert.kind with
  | .launchSoon =>
    return message ("Launch soon: " ++ name)
      ("Estimated liftoff: " ++ when ++ " (~" ++ toString (← minutesAway alert) ++ " min).")
  | .launchImminent =>
    return message ("Launch imminent: " ++ name)
      ("Liftoff expected at " ++ when ++ " (~" ++ toString (← minutesAway alert) ++
        " min). Open the live feed now.")
  | .hourPrecision =>
    return message ("Possible launch this hour: " ++ name)
      ("Possible launch this hour. Timing is only precise to the hour; estimated window: " ++
        formatDisplayHour (← requiredLaunchTime alert) displayZone ++ ".")
  | .correction => formatCorrection alert displayZone

variable {alert : Alert} {zone : TimeZone} {message : Message}

theorem formatCorrection_eq_ok (h : formatCorrection alert zone = .ok message) :
    message.launchKey = alert.launch.key ∧
      ∃ reason, alert.reason = some reason ∧
        message.alertKind = "correction:" ++ reason.toString := by
  unfold formatCorrection at h
  cases hreason : alert.reason with
  | none => simp [hreason] at h
  | some reason =>
    cases reason <;> simp only [hreason, Except.ok.injEq, Except.pure_eq_ok] at h <;>
      exact h ▸ ⟨rfl, _, rfl, rfl⟩

/-- What a message says about its alert. -/
theorem formatAlert_eq_ok (h : formatAlert alert zone = .ok message) :
    message.launchKey = alert.launch.key ∧
      (message.alertKind = alert.kind.toString ∧ alert.kind ≠ .correction ∨
        alert.kind = .correction ∧ ∃ reason, alert.reason = some reason ∧
          message.alertKind = "correction:" ++ reason.toString) := by
  unfold formatAlert at h
  cases hkind : alert.kind with
  | correction =>
    simp only [hkind] at h
    obtain ⟨hkey, hreason⟩ := formatCorrection_eq_ok h
    exact ⟨hkey, Or.inr ⟨rfl, hreason⟩⟩
  | launchSoon | launchImminent | hourPrecision =>
    cases htime : alert.launch.launchTime with
    | none => simp [hkind, minutesAway, requiredLaunchTime, htime] at h
    | some time =>
      simp only [hkind, minutesAway, requiredLaunchTime, htime, Except.ok.injEq, Except.ok_bind,
        Except.pure_eq_ok] at h
      exact h ▸ ⟨rfl, Or.inl ⟨rfl, by simp⟩⟩

theorem AlertKind.toString_injective : Function.Injective AlertKind.toString := by
  intro kind kind'
  cases kind <;> cases kind' <;> decide

theorem AlertKind.toString_ne_correction (kind : AlertKind) (reason : CorrectionReason) :
    kind.toString ≠ "correction:" ++ reason.toString := by
  cases kind <;> cases reason <;> decide

/-- A message that gives the kind of an alert is of an alert of this kind. -/
theorem kind_of_message (h : formatAlert alert zone = .ok message) {kind : AlertKind}
    (hkind : message.alertKind = kind.toString) : alert.kind = kind := by
  rcases (formatAlert_eq_ok h).2 with ⟨hsame, -⟩ | ⟨-, reason, -, hsame⟩
  · exact AlertKind.toString_injective (hsame.symm.trans hkind)
  · exact absurd (hkind.symm.trans hsame) (kind.toString_ne_correction reason)

end RocketWatcher
