import RocketWatcher.CycleSpec
import RocketWatcher.Formatting
import RocketWatcher.LoadConfig

/-!
# Deciding and formatting never throw

`evaluateRelevance` throws on an empty list of include terms, which the loader rejects.
`formatAlert` throws on a countdown alert without a launch time and on a correction without a
reason, and the decision table creates neither (`Decides.formatAlert_isOk`). A countdown alert
is created inside its window, so the minutes it prints are the true ones and no more than
its threshold (`countdown_is_true`).
-/

namespace RocketWatcher

/-- The body of a countdown message that gives `minutes` minutes. -/
def countdownBody (alert : Alert) (zone : TimeZone) (minutes : Int) : String :=
  let when := formatDisplay alert.launch.launchTime zone
  match alert.kind with
  | .launchSoon => "Estimated liftoff: " ++ when ++ " (~" ++ toString minutes ++ " min)."
  | _ => "Liftoff expected at " ++ when ++ " (~" ++ toString minutes ++
      " min). Open the live feed now."

variable {alert : Alert} {input : CycleInput} {records : List AlertRecord} {d : CycleDecision}

/-- A countdown alert with a launch time is formatted, with the minutes clamped at zero. -/
theorem formatAlert_countdown (hkind : alert.kind = .launchSoon ∨ alert.kind = .launchImminent)
    {time : Int} (htime : alert.launch.launchTime = some time) (zone : TimeZone) :
    ∃ message, formatAlert alert zone = .ok message ∧
      message.body = countdownBody alert zone (max 0 ((time - alert.createdAt) / 60)) := by
  unfold formatAlert countdownBody
  rcases hkind with hkind | hkind
  all_goals
    simp only [hkind, minutesAway, requiredLaunchTime, htime, Except.ok_bind, Except.pure_eq_ok]
    exact ⟨_, rfl, rfl⟩

/-- No created alert lacks what its message needs. -/
theorem Decides.formatAlert_isOk {policy : AlertPolicy} {now : Int} {terms : List String}
    {launch : Launch} {record : Option AlertRecord}
    (h : Decides policy now terms launch record (some alert)) (zone : TimeZone) :
    ∃ message, formatAlert alert zone = .ok message := by
  cases h with
  | noGo | timingNowImprecise | timeChanged => exact ⟨_, rfl⟩
  | @countdown _ kind _ _ eligible =>
    cases kind with
    | correction => exact eligible.elim
    | launchSoon | launchImminent | hourPrecision =>
      obtain ⟨-, time, htime, -⟩ := eligible
      simp [formatAlert, minutesAway, requiredLaunchTime, makeCountdown, htime]

/-- Every alert of a cycle was decided for its launch. -/
theorem decideCycle_mem_alerts (h : decideCycle input records = .ok d) (halert : alert ∈ d.alerts) :
    ∃ terms launch record, Decides input.policy input.now terms launch record (some alert) := by
  obtain ⟨state, hstate, halerts, -⟩ := decideCycle_eq_ok h
  rw [halerts] at halert
  obtain ⟨-, -, _, -, -, -, terms, hd⟩ := decideLaunches_mem_alerts hstate halert
  exact ⟨terms, _, _, hd⟩

/-- The window of a countdown kind. -/
def countdownWindow (policy : AlertPolicy) : AlertKind → Int
  | .launchSoon => policy.launchSoon
  | _ => policy.launchImminent

/-- A countdown alert is created inside its window. -/
theorem decideCycle_countdown (h : decideCycle input records = .ok d) (halert : alert ∈ d.alerts)
    (hkind : alert.kind = .launchSoon ∨ alert.kind = .launchImminent) :
    ∃ time, alert.launch.launchTime = some time ∧ alert.createdAt = input.now ∧
      0 ≤ time - input.now ∧ time - input.now ≤ countdownWindow input.policy alert.kind := by
  obtain ⟨terms, launch, record, hd⟩ := decideCycle_mem_alerts h halert
  cases hd with
  | noGo | timingNowImprecise | timeChanged => rcases hkind with hkind | hkind <;> cases hkind
  | @countdown _ kind _ _ eligible =>
    rcases hkind with rfl | rfl
    all_goals
      obtain ⟨-, time, htime, hpast, hwindow⟩ := eligible
      exact ⟨time, htime, rfl, hpast, hwindow.trans (min_le_left _ _)⟩

variable {locateZone : String → Except Exn TimeZone} {path : String} {data : TomlTable}
  {config : Config}

/-- The threshold of a countdown kind, as the config has it. -/
def thresholdMinutes (config : Config) : AlertKind → Int
  | .launchSoon => config.launchSoonMinutes
  | _ => config.launchImminentMinutes

/-- Under an accepted config every cycle decides and every alert is formatted, and the minutes
of a countdown message are those until the launch time, within the configured threshold. -/
theorem countdown_is_true (hload : loadConfig locateZone path (.parsed data) = .ok config)
    (launches : List Launch) (records : List AlertRecord) (now : Int) (zone : TimeZone) :
    ∃ d, decideCycle ⟨launches, config.policy, config.launchProvider, config.includeTerms, now⟩
        records = .ok d ∧
      ∀ alert ∈ d.alerts, ∃ message, formatAlert alert zone = .ok message ∧
        (alert.kind = .launchSoon ∨ alert.kind = .launchImminent →
          ∃ time, alert.launch.launchTime = some time ∧
            message.body = countdownBody alert zone ((time - now) / 60) ∧
            0 ≤ (time - now) / 60 ∧ (time - now) / 60 ≤ thresholdMinutes config alert.kind) := by
  obtain ⟨_, hdata, haccepted⟩ := loadConfig_eq_ok hload
  obtain rfl := ConfigFile.parsed.inj hdata
  obtain ⟨d, hd⟩ : ∃ d, decideCycle ⟨launches, config.policy, config.launchProvider,
    config.includeTerms, now⟩ records = .ok d := decideCycle_isOk records haccepted.includeTerms
  refine ⟨d, hd, fun alert halert => ?_⟩
  obtain ⟨terms, launch, record, hdecides⟩ := decideCycle_mem_alerts hd halert
  obtain ⟨message, hmessage⟩ := hdecides.formatAlert_isOk zone
  refine ⟨message, hmessage, fun hkind => ?_⟩
  obtain ⟨time, htime, hcreated, hpast, hwindow⟩ := decideCycle_countdown hd halert hkind
  obtain ⟨message', hmessage', hbody⟩ := formatAlert_countdown hkind htime zone
  obtain rfl : message = message' := by simpa [hmessage] using hmessage'
  have hminutes : 0 ≤ (time - now) / 60 := Int.ediv_nonneg hpast (by decide)
  rw [hcreated, max_eq_right hminutes] at hbody
  refine ⟨time, htime, hbody, hminutes, ?_⟩
  rcases hkind with hkind | hkind
  all_goals
    simp only [hkind, countdownWindow, thresholdMinutes, Config.policy] at hwindow ⊢
    omega

/-- Forty-five minutes before the launch of the test suite. -/
theorem countdown_is_true_kValid :
    ∃ d, decideCycle ⟨[makeLaunch], kValidConfig.policy, kValidConfig.launchProvider,
        kValidConfig.includeTerms, kNow⟩ [] = .ok d ∧
      ∀ alert ∈ d.alerts, ∃ message, formatAlert alert pacificDaylight = .ok message ∧
        (alert.kind = .launchSoon ∨ alert.kind = .launchImminent →
          ∃ time, alert.launch.launchTime = some time ∧
            message.body = countdownBody alert pacificDaylight ((time - kNow) / 60) ∧
            0 ≤ (time - kNow) / 60 ∧
            (time - kNow) / 60 ≤ thresholdMinutes kValidConfig alert.kind) := by
  have hload : loadConfig anyZone "config.toml" (.parsed (kValid [] [])) = .ok kValidConfig := rfl
  exact countdown_is_true hload [makeLaunch] [] kNow pacificDaylight

end RocketWatcher
