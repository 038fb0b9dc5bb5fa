import RocketWatcher.TimeUtils

/-!
# Behavior config

`Config` of `config.hpp` with its defaults, and the policy and display zone it stands for.
The integer settings are C++ `int`s; a policy counts seconds.
-/

namespace RocketWatcher

structure Recipient where
  name : String
  userKeyEnv : String
  deriving DecidableEq, Repr

structure Config where
  launchProvider : String := ""
  includeTerms : List String := []
  recipients : List Recipient := []
  pushoverTokenEnv : String := ""
  launchSoonMinutes : Int := 60
  launchImminentMinutes : Int := 10
  correctionTimeShiftMinutes : Int := 30
  scheduleLookaheadHours : Int := 30
  pollIntervalMinutes : Int := 5
  retentionDays : Int := 30
  displayTimezone : String := "America/Los_Angeles"
  alertRecordsPath : String := "data/alert_records.json"
  logPath : String := "logs/watcher.log"
  deriving DecidableEq, Repr

/-- The policy of the configured durations. -/
def Config.policy (config : Config) : AlertPolicy where
  launchSoon := config.launchSoonMinutes * 60
  launchImminent := config.launchImminentMinutes * 60
  correctionTimeShift := config.correctionTimeShiftMinutes * 60
  scheduleLookahead := config.scheduleLookaheadHours * 3600
  retention := config.retentionDays * 86400

/-- The display zone, as the time zone database locates it. -/
def Config.displayZone (locateZone : String → Except Exn TimeZone) (config : Config) :
    Except Exn TimeZone :=
  locateZone config.displayTimezone

end RocketWatcher
