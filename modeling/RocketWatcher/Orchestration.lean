import RocketWatcher.Config
import RocketWatcher.Core
import RocketWatcher.Formatting
import RocketWatcher.Library.Traced

/-!
# One watcher cycle

`runCycle` of `orchestration.cpp` : fetch, decide, save the alert records, notify. What a
cycle does to the outside is its trace of effects, in order; what the launch schedule
source, the record store, the notification channel, the clock and the time zone database
answer is a `CycleEnv`. An exception the cycle does not catch ends it, and leaves the
effects before it done. The logger does not throw.
-/

namespace RocketWatcher

structure FetchResult where
  launches : List Launch
  warnings : List String

structure DeliveryResult where
  recipient : String
  ok : Bool
  detail : String
  deriving DecidableEq, Repr

structure CycleOutcome where
  sourceFailed : Bool := false
  saveFailed : Bool := false
  alertsCreated : Nat := 0
  deliveries : List DeliveryResult := []
  deriving DecidableEq, Repr

def CycleOutcome.anyDeliveryFailed (outcome : CycleOutcome) : Bool :=
  outcome.deliveries.any fun delivery => !delivery.ok

def CycleOutcome.ok (outcome : CycleOutcome) : Bool :=
  !(outcome.sourceFailed || outcome.saveFailed || outcome.anyDeliveryFailed)

/-- What a cycle does to the log, the record store and the notification channel. A save
may fail, with or without having replaced the stored records. -/
inductive Effect where
  | log (line : String)
  | save (records : List AlertRecord) (replaced : Bool)
  | send (message : Message) (recipientName : String)
  deriving DecidableEq, Repr

/-- How `store.save` ends. -/
inductive SaveAnswer where
  | saved
  | failed (error : Exn) (replaced : Bool)

def SaveAnswer.replaced : SaveAnswer → Bool
  | saved => true
  | failed _ replaced => replaced

/-- What the collaborators of one cycle answer. `send n` is the answer to the `n`-th call
of the channel in this cycle. -/
structure CycleEnv where
  now : Int
  dryRun : Bool
  fetch : Except Exn FetchResult
  loadError : Option Exn
  saveAnswer : SaveAnswer
  send : Nat → Message → String → Except Exn DeliveryResult
  locateZone : String → Except Exn TimeZone

abbrev Cycle := Traced Effect Exn

def log (line : String) : Cycle Unit :=
  .perform (.log line)

/-- One delivery, and its line in the log. -/
def deliverTo (env : CycleEnv) (message : Message) (deliveries : List DeliveryResult)
    (recipient : Recipient) : Cycle (List DeliveryResult) := do
  .perform (.send message recipient.name)
  let result ← .ofExcept (env.send deliveries.length message recipient.name)
  let status := if result.ok then "delivered" else "DELIVERY FAILED"
  log (status ++ " to " ++ recipient.name ++ ": " ++ result.detail ++ " [" ++ message.title ++ "]")
  return deliveries ++ [result]

/-- One alert, to every recipient. -/
def notifyAlert (env : CycleEnv) (config : Config) (deliveries : List DeliveryResult)
    (created : Alert × Message) : Cycle (List DeliveryResult) := do
  log ("alert created: [" ++ created.2.title ++ "] (matched: " ++
    join created.1.matchedTerms ", " ++ ")")
  config.recipients.foldlM (deliverTo env created.2) deliveries

/-- The loop over the messages of the cycle. -/
def notify (env : CycleEnv) (config : Config) (messages : List (Alert × Message))
    (outcome : CycleOutcome) : Cycle CycleOutcome := do
  let deliveries ← messages.foldlM (notifyAlert env config) outcome.deliveries
  return { outcome with deliveries }

def reportDryRun (decision : CycleDecision) (messages : List (Alert × Message))
    (outcome : CycleOutcome) : Cycle CycleOutcome := do
  if messages.isEmpty then
    log "dry run: no alerts would be created this cycle"
  messages.forM fun created =>
    log ("dry run: would send [" ++ created.2.title ++ "] " ++ created.2.body ++ " (matched: " ++
      join created.1.matchedTerms ", " ++ ")")
  log ("dry run: would persist " ++ toString decision.updatedRecords.length ++
    " alert record(s); no notifications sent, no records or logs written")
  return outcome

/-- How the cycle goes on after the call of `store.save`. A storage error keeps it from
notifying. -/
def afterSave (env : CycleEnv) (config : Config) (decision : CycleDecision)
    (messages : List (Alert × Message)) (outcome : CycleOutcome) : Cycle CycleOutcome :=
  match env.saveAnswer with
  | .failed (.storageError what) _ => do
    log ("failed to save alert records: " ++ what ++ "; sending no notifications this cycle")
    return { outcome with saveFailed := true }
  | .failed error _ => .ofExcept (.error error)
  | .saved => do
    log ("saved " ++ toString decision.updatedRecords.length ++ " alert record(s)")
    notify env config messages outcome

/-- Save first, notify after it. -/
def saveAndNotify (env : CycleEnv) (config : Config) (decision : CycleDecision)
    (messages : List (Alert × Message)) (outcome : CycleOutcome) : Cycle CycleOutcome := do
  .perform (.save decision.updatedRecords env.saveAnswer.replaced)
  afterSave env config decision messages outcome

def formatAlerts (alerts : List Alert) (displayZone : TimeZone) :
    Except Exn (List (Alert × Message)) :=
  alerts.mapM fun alert => return (alert, ← formatAlert alert displayZone)

/-- `records_changed` : the save is skipped when no alert was created and the number of
records is the same. -/
def recordsChanged (records : List AlertRecord) (decision : CycleDecision) : Bool :=
  !decision.alerts.isEmpty || decision.updatedRecords.length != records.length

/-- What `decideCycle` is given besides the records. -/
def cycleInput (env : CycleEnv) (config : Config) (launches : List Launch) : CycleInput :=
  ⟨launches, config.policy, config.launchProvider, config.includeTerms, env.now⟩

/-- The cycle once launches and records are there. `changed` is the test for the save. -/
def decideAndNotify (changed : List AlertRecord → CycleDecision → Bool) (env : CycleEnv)
    (config : Config) (launches : List Launch) (records : List AlertRecord) :
    Cycle CycleOutcome := do
  let decision ← .ofExcept (decideCycle (cycleInput env config launches) records)
  decision.evaluations.forM fun line => log ("eval: " ++ line)
  let outcome : CycleOutcome := { alertsCreated := decision.alerts.length }
  let displayZone ← .ofExcept (config.displayZone env.locateZone)
  let messages ← .ofExcept (formatAlerts decision.alerts displayZone)
  if env.dryRun then
    reportDryRun decision messages outcome
  else if changed records decision then
    saveAndNotify env config decision messages outcome
  else
    notify env config messages outcome

/-- A cycle that saves when `changed` says so. -/
def runCycleWith (changed : List AlertRecord → CycleDecision → Bool) (env : CycleEnv)
    (config : Config) (stored : List AlertRecord) : Cycle CycleOutcome :=
  match env.fetch with
  | .error error => do
    log ("source fetch failed: " ++ error.what)
    return { sourceFailed := true }
  | .ok fetch => do
    fetch.warnings.forM fun warning => log ("source warning: " ++ warning)
    log ("fetched " ++ toString fetch.launches.length ++ " upcoming launches")
    match env.loadError with
    | some (.storageError what) =>
      log ("failed to load alert records: " ++ what ++ "; sending no notifications this cycle")
      return { saveFailed := true }
    | some error => .ofExcept (.error error)
    | none => decideAndNotify changed env config fetch.launches stored

/-- The cycle of the program. -/
def runCycle (env : CycleEnv) (config : Config) (stored : List AlertRecord) :
    Cycle CycleOutcome :=
  runCycleWith recordsChanged env config stored

end RocketWatcher
