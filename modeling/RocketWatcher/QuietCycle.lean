import RocketWatcher.CycleSpec
import RocketWatcher.Orchestration

/-!
# What a cycle does besides logging

`quietCycle` is a cycle with the log lines left out : a failed fetch or load, an exception
while deciding or formatting, a dry run, or the save and the notifications of a decision. It
shows the same saves and sends and has the same result (`runCycleWith_quiet`). The
notifications are the alerts of the decision, each to every recipient, in this order
(`emits_notify`).
-/

open Traced

namespace RocketWatcher

/-- Saves and sends; the log is not looked at. -/
def Effect.visible : Effect → Bool
  | .log _ => false
  | .save .. | .send .. => true

theorem emits_log (line : String) : Emits Effect.visible (log line) [] :=
  Emits.perform (Effect.log line)

variable {changed : List AlertRecord → CycleDecision → Bool} {env : CycleEnv} {config : Config}
  {stored : List AlertRecord}

/-- The sends of a cycle : alerts in decision order, recipients in config order. -/
def allSends (config : Config) (messages : List (Alert × Message)) : List Effect :=
  messages.flatMap fun created => config.recipients.map fun r => .send created.2 r.name

theorem emits_deliverTo (message : Message) (deliveries : List DeliveryResult)
    (recipient : Recipient) :
    Emits Effect.visible (deliverTo env message deliveries recipient)
      [.send message recipient.name] := by
  refine (Emits.perform (Effect.send message recipient.name)).bind fun _ _ => ?_
  refine (Emits.ofExcept _).bind_silent fun result _ => ?_
  exact (emits_log _).bind_silent fun _ _ => .pure _

theorem emits_notifyAlert (deliveries : List DeliveryResult) (created : Alert × Message) :
    Emits Effect.visible (notifyAlert env config deliveries created)
      (config.recipients.map fun r => .send created.2 r.name) := by
  refine (emits_log _).bind_silent fun _ _ => ?_
  rw [List.map_eq_flatMap]
  exact Emits.foldlM (fun deliveries r _ => emits_deliverTo created.2 deliveries r) deliveries

/-- The notifications are all sends, or an initial part of them if the channel throws. -/
theorem emits_notify (messages : List (Alert × Message)) (outcome : CycleOutcome) :
    Emits Effect.visible (notify env config messages outcome) (allSends config messages) := by
  have hloop : Emits Effect.visible
      (messages.foldlM (notifyAlert env config) outcome.deliveries) (allSends config messages) :=
    Emits.foldlM (fun deliveries created _ => emits_notifyAlert deliveries created)
      outcome.deliveries
  rw [← List.append_nil (allSends config messages)]
  exact hloop.bind fun _ _ => .pure _

/-- The sends that follow a save : none if it fails. -/
def sendsAfterSave (env : CycleEnv) (config : Config) (messages : List (Alert × Message)) :
    List Effect :=
  match env.saveAnswer with
  | .saved => allSends config messages
  | .failed _ _ => []

theorem sendsAfterSave_isPrefix (messages : List (Alert × Message)) :
    sendsAfterSave env config messages <+: allSends config messages := by
  unfold sendsAfterSave
  cases env.saveAnswer with
  | saved => exact List.prefix_rfl
  | failed => exact List.nil_prefix

theorem sendsAfterSave_of_not_replaced (messages : List (Alert × Message))
    (h : env.saveAnswer.replaced = false) : sendsAfterSave env config messages = [] := by
  unfold sendsAfterSave
  cases hanswer : env.saveAnswer with
  | saved => simp [hanswer, SaveAnswer.replaced] at h
  | failed => rfl

theorem emits_afterSave (decision : CycleDecision) (messages : List (Alert × Message))
    (outcome : CycleOutcome) :
    Emits Effect.visible (afterSave env config decision messages outcome)
      (sendsAfterSave env config messages) := by
  unfold afterSave sendsAfterSave
  cases env.saveAnswer with
  | saved => exact (emits_log _).bind_silent fun _ _ => emits_notify messages outcome
  | failed error replaced =>
    cases error with
    | storageError => exact (emits_log _).bind_silent fun _ _ => .pure _
    | invalidArgument | runtimeError | configError | sourceError | jsonError => exact .ofExcept _

/-- The save is seen first, then sends. -/
theorem saveAndNotify_trace (env : CycleEnv) (config : Config) (decision : CycleDecision)
    (messages : List (Alert × Message)) (outcome : CycleOutcome) :
    ∃ rest, (saveAndNotify env config decision messages outcome).trace.filter Effect.visible =
        .save decision.updatedRecords env.saveAnswer.replaced :: rest ∧
      rest <+: sendsAfterSave env config messages :=
  ⟨_, rfl, (emits_afterSave decision messages outcome).isPrefix⟩

/-- A log line in front of a script is not seen. -/
theorem sameView_log (line : String) (x : Cycle CycleOutcome) :
    SameView Effect.visible (log line >>= fun _ => x) x :=
  .of_silent (emits_log line) rfl

/-- Nor are many. -/
theorem sameView_logs {α : Type} (items : List α) (line : α → String) (x : Cycle CycleOutcome) :
    SameView Effect.visible ((items.forM fun item => log (line item)) >>= fun _ => x) x :=
  .of_silent (.forM_silent fun item => emits_log (line item)) (forM_result fun _ => rfl)

theorem sameView_reportDryRun (decision : CycleDecision) (messages : List (Alert × Message))
    (outcome : CycleOutcome) :
    SameView Effect.visible (reportDryRun decision messages outcome) (pure outcome) := by
  unfold reportDryRun
  split
  · exact (sameView_log _ _).trans ((sameView_logs _ _ _).trans (sameView_log _ _))
  · exact (sameView_logs _ _ _).trans (sameView_log _ _)

theorem formatAlerts_cons (alert : Alert) (alerts : List Alert) (zone : TimeZone) :
    formatAlerts (alert :: alerts) zone = do
      let message ← formatAlert alert zone
      let messages ← formatAlerts alerts zone
      return (alert, message) :: messages := by
  simp [formatAlerts, List.mapM_cons]

theorem formatAlerts_eq_ok {alerts : List Alert} {zone : TimeZone}
    {messages : List (Alert × Message)} (h : formatAlerts alerts zone = .ok messages) :
    messages.map Prod.fst = alerts ∧
      ∀ created ∈ messages, formatAlert created.1 zone = .ok created.2 := by
  induction alerts generalizing messages with
  | nil =>
    obtain rfl : [] = messages := by simpa [formatAlerts] using h
    simp
  | cons alert alerts ih =>
    rw [formatAlerts_cons] at h
    obtain ⟨message, hformat, h⟩ := Except.bind_eq_ok.mp h
    obtain ⟨rest, hrest, h⟩ := Except.bind_eq_ok.mp h
    obtain ⟨hfst, hmessages⟩ := ih hrest
    obtain rfl : (alert, message) :: rest = messages := Except.ok.inj h
    simpa [hfst, hformat] using hmessages

/-- Decide, then format : what has to succeed before anything is saved. -/
def planCycle (env : CycleEnv) (config : Config) (launches : List Launch)
    (stored : List AlertRecord) : Except Exn (CycleDecision × List (Alert × Message)) := do
  let decision ← decideCycle (cycleInput env config launches) stored
  let displayZone ← config.displayZone env.locateZone
  let messages ← formatAlerts decision.alerts displayZone
  return (decision, messages)

/-- A plan is a decision with a message in the display zone for each of its alerts. -/
theorem planCycle_eq_ok {launches : List Launch} {decision : CycleDecision}
    {messages : List (Alert × Message)}
    (h : planCycle env config launches stored = .ok (decision, messages)) :
    decideCycle (cycleInput env config launches) stored = .ok decision ∧
      messages.map Prod.fst = decision.alerts ∧
      ∃ zone, config.displayZone env.locateZone = .ok zone ∧
        ∀ created ∈ messages, formatAlert created.1 zone = .ok created.2 := by
  obtain ⟨decision', hdecide, h⟩ := Except.bind_eq_ok.mp h
  obtain ⟨zone, hzone, h⟩ := Except.bind_eq_ok.mp h
  obtain ⟨messages', hformat, h⟩ := Except.bind_eq_ok.mp h
  obtain ⟨rfl, rfl⟩ := Prod.mk.inj (Except.ok.inj h)
  obtain ⟨hfst, hmessages⟩ := formatAlerts_eq_ok hformat
  exact ⟨hdecide, hfst, zone, hzone, hmessages⟩

/-- The cycle without its log lines. -/
def quietCycle (changed : List AlertRecord → CycleDecision → Bool) (env : CycleEnv)
    (config : Config) (stored : List AlertRecord) : Cycle CycleOutcome :=
  match env.fetch, env.loadError with
  | .error _, _ => pure { sourceFailed := true }
  | .ok _, some (.storageError _) => pure { saveFailed := true }
  | .ok _, some error => .ofExcept (.error error)
  | .ok fetch, none => do
    let (decision, messages) ← .ofExcept (planCycle env config fetch.launches stored)
    let outcome : CycleOutcome := { alertsCreated := decision.alerts.length }
    if env.dryRun then
      return outcome
    else if changed stored decision then
      saveAndNotify env config decision messages outcome
    else
      notify env config messages outcome

theorem decideAndNotify_quiet (launches : List Launch) :
    SameView Effect.visible (decideAndNotify changed env config launches stored) (do
      let (decision, messages) ← .ofExcept (planCycle env config launches stored)
      let outcome : CycleOutcome := { alertsCreated := decision.alerts.length }
      if env.dryRun then
        return outcome
      else if changed stored decision then
        saveAndNotify env config decision messages outcome
      else
        notify env config messages outcome) := by
  unfold decideAndNotify
  cases hdecide : decideCycle (cycleInput env config launches) stored with
  | error error =>
    have hplan : planCycle env config launches stored = .error error := by
      simp [planCycle, hdecide]
    rw [hplan]
    exact .refl _
  | ok decision =>
    refine (sameView_logs decision.evaluations _ _).trans ?_
    cases hzone : config.displayZone env.locateZone with
    | error error =>
      have hplan : planCycle env config launches stored = .error error := by
        simp [planCycle, hdecide, hzone]
      rw [hplan]
      exact .refl _
    | ok zone =>
      cases hformat : formatAlerts decision.alerts zone with
      | error error =>
        have hplan : planCycle env config launches stored = .error error := by
          simp [planCycle, hdecide, hzone, hformat]
        simp only [ofExcept_ok_bind, hformat, hplan]
        exact .refl _
      | ok messages =>
        have hplan : planCycle env config launches stored = .ok (decision, messages) := by
          simp [planCycle, hdecide, hzone, hformat]
        simp only [ofExcept_ok_bind, hformat, hplan]
        split
        · exact sameView_reportDryRun decision messages _
        · exact .refl _

/-- Nothing but log lines distinguishes a cycle from its quiet form. -/
theorem runCycleWith_quiet (changed : List AlertRecord → CycleDecision → Bool) (env : CycleEnv)
    (config : Config) (stored : List AlertRecord) :
    SameView Effect.visible (runCycleWith changed env config stored)
      (quietCycle changed env config stored) := by
  unfold runCycleWith quietCycle
  cases env.fetch with
  | error error => exact sameView_log _ _
  | ok fetch =>
    refine (sameView_logs fetch.warnings _ _).trans ((sameView_log _ _).trans ?_)
    cases env.loadError with
    | none => exact decideAndNotify_quiet fetch.launches
    | some error =>
      cases error with
      | storageError what => exact sameView_log _ _
      | invalidArgument | runtimeError | configError | sourceError | jsonError => exact .refl _

end RocketWatcher
