import RocketWatcher.Watcher

/-!
# A dry run is a preview

A dry cycle against a real one, with everything else the same. Up to the plan they log the same
lines, and if there is no plan they end in the same way. The dry cycle then prints the messages
and the number of records of the plan, and the real one saves these records and sends these
messages, each to every recipient (`dry_run_previews`).
-/

open Traced

namespace RocketWatcher

/-- The lines of a dry cycle about its plan. -/
def previewLines (d : CycleDecision) (messages : List (Alert × Message)) : List String :=
  (if messages.isEmpty then ["dry run: no alerts would be created this cycle"] else []) ++
    messages.map (fun created => "dry run: would send [" ++ created.2.title ++ "] " ++
      created.2.body ++ " (matched: " ++ join created.1.matchedTerms ", " ++ ")") ++
    ["dry run: would persist " ++ toString d.updatedRecords.length ++
      " alert record(s); no notifications sent, no records or logs written"]

theorem reportDryRun_eq (d : CycleDecision) (messages : List (Alert × Message))
    (outcome : CycleOutcome) :
    reportDryRun d messages outcome = ⟨(previewLines d messages).map .log, .ok outcome⟩ := by
  have hloop : (messages.forM fun created => log ("dry run: would send [" ++ created.2.title ++
      "] " ++ created.2.body ++ " (matched: " ++ join created.1.matchedTerms ", " ++ ")")) =
      ⟨messages.map fun created => .log ("dry run: would send [" ++ created.2.title ++ "] " ++
        created.2.body ++ " (matched: " ++ join created.1.matchedTerms ", " ++ ")"), .ok ()⟩ :=
    forM_perform _ messages
  rw [reportDryRun, previewLines, hloop]
  cases messages <;> simp [log, Traced.perform, Traced.pure_eq_mk]

/-- What a cycle with this plan saves and sends. -/
def plannedEffects (env : CycleEnv) (config : Config) (stored : List AlertRecord)
    (d : CycleDecision) (messages : List (Alert × Message)) : List Effect :=
  (if recordsChanged stored d then [.save d.updatedRecords env.saveAnswer.replaced] else []) ++
    allSends config messages

/-- A real cycle once it has its plan. -/
def carryOut (env : CycleEnv) (config : Config) (stored : List AlertRecord) (d : CycleDecision)
    (messages : List (Alert × Message)) (outcome : CycleOutcome) : Cycle CycleOutcome :=
  if recordsChanged stored d then saveAndNotify env config d messages outcome
  else notify env config messages outcome

section Plan

variable {env : CycleEnv} {config : Config} {stored : List AlertRecord} {d : CycleDecision}
  {messages : List (Alert × Message)} {outcome : CycleOutcome}

theorem emits_saveAndNotify :
    Emits Effect.visible (saveAndNotify env config d messages outcome)
      (.save d.updatedRecords env.saveAnswer.replaced :: sendsAfterSave env config messages) :=
  (Emits.perform (Effect.save d.updatedRecords env.saveAnswer.replaced)).bind fun _ _ =>
    emits_afterSave d messages outcome

/-- A save that keeps the cycle from sending is reported. -/
theorem sendsAfterSave_of_ok {done : CycleOutcome}
    (h : (saveAndNotify env config d messages outcome).result = .ok done)
    (hsaved : done.saveFailed = false) :
    sendsAfterSave env config messages = allSends config messages := by
  unfold sendsAfterSave
  cases hanswer : env.saveAnswer with
  | saved => rfl
  | failed error replaced =>
    have hresult : (afterSave env config d messages outcome).result = .ok done := h
    rw [afterSave, hanswer] at hresult
    cases error with
    | storageError what =>
      obtain rfl := Except.ok.inj hresult
      cases hsaved
    | invalidArgument | runtimeError | configError | sourceError | jsonError => cases hresult

/-- It does what is planned, all of it unless something fails. -/
theorem carryOut_visible :
    (carryOut env config stored d messages outcome).trace.filter Effect.visible <+:
        plannedEffects env config stored d messages ∧
      ∀ done, (carryOut env config stored d messages outcome).result = .ok done →
        done.saveFailed = false →
        (carryOut env config stored d messages outcome).trace.filter Effect.visible =
          plannedEffects env config stored d messages := by
  unfold carryOut plannedEffects
  cases recordsChanged stored d with
  | false =>
    simp only [Bool.false_eq_true, ↓reduceIte, List.nil_append]
    have hemits : Emits Effect.visible (notify env config messages outcome)
      (allSends config messages) := emits_notify messages outcome
    exact ⟨hemits.isPrefix, fun done hdone _ => hemits.eq_of_ok done hdone⟩
  | true =>
    simp only [↓reduceIte]
    have hemits : Emits Effect.visible (saveAndNotify env config d messages outcome)
      (.save d.updatedRecords env.saveAnswer.replaced :: sendsAfterSave env config messages) :=
      emits_saveAndNotify
    refine ⟨hemits.isPrefix.trans ?_, fun done hdone hsaved => ?_⟩
    · exact (List.prefix_cons_inj _).mpr (sendsAfterSave_isPrefix messages)
    · rw [hemits.eq_of_ok done hdone, sendsAfterSave_of_ok hdone hsaved]
      rfl

end Plan

/-! ## The two modes -/

theorem log_bind (line : String) (x : Cycle CycleOutcome) :
    (log line >>= fun _ => x) = ⟨[line].map .log ++ x.trace, x.result⟩ :=
  rfl

theorem logs_bind {α : Type} (items : List α) (line : α → String) (x : Cycle CycleOutcome) :
    ((items.forM fun item => log (line item)) >>= fun _ => x) =
      ⟨(items.map line).map .log ++ x.trace, x.result⟩ := by
  have hloop : (items.forM fun item => log (line item)) =
      ⟨items.map fun item => .log (line item), .ok ()⟩ := forM_perform _ items
  rw [hloop, mk_ok_bind, List.map_map]
  rfl

/-- The cycles log the same lines and end in the same way, or have the same plan, which the dry
one reports and the real one carries out. -/
def SameUpToPlan (env : CycleEnv) (config : Config) (stored : List AlertRecord)
    (dry wet : Cycle CycleOutcome) : Prop :=
  ∃ lines : List String, (dry = wet ∧ dry.trace = lines.map .log) ∨ ∃ d messages,
    dry = ⟨(lines ++ previewLines d messages).map .log,
      .ok { alertsCreated := d.alerts.length }⟩ ∧
    ∃ rest, wet.trace = lines.map .log ++ rest ∧
      rest.filter Effect.visible <+: plannedEffects env config stored d messages ∧
      ∀ done, wet.result = .ok done → done.saveFailed = false →
        rest.filter Effect.visible = plannedEffects env config stored d messages

/-- Lines both log before. -/
theorem SameUpToPlan.logged {env : CycleEnv} {config : Config} {stored : List AlertRecord}
    {dry wet : Cycle CycleOutcome} (h : SameUpToPlan env config stored dry wet)
    (before : List String) :
    SameUpToPlan env config stored ⟨before.map .log ++ dry.trace, dry.result⟩
      ⟨before.map .log ++ wet.trace, wet.result⟩ := by
  obtain ⟨lines, ⟨rfl, hlines⟩ | ⟨d, messages, rfl, rest, hrest, hvisible⟩⟩ := h
  · exact ⟨before ++ lines, .inl ⟨rfl, by rw [hlines, List.map_append]⟩⟩
  · refine ⟨before ++ lines, .inr ⟨d, messages, ?_, rest, ?_, hvisible⟩⟩
    · simp
    · simp [hrest]

theorem decideAndNotify_dry_wet (env : CycleEnv) (config : Config) (launches : List Launch)
    (stored : List AlertRecord) :
    SameUpToPlan env config stored
      (decideAndNotify recordsChanged { env with dryRun := true } config launches stored)
      (decideAndNotify recordsChanged { env with dryRun := false } config launches stored) := by
  unfold decideAndNotify
  have hinput (dryRun : Bool) :
      cycleInput { env with dryRun } config launches = cycleInput env config launches := rfl
  simp only [hinput]
  cases decideCycle (cycleInput env config launches) stored with
  | error error => exact ⟨[], .inl ⟨rfl, rfl⟩⟩
  | ok d =>
    simp only [ofExcept_ok_bind, logs_bind]
    refine SameUpToPlan.logged ?_ _
    cases config.displayZone env.locateZone with
    | error error => exact ⟨[], .inl ⟨rfl, rfl⟩⟩
    | ok zone =>
      simp only [ofExcept_ok_bind]
      cases formatAlerts d.alerts zone with
      | error error => exact ⟨[], .inl ⟨rfl, rfl⟩⟩
      | ok messages =>
        simp only [ofExcept_ok_bind, ↓reduceIte, Bool.false_eq_true, reportDryRun_eq]
        exact ⟨[], .inr ⟨d, messages, rfl, _, rfl, carryOut_visible⟩⟩

/-- A dry cycle tells what the real one does. -/
theorem dry_run_previews (env : CycleEnv) (config : Config) (stored : List AlertRecord) :
    SameUpToPlan env config stored (runCycle { env with dryRun := true } config stored)
      (runCycle { env with dryRun := false } config stored) := by
  unfold runCycle runCycleWith
  dsimp only
  cases env.fetch with
  | error error => exact ⟨["source fetch failed: " ++ error.what], .inl ⟨rfl, rfl⟩⟩
  | ok fetch =>
    simp only [logs_bind, log_bind]
    refine (SameUpToPlan.logged ?_ _).logged _
    cases env.loadError with
    | none => exact decideAndNotify_dry_wet env config fetch.launches stored
    | some error =>
      cases error with
      | storageError what => exact ⟨[_], .inl ⟨rfl, rfl⟩⟩
      | invalidArgument | runtimeError | configError | sourceError | jsonError =>
        exact ⟨[], .inl ⟨rfl, rfl⟩⟩

end RocketWatcher
