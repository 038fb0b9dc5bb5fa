import RocketWatcher.Ledger

/-!
# The watcher in another epoch

Every clock reading, launch time and stored time of a run may be moved by the same amount
`δ`. If the display zones answer for the moved times what they answered for the old ones, the
watcher writes the same log, sends the same messages to the same recipients, and stores the
same records with their times moved by `δ` (`watcher_later`). No date is special to it, and no
two times are compared other than by their difference.
-/

open Std

namespace RocketWatcher

/-! ## Moved times -/

def LaunchFacts.later (δ : Int) (facts : LaunchFacts) : LaunchFacts :=
  { facts with launchTime := facts.launchTime.map (· + δ) }

def Launch.later (δ : Int) (launch : Launch) : Launch :=
  { launch with launchTime := launch.launchTime.map (· + δ) }

def Alert.later (δ : Int) (alert : Alert) : Alert :=
  { alert with
    launch := alert.launch.later δ
    createdAt := alert.createdAt + δ
    previous := alert.previous.map (·.later δ) }

def SentAlert.later (δ : Int) (sent : SentAlert) : SentAlert :=
  { sent with createdAt := sent.createdAt + δ }

def AlertRecord.later (δ : Int) (record : AlertRecord) : AlertRecord :=
  { record with
    lastFacts := record.lastFacts.later δ
    sentAlerts := record.sentAlerts.map (·.later δ)
    firstAlertAt := record.firstAlertAt + δ
    lastAlertAt := record.lastAlertAt + δ }

def LaunchDecision.later (δ : Int) (decision : LaunchDecision) : LaunchDecision :=
  { decision with alert := decision.alert.map (·.later δ) }

def CycleDecision.later (δ : Int) (decision : CycleDecision) : CycleDecision :=
  { decision with
    alerts := decision.alerts.map (·.later δ)
    updatedRecords := decision.updatedRecords.map (·.later δ) }

def CycleInput.later (δ : Int) (input : CycleInput) : CycleInput :=
  { input with
    launches := input.launches.map (·.later δ)
    now := input.now + δ }

/-- The zone that answers for a moved time what `zone` answers for the time. -/
def TimeZone.later (δ : Int) (zone : TimeZone) : TimeZone where
  toLocal time := zone.toLocal (time - δ)
  localAbbrev time := zone.localAbbrev (time - δ)

def FetchResult.later (δ : Int) (fetch : FetchResult) : FetchResult :=
  { fetch with launches := fetch.launches.map (·.later δ) }

def CycleEnv.later (δ : Int) (env : CycleEnv) : CycleEnv :=
  { env with
    now := env.now + δ
    fetch := env.fetch.map (·.later δ)
    locateZone := fun name => (env.locateZone name).map (·.later δ) }

def CycleCall.later (δ : Int) (call : CycleCall) : CycleCall :=
  { call with env := call.env.later δ }

/-- Log lines and messages are texts : only the stored records are moved. -/
def Effect.later (δ : Int) : Effect → Effect
  | .save records replaced => .save (records.map (·.later δ)) replaced
  | .log line => .log line
  | .send message recipientName => .send message recipientName

def WatcherStep.later (δ : Int) (step : WatcherStep) : WatcherStep where
  before := step.before.map (·.later δ)
  input := step.input.later δ
  output := step.output.map (·.later δ)
  after := step.after.map (·.later δ)

/-! ## Decisions -/

variable (δ : Int)

@[simp] theorem Launch.key_later (launch : Launch) : (launch.later δ).key = launch.key :=
  rfl

@[simp] theorem AlertRecord.key_later (record : AlertRecord) :
    (record.later δ).key = record.key :=
  rfl

theorem sentKinds_later (record : Option AlertRecord) :
    sentKinds (record.map (·.later δ)) = sentKinds record := by
  cases record with
  | none => rfl
  | some record => exact List.map_map

theorem makeCorrection_later (launch : Launch) (record : AlertRecord) (reason : CorrectionReason)
    (matchedTerms : List String) (now : Int) :
    makeCorrection (launch.later δ) (record.later δ) reason matchedTerms (now + δ) =
      (makeCorrection launch record reason matchedTerms now).later δ :=
  rfl

theorem decideGoCorrection_later (launch : Launch) (record : AlertRecord)
    (matchedTerms : List String) (policy : AlertPolicy) (now : Int) :
    decideGoCorrection (launch.later δ) (record.later δ) matchedTerms policy (now + δ) =
      (decideGoCorrection launch record matchedTerms policy now).map (·.later δ) := by
  unfold decideGoCorrection
  simp only [makeCorrection_later]
  have hprecision : (launch.later δ).precision = launch.precision := rfl
  have hprev : (record.later δ).lastFacts.precision = record.lastFacts.precision := rfl
  have htime : (launch.later δ).launchTime = launch.launchTime.map (· + δ) := rfl
  have hprevTime : (record.later δ).lastFacts.launchTime =
      record.lastFacts.launchTime.map (· + δ) := rfl
  rw [hprecision, hprev, htime, hprevTime]
  split_ifs with huntimed
  · rfl
  · cases record.lastFacts.launchTime with
    | none => rfl
    | some prevTime =>
      cases launch.launchTime with
      | none => rfl
      | some launchTime =>
        simp only [Option.map_some, ge_iff_le, add_le_add_iff_right, add_sub_add_right_eq_sub]
        split_ifs <;> rfl

theorem decideGoCountdown_later (launch : Launch) (sentKinds : List AlertKind)
    (matchedTerms : List String) (policy : AlertPolicy) (now : Int) :
    decideGoCountdown (launch.later δ) sentKinds matchedTerms policy (now + δ) =
      (decideGoCountdown launch sentKinds matchedTerms policy now).later δ := by
  have hcountdown (kind : AlertKind) : makeCountdown (launch.later δ) kind matchedTerms (now + δ) =
      (makeCountdown launch kind matchedTerms now).later δ := rfl
  have hprecision : (launch.later δ).precision = launch.precision := rfl
  have htime : (launch.later δ).launchTime = launch.launchTime.map (· + δ) := rfl
  unfold decideGoCountdown
  rw [hprecision, htime]
  simp only [hcountdown]
  by_cases huntimed : launch.precision.isUntimed
  · rw [if_pos huntimed, if_pos huntimed]
    rfl
  · rw [if_neg huntimed, if_neg huntimed]
    cases launch.launchTime with
    | none => rfl
    | some launchTime =>
      simp only [Option.map_some, add_sub_add_right_eq_sub]
      split_ifs <;> rfl

/-- The decision for one launch is the moved one. -/
theorem decideForLaunch_later (launch : Launch) (record : Option AlertRecord)
    (matchedTerms : List String) (policy : AlertPolicy) (now : Int) :
    decideForLaunch (launch.later δ) (record.map (·.later δ)) matchedTerms policy (now + δ) =
      (decideForLaunch launch record matchedTerms policy now).later δ := by
  have hstatus : (launch.later δ).status = launch.status := rfl
  unfold decideForLaunch
  rw [hstatus]
  cases launch.status with
  | ended | unknown => rfl
  | noGo =>
    cases record with
    | none => rfl
    | some record =>
      have hlast : (record.later δ).lastFacts.status = record.lastFacts.status := rfl
      simp only [Option.map_some, hlast, makeCorrection_later]
      split_ifs <;> rfl
  | go =>
    have hcorrection : ((record.map (·.later δ)).bind fun record =>
        decideGoCorrection (launch.later δ) record matchedTerms policy (now + δ)) =
        (record.bind fun record => decideGoCorrection launch record matchedTerms policy now).map
          (·.later δ) := by
      cases record with
      | none => rfl
      | some record => exact decideGoCorrection_later δ launch record matchedTerms policy now
    simp only [hcorrection, sentKinds_later]
    cases record.bind fun record => decideGoCorrection launch record matchedTerms policy now with
    | none => exact decideGoCountdown_later δ launch _ matchedTerms policy now
    | some decision => rfl

theorem updatedRecord_later (record : Option AlertRecord) (launch : Launch) (alert : Alert)
    (now : Int) :
    updatedRecord (record.map (·.later δ)) (launch.later δ) (alert.later δ) (now + δ) =
      (updatedRecord record launch alert now).later δ := by
  cases record with
  | none => rfl
  | some record => simp [updatedRecord, AlertRecord.later, SentAlert.later, Alert.later,
      Launch.later, LaunchFacts.later, Launch.facts]

/-! ## A cycle -/

/-- The loop variables, moved. The maps have the same keys, with moved records. -/
structure LoopState.Later (state state' : LoopState) : Prop where
  record : ∀ k : String, state'.recordMap[k]? = state.recordMap[k]?.map (·.later δ)
  alerts : state'.alerts = state.alerts.map (·.later δ)
  evaluations : state'.evaluations = state.evaluations

/-- The map the loop starts with. -/
theorem LoopState.Later.start (records : List AlertRecord) :
    LoopState.Later δ ⟨firstByKey AlertRecord.key records, [], []⟩
      ⟨firstByKey AlertRecord.key (records.map (·.later δ)), [], []⟩ where
  record k := by
    rw [getElem?_firstByKey, getElem?_firstByKey, List.find?_map]
    rfl
  alerts := rfl
  evaluations := rfl

theorem decideLaunch_later (input : CycleInput) {state state' : LoopState} (launch : Launch)
    (h : LoopState.Later δ state state') :
    Except.Rel (LoopState.Later δ) (decideLaunch input state launch)
      (decideLaunch (input.later δ) state' (launch.later δ)) := by
  have hrelevance : evaluateRelevance (launch.later δ) (input.later δ).launchProvider
      (input.later δ).includeTerms =
      evaluateRelevance launch input.launchProvider input.includeTerms := rfl
  have hdecision (matchedTerms : List String) :
      decideForLaunch (launch.later δ) state'.recordMap[launch.key]? matchedTerms
        (input.later δ).policy (input.later δ).now =
      (decideForLaunch launch state.recordMap[launch.key]? matchedTerms input.policy
        input.now).later δ := by
    rw [h.record]
    exact decideForLaunch_later δ launch _ matchedTerms input.policy input.now
  have hname : (launch.later δ).name = launch.name := rfl
  unfold decideLaunch
  rw [hrelevance]
  cases evaluateRelevance launch input.launchProvider input.includeTerms with
  | error e => exact .error e
  | ok relevance =>
    simp only [Except.ok_bind, Launch.key_later, hname, hdecision, h.evaluations]
    by_cases hrelevant : relevance.relevant
    · simp only [hrelevant, Bool.not_true, Bool.false_eq_true, ↓reduceIte]
      generalize decideForLaunch launch state.recordMap[launch.key]? relevance.matchedTerms
        input.policy input.now = decision
      obtain ⟨alert, note⟩ := decision
      cases alert with
      | none => exact .ok ⟨h.record, h.alerts, rfl⟩
      | some alert =>
        refine .ok ⟨fun k => ?_, ?_, rfl⟩
        · dsimp only
          rw [TreeMap.getElem?_insert, TreeMap.getElem?_insert, h.record launch.key]
          split_ifs
          · exact congrArg some (updatedRecord_later δ _ launch alert input.now)
          · exact h.record k
        · simp [h.alerts]
    · simp only [hrelevant, Bool.not_false, ↓reduceIte]
      exact .ok ⟨h.record, h.alerts, rfl⟩

theorem decideCycle_later (input : CycleInput) (records : List AlertRecord) :
    decideCycle (input.later δ) (records.map (·.later δ)) =
      (decideCycle input records).map (·.later δ) := by
  have hloop : Except.Rel (LoopState.Later δ) (decideLaunches input records input.launches)
      (decideLaunches (input.later δ) (records.map (·.later δ)) (input.later δ).launches) :=
    Except.Rel.foldlM (fun _ _ launch h => decideLaunch_later δ input launch h) input.launches
      (.start δ records)
  have hretained : (retained (input.later δ)) ∘ (AlertRecord.later δ) = retained input := by
    funext record
    simp [retained, CycleInput.later, AlertRecord.later]
  unfold decideCycle
  generalize decideLaunches input records input.launches = loop at hloop
  generalize decideLaunches (input.later δ) _ _ = loop' at hloop
  cases hloop with
  | error e => rfl
  | ok h =>
    rw [Except.ok_bind, Except.ok_bind, valuesOf_eq_map h.record, List.filter_map, hretained,
      h.alerts, h.evaluations]
    rfl

/-! ## Messages -/

theorem formatDisplay_later (time : Option Int) (zone : TimeZone) :
    formatDisplay (time.map (· + δ)) (zone.later δ) = formatDisplay time zone := by
  cases time with
  | none => rfl
  | some time =>
    simp [formatDisplay, splitInZone, TimeZone.later]

theorem formatDisplayHour_later (time : Int) (zone : TimeZone) :
    formatDisplayHour (time + δ) (zone.later δ) = formatDisplayHour time zone := by
  simp [formatDisplayHour, splitInZone, TimeZone.later]

theorem requiredLaunchTime_later (alert : Alert) :
    requiredLaunchTime (alert.later δ) = (requiredLaunchTime alert).map (· + δ) := by
  have htime : (alert.later δ).launch.launchTime = alert.launch.launchTime.map (· + δ) := rfl
  unfold requiredLaunchTime
  rw [htime]
  cases alert.launch.launchTime <;> rfl

theorem minutesAway_later (alert : Alert) : minutesAway (alert.later δ) = minutesAway alert := by
  have hcreated : (alert.later δ).createdAt = alert.createdAt + δ := rfl
  unfold minutesAway
  rw [requiredLaunchTime_later, hcreated]
  cases requiredLaunchTime alert with
  | error e => rfl
  | ok time =>
    show Except.ok (max 0 ((time + δ - (alert.createdAt + δ)) / 60)) = _
    rw [add_sub_add_right_eq_sub]
    rfl

theorem formatCorrection_later (alert : Alert) (zone : TimeZone) :
    formatCorrection (alert.later δ) (zone.later δ) = formatCorrection alert zone := by
  have hwas : formatDisplay ((alert.later δ).previous.bind (·.launchTime)) (zone.later δ) =
      formatDisplay (alert.previous.bind (·.launchTime)) zone := by
    have htime : (alert.later δ).previous.bind (·.launchTime) =
        (alert.previous.bind (·.launchTime)).map (· + δ) := by
      unfold Alert.later
      cases alert.previous <;> rfl
    rw [htime, formatDisplay_later]
  have hnow : formatDisplay (alert.later δ).launch.launchTime (zone.later δ) =
      formatDisplay alert.launch.launchTime zone :=
    formatDisplay_later δ alert.launch.launchTime zone
  unfold formatCorrection
  rw [hwas, hnow]
  rfl

/-- A moved alert reads the same in the moved zone. -/
theorem formatAlert_later (alert : Alert) (zone : TimeZone) :
    formatAlert (alert.later δ) (zone.later δ) = formatAlert alert zone := by
  have hwhen : formatDisplay (alert.later δ).launch.launchTime (zone.later δ) =
      formatDisplay alert.launch.launchTime zone :=
    formatDisplay_later δ alert.launch.launchTime zone
  have hkind : (alert.later δ).kind = alert.kind := rfl
  have hname : (alert.later δ).launch.name = alert.launch.name := rfl
  have hkey : (alert.later δ).launch.key = alert.launch.key := rfl
  unfold formatAlert
  simp only [hwhen, hkind, hname, hkey, minutesAway_later, formatCorrection_later]
  cases alert.kind with
  | launchSoon | launchImminent | correction => rfl
  | hourPrecision =>
    rw [requiredLaunchTime_later]
    cases requiredLaunchTime alert with
    | error e => simp only [Except.map, Except.error_bind]
    | ok time => simp only [Except.map, Except.ok_bind, formatDisplayHour_later]

/-- A message with its alert, moved. -/
def laterCreated (created : Alert × Message) : Alert × Message :=
  (created.1.later δ, created.2)

theorem formatAlerts_later (alerts : List Alert) (zone : TimeZone) :
    formatAlerts (alerts.map (·.later δ)) (zone.later δ) =
      (formatAlerts alerts zone).map (·.map (laterCreated δ)) := by
  unfold formatAlerts
  induction alerts with
  | nil => rfl
  | cons alert alerts ih =>
    rw [List.map_cons, List.mapM_cons, List.mapM_cons, ih, formatAlert_later]
    cases formatAlert alert zone with
    | error e => rfl
    | ok message =>
      simp only [Except.ok_bind, Except.pure_eq_ok]
      generalize List.mapM (m := Except Exn) _ alerts = rest
      cases rest <;> rfl

/-! ## The script of a cycle -/

theorem log_later (line : String) : (log line).mapTrace (Effect.later δ) = log line :=
  rfl

theorem deliverTo_later (env : CycleEnv) (message : Message) (deliveries : List DeliveryResult)
    (recipient : Recipient) :
    (deliverTo env message deliveries recipient).mapTrace (Effect.later δ) =
      deliverTo (env.later δ) message deliveries recipient := by
  unfold deliverTo
  simp only [Traced.mapTrace_bind, Traced.mapTrace_perform, Traced.mapTrace_ofExcept,
    Traced.mapTrace_pure, log_later]
  rfl

theorem notifyAlert_later (env : CycleEnv) (config : Config) (deliveries : List DeliveryResult)
    (created : Alert × Message) :
    (notifyAlert env config deliveries created).mapTrace (Effect.later δ) =
      notifyAlert (env.later δ) config deliveries (laterCreated δ created) := by
  unfold notifyAlert
  simp only [Traced.mapTrace_bind, log_later, Traced.mapTrace_foldlM, deliverTo_later]
  rfl

theorem notify_later (env : CycleEnv) (config : Config) (messages : List (Alert × Message))
    (outcome : CycleOutcome) :
    (notify env config messages outcome).mapTrace (Effect.later δ) =
      notify (env.later δ) config (messages.map (laterCreated δ)) outcome := by
  unfold notify
  simp only [Traced.mapTrace_bind, Traced.mapTrace_foldlM, Traced.mapTrace_pure,
    notifyAlert_later, List.foldlM_map]

theorem reportDryRun_later (decision : CycleDecision) (messages : List (Alert × Message))
    (outcome : CycleOutcome) :
    (reportDryRun decision messages outcome).mapTrace (Effect.later δ) =
      reportDryRun (decision.later δ) (messages.map (laterCreated δ)) outcome := by
  unfold reportDryRun
  have hcount : (decision.later δ).updatedRecords.length = decision.updatedRecords.length :=
    List.length_map _
  have hempty : (messages.map (laterCreated δ)).isEmpty = messages.isEmpty := List.isEmpty_map
  rw [hcount, hempty]
  cases messages.isEmpty <;>
    simp only [Bool.false_eq_true, ↓reduceIte, Traced.mapTrace_bind, Traced.mapTrace_pure,
      Traced.mapTrace_forM, log_later, Traced.forM_map] <;> rfl

theorem afterSave_later (env : CycleEnv) (config : Config) (decision : CycleDecision)
    (messages : List (Alert × Message)) (outcome : CycleOutcome) :
    (afterSave env config decision messages outcome).mapTrace (Effect.later δ) =
      afterSave (env.later δ) config (decision.later δ) (messages.map (laterCreated δ))
        outcome := by
  have hcount : (decision.later δ).updatedRecords.length = decision.updatedRecords.length :=
    List.length_map _
  have hanswer : (env.later δ).saveAnswer = env.saveAnswer := rfl
  unfold afterSave
  rw [hcount, hanswer]
  cases env.saveAnswer with
  | saved => simp only [Traced.mapTrace_bind, log_later, notify_later]
  | failed error replaced => cases error <;> rfl

theorem saveAndNotify_later (env : CycleEnv) (config : Config) (decision : CycleDecision)
    (messages : List (Alert × Message)) (outcome : CycleOutcome) :
    (saveAndNotify env config decision messages outcome).mapTrace (Effect.later δ) =
      saveAndNotify (env.later δ) config (decision.later δ) (messages.map (laterCreated δ))
        outcome := by
  unfold saveAndNotify
  rw [Traced.mapTrace_bind, Traced.mapTrace_perform]
  simp only [afterSave_later]
  rfl

theorem recordsChanged_later (records : List AlertRecord) (decision : CycleDecision) :
    recordsChanged (records.map (·.later δ)) (decision.later δ) =
      recordsChanged records decision := by
  simp [recordsChanged, CycleDecision.later]

theorem decideAndNotify_later (env : CycleEnv) (config : Config) (launches : List Launch)
    (records : List AlertRecord) :
    (decideAndNotify recordsChanged env config launches records).mapTrace (Effect.later δ) =
      decideAndNotify recordsChanged (env.later δ) config (launches.map (·.later δ))
        (records.map (·.later δ)) := by
  have hdecide : decideCycle (cycleInput (env.later δ) config (launches.map (·.later δ)))
      (records.map (·.later δ)) =
      (decideCycle (cycleInput env config launches) records).map (·.later δ) :=
    decideCycle_later δ (cycleInput env config launches) records
  have hzone : config.displayZone (env.later δ).locateZone =
      (config.displayZone env.locateZone).map (·.later δ) := rfl
  have halerts (decision : CycleDecision) :
      (decision.later δ).alerts = decision.alerts.map (·.later δ) := rfl
  have hlines (decision : CycleDecision) :
      (decision.later δ).evaluations = decision.evaluations := rfl
  have hdry : (env.later δ).dryRun = env.dryRun := rfl
  unfold decideAndNotify
  simp only [hdecide, hzone, Traced.ofExcept_map_bind, Traced.mapTrace_bind,
    Traced.mapTrace_ofExcept, Traced.mapTrace_forM, log_later, halerts, hlines, List.length_map,
    formatAlerts_later, recordsChanged_later, hdry]
  refine bind_congr fun decision => bind_congr fun _ => bind_congr fun zone =>
    bind_congr fun messages => ?_
  split_ifs
  · exact reportDryRun_later δ decision messages _
  · exact saveAndNotify_later δ env config decision messages _
  · exact notify_later δ env config messages _

/-- The moved cycle has the effects of the cycle, moved, and ends like it. -/
theorem runCycle_later (env : CycleEnv) (config : Config) (stored : List AlertRecord) :
    (runCycle env config stored).mapTrace (Effect.later δ) =
      runCycle (env.later δ) config (stored.map (·.later δ)) := by
  have hload : (env.later δ).loadError = env.loadError := rfl
  have hfetch : (env.later δ).fetch = env.fetch.map (·.later δ) := rfl
  unfold runCycle runCycleWith
  rw [hfetch, hload]
  cases env.fetch with
  | error error => rfl
  | ok fetch =>
    have hcount : (fetch.later δ).launches.length = fetch.launches.length := List.length_map _
    simp only [Except.map, Traced.mapTrace_bind, Traced.mapTrace_forM, log_later, hcount]
    refine bind_congr fun _ => bind_congr fun _ => ?_
    cases env.loadError with
    | none => exact decideAndNotify_later δ env config fetch.launches stored
    | some error => cases error <;> rfl

/-! ## Runs -/

theorem foldl_store_later (effects : List Effect) (stored : List AlertRecord) :
    (effects.map (·.later δ)).foldl Effect.store (stored.map (·.later δ)) =
      (effects.foldl Effect.store stored).map (·.later δ) := by
  induction effects generalizing stored with
  | nil => rfl
  | cons e effects ih =>
    cases e with
    | save records replaced => cases replaced <;> exact ih _
    | log | send => exact ih stored

theorem done_later (call : CycleCall) (stored : List AlertRecord) :
    (call.later δ).done (runCycle (call.later δ).env (call.later δ).config
        (stored.map (·.later δ))) =
      (call.done (runCycle call.env call.config stored)).map (·.later δ) := by
  have hcycle := congrArg Traced.trace (runCycle_later δ call.env call.config stored)
  have hcrash : (call.later δ).crashAfter = call.crashAfter := rfl
  unfold CycleCall.done
  rw [hcrash]
  cases call.crashAfter with
  | none => exact hcycle.symm
  | some n =>
    rw [List.map_take]
    exact congrArg (List.take n) hcycle.symm

/-- What was sent in the course of a run. -/
def sentIn (steps : List WatcherStep) : List (Message × String) :=
  steps.flatMap fun step => step.output.filterMap Effect.delivery

theorem sentIn_later (steps : List WatcherStep) :
    sentIn (steps.map (·.later δ)) = sentIn steps := by
  have hdelivery (step : WatcherStep) : (step.later δ).output.filterMap Effect.delivery =
      step.output.filterMap Effect.delivery := by
    show (step.output.map (·.later δ)).filterMap Effect.delivery = _
    rw [List.filterMap_map]
    refine List.filterMap_congr fun e _ => ?_
    cases e <;> rfl
  unfold sentIn
  rw [List.flatMap_map]
  simp only [hdelivery]

/-- A run of the watcher, moved in time : the moved records are stored, and the same messages
are sent. -/
theorem watcher_later {stored stored' : List AlertRecord} {steps : List WatcherStep}
    (hrun : watcher.Run stored steps stored') :
    watcher.Run (stored.map (·.later δ)) (steps.map (·.later δ)) (stored'.map (·.later δ)) ∧
      sentIn (steps.map (·.later δ)) = sentIn steps := by
  refine ⟨?_, sentIn_later δ steps⟩
  refine hrun.map fun stored call effects after hstep => ?_
  obtain ⟨rfl, rfl⟩ := watcherWith_step.mp hstep
  rw [watcher, watcherWith_step]
  have hdone := done_later δ call stored
  refine ⟨hdone.symm, ?_⟩
  exact (foldl_store_later δ _ stored).symm

/-- A day later alice and bob are told the same of the launch that is called off. -/
theorem watcher_later_calledOff : ∃ (steps : List WatcherStep) (stored : List AlertRecord),
    watcher.exec [] calledOff = .ok (steps, stored) ∧
      (sentIn steps).map (·.1.alertKind) = ["correction:no_go", "correction:no_go"] ∧
      watcher.Run [] (steps.map (·.later 86400)) (stored.map (·.later 86400)) ∧
      sentIn (steps.map (·.later 86400)) = sentIn steps := by
  obtain ⟨steps, stored, hexec, hkinds⟩ : ∃ steps stored,
      watcher.exec [] calledOff = .ok (steps, stored) ∧
        (sentIn steps).map (·.1.alertKind) = ["correction:no_go", "correction:no_go"] :=
    ⟨_, _, rfl, rfl⟩
  exact ⟨steps, stored, hexec, hkinds, watcher_later 86400 (Mealy.Run.of_exec hexec)⟩

end RocketWatcher
