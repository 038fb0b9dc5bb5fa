import RocketWatcher.Formatting
import RocketWatcher.Retractions

/-!
# The launch time recipients were told

The messages of countdown alerts, hour-precision alerts and time-changed corrections show
the current launch time (`formatAlert_of_shows`). No-go and timing-now-imprecise corrections
do not depend on it (`formatAlert_of_not_shows`), yet they refresh the recorded facts the
next comparison is made with. A launch that goes on hold and slips is then go again at its
new time, and nobody was told that time (`told_time_can_be_stale`).

`told_time_current` is the rule that does hold : as long as no such correction is due for a
launch whose reported time differs from the recorded one (`KeepsToldTime`), the recorded
time is the told one (`toldTime_eq_recorded`), and the reported time of a timed go launch is
within the correction shift of it.
-/

namespace RocketWatcher

/-- The message of the alert shows the current launch time. -/
def Alert.showsLaunchTime (alert : Alert) : Bool :=
  match alert.kind, alert.reason with
  | .correction, some .timeChanged => true
  | .correction, _ => false
  | _, _ => true

/-- The message has the launch time in its text, as a time of day or as an hour. -/
theorem formatAlert_of_shows {alert : Alert} {zone : TimeZone} {message : Message}
    (h : formatAlert alert zone = .ok message) (hshows : alert.showsLaunchTime = true) :
    ∃ before after, message.body = before ++ formatDisplay alert.launch.launchTime zone ++ after ∨
      ∃ time, alert.launch.launchTime = some time ∧
        message.body = before ++ formatDisplayHour time zone ++ after := by
  obtain ⟨kind, launch, createdAt, terms, reason, previous⟩ := alert
  cases kind
  case correction =>
    rcases reason with _ | reason
    · cases hshows
    cases reason with
    | noGo | timingNowImprecise => cases hshows
    | timeChanged =>
      obtain rfl := Except.ok.inj h
      refine ⟨"New estimated liftoff: ", ". Was " ++
        formatDisplay (previous.bind (·.launchTime)) zone ++ ".", Or.inl ?_⟩
      simp only [String.append_assoc]
  all_goals
    rcases htime : launch.launchTime with _ | time
    · simp [formatAlert, minutesAway, requiredLaunchTime, htime] at h
    simp only [formatAlert, minutesAway, requiredLaunchTime, htime, Except.ok.injEq,
      String.append_assoc, Except.ok_bind, Except.pure_eq_ok] at h
    subst h
  case launchSoon =>
    refine ⟨"Estimated liftoff: ",
      " (~" ++ (toString (max 0 ((time - createdAt) / 60)) ++ " min)."), Or.inl ?_⟩
    rw [String.append_assoc]
  case launchImminent =>
    refine ⟨"Liftoff expected at ", " (~" ++ (toString (max 0 ((time - createdAt) / 60)) ++
      " min). Open the live feed now."), Or.inl ?_⟩
    rw [String.append_assoc]
  case hourPrecision =>
    refine ⟨"Possible launch this hour. Timing is only precise to the hour; estimated window: ",
      ".", Or.inr ⟨time, rfl, ?_⟩⟩
    rw [String.append_assoc]

/-- A message that does not show the launch time is the same for every launch time. -/
theorem formatAlert_of_not_shows {alert : Alert} (zone : TimeZone)
    (hshows : alert.showsLaunchTime = false) (launchTime : Option Int) :
    formatAlert { alert with launch := { alert.launch with launchTime := launchTime } } zone =
      formatAlert alert zone := by
  obtain ⟨kind, launch, createdAt, terms, reason, previous⟩ := alert
  cases kind with
  | launchSoon | launchImminent | hourPrecision => cases hshows
  | correction =>
    rcases reason with _ | reason
    · rfl
    · cases reason with
      | timeChanged => cases hshows
      | noGo | timingNowImprecise => rfl

/-- The launch time the last message to show one showed. -/
def shownTime (alerts : List Alert) : Option Int :=
  (alerts.filter (·.showsLaunchTime)).getLast?.bind (·.launch.launchTime)

/-- The launch time recipients were last told for key `k`. -/
def toldTime (steps : List CycleStep) (k : String) : Option Int :=
  shownTime (steps.flatMap fun s => s.output.alertsOf k)

theorem shownTime_snoc (alerts : List Alert) (alert : Alert) :
    shownTime (alerts ++ [alert]) =
      if alert.showsLaunchTime then alert.launch.launchTime else shownTime alerts := by
  unfold shownTime
  cases h : alert.showsLaunchTime <;> simp [h]

theorem toldTime_snoc (steps : List CycleStep) (s : CycleStep) (k : String) :
    toldTime (steps ++ [s]) k =
      shownTime ((steps.flatMap fun s => s.output.alertsOf k) ++ s.output.alertsOf k) := by
  simp [toldTime]

/-- Earlier alerts of the launch are to be taken back. -/
def Retracts (r : AlertRecord) (launch : Launch) : Prop :=
  (launch.status = .noGo ∧ r.lastFacts.status ≠ .noGo) ∨
    (launch.status = .go ∧ r.lastFacts.precision.isTimed = true ∧
      launch.precision.isUntimed = true)

/-- Launches whose earlier alerts are taken back still have their recorded launch time. -/
def KeepsToldTime (s : CycleStep) : Prop :=
  ∀ launch ∈ s.input.launches, s.input.Relevant launch → ∀ r,
    recordOf s.before launch.key = some r → Retracts r launch →
    launch.launchTime = r.lastFacts.launchTime

/-- No record of the cycle's start is missing at its end. -/
def NothingDropped (s : CycleStep) : Prop :=
  ∀ r ∈ s.before, ∃ r' ∈ s.after, r'.key = r.key

/-- An alert shows a known launch time, or takes earlier alerts back. -/
theorem Decides.shows_or_retracts {policy : AlertPolicy} {now : Int} {terms : List String}
    {launch : Launch} {record : Option AlertRecord} {alert : Alert}
    (h : Decides policy now terms launch record (some alert)) :
    (alert.showsLaunchTime = true ∧ launch.launchTime.isSome) ∨
      (alert.showsLaunchTime = false ∧ ∃ r, record = some r ∧ Retracts r launch) := by
  cases h with
  | noGo status before => exact Or.inr ⟨rfl, _, rfl, Or.inl ⟨status, before⟩⟩
  | timingNowImprecise status before after =>
    exact Or.inr ⟨rfl, _, rfl, Or.inr ⟨status, before, by simp [after]⟩⟩
  | timeChanged _ _ shifted =>
    obtain ⟨_, after, -, hafter, -⟩ := shifted
    exact Or.inl ⟨rfl, by simp [hafter]⟩
  | @countdown _ kind _ _ eligible =>
    cases kind with
    | correction => exact eligible.elim
    | launchSoon | launchImminent | hourPrecision =>
      obtain ⟨-, time, htime, -⟩ := eligible
      exact Or.inl ⟨rfl, by simp [htime]⟩

/-- While retractions keep the recorded time, it is the told time of its launch. -/
theorem toldTime_eq_recorded {steps : List CycleStep} {records : List AlertRecord}
    (hrun : decisionMachine.Run [] steps records)
    (hdist : ∀ s ∈ steps, s.input.DistinctKeys) (hkept : ∀ s ∈ steps, KeepsToldTime s) :
    ∀ r ∈ records, r.lastFacts.launchTime.isSome ∧
      toldTime steps r.key = r.lastFacts.launchTime := by
  revert hdist hkept
  refine hrun.invariant (P := fun steps records => (∀ s ∈ steps, s.input.DistinctKeys) →
    (∀ s ∈ steps, KeepsToldTime s) → ∀ r ∈ records, r.lastFacts.launchTime.isSome ∧
      toldTime steps r.key = r.lastFacts.launchTime) (by simp) ?_
  intro steps records input d records' _ ih hstep hdist hkept r hr
  obtain ⟨hcycle, rfl⟩ := decisionMachine_step.mp hstep
  have hrecorded := ih (fun s hs => hdist s (List.mem_append_left _ hs))
    (fun s hs => hkept s (List.mem_append_left _ hs))
  have hlast : (⟨records, input, d, d.updatedRecords⟩ : CycleStep) ∈
      steps ++ [⟨records, input, d, d.updatedRecords⟩] :=
    List.mem_append_right _ List.mem_cons_self
  have hforce := ((mem_updatedRecords hcycle).mp hr).1
  rw [toldTime_snoc, decideCycle_alerts hcycle]
  rcases trackKey_cases records (hdist _ hlast) r.key with
    htrack | ⟨launch, hmem, hkey, hrel, terms, alert, hd, htrack⟩
  · rw [htrack] at hforce ⊢
    have hold : recordOf records r.key = some r := hforce
    simpa [toldTime] using hrecorded r (List.mem_of_find?_eq_some hold)
  · rw [htrack] at hforce ⊢
    have hfacts : r.lastFacts = launch.facts := by
      rw [← Option.some.inj hforce, updatedRecord_lastFacts]
    dsimp only
    rw [shownTime_snoc, hfacts, hd.launch_eq]
    rcases hd.shows_or_retracts with ⟨hshows, hsome⟩ | ⟨hshows, r₀, hr₀, hretracts⟩
    · simpa [hshows, Launch.facts] using hsome
    · have hsame := hkept _ hlast launch hmem hrel r₀ (hkey ▸ hr₀) hretracts
      obtain ⟨hsome, htold⟩ := hrecorded r₀ (List.mem_of_find?_eq_some hr₀)
      rw [recordOf_key hr₀] at htold
      simpa [hshows, Launch.facts, hsame, toldTime] using And.intro hsome htold

/-- As long as retractions keep the recorded time, the reported time of a timed go launch
with a record is within the correction shift of the told one, after every cycle. -/
theorem told_time_current {steps : List CycleStep} {s : CycleStep} {records : List AlertRecord}
    (hrun : decisionMachine.Run [] (steps ++ [s]) records)
    (hshift : 0 < s.input.policy.correctionTimeShift)
    (hdist : ∀ u ∈ steps ++ [s], u.input.DistinctKeys)
    (hkept : ∀ u ∈ steps ++ [s], KeepsToldTime u) {launch : Launch}
    (hmem : launch ∈ s.input.launches) (hrel : s.input.Relevant launch)
    (hgo : launch.status = .go) {time : Int} (htime : launch.launchTime = some time)
    {r : AlertRecord} (hr : r ∈ records) (hkey : r.key = launch.key) :
    ∃ told, toldTime (steps ++ [s]) launch.key = some told ∧
      |time - told| < s.input.policy.correctionTimeShift := by
  obtain ⟨hsome, htold⟩ := toldTime_eq_recorded hrun hdist hkept r hr
  obtain ⟨told, hrecorded⟩ := Option.isSome_iff_exists.mp hsome
  have hlast : s ∈ steps ++ [s] := List.mem_append_right _ List.mem_cons_self
  obtain ⟨-, hstep, rfl⟩ := hrun.of_snoc
  obtain ⟨-, hafter⟩ := decisionMachine_step.mp hstep
  have hcurrent := (upToDate_along_run hrun s hlast hshift (hdist s hlast) launch hmem hrel).1 r
    (hafter ▸ hr) hkey
  rw [hkey, hrecorded] at htold
  exact ⟨told, htold, hcurrent.time hgo told time hrecorded htime⟩

/-- The test suite's launch, five hours later than first reported. -/
def slippedLaunch : Launch := { makeLaunch with launchTime := some (kNow + 20700) }

/-- It is reported on hold before anyone has heard of the later time. -/
def heldSlippedLaunch : Launch := { slippedLaunch with status := .noGo }

/-- The record after a launch-soon alert at the first time. -/
def soonRecord : AlertRecord :=
  updatedRecord none makeLaunch (makeCountdown makeLaunch .launchSoon ["Starlink"] kNow) kNow

/-- The record after the no-go correction at the later time. -/
def heldSlippedRecord : AlertRecord :=
  updatedRecord (some soonRecord) heldSlippedLaunch
    (makeCorrection heldSlippedLaunch soonRecord .noGo ["Starlink"] (kNow + 300)) (kNow + 300)

/-- The stated rule fails : a launch is announced, goes on hold with a new launch time, and
is go again at that time. The last time shown is five hours off. -/
theorem told_time_can_be_stale :
    ¬∀ (policy : AlertPolicy) (steps : List CycleStep) (s : CycleStep)
      (records : List AlertRecord) (launch : Launch) (time : Int) (r : AlertRecord),
      policy.Positive → decisionMachine.Run [] (steps ++ [s]) records →
      (∀ u ∈ steps ++ [s], u.input.policy = policy ∧ u.input.DistinctKeys ∧ NothingDropped u) →
      launch ∈ s.input.launches → s.input.Relevant launch → launch.status = .go →
      launch.precision.isTimed = true → launch.launchTime = some time → r ∈ records →
      r.key = launch.key →
      ∃ told, toldTime (steps ++ [s]) launch.key = some told ∧
        |time - told| < policy.correctionTimeShift := by
  intro hall
  obtain ⟨d₁, hd₁, hr₁, ha₁⟩ : ∃ d, decideCycle (testCycle [makeLaunch] kNow) [] = .ok d ∧
      d.updatedRecords = [soonRecord] ∧
      d.alertsOf slippedLaunch.key = [makeCountdown makeLaunch .launchSoon ["Starlink"] kNow] :=
    ⟨_, rfl, rfl, rfl⟩
  obtain ⟨d₂, hd₂, hr₂, ha₂⟩ : ∃ d, decideCycle (testCycle [heldSlippedLaunch] (kNow + 300))
      [soonRecord] = .ok d ∧ d.updatedRecords = [heldSlippedRecord] ∧
      d.alertsOf slippedLaunch.key =
        [makeCorrection heldSlippedLaunch soonRecord .noGo ["Starlink"] (kNow + 300)] :=
    ⟨_, rfl, rfl, rfl⟩
  obtain ⟨d₃, hd₃, hr₃, ha₃⟩ : ∃ d, decideCycle (testCycle [slippedLaunch] (kNow + 600))
      [heldSlippedRecord] = .ok d ∧ d.updatedRecords = [heldSlippedRecord] ∧
      d.alertsOf slippedLaunch.key = [] := ⟨_, rfl, rfl, rfl⟩
  have hrun := ((Mealy.Run.nil.snoc (decisionMachine_step.mpr ⟨hd₁, hr₁.symm⟩)).snoc
    (decisionMachine_step.mpr ⟨hd₂, hr₂.symm⟩)).snoc (decisionMachine_step.mpr ⟨hd₃, hr₃.symm⟩)
  have hrel : (testCycle [slippedLaunch] (kNow + 600)).Relevant slippedLaunch := ⟨_, rfl, rfl⟩
  have hdist₁ : (testCycle [makeLaunch] kNow).DistinctKeys := by decide
  have hdist₂ : (testCycle [heldSlippedLaunch] (kNow + 300)).DistinctKeys := by decide
  have hdist₃ : (testCycle [slippedLaunch] (kNow + 600)).DistinctKeys := by decide
  refine absurd (hall makePolicy _ _ _ slippedLaunch (kNow + 20700) heldSlippedRecord
    makePolicy_positive hrun ?_ List.mem_cons_self hrel rfl rfl rfl List.mem_cons_self rfl) ?_
  · intro u hu
    simp only [List.nil_append, List.cons_append, List.mem_cons, List.not_mem_nil, or_false] at hu
    rcases hu with rfl | rfl | rfl
    · exact ⟨rfl, hdist₁, by simp [NothingDropped]⟩
    · refine ⟨rfl, hdist₂, fun r hr => ?_⟩
      rw [List.mem_singleton.mp hr]
      exact ⟨heldSlippedRecord, List.mem_cons_self, rfl⟩
    · exact ⟨rfl, hdist₃, by simp [NothingDropped]⟩
  · rintro ⟨told, htold, hnear⟩
    have hshown : shownTime ([makeCountdown makeLaunch .launchSoon ["Starlink"] kNow] ++
        [makeCorrection heldSlippedLaunch soonRecord .noGo ["Starlink"] (kNow + 300)]) =
        some (kNow + 2700) := rfl
    have heq : some (kNow + 2700) = some told := by
      rw [← hshown, ← htold]
      simp [toldTime, ha₁, ha₂, ha₃]
    rw [← Option.some.inj heq] at hnear
    exact absurd hnear (by decide)

/-- The record after the no-go correction at the first time. -/
def heldSoonRecord : AlertRecord :=
  updatedRecord (some soonRecord) heldLaunch
    (makeCorrection heldLaunch soonRecord .noGo ["Starlink"] (kNow + 300)) (kNow + 300)

/-- The slip after a hold at the recorded time : it is announced, and the new time is known. -/
theorem told_time_current_slippedLaunch :
    ∃ steps records, decisionMachine.Run [] steps records ∧
      steps.map (·.input) = [testCycle [makeLaunch] kNow, testCycle [heldLaunch] (kNow + 300),
        testCycle [slippedLaunch] (kNow + 600)] ∧
      (∃ s ∈ steps, ∃ r, recordOf s.before heldLaunch.key = some r ∧ Retracts r heldLaunch) ∧
      ∃ told, toldTime steps slippedLaunch.key = some told ∧ |kNow + 20700 - told| < 1800 := by
  obtain ⟨d₁, hd₁, hr₁⟩ : ∃ d, decideCycle (testCycle [makeLaunch] kNow) [] = .ok d ∧
      d.updatedRecords = [soonRecord] := ⟨_, rfl, rfl⟩
  obtain ⟨d₂, hd₂, hr₂⟩ : ∃ d, decideCycle (testCycle [heldLaunch] (kNow + 300))
      [soonRecord] = .ok d ∧ d.updatedRecords = [heldSoonRecord] := ⟨_, rfl, rfl⟩
  obtain ⟨d₃, r, hd₃, hr₃, hkey⟩ : ∃ d r, decideCycle (testCycle [slippedLaunch] (kNow + 600))
      [heldSoonRecord] = .ok d ∧ d.updatedRecords = [r] ∧ r.key = slippedLaunch.key :=
    ⟨_, _, rfl, rfl, rfl⟩
  have hrun := ((Mealy.Run.nil.snoc (decisionMachine_step.mpr ⟨hd₁, hr₁.symm⟩)).snoc
    (decisionMachine_step.mpr ⟨hd₂, hr₂.symm⟩)).snoc (decisionMachine_step.mpr ⟨hd₃, hr₃.symm⟩)
  have hrel : (testCycle [slippedLaunch] (kNow + 600)).Relevant slippedLaunch := ⟨_, rfl, rfl⟩
  have hdist₁ : (testCycle [makeLaunch] kNow).DistinctKeys := by decide
  have hdist₂ : (testCycle [heldLaunch] (kNow + 300)).DistinctKeys := by decide
  have hdist₃ : (testCycle [slippedLaunch] (kNow + 600)).DistinctKeys := by decide
  have hheld : recordOf [soonRecord] heldLaunch.key = some soonRecord := rfl
  have hretracts : Retracts soonRecord heldLaunch := .inl ⟨rfl, by decide⟩
  refine ⟨_, _, hrun, rfl, ⟨_, List.mem_cons_of_mem _ List.mem_cons_self, soonRecord, hheld,
      hretracts⟩,
    told_time_current hrun makePolicy_positive.correctionTimeShift ?_ ?_ List.mem_cons_self hrel
      rfl rfl List.mem_cons_self hkey⟩
  all_goals
    intro u hu
    simp only [List.nil_append, List.cons_append, List.mem_cons, List.not_mem_nil, or_false] at hu
    rcases hu with rfl | rfl | rfl
  · exact hdist₁
  · exact hdist₂
  · exact hdist₃
  · intro launch _ _ r hr
    cases hr
  · -- the hold keeps the time of the record
    intro launch hmem _ r hr _
    obtain rfl := List.mem_singleton.mp hmem
    obtain rfl := Option.some.inj (hheld.symm.trans hr)
    rfl
  · intro launch hmem _ r hr hretracts
    obtain rfl := List.mem_singleton.mp hmem
    rcases hretracts with ⟨hno, -⟩ | ⟨-, -, huntimed⟩
    · cases hno
    · cases huntimed

end RocketWatcher
