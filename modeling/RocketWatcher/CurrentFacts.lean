import RocketWatcher.CycleSpec

/-!
# Recorded facts are current

After a cycle the record of a relevant launch is up to date with it (`UpToDate`) : every
branch of the decision either refreshes `lastFacts` or is within the tolerance
(`Decides.upToDate`). The comparison is always with the facts of the last alert, so slips
below the threshold cannot add up : the cycle that sees them reach it creates a correction
(`Decides.correction_of_shifted`). `upToDate_along_run` states both for every cycle of
every run.
-/

namespace RocketWatcher

/-- The record's facts are those of the launch, within the policy's tolerance. -/
structure UpToDate (policy : AlertPolicy) (r : AlertRecord) (launch : Launch) : Prop where
  noGo : launch.status = .noGo → r.lastFacts.status = .noGo
  timing : launch.status = .go →
    ¬(r.lastFacts.precision.isTimed = true ∧ launch.precision.isUntimed = true)
  time : launch.status = .go → ∀ before after, r.lastFacts.launchTime = some before →
    launch.launchTime = some after → |after - before| < policy.correctionTimeShift

/-- A record that has just been given the launch's own facts is up to date. -/
theorem UpToDate.of_facts_eq {policy : AlertPolicy} (hshift : 0 < policy.correctionTimeShift)
    {r : AlertRecord} {launch : Launch} (h : r.lastFacts = launch.facts) :
    UpToDate policy r launch where
  noGo hs := by rw [h, ← hs]; rfl
  timing _ := by simp [h, Launch.facts]
  time := by
    intro _ before after hb ha
    obtain rfl : after = before := by
      simp only [h, Launch.facts, ha] at hb
      exact Option.some.inj hb
    simpa using hshift

namespace Decides

variable {policy : AlertPolicy} {now : Int} {terms : List String} {launch : Launch}
  {record : Option AlertRecord} {alert : Option Alert}

/-- Whatever is decided, the record in force afterwards is up to date. -/
theorem upToDate (h : Decides policy now terms launch record alert)
    (hshift : 0 < policy.correctionTimeShift) {r : AlertRecord}
    (hr : recordAfter record launch alert now = some r) : UpToDate policy r launch := by
  cases alert with
  | some alert =>
    obtain rfl := Option.some.inj hr
    exact .of_facts_eq hshift (updatedRecord_lastFacts record launch alert now)
  | none =>
    cases h with
    | silent quiet =>
      refine ⟨fun hs => quiet.noGo hs r hr, fun hs => ?_, fun hs before after hb ha => ?_⟩
      · rintro ⟨hwas, hnow⟩
        have := (quiet.go hs r hr).1 hwas
        simp [this] at hnow
      · by_contra hle
        exact (quiet.go hs r hr).2 ⟨before, after, hb, ha, not_lt.mp hle⟩

/-- A go launch that has moved by the policy's shift since its last alert is corrected. -/
theorem correction_of_shifted {r : AlertRecord}
    (h : Decides policy now terms launch (some r) alert) (hgo : launch.status = .go)
    (hmoved : Shifted policy r.lastFacts launch) :
    ∃ a, alert = some a ∧ a.launch = launch ∧ a.kind = .correction := by
  cases h with
  | noGo | timingNowImprecise | timeChanged => exact ⟨_, rfl, rfl, rfl⟩
  | countdown _ current => exact absurd hmoved (current r rfl).2
  | silent quiet => exact absurd hmoved (quiet.go hgo r rfl).2

end Decides

/-- In every cycle of every run, whatever the records at its start : the records after the
cycle are up to date with its relevant launches, and a go launch whose reported time is a
whole correction shift away from the recorded one is corrected in that cycle. So slips
below the shift never add up to it without a correction. -/
theorem upToDate_along_run {records₀ records : List AlertRecord} {steps : List CycleStep}
    (hrun : decisionMachine.Run records₀ steps records) :
    ∀ s ∈ steps, 0 < s.input.policy.correctionTimeShift → s.input.DistinctKeys →
      ∀ launch ∈ s.input.launches, s.input.Relevant launch →
        (∀ r ∈ s.output.updatedRecords, r.key = launch.key →
          UpToDate s.input.policy r launch) ∧
        (launch.status = .go → ∀ r, recordOf s.before launch.key = some r →
          Shifted s.input.policy r.lastFacts launch →
          ∃ a ∈ s.output.alerts, a.launch = launch ∧ a.kind = .correction) := by
  intro s hs hshift hdist launch hmem hrel
  obtain ⟨hcycle, -⟩ := decisionMachine_step.mp (hrun.step_of_mem hs)
  obtain ⟨terms, alert, hd, halerts, hrecords⟩ := cycle_of_launch hcycle hdist hmem hrel
  refine ⟨fun r hr hk => hd.upToDate hshift ((hrecords r hk).mp hr).1, ?_⟩
  intro hgo r hr hmoved
  rw [hr] at hd
  obtain ⟨a, rfl, hlaunch, hkind⟩ := hd.correction_of_shifted hgo hmoved
  have ha : a ∈ s.output.alertsOf launch.key := by simp [halerts]
  exact ⟨a, (List.mem_filter.mp ha).1, hlaunch, hkind⟩

/-- A launch that slips by 40 minutes after its first alert is corrected. -/
theorem upToDate_along_run_makeLaunch :
    ∃ d, decideCycle (testCycle [{ makeLaunch with launchTime := some (kNow + 5100) }]
        (kNow + 300)) [updatedRecord none makeLaunch (makeCountdown makeLaunch .launchSoon
          ["Starlink"] kNow) kNow] = .ok d ∧ ∃ a ∈ d.alerts, a.kind = .correction := by
  have hexec : decisionMachine.exec []
      [testCycle [makeLaunch] kNow,
        testCycle [{ makeLaunch with launchTime := some (kNow + 5100) }] (kNow + 300)] =
      .ok (_, _) := rfl
  refine ⟨_, rfl, ?_⟩
  obtain ⟨a, ha, -, hkind⟩ := (upToDate_along_run (Mealy.Run.of_exec hexec) _
    (List.mem_cons_of_mem _ List.mem_cons_self) (by decide) (by decide) _ List.mem_cons_self
    ⟨_, rfl, rfl⟩).2 rfl _ rfl ⟨_, _, rfl, rfl, by decide⟩
  exact ⟨a, ha, hkind⟩

end RocketWatcher
