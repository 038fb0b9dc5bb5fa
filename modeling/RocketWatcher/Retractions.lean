import RocketWatcher.AlertHistory

/-!
# Retractions and imprecise timing

A retraction is a correction that takes an earlier alert back : no longer go, or timing
now imprecise. A launch that is about to fly again is only announced by the kinds not yet
sent, so its retraction can stay the last word (`retraction_can_stay_last`);
`endsRetracted_iff` says exactly when.

An imprecise launch is meant to be silent but for the correction that announces the loss of
precision. The time-change test comes before the silence test and does not look at the
precision, so a placeholder date that moves is reported as a new liftoff estimate
(`placeholder_shift_is_announced`); `impreciseSilent_iff` says that nothing else breaks the
silence.
-/

namespace RocketWatcher

/-! ## The last word on a launch about to fly -/

/-- The entry takes earlier alerts back. -/
def SentAlert.IsRetraction (sent : SentAlert) : Prop :=
  sent.Corrects .noGo ∨ sent.Corrects .timingNowImprecise

/-- The most recent entry of the record is a retraction. -/
def EndsRetracted (r : AlertRecord) : Prop :=
  ∃ last, r.sentAlerts.getLast? = some last ∧ last.IsRetraction

/-- Every duration of the policy is positive. -/
structure AlertPolicy.Positive (policy : AlertPolicy) : Prop where
  launchSoon : 0 < policy.launchSoon
  launchImminent : 0 < policy.launchImminent
  correctionTimeShift : 0 < policy.correctionTimeShift
  scheduleLookahead : 0 < policy.scheduleLookahead
  retention : 0 < policy.retention

theorem makePolicy_positive : makePolicy.Positive := by
  constructor <;> decide

/-- An alert for a launch about to fly is not a retraction. -/
theorem Decides.not_isRetraction {policy : AlertPolicy} {now : Int} {terms : List String}
    {launch : Launch} {record : Option AlertRecord} {alert : Alert}
    (h : Decides policy now terms launch record (some alert)) (hgo : launch.status = .go)
    (htimed : launch.precision.isTimed = true) :
    ¬SentAlert.IsRetraction ⟨alert.kind, now, alert.reason⟩ := by
  rintro (⟨-, hreason⟩ | ⟨-, hreason⟩)
  · rcases h.status_cases with ⟨-, hne⟩ | ⟨hno, -⟩
    · exact hne hreason
    · simp [hgo] at hno
  · have huntimed := (h.of_timingNowImprecise hreason).2
    simp [htimed] at huntimed

/-- A launch about to fly that has its imminent alert and has not moved is passed over. -/
theorem Decides.silent_of_sent {policy : AlertPolicy} {now : Int} {terms : List String}
    {launch : Launch} {r : AlertRecord} {alert : Option Alert}
    (h : Decides policy now terms launch (some r) alert) (hgo : launch.status = .go)
    (hfly : Eligible policy launch now .launchImminent)
    (hsent : .launchImminent ∈ sentKinds (some r))
    (hstill : ¬Shifted policy r.lastFacts launch) : alert = none := by
  have hprecise : launch.precision = .precise := hfly.1
  cases h with
  | noGo status => simp [hgo] at status
  | timingNowImprecise _ _ after => simp [hprecise, TimingPrecision.isTimed] at after
  | timeChanged _ _ shifted => exact absurd shifted hstill
  | @countdown _ kind _ _ eligible unsent =>
    cases kind with
    | launchSoon => exact absurd (Or.inr hsent) unsent
    | launchImminent => exact absurd hsent unsent
    | hourPrecision => simp [Eligible, hprecise] at eligible
    | correction => exact eligible.elim
  | silent => rfl

/-- The test suite's launch, on hold. -/
def heldLaunch : Launch := { makeLaunch with status := .noGo }

/-- Its record after an imminent alert five minutes before liftoff. -/
def alertedRecord : AlertRecord :=
  updatedRecord none makeLaunch
    (makeCountdown makeLaunch .launchImminent ["Starlink"] (kNow + 2400)) (kNow + 2400)

/-- Its record after the no-go correction one minute later. -/
def retractedRecord : AlertRecord :=
  updatedRecord (some alertedRecord) heldLaunch
    (makeCorrection heldLaunch alertedRecord .noGo ["Starlink"] (kNow + 2460)) (kNow + 2460)

/-- The stated rule fails : after an imminent alert and a no-go correction, the launch is go
again and minutes away, and the correction stays the last entry. -/
theorem retraction_can_stay_last :
    ¬∀ (steps : List CycleStep) (records : List AlertRecord) (input : CycleInput)
      (d : CycleDecision) (launch : Launch) (r : AlertRecord),
      decisionMachine.Run [] steps records → input.policy.Positive →
      input.policy.launchImminent < input.policy.launchSoon → input.DistinctKeys →
      decideCycle input records = .ok d → launch ∈ input.launches → input.Relevant launch →
      launch.status = .go → Eligible input.policy launch input.now .launchImminent →
      r ∈ d.updatedRecords → r.key = launch.key → ¬EndsRetracted r := by
  intro hall
  obtain ⟨steps, hexec⟩ : ∃ steps, decisionMachine.exec []
      [testCycle [makeLaunch] (kNow + 2400), testCycle [heldLaunch] (kNow + 2460)] =
      .ok (steps, [retractedRecord]) := ⟨_, rfl⟩
  obtain ⟨d, hd, hrecords⟩ : ∃ d,
      decideCycle (testCycle [makeLaunch] (kNow + 2520)) [retractedRecord] = .ok d ∧
        d.updatedRecords = [retractedRecord] := ⟨_, rfl, rfl⟩
  have hretracted : EndsRetracted retractedRecord := ⟨_, rfl, Or.inl ⟨rfl, rfl⟩⟩
  have hmem : retractedRecord ∈ d.updatedRecords := by simp [hrecords]
  exact hall steps [retractedRecord] (testCycle [makeLaunch] (kNow + 2520)) d makeLaunch
    retractedRecord (Mealy.Run.of_exec hexec) makePolicy_positive (by decide) (by decide) hd
    List.mem_cons_self ⟨_, rfl, rfl⟩ rfl ⟨rfl, _, rfl, by decide, by decide⟩ hmem rfl hretracted

variable {input : CycleInput} {records : List AlertRecord} {d : CycleDecision} {launch : Launch}

/-- After a cycle the record of a relevant launch that is about to fly ends with a
retraction exactly when the record given to the cycle already did, already lists an
imminent alert, and the launch has not moved by the correction shift since. -/
theorem endsRetracted_iff (h : decideCycle input records = .ok d) (hdist : input.DistinctKeys)
    (hmem : launch ∈ input.launches) (hrel : input.Relevant launch) (hgo : launch.status = .go)
    (hfly : Eligible input.policy launch input.now .launchImminent) {r : AlertRecord}
    (hr : r ∈ d.updatedRecords) (hk : r.key = launch.key) :
    EndsRetracted r ↔ ∃ r₀, recordOf records launch.key = some r₀ ∧ EndsRetracted r₀ ∧
      .launchImminent ∈ sentKinds (some r₀) ∧ ¬Shifted input.policy r₀.lastFacts launch := by
  obtain ⟨terms, alert, hd, -, hrecords⟩ := cycle_of_launch h hdist hmem hrel
  have hafter := ((hrecords r hk).mp hr).1
  have htimed : launch.precision.isTimed = true := by simp [hfly.1, TimingPrecision.isTimed]
  constructor
  · rintro ⟨last, hlast, hretraction⟩
    cases alert with
    | some alert =>
      obtain rfl := Option.some.inj hafter
      have hsent : last = ⟨alert.kind, input.now, alert.reason⟩ := by
        cases hr₀ : recordOf records launch.key <;> simpa [hr₀, updatedRecord, eq_comm] using hlast
      exact absurd (hsent ▸ hretraction) (hd.not_isRetraction hgo htimed)
    | none =>
      have hr₀ : recordOf records launch.key = some r := hafter
      rw [hr₀] at hd
      cases hd with
      | silent quiet =>
        exact ⟨r, hr₀, ⟨last, hlast, hretraction⟩, quiet.countdown hgo .launchImminent hfly,
          (quiet.go hgo r rfl).2⟩
  · rintro ⟨r₀, hr₀, hretracted, hsent, hstill⟩
    rw [hr₀] at hd hafter
    obtain rfl := hd.silent_of_sent hgo hfly hsent hstill
    obtain rfl : r₀ = r := Option.some.inj hafter
    exact hretracted

/-- The launch of the counterexample : its imminent alert is what keeps it retracted. -/
theorem endsRetracted_iff_makeLaunch :
    ∃ d, decideCycle (testCycle [makeLaunch] (kNow + 2520)) [retractedRecord] = .ok d ∧
      ∃ r₀, recordOf [retractedRecord] makeLaunch.key = some r₀ ∧
        .launchImminent ∈ sentKinds (some r₀) ∧ ¬Shifted makePolicy r₀.lastFacts makeLaunch := by
  obtain ⟨d, hd, hrecords⟩ : ∃ d,
      decideCycle (testCycle [makeLaunch] (kNow + 2520)) [retractedRecord] = .ok d ∧
        d.updatedRecords = [retractedRecord] := ⟨_, rfl, rfl⟩
  have hmem : retractedRecord ∈ d.updatedRecords := by simp [hrecords]
  have hiff := endsRetracted_iff hd (by decide) List.mem_cons_self ⟨_, rfl, rfl⟩ rfl
    ⟨rfl, _, rfl, by decide, by decide⟩ hmem rfl
  obtain ⟨r₀, hr₀, -, hsent, hstill⟩ := hiff.mp ⟨_, rfl, Or.inl ⟨rfl, rfl⟩⟩
  exact ⟨d, hd, r₀, hr₀, hsent, hstill⟩

/-! ## Imprecise timing -/

/-- In this cycle an imprecise go launch gets no alert but the timing-now-imprecise
correction, and this only if its record was timed just before. -/
structure ImpreciseSilent (s : CycleStep) : Prop where
  onlyAnnounced : ∀ before launch after state state', s.input.launches = before ++ launch :: after →
    s.input.Relevant launch → launch.status = .go → launch.precision.isUntimed = true →
    decideLaunches s.input s.before before = .ok state →
    decideLaunches s.input s.before (before ++ [launch]) = .ok state' →
    ∀ a, state'.alerts = state.alerts ++ [a] →
      (∃ r, state.recordMap[launch.key]? = some r ∧ r.lastFacts.precision.isTimed = true) ∧
        a.kind = .correction ∧ a.reason = some .timingNowImprecise
  noTimeChanged : ∀ a ∈ s.output.alerts, a.launch.precision.isUntimed = true →
    a.reason ≠ some .timeChanged

/-- The placeholder date of a relevant imprecise go launch has moved : when the loop reaches
the launch its record is already untimed, and the times are the correction shift apart. -/
def PlaceholderShift (s : CycleStep) : Prop :=
  ∃ before launch after state r, s.input.launches = before ++ launch :: after ∧
    s.input.Relevant launch ∧ launch.status = .go ∧ launch.precision.isUntimed = true ∧
    decideLaunches s.input s.before before = .ok state ∧
    state.recordMap[launch.key]? = some r ∧ r.lastFacts.precision.isTimed = false ∧
    Shifted s.input.policy r.lastFacts launch

/-- The test suite's launch once its date is only good to the day. -/
def vagueLaunch : Launch := { makeLaunch with precision := .imprecise }

/-- Its record after a launch-soon alert and the timing-now-imprecise correction. -/
def vagueRecord : AlertRecord :=
  let soon := updatedRecord none makeLaunch
    (makeCountdown makeLaunch .launchSoon ["Starlink"] kNow) kNow
  updatedRecord (some soon) vagueLaunch
    (makeCorrection vagueLaunch soon .timingNowImprecise ["Starlink"] (kNow + 300)) (kNow + 300)

/-- The stated rule fails : once the loss of precision is announced, a placeholder date that
moves by a day is reported as a changed launch time. -/
theorem placeholder_shift_is_announced :
    ¬∀ (steps : List CycleStep) (records : List AlertRecord),
      decisionMachine.Run [] steps records → ∀ s ∈ steps, ImpreciseSilent s := by
  intro hall
  obtain ⟨steps, hexec⟩ : ∃ steps, decisionMachine.exec []
      [testCycle [makeLaunch] kNow, testCycle [vagueLaunch] (kNow + 300)] =
      .ok (steps, [vagueRecord]) := ⟨_, rfl⟩
  obtain ⟨d, hd, a, ha, huntimed, hreason⟩ : ∃ d,
      decideCycle (testCycle [{ vagueLaunch with launchTime := some (kNow + 89100) }] (kNow + 600))
        [vagueRecord] = .ok d ∧
      ∃ a ∈ d.alerts, a.launch.precision.isUntimed = true ∧ a.reason = some .timeChanged :=
    ⟨_, rfl, _, List.mem_cons_self, rfl, rfl⟩
  have hrun := (Mealy.Run.of_exec hexec).snoc (decisionMachine_step.mpr ⟨hd, rfl⟩)
  exact (hall _ _ hrun _ (List.mem_append_right _ List.mem_cons_self)).noTimeChanged a ha huntimed
    hreason

namespace Decides

variable {policy : AlertPolicy} {now : Int} {terms : List String} {launch : Launch}
  {record : Option AlertRecord} {alert : Alert}

/-- An alert for an untimed go launch announces the loss of timing, or a moved placeholder
date. -/
theorem untimed_cases (h : Decides policy now terms launch record (some alert))
    (hgo : launch.status = .go) (huntimed : launch.precision.isUntimed = true) :
    ∃ r, record = some r ∧ alert.kind = .correction ∧
      ((r.lastFacts.precision.isTimed = true ∧ alert.reason = some .timingNowImprecise) ∨
        (r.lastFacts.precision.isTimed = false ∧ Shifted policy r.lastFacts launch ∧
          alert.reason = some .timeChanged)) := by
  have hlaunch : launch.precision.isTimed = false := by simpa using huntimed
  cases h with
  | noGo status => simp [hgo] at status
  | timingNowImprecise _ before => exact ⟨_, rfl, rfl, Or.inl ⟨before, rfl⟩⟩
  | timeChanged _ kept shifted =>
    refine ⟨_, rfl, rfl, Or.inr ⟨?_, shifted, rfl⟩⟩
    by_contra hr
    have htimed := kept (by simpa using hr)
    simp [hlaunch] at htimed
  | @countdown _ kind _ _ eligible =>
    cases kind with
    | correction => exact eligible.elim
    | launchSoon | launchImminent | hourPrecision =>
      simp [eligible.1, TimingPrecision.isTimed] at hlaunch

end Decides

/-- A cycle is silent about imprecise launches just when no placeholder date has moved. -/
theorem impreciseSilent_of_cycle {s : CycleStep}
    (hcycle : decideCycle s.input s.before = .ok s.output) :
    ImpreciseSilent s ↔ ¬PlaceholderShift s := by
  obtain ⟨final, hfinal, halerts, -⟩ := decideCycle_eq_ok hcycle
  constructor
  · rintro hsilent ⟨before, launch, after, state, r, hsplit, hrel, hgo, huntimed, hstate, hr,
      hwas, hmoved⟩
    rw [hsplit, List.append_cons] at hfinal
    obtain ⟨state', hstate'⟩ := decideLaunches_of_append hfinal
    obtain ⟨state₀, hstate₀, hlaunch⟩ := decideLaunches_snoc_eq_ok.mp hstate'
    obtain rfl : state = state₀ := by simpa [hstate] using hstate₀
    obtain ⟨terms, alert, hd, hadded⟩ := decideLaunch_decides hlaunch hrel
    rw [hr] at hd
    obtain ⟨a, rfl, -, -⟩ := hd.correction_of_shifted hgo hmoved
    obtain ⟨⟨r', hr', htimed⟩, -⟩ := hsilent.onlyAnnounced before launch after state state' hsplit
      hrel hgo huntimed hstate hstate' a hadded
    obtain rfl : r = r' := by simpa [hr] using hr'
    simp [hwas] at htimed
  · intro hstill
    refine ⟨?_, ?_⟩
    · intro before launch after state state' hsplit hrel hgo huntimed hstate hstate' a ha
      obtain ⟨state₀, hstate₀, hlaunch⟩ := decideLaunches_snoc_eq_ok.mp hstate'
      obtain rfl : state = state₀ := by simpa [hstate] using hstate₀
      obtain ⟨terms, alert, hd, hadded⟩ := decideLaunch_decides hlaunch hrel
      obtain rfl : alert = some a := by
        rw [hadded] at ha
        simpa using ha
      obtain ⟨r, hr, hkind, ⟨htimed, hreason⟩ | ⟨hwas, hmoved, -⟩⟩ := hd.untimed_cases hgo huntimed
      · exact ⟨⟨r, hr, htimed⟩, hkind, hreason⟩
      · exact absurd ⟨before, launch, after, state, r, hsplit, hrel, hgo, huntimed, hstate, hr,
          hwas, hmoved⟩ hstill
    · intro a ha huntimed hreason
      rw [halerts] at ha
      obtain ⟨before, after, state, hsplit, hstate, hrel, terms, hd⟩ :=
        decideLaunches_mem_alerts hfinal ha
      rcases hd.status_cases with ⟨hgo, -⟩ | ⟨-, -, hnoGo, -⟩
      · obtain ⟨r, hr, -, ⟨-, hother⟩ | ⟨hwas, hmoved, -⟩⟩ := hd.untimed_cases hgo huntimed
        · simp [hreason] at hother
        · exact hstill ⟨before, a.launch, after, state, r, hsplit, hrel, hgo, huntimed, hstate, hr,
            hwas, hmoved⟩
      · simp [hreason] at hnoGo

/-- In every cycle of every run, imprecise launches are silent but for the announcement of
their loss of precision if and only if no placeholder date has moved. -/
theorem impreciseSilent_iff {records₀ records : List AlertRecord} {steps : List CycleStep}
    (hrun : decisionMachine.Run records₀ steps records) :
    ∀ s ∈ steps, ImpreciseSilent s ↔ ¬PlaceholderShift s := by
  intro s hs
  obtain ⟨hcycle, -⟩ := decisionMachine_step.mp (hrun.step_of_mem hs)
  exact impreciseSilent_of_cycle hcycle

/-- With distinct keys a placeholder date has moved since its launch's record was stored. -/
theorem placeholderShift_iff_of_distinctKeys {s : CycleStep} (hdist : s.input.DistinctKeys)
    (hcycle : decideCycle s.input s.before = .ok s.output) :
    PlaceholderShift s ↔ ∃ launch ∈ s.input.launches, s.input.Relevant launch ∧
      launch.status = .go ∧ launch.precision.isUntimed = true ∧
      ∃ r, recordOf s.before launch.key = some r ∧ r.lastFacts.precision.isTimed = false ∧
        Shifted s.input.policy r.lastFacts launch := by
  constructor
  · rintro ⟨before, launch, after, state, r, hsplit, hrel, hgo, huntimed, hstate, hr, hwas, hmoved⟩
    rw [hdist.record_eq hsplit hstate] at hr
    exact ⟨launch, by simp [hsplit], hrel, hgo, huntimed, r, hr, hwas, hmoved⟩
  · rintro ⟨launch, hmem, hrel, hgo, huntimed, r, hr, hwas, hmoved⟩
    obtain ⟨before, after, hsplit⟩ := List.append_of_mem hmem
    obtain ⟨final, hfinal, -⟩ := decideCycle_eq_ok hcycle
    rw [hsplit] at hfinal
    obtain ⟨state, hstate⟩ := decideLaunches_of_append hfinal
    rw [← hdist.record_eq hsplit hstate] at hr
    exact ⟨before, launch, after, state, r, hsplit, hrel, hgo, huntimed, hstate, hr, hwas, hmoved⟩

/-- So it can be told from the fetched launches and the stored records whether a cycle is silent. -/
theorem impreciseSilent_iff_of_distinctKeys {records₀ records : List AlertRecord}
    {steps : List CycleStep} (hrun : decisionMachine.Run records₀ steps records) :
    ∀ s ∈ steps, s.input.DistinctKeys → (ImpreciseSilent s ↔
      ∀ launch ∈ s.input.launches, s.input.Relevant launch → launch.status = .go →
        launch.precision.isUntimed = true → ∀ r, recordOf s.before launch.key = some r →
          r.lastFacts.precision.isTimed = false → ¬Shifted s.input.policy r.lastFacts launch) := by
  intro s hs hdist
  obtain ⟨hcycle, -⟩ := decisionMachine_step.mp (hrun.step_of_mem hs)
  rw [impreciseSilent_of_cycle hcycle, placeholderShift_iff_of_distinctKeys hdist hcycle]
  constructor
  · intro hnone launch hmem hrel hgo huntimed r hr hwas hmoved
    exact hnone ⟨launch, hmem, hrel, hgo, huntimed, r, hr, hwas, hmoved⟩
  · rintro hnone ⟨launch, hmem, hrel, hgo, huntimed, r, hr, hwas, hmoved⟩
    exact hnone launch hmem hrel hgo huntimed r hr hwas hmoved

/-- The same launch a day later. -/
def movedLaunch : Launch := { vagueLaunch with launchTime := some (kNow + 89100) }

/-- The loss of precision alone is announced once, and then there is silence until the placeholder
date moves. -/
theorem impreciseSilent_iff_vagueLaunch :
    ∃ s₁ s₂ s₃ s₄ records, decisionMachine.Run [] [s₁, s₂, s₃, s₄] records ∧
      [s₁, s₂, s₃, s₄].map (·.input) = [testCycle [makeLaunch] kNow,
        testCycle [vagueLaunch] (kNow + 300), testCycle [vagueLaunch] (kNow + 600),
        testCycle [movedLaunch] (kNow + 900)] ∧
      ImpreciseSilent s₁ ∧ ImpreciseSilent s₂ ∧ ImpreciseSilent s₃ ∧ ¬ImpreciseSilent s₄ := by
  obtain ⟨s₁, s₂, s₃, s₄, records, hexec, hinputs, hbefore⟩ : ∃ s₁ s₂ s₃ s₄ records,
      decisionMachine.exec [] [testCycle [makeLaunch] kNow, testCycle [vagueLaunch] (kNow + 300),
        testCycle [vagueLaunch] (kNow + 600), testCycle [movedLaunch] (kNow + 900)] =
          .ok ([s₁, s₂, s₃, s₄], records) ∧
      [s₁, s₂, s₃, s₄].map (·.input) = [testCycle [makeLaunch] kNow,
        testCycle [vagueLaunch] (kNow + 300), testCycle [vagueLaunch] (kNow + 600),
        testCycle [movedLaunch] (kNow + 900)] ∧
      [s₁, s₂, s₃, s₄].map (fun s => (recordOf s.before makeLaunch.key).map (·.lastFacts)) =
        [none, some makeLaunch.facts, some vagueLaunch.facts, some vagueLaunch.facts] :=
    ⟨_, _, _, _, _, rfl, rfl, rfl⟩
  have hrun := Mealy.Run.of_exec hexec
  have hmoved {s : CycleStep} (hs : s ∈ [s₁, s₂, s₃, s₄]) {launch : Launch} {now : Int}
      (hinput : s.input = testCycle [launch] now) (hkey : launch.key = makeLaunch.key) :
      PlaceholderShift s ↔ (testCycle [launch] now).Relevant launch ∧ launch.status = .go ∧
        launch.precision.isUntimed = true ∧ ∃ facts,
          (recordOf s.before makeLaunch.key).map (·.lastFacts) = some facts ∧
          facts.precision.isTimed = false ∧ Shifted makePolicy facts launch := by
    have hdist : s.input.DistinctKeys := by
      rw [hinput]
      exact List.nodup_singleton _
    obtain ⟨hcycle, -⟩ := decisionMachine_step.mp (hrun.step_of_mem hs)
    rw [placeholderShift_iff_of_distinctKeys hdist hcycle, hinput]
    simp [testCycle, hkey]
  simp only [List.map_cons, List.map_nil, List.cons.injEq, and_true] at hinputs hbefore
  obtain ⟨hinput₁, hinput₂, hinput₃, hinput₄⟩ := hinputs
  obtain ⟨hbefore₁, hbefore₂, hbefore₃, hbefore₄⟩ := hbefore
  refine ⟨s₁, s₂, s₃, s₄, records, hrun, by simp [hinput₁, hinput₂, hinput₃, hinput₄], ?_, ?_, ?_,
    ?_⟩
  all_goals rw [impreciseSilent_iff hrun _ (by simp)]
  · rw [hmoved (by simp) hinput₁ rfl]
    rintro ⟨-, -, huntimed, -⟩
    cases huntimed
  · rw [hmoved (by simp) hinput₂ rfl]
    rintro ⟨-, -, -, facts, hfacts, htimed, -⟩
    obtain rfl := Option.some.inj (hbefore₂.symm.trans hfacts)
    cases htimed
  · rw [hmoved (by simp) hinput₃ rfl]
    rintro ⟨-, -, -, facts, hfacts, -, before, after, hold, hnew, hshift⟩
    obtain rfl := Option.some.inj (hbefore₃.symm.trans hfacts)
    obtain rfl := Option.some.inj (hold.symm.trans hnew)
    exact absurd hshift (by simp [makePolicy])
  · rw [not_not, hmoved (by simp) hinput₄ rfl]
    exact ⟨⟨_, rfl, rfl⟩, rfl, rfl, vagueLaunch.facts, hbefore₄, rfl, _, _, rfl, rfl, by decide⟩

end RocketWatcher
