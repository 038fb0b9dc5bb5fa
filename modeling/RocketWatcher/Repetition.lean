import RocketWatcher.Retractions

/-!
# Repeated cycles

An alert refreshes the recorded facts, so the next cycle on an unchanged launch creates no
correction (`Decides.not_correction_of_facts`), and a countdown alert leaves nothing more to
send (`Decides.silent_of_countdown`). A correction thus delays a countdown alert by one cycle
at most (`no_missed_countdown`), and on unchanged input the third cycle and all later
ones are silent (`settled_after_two_cycles`).
-/

namespace RocketWatcher

namespace Decides

variable {policy : AlertPolicy} {now : Int} {terms terms' : List String}
  {launch launch' : Launch} {record : Option AlertRecord} {alert : Alert}

/-- A launch whose facts are the recorded ones is not corrected. -/
theorem not_correction_of_facts {r : AlertRecord}
    (h : Decides policy now terms launch (some r) (some alert))
    (hshift : 0 < policy.correctionTimeShift) (hfacts : r.lastFacts = launch.facts) :
    alert.kind ≠ .correction := by
  have hcurrent := UpToDate.of_facts_eq hshift hfacts
  cases h with
  | noGo status before => exact absurd (hcurrent.noGo status) before
  | timingNowImprecise status before after =>
    exact absurd ⟨before, by simp [after]⟩ (hcurrent.timing status)
  | timeChanged status _ shifted =>
    obtain ⟨before, after, hbefore, hafter, hle⟩ := shifted
    exact absurd (hcurrent.time status before after hbefore hafter) (not_lt.mpr hle)
  | @countdown _ kind _ _ eligible =>
    rintro rfl
    exact eligible

/-- A countdown alert is the most urgent one its launch is eligible for. -/
theorem suppressed_of_countdown (h : Decides policy now terms launch record (some alert))
    (hcountdown : alert.kind ≠ .correction) {kind : AlertKind}
    (heligible : Eligible policy launch now kind) : Suppressed [alert.kind] kind := by
  cases h with
  | noGo | timingNowImprecise | timeChanged => exact absurd rfl hcountdown
  | @countdown _ sent _ _ eligible _ urgent =>
    cases kind <;> cases sent <;>
      simp_all [Eligible, Suppressed, makeCountdown]

/-- A countdown alert is inside its window. -/
theorem eligible (h : Decides policy now terms launch record (some alert))
    (hcountdown : alert.kind ≠ .correction) :
    launch.status = .go ∧ Eligible policy launch now alert.kind := by
  cases h with
  | noGo | timingNowImprecise | timeChanged => exact absurd rfl hcountdown
  | countdown status _ eligible => exact ⟨status, eligible⟩

/-- After a countdown alert there is nothing more to send at the same time. -/
theorem silent_of_countdown (h : Decides policy now terms launch record (some alert))
    (hcountdown : alert.kind ≠ .correction) (hshift : 0 < policy.correctionTimeShift)
    {alert' : Option Alert}
    (h' : Decides policy now terms' launch (some (updatedRecord record launch alert now)) alert') :
    alert' = none := by
  cases alert' with
  | none => rfl
  | some again =>
    have hkind := h'.not_correction_of_facts hshift
      (updatedRecord_lastFacts record launch alert now)
    have hsent := h.suppressed_of_countdown hcountdown (h'.eligible hkind).2
    refine absurd (hsent.mono ?_) (h'.not_suppressed hkind)
    simp

/-- A go launch inside the window of a kind has had it sent, or gets an alert now. -/
theorem sent_or_alert {alert : Option Alert} (h : Decides policy now terms launch record alert)
    (hgo : launch.status = .go) {kind : AlertKind} (heligible : Eligible policy launch now kind) :
    Suppressed (sentKinds record) kind ∨
      ∃ a, alert = some a ∧ (a.kind ≠ .correction → Suppressed [a.kind] kind) := by
  cases alert with
  | some a => exact Or.inr ⟨a, rfl, fun hkind => h.suppressed_of_countdown hkind heligible⟩
  | none =>
    cases h with
    | silent quiet => exact Or.inl (quiet.countdown hgo kind heligible)

end Decides

variable {input input' : CycleInput} {records : List AlertRecord} {d d' d'' : CycleDecision}

/-- A cycle leaves a key alone, up to the retention, or alerts for it once. -/
theorem decideCycle_key_cases (h : decideCycle input records = .ok d)
    (hdist : input.DistinctKeys) (hret : 0 ≤ input.policy.retention) (k : String) :
    (d.alertsOf k = [] ∧
      recordOf d.updatedRecords k = (recordOf records k).filter (retained input)) ∨
    ∃ launch ∈ input.launches, launch.key = k ∧ ∃ terms alert,
      Decides input.policy input.now terms launch (recordOf records k) (some alert) ∧
      d.alertsOf k = [alert] ∧ recordOf d.updatedRecords k =
        some (updatedRecord (recordOf records k) launch alert input.now) := by
  rw [decideCycle_alerts h, recordOf_updatedRecords h]
  rcases trackKey_cases records hdist k with
    htrack | ⟨launch, hmem, hkey, -, terms, alert, hd, htrack⟩
  · exact Or.inl ⟨by rw [htrack], by rw [htrack]⟩
  · refine Or.inr ⟨launch, hmem, hkey, terms, alert, hd, by rw [htrack], ?_⟩
    simp [htrack, retained, hret]

/-! ## The same input again -/

section Again

variable {k : String}

/-- A key with the same record is answered in the same way. -/
theorem same_answer {records' : List AlertRecord} (h : decideCycle input records = .ok d)
    (h' : decideCycle input records' = .ok d')
    (hsame : recordOf records' k = recordOf records k) :
    d'.alertsOf k = d.alertsOf k ∧
      recordOf d'.updatedRecords k = recordOf d.updatedRecords k := by
  have htrack : trackKey input records' input.launches k =
      trackKey input records input.launches k := by
    rw [trackKey, trackKey, hsame]
  rw [decideCycle_alerts h, decideCycle_alerts h', recordOf_updatedRecords h,
    recordOf_updatedRecords h', htrack]
  exact ⟨rfl, rfl⟩

variable (h : decideCycle input records = .ok d)
  (h' : decideCycle input d.updatedRecords = .ok d')
  (h'' : decideCycle input d'.updatedRecords = .ok d'')
  (hdist : input.DistinctKeys) (hret : 0 ≤ input.policy.retention)

include h h' hdist hret

/-- A silent cycle keeps what the cycle before it kept. -/
theorem recordOf_of_silent (hsilent : d'.alertsOf k = []) :
    recordOf d'.updatedRecords k = recordOf d.updatedRecords k := by
  rcases decideCycle_key_cases h' hdist hret k with ⟨-, hkept⟩ | ⟨_, _, _, _, _, _, halert, _⟩
  · rw [hkept, recordOf_updatedRecords h, Option.filter_filter]
    simp
  · simp [hsilent] at halert

variable (hshift : 0 < input.policy.correctionTimeShift)

include hshift

/-- The second cycle creates no correction. -/
theorem not_correction_again : ∀ a ∈ d'.alertsOf k, a.kind ≠ .correction := by
  rcases decideCycle_key_cases h' hdist hret k with
    ⟨hsilent, -⟩ | ⟨launch', hmem', hkey', terms', alert', hd', halert', -⟩
  · simp [hsilent]
  rw [halert']
  intro a ha
  obtain rfl := List.mem_singleton.mp ha
  rcases decideCycle_key_cases h hdist hret k with
    ⟨hsilent, hkept⟩ | ⟨launch, hmem, hkey, terms, alert, hd, -, hnoted⟩
  · intro hcorrection
    obtain ⟨r, hr, -⟩ := hd'.of_correction hcorrection
    have hstored := (Option.filter_eq_some_iff.mp (hkept.symm.trans hr)).1
    have hsame := (same_answer h h' (hr.trans hstored.symm)).1
    simp [hsilent, halert'] at hsame
  · obtain rfl := List.inj_on_of_nodup_map hdist hmem hmem' (hkey.trans hkey'.symm)
    rw [hnoted] at hd'
    exact hd'.not_correction_of_facts hshift (updatedRecord_lastFacts _ launch alert _)

include h''

/-- The third cycle is silent, and keeps what the second has kept. -/
theorem settled_key :
    d''.alertsOf k = [] ∧ recordOf d''.updatedRecords k = recordOf d'.updatedRecords k := by
  rcases decideCycle_key_cases h' hdist hret k with
    ⟨hsilent, -⟩ | ⟨launch, hmem, hkey, terms, alert, hd, halert, hnoted⟩
  · have hkept := recordOf_of_silent h h' hdist hret hsilent
    obtain ⟨hagain, hrecord⟩ := same_answer h' h'' hkept
    exact ⟨hagain.trans hsilent, hrecord⟩
  · have hsent : alert ∈ d'.alertsOf k := by simp [halert]
    have hcountdown := not_correction_again h h' hdist hret hshift alert hsent
    rcases decideCycle_key_cases h'' hdist hret k with
      ⟨hsilent, -⟩ | ⟨launch', hmem', hkey', terms', alert', hd', -, -⟩
    · exact ⟨hsilent, recordOf_of_silent h' h'' hdist hret hsilent⟩
    · obtain rfl := List.inj_on_of_nodup_map hdist hmem hmem' (hkey.trans hkey'.symm)
      rw [hnoted] at hd'
      cases hd.silent_of_countdown hcountdown hshift hd'

/-- The third cycle creates no alert and returns the records it was given. -/
theorem settled_cycle : d''.alerts = [] ∧ d''.updatedRecords = d'.updatedRecords := by
  have hkey := fun k => settled_key (k := k) h h' h'' hdist hret hshift
  constructor
  · refine List.eq_nil_iff_forall_not_mem.mpr fun a ha => ?_
    have hmem : a ∈ d''.alertsOf a.launch.key := List.mem_filter.mpr ⟨ha, by simp⟩
    simp [(hkey a.launch.key).1] at hmem
  · refine eq_of_keySorted (keySorted_updatedRecords h'') (keySorted_updatedRecords h') fun r => ?_
    have hthird := recordOf_updatedRecords_eq_some h'' (k := r.key) (r := r)
    have hsecond := recordOf_updatedRecords_eq_some h' (k := r.key) (r := r)
    rw [(hkey r.key).2] at hthird
    simpa using hthird.symm.trans hsecond

end Again

/-- On unchanged input two cycles settle everything : both decide, and in every run that
repeats the input from there on no cycle creates an alert and the records stay as they are.
The run can always go on. -/
theorem settled_after_two_cycles (input : CycleInput) (records : List AlertRecord)
    (hdist : input.DistinctKeys) (hshift : 0 < input.policy.correctionTimeShift)
    (hret : 0 ≤ input.policy.retention) (hterms : input.includeTerms ≠ []) :
    ∃ d₁ d₂, decideCycle input records = .ok d₁ ∧
      decideCycle input d₁.updatedRecords = .ok d₂ ∧
      (∃ d₃, decideCycle input d₂.updatedRecords = .ok d₃ ∧ d₃.alerts = [] ∧
        d₃.updatedRecords = d₂.updatedRecords) ∧
      ∀ steps records', decisionMachine.Run d₂.updatedRecords steps records' →
        (∀ s ∈ steps, s.input = input) →
        records' = d₂.updatedRecords ∧ ∀ s ∈ steps, s.output.alerts = [] := by
  obtain ⟨d₁, h₁⟩ := decideCycle_isOk records hterms
  obtain ⟨d₂, h₂⟩ := decideCycle_isOk d₁.updatedRecords hterms
  obtain ⟨d₃, h₃⟩ := decideCycle_isOk d₂.updatedRecords hterms
  refine ⟨d₁, d₂, h₁, h₂, ⟨d₃, h₃, settled_cycle h₁ h₂ h₃ hdist hret hshift⟩, ?_⟩
  intro steps records' hrun
  refine hrun.invariant (P := fun steps records' => (∀ s ∈ steps, s.input = input) →
    records' = d₂.updatedRecords ∧ ∀ s ∈ steps, s.output.alerts = []) (by simp) ?_
  intro steps records' input' d records'' _ ih hstep hinputs
  obtain ⟨rfl, hsilent⟩ := ih fun s hs => hinputs s (List.mem_append_left _ hs)
  obtain ⟨hcycle, rfl⟩ := decisionMachine_step.mp hstep
  obtain rfl : input' = input := hinputs _ (List.mem_append_right _ List.mem_cons_self)
  obtain ⟨halerts, hrecords⟩ := settled_cycle h₁ h₂ hcycle hdist hret hshift
  refine ⟨hrecords, fun s hs => ?_⟩
  rcases List.mem_append.mp hs with hs | hs
  · exact hsilent s hs
  · rw [List.mem_singleton.mp hs]
    exact halerts

/-- The test suite's launch while its time was only good to the hour, 45 minutes earlier. -/
def hourLaunch : Launch := { makeLaunch with launchTime := some kNow, precision := .hour }

/-- Its record after the hour-precision alert. -/
def hourRecord : AlertRecord :=
  updatedRecord none hourLaunch
    (makeCountdown hourLaunch .hourPrecision ["Starlink"] (kNow - 600)) (kNow - 600)

/-- A correction, a launch-soon alert, and then silence. -/
theorem settled_after_two_cycles_makeLaunch :
    ∃ d₁ d₂ d₃, decideCycle (testCycle [makeLaunch] kNow) [hourRecord] = .ok d₁ ∧
      decideCycle (testCycle [makeLaunch] kNow) d₁.updatedRecords = .ok d₂ ∧
      decideCycle (testCycle [makeLaunch] kNow) d₂.updatedRecords = .ok d₃ ∧ d₃.alerts = [] := by
  obtain ⟨d₁, d₂, h₁, h₂, ⟨d₃, h₃, hsilent, -⟩, -⟩ :=
    settled_after_two_cycles (testCycle [makeLaunch] kNow) [hourRecord] (by decide) (by decide)
      (by decide) (by decide)
  exact ⟨d₁, d₂, d₃, h₁, h₂, h₃, hsilent⟩

/-! ## Two polls of the same launch -/

theorem Suppressed.of_append_correction {sent : List AlertKind} {kind : AlertKind}
    (h : Suppressed (sent ++ [.correction]) kind) (hkind : kind ≠ .correction) :
    Suppressed sent kind := by
  cases kind with
  | correction => exact absurd rfl hkind
  | launchSoon | launchImminent | hourPrecision => simpa [Suppressed] using h

/-- A window is one of the launch's facts. -/
theorem Eligible.of_facts_eq {policy : AlertPolicy} {launch launch' : Launch} {now : Int}
    {kind : AlertKind} (h : Eligible policy launch now kind)
    (hfacts : launch.facts = launch'.facts) : Eligible policy launch' now kind := by
  have htime : launch.launchTime = launch'.launchTime := congrArg LaunchFacts.launchTime hfacts
  have hprecision : launch.precision = launch'.precision := congrArg LaunchFacts.precision hfacts
  cases kind with
  | correction => exact h
  | launchSoon | launchImminent | hourPrecision => rwa [Eligible, htime, hprecision] at h

theorem Eligible.ne_correction {policy : AlertPolicy} {launch : Launch} {now : Int}
    {kind : AlertKind} (h : Eligible policy launch now kind) : kind ≠ .correction := by
  rintro rfl
  exact h

section TwoPolls

variable {launch launch' : Launch} (h : decideCycle input records = .ok d)
  (h' : decideCycle input' d.updatedRecords = .ok d') (hpolicy : input'.policy = input.policy)
  (hshift : 0 < input.policy.correctionTimeShift) (hret : 0 ≤ input.policy.retention)
  (hdist : input.DistinctKeys) (hdist' : input'.DistinctKeys) (hmem : launch ∈ input.launches)
  (hmem' : launch' ∈ input'.launches) (hrel : input.Relevant launch)
  (hrel' : input'.Relevant launch') (hkey : launch'.key = launch.key)
  (hfacts : launch'.facts = launch.facts) (hgo : launch.status = .go)

include h h' hpolicy hshift hret hdist hdist' hmem hmem' hrel hrel' hkey hfacts hgo

/-- A launch that is in the window of a kind in two cycles has had a kind sent that covers
it, or gets one in these cycles. -/
theorem suppressed_within_two_cycles {kind : AlertKind}
    (hfirst : Eligible input.policy launch input.now kind)
    (hsecond : Eligible input.policy launch' input'.now kind) :
    Suppressed (sentKinds (recordOf records launch.key)) kind ∨
      ∃ a ∈ d.alerts ++ d'.alerts, a.launch.key = launch.key ∧ Suppressed [a.kind] kind := by
  have hgo' : launch'.status = .go := (congrArg LaunchFacts.status hfacts).trans hgo
  obtain ⟨terms, alert, hd, halerts, hrecords⟩ := cycle_of_launch h hdist hmem hrel
  obtain ⟨terms', alert', hd', halerts', -⟩ := cycle_of_launch h' hdist' hmem' hrel'
  rcases hd.sent_or_alert hgo hfirst with hsent | ⟨a, rfl, ha⟩
  · exact Or.inl hsent
  have hmemAlert : a ∈ d.alertsOf launch.key := by simp [halerts]
  by_cases hkind : a.kind = .correction
  · -- The correction has refreshed the record, so the second cycle cannot correct again.
    have hnoted : recordOf d.updatedRecords launch'.key =
        some (updatedRecord (recordOf records launch.key) launch a input.now) := by
      have hkeyed : (updatedRecord (recordOf records launch.key) launch a input.now).key =
          launch.key := updatedRecord_key a input.now fun r => recordOf_key
      rw [hkey, recordOf_updatedRecords_eq_some h]
      exact ⟨(hrecords _ hkeyed).mpr ⟨rfl, by simp [hret]⟩, hkeyed⟩
    rw [hnoted, hpolicy] at hd'
    rcases hd'.sent_or_alert hgo' hsecond with hsent | ⟨a', rfl, ha'⟩
    · rw [sentKinds_updatedRecord, hkind] at hsent
      exact Or.inl (hsent.of_append_correction hfirst.ne_correction)
    · have hmemAlert' : a' ∈ d'.alertsOf launch'.key := by simp [halerts']
      obtain ⟨hin, hkeyAlert⟩ := List.mem_filter.mp hmemAlert'
      refine Or.inr ⟨a', List.mem_append_right _ hin, by simpa [hkey] using hkeyAlert, ha' ?_⟩
      exact hd'.not_correction_of_facts hshift
        ((updatedRecord_lastFacts _ launch a input.now).trans hfacts.symm)
  · obtain ⟨hin, hkeyAlert⟩ := List.mem_filter.mp hmemAlert
    exact Or.inr ⟨a, List.mem_append_left _ hin, by simpa using hkeyAlert, ha hkind⟩

end TwoPolls

/-- An alert of this kind is listed in the record of the key, or created by one of the two
decisions. -/
def SentWithin (records : List AlertRecord) (d d' : CycleDecision) (k : String)
    (kind : AlertKind) : Prop :=
  kind ∈ sentKinds (recordOf records k) ∨
    ∃ a ∈ d.alerts ++ d'.alerts, a.launch.key = k ∧ a.kind = kind

/-- No missed countdown. Two consecutive cycles that both see the same relevant go launch
inside the window of a kind leave that kind sent, whatever corrections come in between : a
correction delays a countdown alert by at most one cycle and never swallows it. -/
theorem no_missed_countdown {input₁ input₂ : CycleInput} {records : List AlertRecord}
    {d₁ d₂ : CycleDecision} {launch₁ launch₂ : Launch}
    (h₁ : decideCycle input₁ records = .ok d₁)
    (h₂ : decideCycle input₂ d₁.updatedRecords = .ok d₂) (hpolicy : input₂.policy = input₁.policy)
    (hshift : 0 < input₁.policy.correctionTimeShift) (hret : 0 ≤ input₁.policy.retention)
    (hdist₁ : input₁.DistinctKeys) (hdist₂ : input₂.DistinctKeys)
    (hmem₁ : launch₁ ∈ input₁.launches) (hmem₂ : launch₂ ∈ input₂.launches)
    (hrel₁ : input₁.Relevant launch₁) (hrel₂ : input₂.Relevant launch₂)
    (hkey : launch₂.key = launch₁.key) (hfacts : launch₂.facts = launch₁.facts)
    (hgo : launch₁.status = .go) :
    (Eligible input₁.policy launch₁ input₁.now .launchImminent →
      Eligible input₁.policy launch₁ input₂.now .launchImminent →
      SentWithin records d₁ d₂ launch₁.key .launchImminent) ∧
    (Eligible input₁.policy launch₁ input₁.now .launchSoon →
      Eligible input₁.policy launch₁ input₂.now .launchSoon →
      SentWithin records d₁ d₂ launch₁.key .launchSoon ∨
        SentWithin records d₁ d₂ launch₁.key .launchImminent) ∧
    (Eligible input₁.policy launch₁ input₁.now .hourPrecision →
      Eligible input₁.policy launch₁ input₂.now .hourPrecision →
      SentWithin records d₁ d₂ launch₁.key .hourPrecision) := by
  have hsent {kind : AlertKind} (hfirst : Eligible input₁.policy launch₁ input₁.now kind)
      (hsecond : Eligible input₁.policy launch₁ input₂.now kind) :=
    suppressed_within_two_cycles h₁ h₂ hpolicy hshift hret hdist₁ hdist₂ hmem₁ hmem₂ hrel₁ hrel₂
      hkey hfacts hgo hfirst (hsecond.of_facts_eq hfacts.symm)
  refine ⟨fun hfirst hsecond => ?_, fun hfirst hsecond => ?_, fun hfirst hsecond => ?_⟩
  · rcases hsent hfirst hsecond with hlisted | ⟨a, ha, hk, hkind⟩
    · exact Or.inl hlisted
    · exact Or.inr ⟨a, ha, hk, (List.mem_singleton.mp hkind).symm⟩
  · rcases hsent hfirst hsecond with (hsoon | himminent) | ⟨a, ha, hk, hsoon | himminent⟩
    · exact Or.inl (Or.inl hsoon)
    · exact Or.inr (Or.inl himminent)
    · exact Or.inl (Or.inr ⟨a, ha, hk, (List.mem_singleton.mp hsoon).symm⟩)
    · exact Or.inr (Or.inr ⟨a, ha, hk, (List.mem_singleton.mp himminent).symm⟩)
  · rcases hsent hfirst hsecond with hlisted | ⟨a, ha, hk, hkind⟩
    · exact Or.inl hlisted
    · exact Or.inr ⟨a, ha, hk, (List.mem_singleton.mp hkind).symm⟩

/-- The time correction of the first cycle only delays the countdown alert. -/
theorem no_missed_countdown_makeLaunch :
    ∃ d₁ d₂, decideCycle (testCycle [makeLaunch] kNow) [hourRecord] = .ok d₁ ∧
      d₁.alerts.map (·.kind) = [.correction] ∧
      decideCycle (testCycle [makeLaunch] (kNow + 300)) d₁.updatedRecords = .ok d₂ ∧
      ∃ a ∈ d₂.alerts, a.kind = .launchSoon ∨ a.kind = .launchImminent := by
  obtain ⟨d₁, h₁, hkinds⟩ : ∃ d, decideCycle (testCycle [makeLaunch] kNow) [hourRecord] = .ok d ∧
      d.alerts.map (·.kind) = [.correction] := ⟨_, rfl, rfl⟩
  have hterms : (testCycle [makeLaunch] (kNow + 300)).includeTerms ≠ [] := by decide
  obtain ⟨d₂, h₂⟩ := decideCycle_isOk d₁.updatedRecords hterms
  refine ⟨d₁, d₂, h₁, hkinds, h₂, ?_⟩
  have hcreated {kind : AlertKind} (hhour : kind ≠ .hourPrecision)
      (hcorrection : kind ≠ .correction)
      (hsent : SentWithin [hourRecord] d₁ d₂ makeLaunch.key kind) :
      ∃ a ∈ d₂.alerts, a.kind = kind := by
    rcases hsent with hlisted | ⟨a, ha, -, rfl⟩
    · have hfirst : kind ∈ [AlertKind.hourPrecision] := hlisted
      exact absurd (List.mem_singleton.mp hfirst) hhour
    · rcases List.mem_append.mp ha with ha | ha
      · have hfirst : a.kind ∈ d₁.alerts.map (·.kind) := List.mem_map_of_mem ha
        rw [hkinds] at hfirst
        exact absurd (List.mem_singleton.mp hfirst) hcorrection
      · exact ⟨a, ha, rfl⟩
  have hpolls := no_missed_countdown h₁ h₂ rfl (by decide) (by decide) (by decide) (by decide)
    List.mem_cons_self List.mem_cons_self ⟨_, rfl, rfl⟩ ⟨_, rfl, rfl⟩ rfl rfl rfl
  rcases hpolls.2.1 ⟨rfl, _, rfl, by decide, by decide⟩ ⟨rfl, _, rfl, by decide, by decide⟩ with
    hsoon | himminent
  · obtain ⟨a, ha, hkind⟩ := hcreated (by decide) (by decide) hsoon
    exact ⟨a, ha, Or.inl hkind⟩
  · obtain ⟨a, ha, hkind⟩ := hcreated (by decide) (by decide) himminent
    exact ⟨a, ha, Or.inr hkind⟩

end RocketWatcher
