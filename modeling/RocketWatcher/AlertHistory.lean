import Mathlib.Data.List.Chain
import RocketWatcher.CurrentFacts

/-!
# The history a record keeps

`WellFormedHistory` is what the list of sent alerts of a record, its facts and its times
have to do with each other. Its clauses about repeated corrections only follow from the
link between the last entry and the recorded facts, so the link is part of it. A record is
created well formed (`WellFormedHistory.create`) and every further alert keeps it so
(`WellFormedHistory.append`), hence every record of every run of cycles is
(`wellFormed_of_run`).
-/

namespace RocketWatcher

/-- The entry is a correction with reason `reason`. -/
def SentAlert.Corrects (sent : SentAlert) (reason : CorrectionReason) : Prop :=
  sent.kind = .correction ∧ sent.reason = some reason

/-- What holds of every alert record the watcher keeps. -/
structure WellFormedHistory (r : AlertRecord) : Prop where
  key_eq : r.key = r.sourceName ++ ":" ++ r.sourceLaunchId
  first_alert : ∃ first, r.sentAlerts.head? = some first ∧ first.kind ≠ .correction
  reason_iff : ∀ s ∈ r.sentAlerts, s.reason.isSome ↔ s.kind = .correction
  times_sorted : (r.sentAlerts.map (·.createdAt)).Pairwise (· ≤ ·)
  first_at : r.sentAlerts.head?.map (·.createdAt) = some r.firstAlertAt
  last_at : r.sentAlerts.getLast?.map (·.createdAt) = some r.lastAlertAt
  status : r.lastFacts.status = .go ∨ r.lastFacts.status = .noGo
  noGo_iff : r.lastFacts.status = .noGo ↔
    ∃ last, r.sentAlerts.getLast? = some last ∧ last.Corrects .noGo
  noGo_apart : r.sentAlerts.IsChain fun a b => ¬(a.Corrects .noGo ∧ b.Corrects .noGo)
  imprecise_apart : r.sentAlerts.IsChain fun a b =>
    ¬(a.Corrects .timingNowImprecise ∧ b.Corrects .timingNowImprecise)
  imprecise_last : ∀ last, r.sentAlerts.getLast? = some last →
    last.Corrects .timingNowImprecise → r.lastFacts.precision.isTimed = false

namespace Decides

variable {policy : AlertPolicy} {now : Int} {terms : List String} {launch : Launch}
  {record : Option AlertRecord} {alert : Alert}

/-- An alert is about a go launch, or it is the no-go correction of a no-go launch. -/
theorem status_cases (h : Decides policy now terms launch record (some alert)) :
    (launch.status = .go ∧ alert.reason ≠ some .noGo) ∨
      (launch.status = .noGo ∧ alert.kind = .correction ∧ alert.reason = some .noGo ∧
        ∀ r, record = some r → r.lastFacts.status ≠ .noGo) := by
  cases h with
  | noGo status before =>
    refine Or.inr ⟨status, rfl, rfl, ?_⟩
    rintro _ ⟨rfl⟩
    exact before
  | timingNowImprecise status | timeChanged status | countdown status =>
    exact Or.inl ⟨status, by simp [makeCorrection, makeCountdown]⟩

/-- A timing correction replaces timed facts by untimed ones. -/
theorem of_timingNowImprecise (h : Decides policy now terms launch record (some alert))
    (hreason : alert.reason = some .timingNowImprecise) :
    (∀ r, record = some r → r.lastFacts.precision.isTimed = true) ∧
      launch.precision.isTimed = false := by
  cases h with
  | timingNowImprecise status before after =>
    refine ⟨?_, after⟩
    rintro _ ⟨rfl⟩
    exact before
  | noGo | timeChanged | countdown => simp [makeCorrection, makeCountdown] at hreason

end Decides

namespace WellFormedHistory

variable {policy : AlertPolicy} {now : Int} {terms : List String} {launch : Launch}
  {alert : Alert}

theorem create (hd : Decides policy now terms launch none (some alert)) :
    WellFormedHistory (updatedRecord none launch alert now) := by
  have hkind : alert.kind ≠ .correction := fun hk => by
    obtain ⟨r, hr, -⟩ := hd.of_correction hk
    cases hr
  have hgo : launch.status = .go := by
    cases hd with
    | countdown status => exact status
  have hnot : ∀ reason, ¬SentAlert.Corrects ⟨alert.kind, now, alert.reason⟩ reason :=
    fun reason h => hkind h.1
  exact {
    key_eq := rfl
    first_alert := ⟨_, rfl, hkind⟩
    reason_iff := by simpa [updatedRecord] using hd.reason_isSome_iff
    times_sorted := List.pairwise_singleton _ _
    first_at := rfl
    last_at := rfl
    status := Or.inl hgo
    noGo_iff := by simp [updatedRecord, Launch.facts, hgo, hnot]
    noGo_apart := List.isChain_singleton _
    imprecise_apart := List.isChain_singleton _
    imprecise_last := by simp [updatedRecord, hnot] }

/-- The entries are no younger than the record's last alert. -/
theorem createdAt_le {r : AlertRecord} (hr : WellFormedHistory r) {s : SentAlert}
    (hs : s ∈ r.sentAlerts) : s.createdAt ≤ r.lastAlertAt := by
  obtain ⟨last, hlast, hat⟩ := Option.map_eq_some_iff.mp hr.last_at
  obtain ⟨init, hinit⟩ : ∃ init, r.sentAlerts = init ++ [last] :=
    ⟨_, (List.dropLast_append_getLast? _ hlast).symm⟩
  have hsorted := hr.times_sorted
  rw [hinit] at hs hsorted
  rw [← hat]
  rcases List.mem_append.mp hs with hs | hs
  · rw [List.map_append, List.pairwise_append] at hsorted
    exact hsorted.2.2 _ (List.mem_map_of_mem hs) _ (by simp)
  · rw [List.mem_singleton.mp hs]

theorem append {r : AlertRecord} (hr : WellFormedHistory r) (htime : r.lastAlertAt ≤ now)
    (hd : Decides policy now terms launch (some r) (some alert)) :
    WellFormedHistory (updatedRecord (some r) launch alert now) where
  key_eq := hr.key_eq
  first_alert := by
    obtain ⟨first, hfirst, hkind⟩ := hr.first_alert
    exact ⟨first, by simp [updatedRecord, hfirst], hkind⟩
  reason_iff := by
    intro s hs
    rcases List.mem_append.mp hs with hs | hs
    · exact hr.reason_iff s hs
    · rw [List.mem_singleton.mp hs]
      exact hd.reason_isSome_iff
  times_sorted := by
    simp only [updatedRecord, List.map_append, List.pairwise_append, List.map_singleton]
    refine ⟨hr.times_sorted, List.pairwise_singleton _ _, fun t ht now' hnow => ?_⟩
    obtain ⟨s, hs, rfl⟩ := List.mem_map.mp ht
    rw [List.mem_singleton.mp hnow]
    exact (hr.createdAt_le hs).trans htime
  first_at := by
    obtain ⟨first, hfirst, -⟩ := hr.first_alert
    simpa [updatedRecord, hfirst] using hr.first_at
  last_at := by simp [updatedRecord]
  status := by
    rcases hd.status_cases with ⟨hgo, -⟩ | ⟨hno, -⟩
    · exact Or.inl hgo
    · exact Or.inr hno
  noGo_iff := by
    rcases hd.status_cases with ⟨hgo, hreason⟩ | ⟨hno, hkind, hreason, -⟩
    · simp [updatedRecord, Launch.facts, hgo, SentAlert.Corrects, hreason]
    · simp [updatedRecord, Launch.facts, hno, SentAlert.Corrects, hkind, hreason]
  noGo_apart := by
    refine List.isChain_append.mpr ⟨hr.noGo_apart, List.isChain_singleton _, ?_⟩
    rintro last hlast s hs ⟨hlastNoGo, hsNoGo⟩
    obtain rfl : _ = s := by simpa using hs
    rcases hd.status_cases with ⟨-, hreason⟩ | ⟨-, -, -, hbefore⟩
    · exact hreason hsNoGo.2
    · exact hbefore r rfl (hr.noGo_iff.mpr ⟨last, hlast, hlastNoGo⟩)
  imprecise_apart := by
    refine List.isChain_append.mpr ⟨hr.imprecise_apart, List.isChain_singleton _, ?_⟩
    rintro last hlast s hs ⟨hlastImprecise, hsImprecise⟩
    obtain rfl : _ = s := by simpa using hs
    have htimed := (hd.of_timingNowImprecise hsImprecise.2).1 r rfl
    rw [hr.imprecise_last last hlast hlastImprecise] at htimed
    cases htimed
  imprecise_last := by
    intro last hlast hcorrects
    obtain rfl : _ = last := by simpa [updatedRecord] using hlast
    exact (hd.of_timingNowImprecise hcorrects.2).2

end WellFormedHistory

variable {input : CycleInput} {records : List AlertRecord} {d : CycleDecision}

/-- A cycle that is not before the last alerts of its records keeps them well formed. -/
theorem wellFormed_decideCycle (h : decideCycle input records = .ok d)
    (hrecords : ∀ r ∈ records, WellFormedHistory r ∧ r.lastAlertAt ≤ input.now) :
    ∀ r ∈ d.updatedRecords, WellFormedHistory r ∧ r.lastAlertAt ≤ input.now := by
  intro r hr
  refine (launchMachine input).track_invariant
    (P := fun v _ => ∀ r, v = some r → WellFormedHistory r ∧ r.lastAlertAt ≤ input.now)
    (fun r hr => hrecords r (List.mem_of_find?_eq_some hr)) ?_ r ((mem_updatedRecords h).mp hr).1
  rintro record _ launch r alert - hrecord hstep _ ⟨rfl⟩
  obtain ⟨-, rfl, terms, hd⟩ := launchMachine_step_some hstep
  refine ⟨?_, by simp⟩
  cases record with
  | none => exact .create hd
  | some r =>
    obtain ⟨hwf, htime⟩ := hrecord r rfl
    exact hwf.append htime hd

/-- Every record a run of cycles keeps has a well-formed history. The run starts without
records; its fetches, include terms and policies are arbitrary, its clock never goes back. -/
theorem wellFormed_of_run {steps : List CycleStep} {records : List AlertRecord}
    (hrun : decisionMachine.Run [] steps records)
    (hclock : (steps.map (·.input.now)).Pairwise (· ≤ ·)) :
    ∀ r ∈ records, WellFormedHistory r := by
  suffices hall : ∀ r ∈ records,
      WellFormedHistory r ∧ ∃ s ∈ steps, r.lastAlertAt ≤ s.input.now from
    fun r hr => (hall r hr).1
  revert hclock
  refine hrun.invariant (P := fun steps records => (steps.map (·.input.now)).Pairwise (· ≤ ·) →
    ∀ r ∈ records, WellFormedHistory r ∧ ∃ s ∈ steps, r.lastAlertAt ≤ s.input.now) ?_ ?_
  · simp
  intro steps records input d records' _ ih hstep hclock r hr
  obtain ⟨hcycle, rfl⟩ := decisionMachine_step.mp hstep
  rw [List.map_append, List.pairwise_append] at hclock
  obtain ⟨hpast, -, hlater⟩ := hclock
  have hrecords : ∀ r ∈ records, WellFormedHistory r ∧ r.lastAlertAt ≤ input.now := by
    intro r hr
    obtain ⟨hwf, s, hs, hle⟩ := ih hpast r hr
    exact ⟨hwf, hle.trans (hlater _ (List.mem_map_of_mem hs) _ (by simp))⟩
  obtain ⟨hwf, hle⟩ := wellFormed_decideCycle hcycle hrecords r hr
  exact ⟨hwf, _, List.mem_append_right _ (List.mem_singleton_self _), hle⟩

/-- An alert, its retraction and the launch's return. -/
theorem wellFormed_of_run_makeLaunch :
    ∃ steps records, decisionMachine.Run [] steps records ∧ steps.length = 3 ∧
      ∃ r, records = [r] ∧ r.sentAlerts.length = 2 ∧ WellFormedHistory r := by
  have hexec : decisionMachine.exec []
      [testCycle [makeLaunch] kNow, testCycle [{ makeLaunch with status := .noGo }] (kNow + 300),
        testCycle [makeLaunch] (kNow + 600)] = .ok (_, _) := rfl
  have hrun := Mealy.Run.of_exec hexec
  exact ⟨_, _, hrun, rfl, _, rfl, rfl, wellFormed_of_run hrun (by decide) _
    (List.mem_singleton_self _)⟩

end RocketWatcher
