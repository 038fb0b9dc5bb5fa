import RocketWatcher.SkipSave

/-!
# Launches do not interfere

A cycle is the product of one small run per launch key, so what it does for a key can be had
from the launches and records of that key alone (`decideCycle_ofKey`), and launches that are not
relevant can be left out (`decideCycle_relevant`). With distinct keys neither the order of
the launches (`decideCycle_perm`) nor that of the records (`decideCycle_records_perm`) shows in
more than the order of the alerts.
-/

namespace RocketWatcher

variable {input : CycleInput} {records records' : List AlertRecord} {d d' : CycleDecision}

/-- The cycle with other launches. -/
def CycleInput.withLaunches (input : CycleInput) (launches : List Launch) : CycleInput :=
  { input with launches }

/-- `CycleInput.Relevant`, as a test. -/
def CycleInput.relevant (input : CycleInput) (launch : Launch) : Bool :=
  match evaluateRelevance launch input.launchProvider input.includeTerms with
  | .ok result => result.relevant
  | .error _ => false

theorem CycleInput.relevant_iff {launch : Launch} :
    input.relevant launch = true ↔ input.Relevant launch := by
  unfold CycleInput.relevant CycleInput.Relevant
  cases evaluateRelevance launch input.launchProvider input.includeTerms with
  | error e => simp
  | ok result => simp

/-- Two cycles that go the same way for every key return the same records. -/
theorem updatedRecords_eq_of_trackKey {input' : CycleInput}
    (h : decideCycle input records = .ok d) (h' : decideCycle input' records' = .ok d')
    (hnow : input.now = input'.now) (hpolicy : input.policy = input'.policy)
    (htrack : ∀ k, trackKey input records input.launches k =
      trackKey input' records' input'.launches k) :
    d.updatedRecords = d'.updatedRecords :=
  eq_of_keySorted (keySorted_updatedRecords h) (keySorted_updatedRecords h') fun r => by
    rw [mem_updatedRecords h, mem_updatedRecords h', htrack, hnow, hpolicy]

/-- The cycle with only the launches of a key. -/
def CycleInput.ofKey (input : CycleInput) (k : String) : CycleInput :=
  input.withLaunches (input.launches.filter fun l => l.key = k)

/-- The records of a key. -/
def recordsOfKey (records : List AlertRecord) (k : String) : List AlertRecord :=
  records.filter fun r => r.key = k

theorem mem_recordsOfKey {k : String} {r : AlertRecord} :
    r ∈ recordsOfKey records k ↔ r ∈ records ∧ r.key = k := by
  simp [recordsOfKey]

theorem trackKey_ofKey (input : CycleInput) (records : List AlertRecord) (k : String) :
    trackKey (input.ofKey k) (recordsOfKey records k) (input.ofKey k).launches k =
      trackKey input records input.launches k := by
  have hrecord : recordOf (recordsOfKey records k) k = recordOf records k := by
    rw [recordOf, recordOf, recordsOfKey, List.find?_filter]
    simp
  have hlaunches : ((input.ofKey k).launches.filter fun l => l.key = k) =
      input.launches.filter fun l => l.key = k := by
    simp [CycleInput.ofKey, CycleInput.withLaunches]
  rw [trackKey, trackKey, hrecord, hlaunches]
  rfl

/-- For another key it has nothing to go on. -/
theorem trackKey_ofKey_of_ne (input : CycleInput) (records : List AlertRecord) {k k' : String}
    (hne : k' ≠ k) :
    trackKey (input.ofKey k) (recordsOfKey records k) (input.ofKey k).launches k' =
      (none, []) := by
  have hrecord : recordOf (recordsOfKey records k) k' = none := by
    rw [recordOf, List.find?_eq_none]
    intro r hr hkey
    rw [decide_eq_true_eq] at hkey
    exact hne (hkey.symm.trans (mem_recordsOfKey.mp hr).2)
  have hlaunches : ((input.ofKey k).launches.filter fun l => l.key = k') = [] := by
    rw [List.filter_eq_nil_iff]
    intro l hl hkey
    obtain ⟨-, hk⟩ := List.mem_filter.mp hl
    simp only [decide_eq_true_eq] at hk hkey
    exact hne (hkey.symm.trans hk)
  rw [trackKey, hrecord, hlaunches, KeyedMachine.track_nil]

/-- The alerts and records of a key come from the launches and records of that key. -/
theorem decideCycle_ofKey (h : decideCycle input records = .ok d) (k : String)
    (h' : decideCycle (input.ofKey k) (recordsOfKey records k) = .ok d') :
    d'.alerts = d.alertsOf k ∧ d'.updatedRecords = recordsOfKey d.updatedRecords k := by
  constructor
  · have hall : d'.alertsOf k = d'.alerts := by
      rw [CycleDecision.alertsOf, List.filter_eq_self]
      intro a ha
      rw [decide_eq_true_eq]
      by_contra hne
      have hmem : a ∈ d'.alertsOf a.launch.key := List.mem_filter.mpr ⟨ha, by simp⟩
      rw [decideCycle_alerts h', trackKey_ofKey_of_ne input records hne] at hmem
      cases hmem
    rw [← hall, decideCycle_alerts h, decideCycle_alerts h', trackKey_ofKey]
  · refine eq_of_keySorted (keySorted_updatedRecords h')
      (List.Pairwise.filter _ (keySorted_updatedRecords h)) fun r => ?_
    rw [mem_updatedRecords h', mem_recordsOfKey, mem_updatedRecords h]
    by_cases hkey : r.key = k
    · rw [hkey, trackKey_ofKey]
      simp [CycleInput.ofKey, CycleInput.withLaunches]
    · rw [trackKey_ofKey_of_ne input records hkey]
      simp [hkey]

/-- Launches that are not relevant change nothing. -/
theorem decideCycle_relevant (h : decideCycle input records = .ok d)
    (h' : decideCycle (input.withLaunches (input.launches.filter input.relevant)) records =
      .ok d') :
    d'.alerts = d.alerts ∧ d'.updatedRecords = d.updatedRecords := by
  obtain ⟨state, hstate, halerts, hrecords⟩ := decideCycle_eq_ok h
  obtain ⟨state', hstate', halerts', hrecords'⟩ := decideCycle_eq_ok h'
  have hskip : ∀ launch ∈ input.launches, input.relevant launch = false →
      ∀ record, (launchMachine input).step record launch = none := by
    intro launch _ hirrelevant record
    cases hs : (launchMachine input).step record launch with
    | none => rfl
    | some step =>
      obtain ⟨r, alert⟩ := step
      have hrel := CycleInput.relevant_iff.mpr (launchMachine_step_some hs).1
      simp [hirrelevant] at hrel
  have hsame : (state'.recordMap, state'.alerts) = (state.recordMap, state.alerts) := by
    rw [foldlM_decideLaunch hstate, foldlM_decideLaunch hstate']
    exact (launchMachine input).foldl_visit_filter hskip _
  obtain ⟨hmap, hsame⟩ := Prod.mk.inj hsame
  rw [halerts, halerts', hrecords, hrecords', hmap, hsame]
  exact ⟨rfl, rfl⟩

/-- With distinct keys the order of the launches shows in the order of the alerts only. -/
theorem decideCycle_perm {launches : List Launch} (hdist : input.DistinctKeys)
    (hperm : input.launches.Perm launches) (h : decideCycle input records = .ok d)
    (h' : decideCycle (input.withLaunches launches) records = .ok d') :
    d.alerts.Perm d'.alerts ∧ d.updatedRecords = d'.updatedRecords := by
  have htrack : ∀ k, trackKey input records input.launches k =
      trackKey (input.withLaunches launches) records launches k := by
    intro k
    rw [trackKey, trackKey, filter_key_eq_of_perm hdist hperm]
    rfl
  have halerts : ∀ k, d.alertsOf k = d'.alertsOf k := by
    intro k
    rw [decideCycle_alerts h, decideCycle_alerts h', htrack]
    rfl
  exact ⟨perm_of_filter_key_eq halerts, updatedRecords_eq_of_trackKey h h' rfl rfl htrack⟩

/-- With distinct keys the order of the records does not show. -/
theorem decideCycle_records_perm (hdist : (records.map AlertRecord.key).Nodup)
    (hperm : records.Perm records') : decideCycle input records = decideCycle input records' := by
  refine decideCycle_congr fun k => ?_
  rw [recordOf, recordOf, ← List.head?_filter, ← List.head?_filter,
    filter_key_eq_of_perm hdist hperm]

/-- Launches of other keys, irrelevant launches and the order of launches and records do not
matter for what a cycle decides. -/
theorem launches_independent (input : CycleInput) (records : List AlertRecord)
    (hterms : input.includeTerms ≠ []) :
    ∃ d, decideCycle input records = .ok d ∧
      (∀ k, ∃ d', decideCycle (input.ofKey k) (recordsOfKey records k) = .ok d' ∧
        d'.alerts = d.alertsOf k ∧ d'.updatedRecords = recordsOfKey d.updatedRecords k) ∧
      (∃ d', decideCycle (input.withLaunches (input.launches.filter input.relevant)) records =
          .ok d' ∧ d'.alerts = d.alerts ∧ d'.updatedRecords = d.updatedRecords) ∧
      (input.DistinctKeys → ∀ launches, input.launches.Perm launches →
        ∃ d', decideCycle (input.withLaunches launches) records = .ok d' ∧
          d.alerts.Perm d'.alerts ∧ d.updatedRecords = d'.updatedRecords) ∧
      ((records.map AlertRecord.key).Nodup → ∀ records', records.Perm records' →
        decideCycle input records' = .ok d) := by
  obtain ⟨d, hd⟩ := decideCycle_isOk records hterms
  refine ⟨d, hd, fun k => ?_, ?_, fun hdist launches hperm => ?_, fun hdist records' hperm => ?_⟩
  · obtain ⟨d', hd'⟩ : ∃ d', decideCycle (input.ofKey k) (recordsOfKey records k) = .ok d' :=
      decideCycle_isOk _ hterms
    exact ⟨d', hd', decideCycle_ofKey hd k hd'⟩
  · obtain ⟨d', hd'⟩ : ∃ d', decideCycle (input.withLaunches
        (input.launches.filter input.relevant)) records = .ok d' := decideCycle_isOk _ hterms
    exact ⟨d', hd', decideCycle_relevant hd hd'⟩
  · obtain ⟨d', hd'⟩ : ∃ d', decideCycle (input.withLaunches launches) records = .ok d' :=
      decideCycle_isOk _ hterms
    exact ⟨d', hd', decideCycle_perm hdist hperm hd hd'⟩
  · rw [← decideCycle_records_perm hdist hperm]
    exact hd

/-- Another launch of the same fetch. -/
def secondLaunch : Launch := { makeLaunch with sourceLaunchId := "def-456" }

theorem launches_independent_swapped :
    ∃ d d', decideCycle (testCycle [makeLaunch, secondLaunch] kNow) [] = .ok d ∧
      decideCycle (testCycle [secondLaunch, makeLaunch] kNow) [] = .ok d' ∧
      d.alerts.Perm d'.alerts ∧ d.updatedRecords = d'.updatedRecords := by
  obtain ⟨d, hd, -, -, hperm, -⟩ :=
    launches_independent (testCycle [makeLaunch, secondLaunch] kNow) [] (by decide)
  obtain ⟨d', hd', h⟩ := hperm (by decide) [secondLaunch, makeLaunch] (List.Perm.swap _ _ _)
  exact ⟨d, d', hd, hd', h⟩

end RocketWatcher
