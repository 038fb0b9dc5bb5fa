import Mathlib.Data.List.Perm.Subperm
import RocketWatcher.Bookkeeping
import RocketWatcher.Watcher

/-!
# Skipping the save

A cycle without alerts that returns as many records as it loaded is not saved. Without
alerts the returned records are loaded ones, each key at most once, so as many of them are
all of them (`updatedRecords_perm`). The stored records then differ from the ones an
implementation that always saves would have stored in their order only, and since a cycle
reads the records through the map of their keys (`decideCycle_congr`), this remains so
along every run (`skip_save_loses_nothing`).
-/

open Std

namespace RocketWatcher

/-! ## A decision depends on the record map only -/

/-- The loop states agree, the record maps up to their shape. -/
structure LoopState.Same (a b : LoopState) : Prop where
  recordMap : a.recordMap.Equiv b.recordMap
  alerts : a.alerts = b.alerts
  evaluations : a.evaluations = b.evaluations

variable {input : CycleInput} {records records' : List AlertRecord} {d : CycleDecision}

theorem decideLaunch_same (input : CycleInput) {a b : LoopState} (h : a.Same b) (launch : Launch) :
    (∃ e, decideLaunch input a launch = .error e ∧ decideLaunch input b launch = .error e) ∨
      ∃ a' b', decideLaunch input a launch = .ok a' ∧ decideLaunch input b launch = .ok b' ∧
        a'.Same b' := by
  have hrecord : a.recordMap[launch.key]? = b.recordMap[launch.key]? := h.recordMap.getElem?_eq
  simp only [decideLaunch, hrecord, h.alerts, h.evaluations]
  cases evaluateRelevance launch input.launchProvider input.includeTerms with
  | error e => exact Or.inl ⟨e, rfl, rfl⟩
  | ok relevance =>
    right
    simp only [Except.ok_bind, Except.pure_eq_ok]
    split_ifs
    · exact ⟨_, _, rfl, rfl, h.recordMap, rfl, rfl⟩
    · split
      · exact ⟨_, _, rfl, rfl, h.recordMap, rfl, rfl⟩
      · exact ⟨_, _, rfl, rfl, h.recordMap.insert _ _, rfl, rfl⟩

theorem foldlM_decideLaunch_same (input : CycleInput) {a b : LoopState} (h : a.Same b)
    (launches : List Launch) :
    (∃ e, launches.foldlM (decideLaunch input) a = .error e ∧
        launches.foldlM (decideLaunch input) b = .error e) ∨
      ∃ a' b', launches.foldlM (decideLaunch input) a = .ok a' ∧
        launches.foldlM (decideLaunch input) b = .ok b' ∧ a'.Same b' := by
  induction launches generalizing a b with
  | nil => exact Or.inr ⟨a, b, rfl, rfl, h⟩
  | cons launch launches ih =>
    rcases decideLaunch_same input h launch with ⟨e, ha, hb⟩ | ⟨a', b', ha, hb, h'⟩
    · exact Or.inl ⟨e, by simp [ha], by simp [hb]⟩
    · simpa [ha, hb] using ih h'

/-- Records that give each key the same record in force give the same decision. -/
theorem decideCycle_congr (h : ∀ k, recordOf records k = recordOf records' k) :
    decideCycle input records = decideCycle input records' := by
  have hstart : LoopState.Same ⟨firstByKey AlertRecord.key records, [], []⟩
      ⟨firstByKey AlertRecord.key records', [], []⟩ := by
    refine ⟨TreeMap.Equiv.of_forall_constGet?_eq fun k => ?_, rfl, rfl⟩
    rw [getElem?_firstByKey, getElem?_firstByKey]
    exact h k
  unfold decideCycle decideLaunches
  rcases foldlM_decideLaunch_same input hstart input.launches with
    ⟨e, ha, hb⟩ | ⟨a, b, ha, hb, hsame⟩
  · simp [ha, hb]
  · simp [ha, hb, hsame.alerts, hsame.evaluations, valuesOf, hsame.recordMap.toList_eq]

/-! ## A cycle that is not saved -/

/-- The same records, and the same one in force for each key. -/
structure SameRecords (a b : List AlertRecord) : Prop where
  perm : a.Perm b
  recordOf_eq : ∀ k, recordOf a k = recordOf b k

/-- Without alerts every returned record is a loaded one. -/
theorem recordOf_of_no_alerts (h : decideCycle input records = .ok d) (halerts : d.alerts = [])
    {r : AlertRecord} (hr : r ∈ d.updatedRecords) : recordOf records r.key = some r := by
  have hnone : d.alertsOf r.key = [] := by simp [CycleDecision.alertsOf, halerts]
  rw [decideCycle_alerts h] at hnone
  have hbooked := booked_trackKey input records input.launches r.key
  rw [← hbooked.untouched hnone]
  exact ((mem_updatedRecords h).mp hr).1

/-- As many records as loaded are all of the loaded ones. -/
theorem updatedRecords_perm (h : decideCycle input records = .ok d) (halerts : d.alerts = [])
    (hsize : d.updatedRecords.length = records.length) : d.updatedRecords.Perm records := by
  have hnodup : d.updatedRecords.Nodup :=
    (keySorted_updatedRecords h).imp fun hlt heq => by simp [heq] at hlt
  have hsubset : d.updatedRecords ⊆ records := fun r hr =>
    List.mem_of_find?_eq_some (recordOf_of_no_alerts h halerts hr)
  exact (List.subperm_of_subset hnodup hsubset).perm_of_length_le hsize.ge

theorem sameRecords_of_unchanged (h : decideCycle input records = .ok d)
    (hchanged : recordsChanged records d = false) : SameRecords records d.updatedRecords := by
  obtain ⟨halerts, hsize⟩ : d.alerts = [] ∧ d.updatedRecords.length = records.length := by
    simpa [recordsChanged] using hchanged
  have hperm := updatedRecords_perm h halerts hsize
  refine ⟨hperm.symm, fun k => ?_⟩
  cases hr : recordOf records k with
  | some r =>
    have hmem : r ∈ d.updatedRecords := hperm.mem_iff.mpr (List.mem_of_find?_eq_some hr)
    exact ((recordOf_updatedRecords_eq_some h).mpr ⟨hmem, recordOf_key hr⟩).symm
  | none =>
    refine (List.find?_eq_none.mpr fun r hmem => ?_).symm
    exact List.find?_eq_none.mp hr r (hperm.mem_iff.mp hmem)

theorem planCycle_congr {env : CycleEnv} {config : Config} (launches : List Launch)
    (h : ∀ k, recordOf records k = recordOf records' k) :
    planCycle env config launches records = planCycle env config launches records' := by
  rw [planCycle, planCycle, decideCycle_congr h]

/-- One cycle of the program against one that always saves, on the same records up to their
order. -/
theorem storedAfter_sameRecords (h : SameRecords records records') (env : CycleEnv)
    (config : Config) :
    SameRecords (storedAfter recordsChanged env config records)
      (storedAfter (fun _ _ => true) env config records') := by
  unfold storedAfter
  cases env.fetch with
  | error error => exact h
  | ok fetch =>
    cases env.loadError with
    | some error => exact h
    | none =>
      dsimp only
      rw [planCycle_congr fetch.launches fun k => (h.recordOf_eq k).symm]
      cases hplan : planCycle env config fetch.launches records with
      | error error => exact h
      | ok plan =>
        have hdecide := (planCycle_eq_ok hplan).1
        cases hchanged : recordsChanged records plan.1 with
        | true =>
          cases env.saveAnswer.replaced with
          | true => simpa [hchanged] using ⟨.refl _, fun _ => rfl⟩
          | false => simpa [hchanged] using h
        | false =>
          have hunchanged := sameRecords_of_unchanged hdecide hchanged
          cases env.saveAnswer.replaced with
          | true => simpa [hchanged] using hunchanged
          | false => simpa [hchanged] using h

/-- The implementation that always saves what it has decided. -/
def alwaysSaving : Mealy (List AlertRecord) CycleCall (List Effect) Empty :=
  watcherWith fun _ _ => true

/-- Every cycle of the program is matched. -/
theorem alwaysSaving_step {call : CycleCall} {effects : List Effect}
    {stored : List AlertRecord} (hdry : call.env.dryRun = false) (hcrash : call.crashAfter = none)
    (h : SameRecords records records')
    (hstep : watcher.step records call = .ok (effects, stored)) :
    ∃ effects' stored', alwaysSaving.step records' call = .ok (effects', stored') ∧
      SameRecords stored stored' := by
  obtain ⟨effects', stored', hstep'⟩ : ∃ effects' stored',
      alwaysSaving.step records' call = .ok (effects', stored') := ⟨_, _, rfl⟩
  refine ⟨effects', stored', hstep', ?_⟩
  rw [watcherWith_stored hdry hcrash hstep, watcherWith_stored hdry hcrash hstep']
  exact storedAfter_sameRecords h call.env call.config

/-- A cycle that decides without calling `store.save` has decided for the records it loaded. -/
theorem perm_of_not_saved {env : CycleEnv} {config : Config} {stored : List AlertRecord}
    {outcome : CycleOutcome} (hdry : env.dryRun = false)
    (hok : (runCycle env config stored).result = .ok outcome)
    (hsource : outcome.sourceFailed = false) (hsave : outcome.saveFailed = false)
    (hskip : ∀ saved replaced, Effect.save saved replaced ∉ (runCycle env config stored).trace) :
    ∃ fetch decision, env.fetch = .ok fetch ∧
      decideCycle (cycleInput env config fetch.launches) stored = .ok decision ∧
      decision.updatedRecords.Perm stored := by
  have hquiet := runCycleWith_quiet recordsChanged env config stored
  have hresult := hquiet.result.symm.trans hok
  have htrace := hquiet.trace
  unfold quietCycle at hresult htrace
  cases hfetch : env.fetch with
  | error error =>
    simp only [hfetch] at hresult
    cases hresult
    cases hsource
  | ok fetch =>
    cases hload : env.loadError with
    | some error =>
      simp only [hfetch, hload] at hresult
      cases error <;> cases hresult
      cases hsave
    | none =>
      cases hplan : planCycle env config fetch.launches stored with
      | error error =>
        simp only [hfetch, hload, hplan] at hresult
        cases hresult
      | ok plan =>
        obtain ⟨decision, messages⟩ := plan
        have hdecide := (planCycle_eq_ok hplan).1
        refine ⟨fetch, decision, rfl, hdecide, ?_⟩
        cases hchanged : recordsChanged stored decision with
        | false => exact (sameRecords_of_unchanged hdecide hchanged).perm.symm
        | true =>
          simp only [hfetch, hload, hplan, Traced.ofExcept_ok_bind, hdry, Bool.false_eq_true,
            ↓reduceIte, hchanged] at htrace
          obtain ⟨rest, hseen, -⟩ := saveAndNotify_trace env config decision
            messages { alertsCreated := decision.alerts.length }
          rw [hseen] at htrace
          have hmem := List.mem_of_mem_filter (htrace ▸ List.mem_cons_self)
          exact absurd hmem (hskip _ _)

/-- Skipping the save loses nothing. A decision that is not saved is, up to order, for the
records it was made from; a cycle that gets through without calling `store.save` has made
such a decision; and along every run of cycles, whatever fails in them, the stored records
are up to order those of the implementation that always saves. -/
theorem skip_save_loses_nothing :
    (∀ (input : CycleInput) (records : List AlertRecord) (d : CycleDecision),
      decideCycle input records = .ok d → recordsChanged records d = false →
      d.updatedRecords.Perm records) ∧
    (∀ (env : CycleEnv) (config : Config) (stored : List AlertRecord) (outcome : CycleOutcome),
      env.dryRun = false → (runCycle env config stored).result = .ok outcome →
      outcome.sourceFailed = false → outcome.saveFailed = false →
      (∀ saved replaced, Effect.save saved replaced ∉ (runCycle env config stored).trace) →
      ∃ fetch decision, env.fetch = .ok fetch ∧
        decideCycle (cycleInput env config fetch.launches) stored = .ok decision ∧
        decision.updatedRecords.Perm stored) ∧
    (∀ (stored₀ stored : List AlertRecord) (steps : List WatcherStep),
      watcher.Run stored₀ steps stored →
      (∀ s ∈ steps, s.input.env.dryRun = false ∧ s.input.crashAfter = none) →
      ∃ steps' stored', alwaysSaving.Run stored₀ steps' stored' ∧
        List.Forall₂ (fun s s' => s.input = s'.input ∧ s.after.Perm s'.after) steps steps') := by
  refine ⟨fun input records d h hchanged => (sameRecords_of_unchanged h hchanged).perm.symm,
    fun env config stored outcome => perm_of_not_saved, ?_⟩
  intro stored₀ stored steps hrun hinputs
  obtain ⟨steps', stored', hrun', -, hall⟩ := hrun.simulate (N := alwaysSaving)
    (R := SameRecords) (P := fun call => call.env.dryRun = false ∧ call.crashAfter = none)
    hinputs ⟨.refl _, fun _ => rfl⟩
    fun stored records call effects after hinput => alwaysSaving_step hinput.1 hinput.2
  exact ⟨steps', stored', hrun', hall.imp fun _ _ h => ⟨h.1, h.2.perm⟩⟩

/-- An alert, and a cycle that is not saved because nothing has changed. -/
theorem skip_save_loses_nothing_makeLaunch :
    ∃ steps stored steps' stored', watcher.Run [] steps stored ∧
      steps.map (fun s => s.output.any fun e => e matches .save ..) = [true, false] ∧
      alwaysSaving.Run [] steps' stored' ∧
      List.Forall₂ (fun s s' => s.input = s'.input ∧ s.after.Perm s'.after) steps steps' := by
  obtain ⟨steps, stored, hexec, hinputs, hsaves⟩ : ∃ steps stored,
      watcher.exec [] [testCall [makeLaunch] kNow, testCall [makeLaunch] (kNow + 300)] =
        .ok (steps, stored) ∧
      (∀ s ∈ steps, s.input.env.dryRun = false ∧ s.input.crashAfter = none) ∧
      steps.map (fun s => s.output.any fun e => e matches .save ..) = [true, false] := by
    refine ⟨_, _, rfl, ?_, rfl⟩
    simp [testCall]
  have hrun := Mealy.Run.of_exec hexec
  obtain ⟨steps', stored', hrun', hall⟩ := skip_save_loses_nothing.2.2 [] stored steps hrun hinputs
  exact ⟨steps, stored, steps', stored', hrun, hsaves, hrun', hall⟩

end RocketWatcher
