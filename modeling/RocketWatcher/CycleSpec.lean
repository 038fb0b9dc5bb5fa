import RocketWatcher.Decisions
import RocketWatcher.Library.Mealy

/-!
# One cycle, key by key

The launch loop is a keyed machine over the record map (`launchMachine`), so a cycle is
the product of one small run per launch key : `trackKey` runs the launches of one key
against the first record stored under it, and `decideCycle_alerts` and
`mem_updatedRecords` read the alerts and the records of that key off this run. When the
keys of the fetch are distinct the run has at most one launch (`trackKey_cases`,
`cycle_of_launch`). `decisionMachine` feeds each cycle the records the one before returned.
-/

namespace RocketWatcher

/-- The launch is relevant under the cycle's provider and include terms. -/
def CycleInput.Relevant (input : CycleInput) (launch : Launch) : Prop :=
  ∃ result, evaluateRelevance launch input.launchProvider input.includeTerms = .ok result ∧
    result.relevant = true

/-- No two launches of the fetch have the same key. -/
def CycleInput.DistinctKeys (input : CycleInput) : Prop :=
  (input.launches.map Launch.key).Nodup

instance (input : CycleInput) : Decidable input.DistinctKeys :=
  inferInstanceAs (Decidable (List.Nodup _))

/-- The first stored record with key `k` : the one `emplace` keeps. -/
def recordOf (records : List AlertRecord) (k : String) : Option AlertRecord :=
  records.find? fun r => r.key = k

/-- The launch loop as a machine over the record map. -/
def launchMachine (input : CycleInput) : KeyedMachine String Launch AlertRecord Alert where
  key := Launch.key
  outKey alert := alert.launch.key
  step record launch :=
    match evaluateRelevance launch input.launchProvider input.includeTerms with
    | .error _ => none
    | .ok relevance =>
      if relevance.relevant then
        (decideForLaunch launch record relevance.matchedTerms input.policy input.now).alert.map
          fun alert => (updatedRecord record launch alert input.now, alert)
      else none
  outKey_step := by
    intro record launch r alert h
    split at h
    · cases h
    · next relevance _ =>
      split at h
      · obtain ⟨a, ha, heq⟩ := Option.map_eq_some_iff.mp h
        obtain ⟨-, rfl⟩ := Prod.mk.inj heq
        have hd := decides input.policy input.now relevance.matchedTerms launch record
        rw [ha] at hd
        rw [hd.launch_eq]
      · cases h

variable {input : CycleInput} {records : List AlertRecord} {launch : Launch}

/-- A launch that changes its record is relevant and decided for. -/
theorem launchMachine_step_some {record : Option AlertRecord} {r : AlertRecord} {alert : Alert}
    (h : (launchMachine input).step record launch = some (r, alert)) :
    input.Relevant launch ∧ r = updatedRecord record launch alert input.now ∧
      ∃ terms, Decides input.policy input.now terms launch record (some alert) := by
  simp only [launchMachine] at h
  split at h
  · cases h
  · next relevance hrel =>
    split at h
    · next hyes =>
      obtain ⟨a, ha, heq⟩ := Option.map_eq_some_iff.mp h
      obtain ⟨rfl, rfl⟩ := Prod.mk.inj heq
      have hd := decides input.policy input.now relevance.matchedTerms launch record
      rw [ha] at hd
      exact ⟨⟨relevance, hrel, hyes⟩, rfl, relevance.matchedTerms, hd⟩
    · cases h

/-- A relevant launch that leaves its record alone gives no reason for an alert. -/
theorem launchMachine_step_none {record : Option AlertRecord} (hrel : input.Relevant launch)
    (h : (launchMachine input).step record launch = none) :
    Quiet input.policy record launch input.now := by
  obtain ⟨relevance, hrel, hyes⟩ := hrel
  simp only [launchMachine, hrel, hyes, ↓reduceIte, Option.map_eq_none_iff] at h
  have hd := decides input.policy input.now relevance.matchedTerms launch record
  rw [h] at hd
  cases hd with
  | silent quiet => exact quiet

/-- The body of the launch loop is a visit of the machine. -/
theorem decideLaunch_visit {state state' : LoopState}
    (h : decideLaunch input state launch = .ok state') :
    (state'.recordMap, state'.alerts) =
      (launchMachine input).visit (state.recordMap, state.alerts) launch := by
  obtain ⟨relevance, hrel, h⟩ := Except.bind_eq_ok.mp h
  simp only [KeyedMachine.visit, launchMachine, hrel]
  cases hyes : relevance.relevant
  · simp only [hyes, Bool.not_false, ↓reduceIte, Except.pure_eq_ok, Except.ok.injEq] at h
    simp [← h]
  · simp only [hyes, Bool.not_true, Bool.false_eq_true, ↓reduceIte, Except.pure_eq_ok] at h ⊢
    split at h
    · next hnone =>
      simp only [Except.ok.injEq] at h
      simp [hnone, ← h]
    · next alert hsome =>
      simp only [Except.ok.injEq] at h
      simp [hsome, ← h]

/-- The launch loop is the run of the machine. -/
theorem foldlM_decideLaunch {launches : List Launch} {state state' : LoopState}
    (h : launches.foldlM (decideLaunch input) state = .ok state') :
    (state'.recordMap, state'.alerts) =
      launches.foldl (launchMachine input).visit (state.recordMap, state.alerts) := by
  induction launches generalizing state with
  | nil =>
    obtain rfl : state = state' := by simpa using h
    rfl
  | cons launch launches ih =>
    rw [List.foldlM_cons] at h
    obtain ⟨next, hstep, hrest⟩ := Except.bind_eq_ok.mp h
    rw [List.foldl_cons, ih hrest, decideLaunch_visit hstep]

/-- What the loop body does with a relevant launch. -/
theorem decideLaunch_decides {state state' : LoopState}
    (h : decideLaunch input state launch = .ok state') (hrel : input.Relevant launch) :
    ∃ terms alert,
      Decides input.policy input.now terms launch state.recordMap[launch.key]? alert ∧
      state'.alerts = state.alerts ++ alert.toList := by
  have hvisit := decideLaunch_visit h
  cases hs : (launchMachine input).step state.recordMap[launch.key]? launch with
  | none =>
    rw [(launchMachine input).visit_of_none hs] at hvisit
    refine ⟨[], none, .silent (launchMachine_step_none hrel hs), ?_⟩
    simpa using (Prod.mk.inj hvisit).2
  | some step =>
    obtain ⟨r, alert⟩ := step
    rw [(launchMachine input).visit_of_some hs] at hvisit
    obtain ⟨-, -, terms, hd⟩ := launchMachine_step_some hs
    exact ⟨terms, some alert, hd, (Prod.mk.inj hvisit).2⟩

theorem decideLaunches_snoc_eq_ok {before : List Launch} {state : LoopState} :
    decideLaunches input records (before ++ [launch]) = .ok state ↔
      ∃ state₀, decideLaunches input records before = .ok state₀ ∧
        decideLaunch input state₀ launch = .ok state := by
  rw [decideLaunches, List.foldlM_append, Except.bind_eq_ok]
  simp only [List.foldlM_cons, List.foldlM_nil, bind_pure]
  rfl

/-- A loop that ends has got through every initial part of its launches. -/
theorem decideLaunches_of_append {before after : List Launch} {state : LoopState}
    (h : decideLaunches input records (before ++ after) = .ok state) :
    ∃ state₀, decideLaunches input records before = .ok state₀ := by
  rw [decideLaunches, List.foldlM_append] at h
  obtain ⟨state₀, hbefore, -⟩ := Except.bind_eq_ok.mp h
  exact ⟨state₀, hbefore⟩

/-- Every alert was decided for a relevant launch, against the record in force when the
loop reached it. -/
theorem decideLaunches_mem_alerts {launches : List Launch} {state : LoopState}
    (h : decideLaunches input records launches = .ok state) {a : Alert} (ha : a ∈ state.alerts) :
    ∃ before after state₀, launches = before ++ a.launch :: after ∧
      decideLaunches input records before = .ok state₀ ∧ input.Relevant a.launch ∧
      ∃ terms, Decides input.policy input.now terms a.launch state₀.recordMap[a.launch.key]?
        (some a) := by
  induction launches using List.reverseRecOn generalizing state with
  | nil =>
    obtain rfl : _ = state := by simpa [decideLaunches] using h
    cases ha
  | append_singleton launches launch ih =>
    obtain ⟨state₀, h₀, hlaunch⟩ := decideLaunches_snoc_eq_ok.mp h
    have hold (ha : a ∈ state₀.alerts) : ∃ before after state₀,
        launches ++ [launch] = before ++ a.launch :: after ∧
        decideLaunches input records before = .ok state₀ ∧ input.Relevant a.launch ∧
        ∃ terms, Decides input.policy input.now terms a.launch
          state₀.recordMap[a.launch.key]? (some a) := by
      obtain ⟨before, after, state₁, rfl, hrest⟩ := ih h₀ ha
      exact ⟨before, after ++ [launch], state₁, by simp, hrest⟩
    have hvisit := decideLaunch_visit hlaunch
    cases hs : (launchMachine input).step state₀.recordMap[launch.key]? launch with
    | none =>
      rw [(launchMachine input).visit_of_none hs] at hvisit
      exact hold ((Prod.mk.inj hvisit).2 ▸ ha)
    | some step =>
      obtain ⟨r, alert⟩ := step
      rw [(launchMachine input).visit_of_some hs] at hvisit
      rw [(Prod.mk.inj hvisit).2] at ha
      rcases List.mem_append.mp ha with ha | ha
      · exact hold ha
      · obtain rfl := List.mem_singleton.mp ha
        obtain ⟨hrel, -, terms, hd⟩ := launchMachine_step_some hs
        obtain rfl := hd.launch_eq
        exact ⟨launches, [], state₀, rfl, h₀, hrel, terms, hd⟩

/-- The launches of key `k` in `launches`, in order, against the first record with that
key : the record in force after them and the alerts they gave. -/
def trackKey (input : CycleInput) (records : List AlertRecord) (launches : List Launch)
    (k : String) : Option AlertRecord × List Alert :=
  (launchMachine input).track (recordOf records k) (launches.filter fun l => l.key = k)

theorem recordOf_key {k : String} {r : AlertRecord} (h : recordOf records k = some r) :
    r.key = k := by
  simpa using List.find?_some h

@[simp] theorem updatedRecord_lastFacts (record : Option AlertRecord) (launch : Launch)
    (alert : Alert) (now : Int) :
    (updatedRecord record launch alert now).lastFacts = launch.facts := by
  cases record <;> rfl

@[simp] theorem updatedRecord_lastAlertAt (record : Option AlertRecord) (launch : Launch)
    (alert : Alert) (now : Int) : (updatedRecord record launch alert now).lastAlertAt = now := by
  cases record <;> rfl

@[simp] theorem sentKinds_updatedRecord (record : Option AlertRecord) (launch : Launch)
    (alert : Alert) (now : Int) :
    sentKinds (some (updatedRecord record launch alert now)) =
      sentKinds record ++ [alert.kind] := by
  cases record <;> simp [sentKinds, updatedRecord]

theorem updatedRecord_key {record : Option AlertRecord} (alert : Alert) (now : Int)
    (h : ∀ r, record = some r → r.key = launch.key) :
    (updatedRecord record launch alert now).key = launch.key := by
  cases record with
  | none => rfl
  | some r => exact h r rfl

/-- What the tracked run of a key keeps is stored under that key. -/
theorem trackKey_key {launches : List Launch} {k : String} {r : AlertRecord}
    (h : (trackKey input records launches k).1 = some r) : r.key = k := by
  refine (launchMachine input).track_invariant (P := fun v _ => ∀ r, v = some r → r.key = k)
    (fun r => recordOf_key) ?_ r h
  rintro w os l r' a hl hw hstep _ ⟨rfl⟩
  obtain ⟨-, rfl, -⟩ := launchMachine_step_some hstep
  have hlk : l.key = k := by simpa using (List.mem_filter.mp hl).2
  rw [← hlk] at hw ⊢
  exact updatedRecord_key a input.now hw

/-- The loop state after some launches, key by key. -/
theorem decideLaunches_track {launches : List Launch} {state : LoopState}
    (h : decideLaunches input records launches = .ok state) (k : String) :
    state.recordMap[k]? = (trackKey input records launches k).1 ∧
      (state.alerts.filter fun a => a.launch.key = k) = (trackKey input records launches k).2 := by
  have hrun := (launchMachine input).run_project launches (firstByKey AlertRecord.key records, []) k
  rw [← foldlM_decideLaunch h] at hrun
  simp only [KeyedMachine.project, getElem?_firstByKey] at hrun
  exact Prod.mk.inj hrun

variable {d : CycleDecision}

theorem decideCycle_eq_ok (h : decideCycle input records = .ok d) :
    ∃ state, decideLaunches input records input.launches = .ok state ∧ d.alerts = state.alerts ∧
      d.updatedRecords = (valuesOf state.recordMap).filter (retained input) := by
  obtain ⟨state, hstate, hd⟩ := Except.bind_eq_ok.mp h
  obtain rfl := Except.ok.inj hd
  exact ⟨state, hstate, rfl, rfl⟩

/-- The alerts of a decision whose launch has key `k`. -/
def CycleDecision.alertsOf (d : CycleDecision) (k : String) : List Alert :=
  d.alerts.filter fun a => a.launch.key = k

/-- The alerts of a key are those of its own launches. -/
theorem decideCycle_alerts (h : decideCycle input records = .ok d) (k : String) :
    d.alertsOf k = (trackKey input records input.launches k).2 := by
  obtain ⟨state, hs, ha, -⟩ := decideCycle_eq_ok h
  rw [CycleDecision.alertsOf, ha]
  exact (decideLaunches_track hs k).2

/-- They are about some of these launches, in order. -/
theorem decideCycle_launches (h : decideCycle input records = .ok d) (k : String) :
    ((d.alertsOf k).map (·.launch)).Sublist (input.launches.filter fun l => l.key = k) := by
  rw [decideCycle_alerts h]
  have hshown := (launchMachine input).track_outputs_sublist (f := Alert.launch) (g := id)
    (fun record launch r a hstep => ?_) (recordOf records k)
    (input.launches.filter fun l => l.key = k)
  · rwa [List.map_id] at hshown
  · obtain ⟨-, -, terms, hd⟩ := launchMachine_step_some hstep
    exact hd.launch_eq

/-- A record is returned when it is in force for its key and within the retention. -/
theorem mem_updatedRecords (h : decideCycle input records = .ok d) {r : AlertRecord} :
    r ∈ d.updatedRecords ↔ (trackKey input records input.launches r.key).1 = some r ∧
      input.now - r.lastAlertAt ≤ input.policy.retention := by
  obtain ⟨state, hs, -, hr⟩ := decideCycle_eq_ok h
  have hkey : ∀ k (v : AlertRecord), state.recordMap[k]? = some v → v.key = k := fun k _ hv =>
    trackKey_key ((decideLaunches_track hs k).1 ▸ hv)
  rw [hr, List.mem_filter, mem_valuesOf hkey, (decideLaunches_track hs r.key).1]
  simp [retained]

/-- The returned records are strictly increasing by key. -/
theorem keySorted_updatedRecords (h : decideCycle input records = .ok d) :
    KeySorted AlertRecord.key d.updatedRecords := by
  obtain ⟨state, hs, -, hr⟩ := decideCycle_eq_ok h
  rw [hr]
  refine List.Pairwise.filter _ (keySorted_valuesOf fun k v hv => ?_)
  exact trackKey_key ((decideLaunches_track hs k).1 ▸ hv)

/-- The record of a key among the returned ones. -/
theorem recordOf_updatedRecords_eq_some (h : decideCycle input records = .ok d) {k : String}
    {r : AlertRecord} :
    recordOf d.updatedRecords k = some r ↔ r ∈ d.updatedRecords ∧ r.key = k := by
  constructor
  · intro hr
    exact ⟨List.mem_of_find?_eq_some hr, recordOf_key hr⟩
  · rintro ⟨hr, rfl⟩
    cases hfind : recordOf d.updatedRecords r.key with
    | none => simpa using List.find?_eq_none.mp hfind r hr
    | some r' =>
      exact congrArg some ((keySorted_updatedRecords h).eq_of_key_eq
        (List.mem_of_find?_eq_some hfind) hr (recordOf_key hfind))

/-- It is the one in force after the loop, if the retention keeps it. -/
theorem recordOf_updatedRecords (h : decideCycle input records = .ok d) (k : String) :
    recordOf d.updatedRecords k =
      (trackKey input records input.launches k).1.filter (retained input) := by
  ext r
  rw [recordOf_updatedRecords_eq_some h, mem_updatedRecords h, Option.filter_eq_some_iff]
  simp only [retained, decide_eq_true_eq]
  constructor
  · rintro ⟨hr, rfl⟩
    exact hr
  · rintro ⟨hr, hret⟩
    obtain rfl := trackKey_key hr
    exact ⟨⟨hr, hret⟩, rfl⟩

/-- With distinct keys a launch is the only one of its key. -/
theorem CycleInput.DistinctKeys.filter_eq (hdist : input.DistinctKeys)
    (hmem : launch ∈ input.launches) :
    (input.launches.filter fun l => l.key = launch.key) = [launch] :=
  filter_key_eq_singleton hdist hmem

theorem trackKey_launch (hdist : input.DistinctKeys) (hmem : launch ∈ input.launches) :
    trackKey input records input.launches launch.key =
      (launchMachine input).trackItem (recordOf records launch.key, []) launch := by
  rw [trackKey, hdist.filter_eq hmem]
  rfl

/-- With distinct keys the loop reaches a launch with the stored record of its key in force. -/
theorem CycleInput.DistinctKeys.record_eq (hdist : input.DistinctKeys)
    {before after : List Launch} (hsplit : input.launches = before ++ launch :: after)
    {state : LoopState} (hstate : decideLaunches input records before = .ok state) :
    state.recordMap[launch.key]? = recordOf records launch.key := by
  have hfresh : (before.filter fun l => l.key = launch.key) = [] := by
    rw [List.filter_eq_nil_iff]
    intro l hl hkey
    rw [CycleInput.DistinctKeys, hsplit, List.map_append, List.map_cons] at hdist
    exact (List.disjoint_of_nodup_append hdist) (List.mem_map_of_mem hl)
      (by simpa using Or.inl (of_decide_eq_true hkey))
  rw [(decideLaunches_track hstate launch.key).1, trackKey, hfresh, KeyedMachine.track_nil]

/-- With distinct keys a key is left alone, or one relevant launch gives it one alert. -/
theorem trackKey_cases (records : List AlertRecord) (hdist : input.DistinctKeys) (k : String) :
    trackKey input records input.launches k = (recordOf records k, []) ∨
    ∃ launch ∈ input.launches, launch.key = k ∧ input.Relevant launch ∧
      ∃ terms alert,
        Decides input.policy input.now terms launch (recordOf records k) (some alert) ∧
        trackKey input records input.launches k =
          (some (updatedRecord (recordOf records k) launch alert input.now), [alert]) := by
  rcases hk : input.launches.filter fun l => l.key = k with _ | ⟨launch, rest⟩
  · exact Or.inl (by rw [trackKey, hk, KeyedMachine.track_nil])
  obtain ⟨hmem, hkey⟩ := List.mem_filter.mp (hk ▸ List.mem_cons_self : launch ∈ _)
  obtain rfl : launch.key = k := by simpa using hkey
  rw [trackKey_launch hdist hmem, KeyedMachine.trackItem]
  cases hs : (launchMachine input).step (recordOf records launch.key) launch with
  | none => exact Or.inl rfl
  | some step =>
    obtain ⟨r, alert⟩ := step
    obtain ⟨hrel, rfl, terms, hd⟩ := launchMachine_step_some hs
    exact Or.inr ⟨launch, hmem, rfl, hrel, terms, alert, hd, rfl⟩

/-- The record in force once a launch is decided for. -/
def recordAfter (record : Option AlertRecord) (launch : Launch) (alert : Option Alert)
    (now : Int) : Option AlertRecord :=
  match alert with
  | none => record
  | some alert => some (updatedRecord record launch alert now)

/-- A relevant launch with a key of its own is decided for against the first stored record
of its key, and the cycle's alerts and record of that key are those of this decision. -/
theorem cycle_of_launch (h : decideCycle input records = .ok d) (hdist : input.DistinctKeys)
    (hmem : launch ∈ input.launches) (hrel : input.Relevant launch) :
    ∃ terms alert,
      Decides input.policy input.now terms launch (recordOf records launch.key) alert ∧
      d.alertsOf launch.key = alert.toList ∧
      ∀ r, r.key = launch.key → (r ∈ d.updatedRecords ↔
        recordAfter (recordOf records launch.key) launch alert input.now = some r ∧
          input.now - r.lastAlertAt ≤ input.policy.retention) := by
  have halerts := decideCycle_alerts h launch.key
  have hrecords : ∀ r, r.key = launch.key → (r ∈ d.updatedRecords ↔
      (trackKey input records input.launches launch.key).1 = some r ∧
        input.now - r.lastAlertAt ≤ input.policy.retention) := by
    intro r hr
    rw [mem_updatedRecords h, hr]
  rw [trackKey_launch hdist hmem, KeyedMachine.trackItem] at halerts hrecords
  cases hs : (launchMachine input).step (recordOf records launch.key) launch with
  | none =>
    simp only [hs] at halerts hrecords
    exact ⟨[], none, .silent (launchMachine_step_none hrel hs), halerts, hrecords⟩
  | some step =>
    obtain ⟨r, alert⟩ := step
    obtain ⟨-, rfl, terms, hd⟩ := launchMachine_step_some hs
    simp only [hs] at halerts hrecords
    exact ⟨terms, some alert, hd, halerts, hrecords⟩

/-- Without include terms no launch can be evaluated, with them every cycle decides. -/
theorem decideCycle_isOk (records : List AlertRecord) (hterms : input.includeTerms ≠ []) :
    ∃ d, decideCycle input records = .ok d := by
  have hloop : ∀ launches state, ∃ state',
      List.foldlM (decideLaunch input) state launches = .ok state' := by
    intro launches
    induction launches with
    | nil => exact fun state => ⟨state, rfl⟩
    | cons launch launches ih =>
      intro state
      obtain ⟨relevance, hrel⟩ :=
        (evaluateRelevance_isOk_iff launch input.launchProvider input.includeTerms).mpr hterms
      obtain ⟨next, hnext⟩ : ∃ next, decideLaunch input state launch = .ok next := by
        simp only [decideLaunch, hrel, Except.ok_bind, Except.pure_eq_ok]
        split_ifs
        · exact ⟨_, rfl⟩
        · split <;> exact ⟨_, rfl⟩
      obtain ⟨state', h⟩ := ih next
      exact ⟨state', by simpa [List.foldlM_cons, hnext] using h⟩
  obtain ⟨state, hstate⟩ := hloop input.launches ⟨firstByKey AlertRecord.key records, [], []⟩
  refine ⟨⟨state.alerts, (valuesOf state.recordMap).filter (retained input), state.evaluations⟩, ?_⟩
  simp [decideCycle, decideLaunches, hstate]

/-- Cycles in a row : each is given the records the one before returned. -/
def decisionMachine : Mealy (List AlertRecord) CycleInput CycleDecision Exn where
  step records input := (decideCycle input records).map fun d => (d, d.updatedRecords)

/-- One cycle of a run, with the records before and after it. -/
abbrev CycleStep := Mealy.Transition (List AlertRecord) CycleInput CycleDecision

theorem decisionMachine_step {records' : List AlertRecord} :
    decisionMachine.step records input = .ok (d, records') ↔
      decideCycle input records = .ok d ∧ records' = d.updatedRecords := by
  simp only [decisionMachine]
  cases decideCycle input records with
  | error e => simp [Except.map]
  | ok d' =>
    simp only [Except.map, Except.ok.injEq, Prod.mk.injEq]
    constructor
    · rintro ⟨rfl, rfl⟩
      exact ⟨rfl, rfl⟩
    · rintro ⟨rfl, rfl⟩
      exact ⟨rfl, rfl⟩

end RocketWatcher
