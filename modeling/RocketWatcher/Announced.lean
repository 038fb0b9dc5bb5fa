import RocketWatcher.Atomicity
import RocketWatcher.Ledger
import RocketWatcher.Repetition
import RocketWatcher.SkipSave

/-!
# Launches are announced

What at-most-once delivery does not give. A launch that two polls see inside the window of an
alert is announced (`announced`) : with cycles in between that fail, crash or alert for other
launches, one of the cycles of the run has decided and saved an alert that covers the window, and
that cycle has sent it to every recipient unless it was itself cut short.
-/

namespace RocketWatcher

/-- Nothing kept the cycle from notifying, and it did not crash. -/
structure Whole (step : WatcherStep) : Prop where
  free : ¬Blocked step.input.env
  crash : step.input.crashAfter = none

/-- A whole cycle that sees the launch. Its channel may still throw. -/
structure Polled (step : WatcherStep) (fetch : FetchResult) (launch : Launch) : Prop
    extends Whole step where
  fetched : step.input.env.fetch = .ok fetch
  listed : launch ∈ fetch.launches
  distinct : (cycleInput step.input.env step.input.config fetch.launches).DistinctKeys
  relevant : (cycleInput step.input.env step.input.config fetch.launches).Relevant launch

/-- A config as the loader accepts them. -/
structure CycleCall.Configured (call : CycleCall) : Prop where
  terms : call.config.includeTerms ≠ []
  zone : ∃ zone, call.config.displayZone call.env.locateZone = .ok zone

section Cycle

variable {step : WatcherStep} {d : CycleDecision} {messages : List (Alert × Message)}

/-- A cycle that commits and is whole sends all its messages. -/
theorem Committed.sends (hcommitted : Committed step d messages)
    (hstep : watcher.step step.before step.input = .ok (step.output, step.after))
    (hconfigured : step.input.Configured) (hwhole : Whole step)
    (hcollaborators : Collaborators step.input.env) {created : Alert × Message}
    (hcreated : created ∈ messages) {recipient : Recipient}
    (hrecipient : recipient ∈ step.input.config.recipients) :
    .send created.2 recipient.name ∈ step.output := by
  obtain ⟨fetch, hfetch, hplan, -⟩ := hcommitted
  obtain ⟨zone, hzone⟩ := hconfigured.zone
  obtain ⟨outcome, effects, -, htrace, hends⟩ :=
    runCycle_ends hconfigured.terms hzone hcollaborators step.before
  have hdone : step.output = (runCycle step.input.env step.input.config step.before).trace := by
    rw [(watcherWith_step.mp hstep).1, CycleCall.done, hwhole.crash]
    rfl
  have hsent : .send created.2 recipient.name ∈ allSends step.input.config messages :=
    List.mem_flatMap.mpr ⟨created, hcreated, List.mem_map_of_mem hrecipient⟩
  have hin : .send created.2 recipient.name ∈ effects := by
    cases hends with
    | fetchFailed fetch => simp [fetch] at hfetch
    | loadFailed _ load => exact absurd (.inr (.inl (by simp [load]))) hwhole.free
    | dryRun _ _ _ dry => exact absurd (.inr (.inr (.inl dry))) hwhole.free
    | saveFailed _ _ _ _ _ save =>
      exact absurd (.inr (.inr (.inr (by simp [save])))) hwhole.free
    | @unchanged fetch' plan fetched _ planned _ same =>
      obtain rfl := Except.ok.inj (fetched.symm.trans hfetch)
      obtain rfl := Except.ok.inj (planned.symm.trans hplan)
      obtain ⟨-, rfl⟩ := no_messages_of_unchanged planned same
      cases hcreated
    | @saved fetch' plan _ fetched _ planned =>
      obtain rfl := Except.ok.inj (fetched.symm.trans hfetch)
      obtain rfl := Except.ok.inj (planned.symm.trans hplan)
      exact List.mem_cons_of_mem _ hsent
  rw [hdone]
  exact (List.mem_filter.mp (htrace ▸ hin)).1

/-- A whole cycle leaves the decided records, and commits its alerts. -/
theorem Whole.decides (hwhole : Whole step)
    (hstep : watcher.step step.before step.input = .ok (step.output, step.after))
    (hconfigured : step.input.Configured) {fetch : FetchResult}
    (hfetch : step.input.env.fetch = .ok fetch) :
    ∃ d messages, decideCycle (cycleInput step.input.env step.input.config fetch.launches)
        step.before = .ok d ∧
      (∀ k, recordOf step.after k = recordOf d.updatedRecords k) ∧
      (d.alerts ≠ [] → Committed step d messages) := by
  obtain ⟨zone, hzone⟩ := hconfigured.zone
  obtain ⟨⟨d, messages⟩, hplan⟩ := planCycle_isOk hconfigured.terms hzone fetch.launches step.before
  obtain ⟨hload, hdry, hsave⟩ : step.input.env.loadError = none ∧ step.input.env.dryRun = false ∧
      step.input.env.saveAnswer = .saved := by
    simpa [Blocked, hfetch] using hwhole.free
  have hdecide := (planCycle_eq_ok hplan).1
  have hafter := watcherWith_stored hdry hwhole.crash hstep
  simp only [storedAfter, hfetch, hload, hplan, hsave, SaveAnswer.replaced, Bool.and_true] at hafter
  refine ⟨d, messages, hdecide, fun k => ?_, fun halerts => ⟨fetch, hfetch, hplan, ?_⟩⟩
  · cases hchanged : recordsChanged step.before d with
    | true => rw [hafter, hchanged, if_pos rfl]
    | false =>
      rw [hafter, hchanged, if_neg Bool.false_ne_true]
      exact (sameRecords_of_unchanged hdecide hchanged).recordOf_eq k
  · have hchanged : recordsChanged step.before d = true := by simp [recordsChanged, halerts]
    rw [hafter, hchanged, if_pos rfl]

end Cycle

/-! ## Runs -/

/-- A suppressed kind is suppressed by one of the kinds sent. -/
theorem Suppressed.exists_mem {sent : List AlertKind} {kind : AlertKind}
    (h : Suppressed sent kind) : ∃ k ∈ sent, Suppressed [k] kind := by
  cases kind with
  | launchSoon =>
    rcases h with h | h
    · exact ⟨_, h, .inl (by simp)⟩
    · exact ⟨_, h, .inr (by simp)⟩
  | launchImminent | hourPrecision | correction => exact ⟨_, h, List.mem_singleton_self _⟩

/-- A committed alert has its message. -/
theorem Committed.exists_message {step : WatcherStep} {d : CycleDecision}
    {messages : List (Alert × Message)} (h : Committed step d messages) {a : Alert}
    (ha : a ∈ d.alerts) : ∃ created ∈ messages, created.1 = a := by
  obtain ⟨_, -, hplan, -⟩ := h
  rw [← (planCycle_eq_ok hplan).2.1] at ha
  exact List.mem_map.mp ha

/-- The kinds a decision leaves listed are listed before it, or those of its alerts. -/
theorem mem_sentKinds_updatedRecords {input : CycleInput} {records : List AlertRecord}
    {d : CycleDecision} (h : decideCycle input records = .ok d) {k : String} {kind : AlertKind}
    (hkind : kind ∈ sentKinds (recordOf d.updatedRecords k)) :
    kind ∈ sentKinds (recordOf records k) ∨ ∃ a ∈ d.alerts, a.launch.key = k ∧ a.kind = kind := by
  have htracked : kind ∈ sentKinds (trackKey input records input.launches k).1 := by
    rw [recordOf_updatedRecords h] at hkind
    cases hrecord : (trackKey input records input.launches k).1 with
    | none => rwa [hrecord] at hkind
    | some r =>
      rw [hrecord, Option.filter_some] at hkind
      split at hkind
      · exact hkind
      · cases hkind
  rw [(trackKey_kinds input records input.launches k).1, ← decideCycle_alerts h] at htracked
  rcases List.mem_append.mp htracked with hold | hnew
  · exact .inl hold
  · obtain ⟨a, ha, rfl⟩ := List.mem_map.mp hnew
    obtain ⟨hin, hkey⟩ := List.mem_filter.mp ha
    exact .inr ⟨a, hin, by simpa using hkey, rfl⟩

/-- Every kind listed in a stored record was committed in the run. -/
theorem committed_of_sentKinds {steps : List WatcherStep} {stored : List AlertRecord}
    (hrun : watcher.Run [] steps stored) {k : String} {kind : AlertKind}
    (h : kind ∈ sentKinds (recordOf stored k)) : ∃ s ∈ steps, ∃ d messages,
      Committed s d messages ∧ ∃ a ∈ d.alerts, a.launch.key = k ∧ a.kind = kind := by
  revert k kind
  refine hrun.invariant (P := fun steps stored => ∀ {k : String} {kind : AlertKind},
    kind ∈ sentKinds (recordOf stored k) → ∃ s ∈ steps, ∃ d messages, Committed s d messages ∧
      ∃ a ∈ d.alerts, a.launch.key = k ∧ a.kind = kind) (fun h => by cases h) ?_
  intro steps stored call effects stored' _ ih hstep k kind h
  have hold (h : kind ∈ sentKinds (recordOf stored k)) :
      ∃ s ∈ steps ++ [⟨stored, call, effects, stored'⟩], ∃ d messages, Committed s d messages ∧
        ∃ a ∈ d.alerts, a.launch.key = k ∧ a.kind = kind := by
    obtain ⟨s, hs, hcommitted⟩ := ih h
    exact ⟨s, List.mem_append_left _ hs, hcommitted⟩
  rcases cycle_cases hstep with ⟨rfl, -⟩ | ⟨fetch, d, messages, _, hfetch, hplan, -, -, rfl⟩
  · exact hold h
  · rcases mem_sentKinds_updatedRecords (planCycle_eq_ok hplan).1 h with h | halert
    · exact hold h
    · exact ⟨_, List.mem_append_right _ List.mem_cons_self, d, messages,
        ⟨fetch, hfetch, hplan, rfl⟩, halert⟩

/-- A cycle announces the launch : an alert that covers the kind is decided and saved, and sent to
every recipient by a cycle that is whole. -/
def Announces (step : WatcherStep) (k : String) (kind : AlertKind) : Prop :=
  ∃ d messages, Committed step d messages ∧ ∃ created ∈ messages,
    created.1.launch.key = k ∧ Suppressed [created.1.kind] kind ∧
    (Whole step → Collaborators step.input.env → ∀ r ∈ step.input.config.recipients,
      .send created.2 r.name ∈ step.output)

theorem Committed.announces {step : WatcherStep} {d : CycleDecision}
    {messages : List (Alert × Message)} (hcommitted : Committed step d messages)
    (hstep : watcher.step step.before step.input = .ok (step.output, step.after))
    (hconfigured : step.input.Configured) {a : Alert} (ha : a ∈ d.alerts) {kind : AlertKind}
    (hkind : Suppressed [a.kind] kind) : Announces step a.launch.key kind := by
  obtain ⟨created, hcreated, rfl⟩ := hcommitted.exists_message ha
  exact ⟨d, messages, hcommitted, created, hcreated, rfl, hkind, fun hwhole hcollaborators _ =>
    hcommitted.sends hstep hconfigured hwhole hcollaborators hcreated⟩

/-- Two polls that see the launch with the same facts inside the window of a kind, with the same
record in between : one of them announces it, or a cycle before them has. -/
theorem announces_of_polls {before : List WatcherStep} {first second : WatcherStep}
    {fetch₁ fetch₂ : FetchResult} {launch₁ launch₂ : Launch} {kind : AlertKind}
    (hbefore : watcher.Run [] before first.before)
    (hstep₁ : watcher.step first.before first.input = .ok (first.output, first.after))
    (hstep₂ : watcher.step second.before second.input = .ok (second.output, second.after))
    (hrecord : recordOf second.before launch₁.key = recordOf first.after launch₁.key)
    (hconfigured : ∀ s ∈ before ++ [first, second], s.input.Configured)
    (hfirst : Polled first fetch₁ launch₁) (hsecond : Polled second fetch₂ launch₂)
    (hpolicy : second.input.config.policy = first.input.config.policy)
    (hshift : 0 < first.input.config.policy.correctionTimeShift)
    (hret : 0 ≤ first.input.config.policy.retention)
    (hkey : launch₂.key = launch₁.key) (hfacts : launch₂.facts = launch₁.facts)
    (hgo : launch₁.status = .go)
    (hopen₁ : Eligible first.input.config.policy launch₁ first.input.env.now kind)
    (hopen₂ : Eligible second.input.config.policy launch₂ second.input.env.now kind) :
    ∃ s ∈ before ++ [first, second], Announces s launch₁.key kind := by
  have hmem₁ : first ∈ before ++ [first, second] := by simp
  have hmem₂ : second ∈ before ++ [first, second] := by simp
  obtain ⟨d₁, messages₁, hd₁, hafter₁, hcommit₁⟩ :=
    hfirst.toWhole.decides hstep₁ (hconfigured _ hmem₁) hfirst.fetched
  obtain ⟨d₂, messages₂, hd₂, -, hcommit₂⟩ :=
    hsecond.toWhole.decides hstep₂ (hconfigured _ hmem₂) hsecond.fetched
  -- the second poll decides for the launch as on the records of the first
  obtain ⟨d, hd⟩ : ∃ d, decideCycle
      (cycleInput second.input.env second.input.config fetch₂.launches) d₁.updatedRecords = .ok d :=
    decideCycle_isOk _ (hconfigured _ hmem₂).terms
  rw [hafter₁] at hrecord
  rw [hpolicy] at hopen₂
  have hsame : d.alertsOf launch₁.key = d₂.alertsOf launch₁.key :=
    (same_answer hd₂ hd hrecord.symm).1
  rcases suppressed_within_two_cycles hd₁ hd hpolicy hshift hret hfirst.distinct hsecond.distinct
    hfirst.listed hsecond.listed hfirst.relevant hsecond.relevant hkey hfacts hgo hopen₁ hopen₂ with
    hsent | ⟨a, ha, halertKey, hcovers⟩
  · obtain ⟨sent, hsent, hcovers⟩ := hsent.exists_mem
    obtain ⟨s, hs, d', messages, hcommitted, a, ha, halertKey, rfl⟩ :=
      committed_of_sentKinds hbefore hsent
    have hin : s ∈ before ++ [first, second] := List.mem_append_left _ hs
    refine ⟨s, hin, halertKey ▸ ?_⟩
    exact hcommitted.announces (hbefore.step_of_mem hs) (hconfigured s hin) ha hcovers
  · rcases List.mem_append.mp ha with ha | ha
    · refine ⟨first, hmem₁, halertKey ▸ ?_⟩
      exact (hcommit₁ (List.ne_nil_of_mem ha)).announces hstep₁ (hconfigured _ hmem₁) ha hcovers
    · have hmem : a ∈ d.alertsOf launch₁.key := List.mem_filter.mpr ⟨ha, by simp [halertKey]⟩
      rw [hsame] at hmem
      have hin := (List.mem_filter.mp hmem).1
      refine ⟨second, hmem₂, halertKey ▸ ?_⟩
      exact (hcommit₂ (List.ne_nil_of_mem hin)).announces hstep₂ (hconfigured _ hmem₂) hin hcovers

/-- A launch that two polls of a run see inside the window of a kind is announced, if nothing
changes its record in between. The polls have the facts of the launch in common, the cycles
between them may fail or crash. -/
theorem announced {before mid : List WatcherStep} {first second : WatcherStep}
    {stored : List AlertRecord} {fetch₁ fetch₂ : FetchResult} {launch₁ launch₂ : Launch}
    {kind : AlertKind} (hrun : watcher.Run [] (before ++ first :: mid ++ [second]) stored)
    (hconfigured : ∀ s ∈ before ++ first :: mid ++ [second], s.input.Configured)
    (hfirst : Polled first fetch₁ launch₁) (hsecond : Polled second fetch₂ launch₂)
    (hpolicy : second.input.config.policy = first.input.config.policy)
    (hshift : 0 < first.input.config.policy.correctionTimeShift)
    (hret : 0 ≤ first.input.config.policy.retention)
    (hmid : ∀ s ∈ mid, recordOf s.after launch₁.key = recordOf s.before launch₁.key)
    (hkey : launch₂.key = launch₁.key) (hfacts : launch₂.facts = launch₁.facts)
    (hgo : launch₁.status = .go)
    (hopen₁ : Eligible first.input.config.policy launch₁ first.input.env.now kind)
    (hopen₂ : Eligible second.input.config.policy launch₂ second.input.env.now kind) :
    ∃ s ∈ before ++ first :: mid ++ [second], Announces s launch₁.key kind := by
  obtain ⟨hpart, hstep₂, -⟩ := hrun.of_snoc
  obtain ⟨m, hbefore, hrest⟩ := hpart.of_append
  obtain ⟨rfl, hstep₁, hbetween⟩ := hrest.of_cons
  have hsub : ∀ s ∈ before ++ [first, second], s ∈ before ++ first :: mid ++ [second] := by
    intro s hs
    simp only [List.mem_append, List.mem_cons, List.not_mem_nil, or_false] at hs ⊢
    tauto
  obtain ⟨s, hs, hannounces⟩ := announces_of_polls hbefore hstep₁ hstep₂
    (hbetween.kept (f := fun records => recordOf records launch₁.key) hmid)
    (fun s hs => hconfigured s (hsub s hs)) hfirst hsecond hpolicy hshift hret hkey hfacts hgo
    hopen₁ hopen₂
  exact ⟨s, hsub s hs, hannounces⟩

/-- The second of three polls cannot reach the source. -/
def unreachableSource : CycleCall :=
  { testCall [] (kNow + 300) with
    env := { (testCall [] (kNow + 300)).env with fetch := .error (.sourceError "HTTP 503") } }

theorem polled_makeLaunch {step : WatcherStep} {now : Int}
    (h : step.input = testCall [makeLaunch] now) : Polled step ⟨[makeLaunch], []⟩ makeLaunch := by
  obtain ⟨stored, _, effects, stored'⟩ := step
  obtain rfl := h
  have hdistinct : (testCycle [makeLaunch] kNow).DistinctKeys := by decide
  have hrelevant : (testCycle [makeLaunch] kNow).Relevant makeLaunch := ⟨_, rfl, rfl⟩
  exact
    { free := by simp [Blocked, testCall]
      crash := rfl
      fetched := rfl
      listed := List.mem_cons_self
      distinct := hdistinct
      relevant := hrelevant }

theorem announced_makeLaunch : ∃ first mid second stored,
    watcher.exec [] [testCall [makeLaunch] kNow, unreachableSource,
        testCall [makeLaunch] (kNow + 600)] = .ok ([first, mid, second], stored) ∧
      ∃ s ∈ [first, mid, second], Announces s makeLaunch.key .launchSoon := by
  obtain ⟨first, mid, second, stored, hexec, hfirst, hmid, hkept, hsecond⟩ :
      ∃ first mid second stored, watcher.exec [] [testCall [makeLaunch] kNow, unreachableSource,
          testCall [makeLaunch] (kNow + 600)] = .ok ([first, mid, second], stored) ∧
        first.input = testCall [makeLaunch] kNow ∧ mid.input = unreachableSource ∧
        mid.after = mid.before ∧ second.input = testCall [makeLaunch] (kNow + 600) :=
    ⟨_, _, _, _, rfl, rfl, rfl, rfl, rfl⟩
  have hconfigured : ∀ s ∈ [first, mid, second], s.input.Configured := by
    simp only [List.forall_mem_cons, hfirst, hmid, hsecond]
    exact ⟨⟨List.cons_ne_nil _ _, _, rfl⟩, ⟨List.cons_ne_nil _ _, _, rfl⟩,
      ⟨List.cons_ne_nil _ _, _, rfl⟩, by simp⟩
  have hrun : watcher.Run [] ([] ++ first :: [mid] ++ [second]) stored := Mealy.Run.of_exec hexec
  refine ⟨first, mid, second, stored, hexec, announced hrun hconfigured (polled_makeLaunch hfirst)
    (polled_makeLaunch hsecond) ?_ ?_ ?_ ?_ rfl rfl rfl ?_ ?_⟩
  · rw [hfirst, hsecond]
    rfl
  · rw [hfirst]
    decide
  · rw [hfirst]
    decide
  · intro s hs
    obtain rfl := List.mem_singleton.mp hs
    rw [hkept]
  · rw [hfirst]
    exact ⟨rfl, _, rfl, by decide, by decide⟩
  · rw [hsecond]
    exact ⟨rfl, _, rfl, by decide, by decide⟩

end RocketWatcher
