import RocketWatcher.CycleSpec
import RocketWatcher.LoadConfig

/-!
# Duplicate countdown alerts

A launch that is reported go, precise and with a fixed launch time gets each countdown alert
once, as long as its record remembers the alert. The retention drops a record by the age of
its last alert, whether or not the launch is still ahead, and a launch without a record is a
new one. So the retention has to outlast the part of a countdown window in which the alert
could be created again (`RetentionCovers`). The loader does not check it
(`retention_can_be_too_short`), and an accepted config avoids duplicates exactly when it holds
(`countdownsOnce_iff`).
-/

namespace RocketWatcher

/-- The facts of the launch in every cycle. -/
def steadyFacts (time : Int) : LaunchFacts :=
  ⟨some time, .precise, .go⟩

/-- The cycles run under `config` at non-decreasing times, a relevant launch of key `key` is
reported in each of them, and always with the same facts. -/
structure ReportedUnchanged (config : Config) (key : String) (time : Int)
    (steps : List CycleStep) : Prop where
  policy : ∀ s ∈ steps, s.input.policy = config.policy
  provider : ∀ s ∈ steps, s.input.launchProvider = config.launchProvider
  terms : ∀ s ∈ steps, s.input.includeTerms = config.includeTerms
  nondecreasing : (steps.map (·.input.now)).Pairwise (· ≤ ·)
  reported : ∀ s ∈ steps, ∃ launch ∈ s.input.launches, launch.key = key ∧ s.input.Relevant launch
  unchanged : ∀ s ∈ steps, ∀ launch ∈ s.input.launches, launch.key = key →
    s.input.Relevant launch → launch.facts = steadyFacts time

/-- How many alerts of a kind the run created for a key. -/
def created (steps : List CycleStep) (key : String) (kind : AlertKind) : Nat :=
  (steps.flatMap fun s => s.output.alertsOf key).countP fun a => a.kind = kind

/-- Over every run, at most one alert of each countdown kind for a launch that does not change. -/
def CountdownsOnce (config : Config) : Prop :=
  ∀ steps records key time, decisionMachine.Run [] steps records →
    ReportedUnchanged config key time steps →
      created steps key .launchSoon ≤ 1 ∧ created steps key .launchImminent ≤ 1

/-- How long before launch a countdown kind can first be created. -/
def countdownOpens (policy : AlertPolicy) : AlertKind → Int
  | .launchSoon => min policy.launchSoon policy.scheduleLookahead
  | _ => min policy.launchImminent policy.scheduleLookahead

/-- The retention outlasts the imminent window, and the part of the soon window in which the
launch is not yet imminent. -/
structure RetentionCovers (policy : AlertPolicy) : Prop where
  imminent : countdownOpens policy .launchImminent ≤ policy.retention
  soon : countdownOpens policy .launchSoon ≤
    policy.retention + countdownOpens policy .launchImminent

/-- The time at which a countdown kind can be created for the launch. -/
structure CreatedAt (policy : AlertPolicy) (time now : Int) (kind : AlertKind) : Prop where
  countdown : kind = .launchSoon ∨ kind = .launchImminent
  opened : time - now ≤ countdownOpens policy kind
  ahead : 0 ≤ time - now
  urgent : kind = .launchSoon → countdownOpens policy .launchImminent < time - now

/-- From `now` on the kind is not created any more. -/
def ClosedFrom (policy : AlertPolicy) (time now : Int) (kind : AlertKind) : Prop :=
  ∀ later, now ≤ later → ¬CreatedAt policy time later kind

variable {policy : AlertPolicy} {time now : Int} {kind : AlertKind} {launch : Launch}
  {terms : List String}

/-- The one thing a cycle can do about an unchanged launch. -/
theorem Decides.of_steady {record : Option AlertRecord} {alert : Alert}
    (hshift : 0 < policy.correctionTimeShift) (hlaunch : launch.facts = steadyFacts time)
    (hfacts : ∀ r, record = some r → r.lastFacts = steadyFacts time)
    (h : Decides policy now terms launch record (some alert)) :
    CreatedAt policy time now alert.kind ∧ ¬Suppressed (sentKinds record) alert.kind := by
  obtain ⟨htime, hprecision, hstatus⟩ := LaunchFacts.mk.inj hlaunch
  cases h with
  | noGo status => simp [hstatus] at status
  | timingNowImprecise _ _ after => simp [hprecision, TimingPrecision.isTimed] at after
  | timeChanged _ _ shifted =>
    obtain ⟨before, after, hbefore, hafter, hle⟩ := shifted
    rw [hfacts _ rfl, steadyFacts, Option.some.injEq] at hbefore
    rw [htime, Option.some.injEq] at hafter
    subst hbefore hafter
    rw [sub_self, abs_zero] at hle
    omega
  | @countdown _ kind _ _ eligible unsent urgent =>
    refine ⟨?_, unsent⟩
    cases kind with
    | correction => exact eligible.elim
    | hourPrecision => simp [Eligible, hprecision] at eligible
    | launchImminent =>
      obtain ⟨-, t, ht, hpast, hwindow⟩ := eligible
      obtain rfl : time = t := by simpa [htime] using ht
      exact ⟨Or.inr rfl, hwindow, hpast, fun hsoon => by simp [makeCountdown] at hsoon⟩
    | launchSoon =>
      obtain ⟨-, t, ht, hpast, hwindow⟩ := eligible
      obtain rfl : time = t := by simpa [htime] using ht
      refine ⟨Or.inl rfl, hwindow, hpast, fun _ => ?_⟩
      by_contra hnot
      exact urgent rfl ⟨hprecision, time, htime, hpast, not_lt.mp hnot⟩

/-- A kind that is sent is suppressed, or its time is over; there is at most one of it. -/
structure OnceSoFar (policy : AlertPolicy) (time now : Int) (kind : AlertKind)
    (record : Option AlertRecord) (count : Nat) : Prop where
  facts : ∀ r, record = some r → r.lastFacts = steadyFacts time
  count_le : count ≤ 1
  noted : 0 < count → ClosedFrom policy time now kind ∨ ∃ r, record = some r ∧
    Suppressed (sentKinds record) kind ∧ time - countdownOpens policy kind ≤ r.lastAlertAt

/-- The kind is created while it is noted that it was not : the step of the invariant. -/
theorem OnceSoFar.alert {record : Option AlertRecord} {alert : Alert} {count : Nat}
    (hsoon : policy.launchImminent < policy.launchSoon) (hshift : 0 < policy.correctionTimeShift)
    (hkind : kind = .launchSoon ∨ kind = .launchImminent)
    (h : OnceSoFar policy time now kind record count) (hlaunch : launch.facts = steadyFacts time)
    (hd : Decides policy now terms launch record (some alert)) :
    OnceSoFar policy time now kind (some (updatedRecord record launch alert now))
      (count + if alert.kind = kind then 1 else 0) := by
  obtain ⟨hcreated, hunsent⟩ := hd.of_steady hshift hlaunch h.facts
  have hfacts : ∀ r, some (updatedRecord record launch alert now) = some r →
      r.lastFacts = steadyFacts time := by
    rintro _ ⟨rfl⟩
    rw [updatedRecord_lastFacts, hlaunch]
  by_cases hsame : alert.kind = kind
  · have hzero : count = 0 := by
      by_contra hpos
      rcases h.noted (by omega) with hclosed | ⟨r, -, hsent, -⟩
      · exact hclosed now le_rfl (hsame ▸ hcreated)
      · exact hunsent (hsame ▸ hsent)
    refine ⟨hfacts, by simp [hsame, hzero], fun _ => Or.inr ⟨_, rfl, ?_, ?_⟩⟩
    · rw [sentKinds_updatedRecord]
      exact Suppressed.of_mem (by simp [hsame])
    · rw [updatedRecord_lastAlertAt]
      have := hcreated.opened
      rw [hsame] at this
      omega
  · refine ⟨hfacts, by simpa [hsame] using h.count_le, fun hpos => ?_⟩
    simp only [hsame, ↓reduceIte] at hpos
    rcases h.noted hpos with hclosed | ⟨r, hr, hsent, hage⟩
    · exact Or.inl hclosed
    · refine Or.inr ⟨_, rfl, ?_, ?_⟩
      · rw [sentKinds_updatedRecord]
        exact hsent.mono (List.subset_append_left _ _)
      · rw [updatedRecord_lastAlertAt]
        -- the other kind is the imminent one : after it no launch-soon alert is sent
        rcases hkind with rfl | rfl
        · have himminent : alert.kind = .launchImminent := by
            simpa [hsame] using hcreated.countdown
          have := hcreated.opened
          rw [himminent] at this
          simp only [countdownOpens] at this ⊢
          omega
        · have : alert.kind = .launchSoon := by simpa [hsame] using hcreated.countdown
          rw [this] at hunsent
          exact absurd (Or.inr hsent) hunsent

/-- A record that is dropped has outlived the window. -/
theorem OnceSoFar.retain {record : Option AlertRecord} {count : Nat} {input : CycleInput}
    (hcovers : RetentionCovers input.policy)
    (hkind : kind = .launchSoon ∨ kind = .launchImminent)
    (h : OnceSoFar input.policy time input.now kind record count) :
    OnceSoFar input.policy time input.now kind (record.filter (retained input)) count := by
  refine ⟨fun r hr => h.facts r (Option.eq_some_of_filter_eq_some hr), h.count_le, fun hpos => ?_⟩
  rcases h.noted hpos with hclosed | ⟨r, rfl, hsent, hage⟩
  · exact Or.inl hclosed
  by_cases hkept : retained input r = true
  · have hsame : (some r).filter (retained input) = some r := by simp [hkept]
    exact Or.inr ⟨r, hsame, by rw [hsame]; exact hsent, hage⟩
  · left
    simp only [retained, decide_eq_true_eq, not_le] at hkept
    rintro later hlater hcreated
    rcases hkind with rfl | rfl
    · have hurgent := hcreated.urgent rfl
      have hsoon := hcovers.soon
      omega
    · have hahead := hcreated.ahead
      have himminent := hcovers.imminent
      omega

theorem OnceSoFar.later {record : Option AlertRecord} {count : Nat} {now' : Int}
    (h : OnceSoFar policy time now kind record count) (hle : now ≤ now') :
    OnceSoFar policy time now' kind record count :=
  ⟨h.facts, h.count_le, fun hpos =>
    (h.noted hpos).imp_left fun hclosed later hlater => hclosed later (hle.trans hlater)⟩

/-- One cycle. -/
theorem OnceSoFar.cycle {input : CycleInput} {records : List AlertRecord} {d : CycleDecision}
    {key : String} {count : Nat} (h : decideCycle input records = .ok d)
    (hordered : input.policy.Ordered) (hcovers : RetentionCovers input.policy)
    (hkind : kind = .launchSoon ∨ kind = .launchImminent)
    (hunchanged : ∀ launch ∈ input.launches, launch.key = key → input.Relevant launch →
      launch.facts = steadyFacts time)
    (hbefore : OnceSoFar input.policy time input.now kind (recordOf records key) count) :
    OnceSoFar input.policy time input.now kind (recordOf d.updatedRecords key)
      (count + (d.alertsOf key).countP fun a => a.kind = kind) := by
  rw [recordOf_updatedRecords h, decideCycle_alerts h]
  refine OnceSoFar.retain hcovers hkind ?_
  refine (launchMachine input).track_invariant
    (P := fun record alerts => OnceSoFar input.policy time input.now kind record
      (count + alerts.countP fun a => a.kind = kind)) (by simpa using hbefore) ?_
  intro record alerts launch r alert hlaunch hsofar hstep
  obtain ⟨hrel, rfl, terms, hd⟩ := launchMachine_step_some hstep
  obtain ⟨hmem, hkey⟩ := List.mem_filter.mp hlaunch
  have hsteady := hunchanged launch hmem (by simpa using hkey) hrel
  have hnext := hsofar.alert hordered.launchSoon hordered.correctionTimeShift hkind hsteady hd
  rw [List.countP_append, List.countP_singleton, ← Nat.add_assoc]
  simpa using hnext

theorem ReportedUnchanged.of_append {config : Config} {key : String} {steps : List CycleStep}
    {s : CycleStep} (h : ReportedUnchanged config key time (steps ++ [s])) :
    ReportedUnchanged config key time steps where
  policy := fun u hu => h.policy u (List.mem_append_left _ hu)
  provider := fun u hu => h.provider u (List.mem_append_left _ hu)
  terms := fun u hu => h.terms u (List.mem_append_left _ hu)
  nondecreasing := by
    have := h.nondecreasing
    rw [List.map_append] at this
    exact (List.pairwise_append.mp this).1
  reported := fun u hu => h.reported u (List.mem_append_left _ hu)
  unchanged := fun u hu => h.unchanged u (List.mem_append_left _ hu)

theorem exists_now_ge (steps : List CycleStep) : ∃ now, ∀ s ∈ steps, s.input.now ≤ now := by
  induction steps with
  | nil => exact ⟨0, nofun⟩
  | cons s steps ih =>
    obtain ⟨now, hnow⟩ := ih
    refine ⟨max s.input.now now, fun u hu => ?_⟩
    rcases List.mem_cons.mp hu with rfl | hu
    · exact le_max_left _ _
    · exact (hnow u hu).trans (le_max_right _ _)

/-- Every run. -/
theorem onceSoFar_of_run {config : Config} {key : String} {steps : List CycleStep}
    {records : List AlertRecord} (hordered : config.policy.Ordered)
    (hcovers : RetentionCovers config.policy)
    (hkind : kind = .launchSoon ∨ kind = .launchImminent)
    (hrun : decisionMachine.Run [] steps records)
    (h : ReportedUnchanged config key time steps) :
    ∀ now, (∀ s ∈ steps, s.input.now ≤ now) →
      OnceSoFar config.policy time now kind (recordOf records key) (created steps key kind) := by
  refine hrun.invariant (P := fun steps records => ReportedUnchanged config key time steps →
    ∀ now, (∀ s ∈ steps, s.input.now ≤ now) →
      OnceSoFar config.policy time now kind (recordOf records key) (created steps key kind))
    ?_ ?_ h
  · intro _ now _
    exact ⟨by simp [recordOf], by simp [created], by simp [created]⟩
  · intro steps records input d records' _ ih hstep h now hnow
    obtain ⟨hcycle, rfl⟩ := decisionMachine_step.mp hstep
    have hlast : (⟨records, input, d, d.updatedRecords⟩ : CycleStep) ∈
        steps ++ [⟨records, input, d, d.updatedRecords⟩] := by simp
    have hpolicy : input.policy = config.policy := h.policy _ hlast
    have hearlier : ∀ s ∈ steps, s.input.now ≤ input.now := by
      have := h.nondecreasing
      rw [List.map_append, List.pairwise_append] at this
      intro s hs
      exact this.2.2 _ (List.mem_map_of_mem hs) _ (by simp)
    have hbefore := ih h.of_append input.now hearlier
    rw [← hpolicy] at hbefore hordered hcovers ⊢
    have hafter := hbefore.cycle hcycle hordered hcovers hkind (h.unchanged _ hlast)
    have hcount : created (steps ++ [⟨records, input, d, d.updatedRecords⟩]) key kind =
        created steps key kind + (d.alertsOf key).countP fun a => a.kind = kind := by
      simp [created]
    rw [hcount]
    exact hafter.later (hnow _ hlast)

/-! ## A retention that is too short -/

/-- A launch that is relevant under the config. -/
def steadyLaunch (config : Config) (time : Int) : Launch :=
  { makeLaunch with
    name := config.includeTerms.headD ""
    provider := config.launchProvider
    launchTime := some time }

/-- A cycle that reports just that launch. -/
def steadyCycle (config : Config) (time now : Int) : CycleInput :=
  ⟨[steadyLaunch config time], config.policy, config.launchProvider, config.includeTerms, now⟩

variable {config : Config}

theorem relevant_steadyLaunch (hterms : config.includeTerms ≠ [])
    (hterm : ∀ term ∈ config.includeTerms, term ≠ "") (time now : Int) :
    (steadyCycle config time now).Relevant (steadyLaunch config time) := by
  obtain ⟨term, rest, hsplit⟩ := List.exists_cons_of_ne_nil hterms
  have hname : (steadyLaunch config time).name = term := by simp [steadyLaunch, hsplit]
  have hfield : term ∈ (steadyLaunch config time).searchableFields := by
    have hne : term.isEmpty = false := by
      simpa using hterm term (by simp [hsplit])
    simp [Launch.searchableFields, hname, hne]
  have hterm : term ∈ (steadyCycle config time now).includeTerms := by simp [steadyCycle, hsplit]
  exact evaluateRelevance_of_match rfl hterm hfield (by simp [containsText])

/-- The cycle decides for the launch and returns its record if the retention keeps it. -/
theorem steadyCycle_decides (hterms : config.includeTerms ≠ [])
    (hterm : ∀ term ∈ config.includeTerms, term ≠ "") (time now : Int)
    (records : List AlertRecord) :
    ∃ d terms alert, decideCycle (steadyCycle config time now) records = .ok d ∧
      Decides config.policy now terms (steadyLaunch config time)
        (recordOf records (steadyLaunch config time).key) alert ∧
      d.alertsOf (steadyLaunch config time).key = alert.toList ∧
      recordOf d.updatedRecords (steadyLaunch config time).key =
        (recordAfter (recordOf records (steadyLaunch config time).key) (steadyLaunch config time)
          alert now).filter (retained (steadyCycle config time now)) := by
  obtain ⟨d, hd⟩ : ∃ d, decideCycle (steadyCycle config time now) records = .ok d :=
    decideCycle_isOk records hterms
  have hdist : (steadyCycle config time now).DistinctKeys := List.nodup_singleton _
  obtain ⟨terms, alert, hdecides, halerts, hrecords⟩ :=
    cycle_of_launch hd hdist List.mem_cons_self (relevant_steadyLaunch hterms hterm time now)
  refine ⟨d, terms, alert, hd, hdecides, halerts, ?_⟩
  ext r
  rw [recordOf_updatedRecords_eq_some hd, Option.filter_eq_some_iff]
  simp only [retained, decide_eq_true_eq]
  constructor
  · rintro ⟨hr, hkey⟩
    exact (hrecords r hkey).mp hr
  · intro hr
    have hkey : r.key = (steadyLaunch config time).key := by
      cases alert with
      | none => exact recordOf_key hr.1
      | some alert =>
        obtain rfl := Option.some.inj hr.1
        exact updatedRecord_key alert now fun r hr => recordOf_key hr
    exact ⟨(hrecords r hkey).mpr hr, hkey⟩

/-- While a countdown kind can be created, a launch without a record gets it. -/
theorem Decides.of_created {alert : Option Alert} (hkind : CreatedAt policy time now kind)
    (hlaunch : launch.facts = steadyFacts time)
    (h : Decides policy now terms launch none alert) :
    alert = some (makeCountdown launch kind terms now) := by
  obtain ⟨htime, hprecision, hstatus⟩ := LaunchFacts.mk.inj hlaunch
  have heligible : Eligible policy launch now kind := by
    have := hkind.opened
    rcases hkind.countdown with rfl | rfl
    all_goals exact ⟨hprecision, time, htime, hkind.ahead, this⟩
  cases h with
  | silent quiet =>
    have hsent := quiet.countdown hstatus kind heligible
    rcases hkind.countdown with rfl | rfl <;> simp [Suppressed, sentKinds] at hsent
  | @countdown _ kind' _ _ eligible _ urgent =>
    have : kind' = kind := by
      cases kind' with
      | correction => exact eligible.elim
      | hourPrecision => simp [Eligible, hprecision] at eligible
      | launchImminent =>
        rcases hkind.countdown with rfl | rfl
        · obtain ⟨-, t, ht, -, hwindow⟩ := eligible
          obtain rfl : time = t := by simpa [htime] using ht
          exact absurd hwindow (not_le.mpr (hkind.urgent rfl))
        · rfl
      | launchSoon =>
        rcases hkind.countdown with rfl | rfl
        · rfl
        · exact absurd heligible (urgent rfl)
    rw [this]

/-- And one whose record lists it gets no alert. -/
theorem Decides.of_created_again {alert : Option Alert} {r : AlertRecord}
    (hshift : 0 < policy.correctionTimeShift) (hkind : CreatedAt policy time now kind)
    (hlaunch : launch.facts = steadyFacts time) (hfacts : r.lastFacts = steadyFacts time)
    (hsent : kind ∈ sentKinds (some r)) (h : Decides policy now terms launch (some r) alert) :
    alert = none := by
  cases alert with
  | none => rfl
  | some alert =>
    exfalso
    obtain ⟨hcreated, hunsent⟩ := h.of_steady hshift hlaunch (by rintro _ ⟨rfl⟩; exact hfacts)
    rcases hcreated.countdown with hsoon | himminent
    · rw [hsoon] at hunsent hcreated
      rcases hkind.countdown with rfl | rfl
      · exact hunsent (Suppressed.of_mem hsent)
      · exact hunsent (Or.inr hsent)
    · rw [himminent] at hunsent hcreated
      rcases hkind.countdown with rfl | rfl
      · exact absurd hcreated.opened (not_le.mpr (hkind.urgent rfl))
      · exact hunsent (Suppressed.of_mem hsent)

/-- Created once, dropped, created again : a run of three cycles. -/
theorem created_twice (hterms : config.includeTerms ≠ [])
    (hterm : ∀ term ∈ config.includeTerms, term ≠ "")
    (hshift : 0 < config.policy.correctionTimeShift) (hretention : 0 < config.policy.retention)
    {first : Int} (hfirst : CreatedAt config.policy time first kind)
    (hagain : CreatedAt config.policy time (first + config.policy.retention + 1) kind) :
    ∃ steps records, decisionMachine.Run [] steps records ∧
      ReportedUnchanged config (steadyLaunch config time).key time steps ∧
      2 ≤ created steps (steadyLaunch config time).key kind := by
  have hfacts : (steadyLaunch config time).facts = steadyFacts time := rfl
  obtain ⟨d₁, terms₁, alert₁, hd₁, hdec₁, halerts₁, hrecord₁⟩ :=
    steadyCycle_decides hterms hterm time first []
  obtain rfl := hdec₁.of_created hfirst hfacts
  -- the record of the first cycle is in force in the second, and too old at its end
  obtain ⟨d₂, terms₂, alert₂, hd₂, hdec₂, halerts₂, hrecord₂⟩ :=
    steadyCycle_decides hterms hterm time (first + config.policy.retention + 1) d₁.updatedRecords
  have hkept : recordOf d₁.updatedRecords (steadyLaunch config time).key =
      some (updatedRecord none (steadyLaunch config time)
        (makeCountdown (steadyLaunch config time) kind terms₁ first) first) := by
    rw [hrecord₁, Option.filter_eq_some_iff]
    refine ⟨rfl, ?_⟩
    simp [retained, steadyCycle, hretention.le]
  rw [hkept] at hdec₂ hrecord₂
  obtain rfl := hdec₂.of_created_again hshift hagain hfacts rfl (by simp [makeCountdown])
  have hdropped : recordOf d₂.updatedRecords (steadyLaunch config time).key = none := by
    rw [hrecord₂, Option.filter_eq_none_iff]
    rintro r ⟨rfl⟩
    simp only [retained, steadyCycle, updatedRecord_lastAlertAt, decide_eq_true_eq]
    omega
  obtain ⟨d₃, terms₃, alert₃, hd₃, hdec₃, halerts₃, -⟩ :=
    steadyCycle_decides hterms hterm time (first + config.policy.retention + 1) d₂.updatedRecords
  rw [hdropped] at hdec₃
  obtain rfl := hdec₃.of_created hagain hfacts
  have hrun := ((Mealy.Run.nil.snoc (decisionMachine_step.mpr ⟨hd₁, rfl⟩)).snoc
    (decisionMachine_step.mpr ⟨hd₂, rfl⟩)).snoc (decisionMachine_step.mpr ⟨hd₃, rfl⟩)
  refine ⟨_, _, hrun, ?_, ?_⟩
  · refine ⟨?_, ?_, ?_, ?_, ?_, ?_⟩
    all_goals simp only [List.nil_append, List.cons_append, List.forall_mem_cons, List.map_cons,
      List.map_nil, List.pairwise_cons, List.not_mem_nil, false_imp_iff, implies_true, and_true]
    · exact ⟨rfl, rfl, rfl⟩
    · exact ⟨rfl, rfl, rfl⟩
    · exact ⟨rfl, rfl, rfl⟩
    · simp only [steadyCycle, List.Pairwise.nil, and_true]
      omega
    · exact ⟨⟨_, List.mem_cons_self, rfl, relevant_steadyLaunch hterms hterm time _⟩,
        ⟨_, List.mem_cons_self, rfl, relevant_steadyLaunch hterms hterm time _⟩,
        ⟨_, List.mem_cons_self, rfl, relevant_steadyLaunch hterms hterm time _⟩⟩
    · simp [steadyCycle, hfacts]
  · simp [created, halerts₁, halerts₂, halerts₃, makeCountdown]

variable {locateZone : String → Except Exn TimeZone} {path : String} {data : TomlTable}

/-- Without duplicates the retention covers the windows : a kind could be created again when its
record is dropped, if its window were still open. -/
theorem CountdownsOnce.retentionCovers (honce : CountdownsOnce config)
    (hordered : config.policy.Ordered) (hterms : config.includeTerms ≠ [])
    (hterm : ∀ term ∈ config.includeTerms, term ≠ "") : RetentionCovers config.policy := by
  have htwice (kind : AlertKind) (first : Int) (hfirst : CreatedAt config.policy 0 first kind)
      (hagain : CreatedAt config.policy 0 (first + config.policy.retention + 1) kind) :
      ∃ steps records key time, decisionMachine.Run [] steps records ∧
        ReportedUnchanged config key time steps ∧ 2 ≤ created steps key kind := by
    obtain ⟨steps, records, h⟩ := created_twice hterms hterm hordered.correctionTimeShift
      hordered.retention hfirst hagain
    exact ⟨steps, records, _, _, h⟩
  obtain ⟨himminent, hsoon, -, hlookahead, hretention⟩ := hordered
  refine ⟨?_, ?_⟩
  · by_contra hshort
    obtain ⟨steps, records, key, time, hrun, hunchanged, hcreated⟩ :=
      htwice .launchImminent (-countdownOpens config.policy .launchImminent)
        ⟨Or.inr rfl, by omega, by simp only [countdownOpens]; omega, nofun⟩
        ⟨Or.inr rfl, by omega, by omega, nofun⟩
    have := (honce steps records key time hrun hunchanged).2
    omega
  · by_contra hshort
    -- all durations are multiples of a minute
    have hminute : countdownOpens config.policy .launchImminent + 1 <
        countdownOpens config.policy .launchSoon - config.policy.retention := by
      simp only [countdownOpens, Config.policy] at hshort ⊢
      omega
    have hpositive : 0 < countdownOpens config.policy .launchImminent := by
      simp only [countdownOpens]
      omega
    obtain ⟨steps, records, key, time, hrun, hunchanged, hcreated⟩ :=
      htwice .launchSoon (-countdownOpens config.policy .launchSoon)
        ⟨Or.inl rfl, by omega, by omega, fun _ => by omega⟩
        ⟨Or.inl rfl, by omega, by omega, fun _ => by omega⟩
    have := (honce steps records key time hrun hunchanged).1
    omega

/-- A retention that covers the windows leaves no duplicates. -/
theorem RetentionCovers.countdownsOnce (hcovers : RetentionCovers config.policy)
    (hordered : config.policy.Ordered) : CountdownsOnce config := by
  intro steps records key time hrun hunchanged
  obtain ⟨now, hnow⟩ := exists_now_ge steps
  exact ⟨(onceSoFar_of_run hordered hcovers (Or.inl rfl) hrun hunchanged now hnow).count_le,
    (onceSoFar_of_run hordered hcovers (Or.inr rfl) hrun hunchanged now hnow).count_le⟩

/-- Under an accepted config an unchanged launch gets each countdown alert at most once, in
every run, exactly when the retention covers the countdown windows. -/
theorem countdownsOnce_iff (hload : loadConfig locateZone path (.parsed data) = .ok config)
    (hfit : SettingsFit data) : CountdownsOnce config ↔ RetentionCovers config.policy := by
  obtain ⟨_, hdata, haccepted⟩ := loadConfig_eq_ok hload
  obtain rfl := ConfigFile.parsed.inj hdata
  have hordered := haccepted.policy_ordered hfit
  exact ⟨fun honce => honce.retentionCovers hordered haccepted.includeTerms haccepted.includeTerm,
    fun hcovers => hcovers.countdownsOnce hordered⟩

/-- The default settings cover the windows. -/
theorem countdownsOnce_iff_kValid : RetentionCovers kValidConfig.policy ∧
    CountdownsOnce kValidConfig := by
  have hload : loadConfig anyZone "config.toml" (.parsed (kValid [] [])) = .ok kValidConfig := rfl
  have hfit : SettingsFit (kValid [] []) := by
    rw [SettingsFit, forall_mem_intSettings]
    decide
  have hcovers : RetentionCovers kValidConfig.policy := ⟨by decide, by decide⟩
  exact ⟨hcovers, (countdownsOnce_iff hload hfit).mpr hcovers⟩

/-- Alerts from fifty hours before launch on, kept for a day. -/
def shortRetention : TomlTable :=
  kValid [("launch_soon_minutes", .integer 3000), ("schedule_lookahead_hours", .integer 100)]
    [("retention_days", .integer 1)]

def shortRetentionConfig : Config :=
  { kValidConfig with launchSoonMinutes := 3000, scheduleLookaheadHours := 100, retentionDays := 1 }

/-- A cycle `left` seconds before the launch of the test suite. -/
def shortRetentionCycle (left : Int) : CycleInput :=
  ⟨[makeLaunch], shortRetentionConfig.policy, shortRetentionConfig.launchProvider,
    shortRetentionConfig.includeTerms, kNow + 2700 - left⟩

theorem relevant_shortRetentionCycle (left : Int) :
    (shortRetentionCycle left).Relevant makeLaunch :=
  have hmatch : containsText (toLower makeLaunch.name) (toLower "Starlink") = true := by decide
  evaluateRelevance_of_match rfl List.mem_cons_self List.mem_cons_self hmatch

/-- Cycles that report the launch of the test suite, at times that do not decrease. -/
theorem reportedUnchanged_shortRetention {steps : List CycleStep} {lefts : List Int}
    (hinputs : steps.map (·.input) = lefts.map shortRetentionCycle)
    (hlefts : lefts.Pairwise (· ≥ ·)) :
    ReportedUnchanged shortRetentionConfig makeLaunch.key (kNow + 2700) steps := by
  have hcycle : ∀ s ∈ steps, ∃ left, s.input = shortRetentionCycle left := by
    intro s hs
    have hmem : s.input ∈ lefts.map shortRetentionCycle := hinputs ▸ List.mem_map_of_mem hs
    obtain ⟨left, -, hleft⟩ := List.mem_map.mp hmem
    exact ⟨left, hleft.symm⟩
  have hnows : steps.map (·.input.now) = lefts.map fun left => kNow + 2700 - left := by
    have h := congrArg (List.map CycleInput.now) hinputs
    rwa [List.map_map, List.map_map] at h
  refine ⟨?_, ?_, ?_, ?_, ?_, ?_⟩
  case refine_4 =>
    rw [hnows, List.pairwise_map]
    exact hlefts.imp fun hle => by omega
  all_goals
    intro s hs
    obtain ⟨left, hleft⟩ := hcycle s hs
    rw [hleft]
  · rfl
  · rfl
  · rfl
  · exact ⟨makeLaunch, List.mem_singleton.mpr rfl, rfl, relevant_shortRetentionCycle left⟩
  · intro launch hmem _ _
    rw [List.mem_singleton.mp hmem]
    rfl

/-- The loader accepts this config, and the launch is announced fifty hours ahead and again a
day and five minutes later. -/
theorem retention_can_be_too_short :
    ¬∀ (locateZone : String → Except Exn TimeZone) (path : String) (data : TomlTable)
      (config : Config), loadConfig locateZone path (.parsed data) = .ok config →
        SettingsFit data → CountdownsOnce config := by
  intro hall
  have hload : loadConfig anyZone "config.toml" (.parsed shortRetention) =
    .ok shortRetentionConfig := rfl
  have hfit : SettingsFit shortRetention := by
    rw [SettingsFit, forall_mem_intSettings]
    decide
  obtain ⟨steps, records, hexec, hinputs, hcreated⟩ : ∃ steps records,
      decisionMachine.exec [] ([180000, 93540, 93300].map shortRetentionCycle) =
        .ok (steps, records) ∧
      steps.map (·.input) = [180000, 93540, 93300].map shortRetentionCycle ∧
      created steps makeLaunch.key .launchSoon = 2 := ⟨_, _, rfl, rfl, rfl⟩
  have hunchanged := reportedUnchanged_shortRetention hinputs (by decide)
  have honce := hall _ _ _ _ hload hfit steps records _ _ (Mealy.Run.of_exec hexec) hunchanged
  rw [hcreated] at honce
  exact absurd honce.1 (by decide)

end RocketWatcher
