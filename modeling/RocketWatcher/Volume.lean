import RocketWatcher.Inboxes
import RocketWatcher.Library.Changes

/-!
# How many notifications a launch causes

A launch that is not touched is announced once of each kind, and each correction needs a change of
what the source reports. So the notifications of a launch are bounded by how often its reported
facts change and how often its record is dropped (`notifications_bounded`), whatever else is
fetched, however often the cycles run, and whatever fails.

A run is followed key by key (`Told`) : the alerts it has issued, and at their end those that the
stored record still summarises.
-/

namespace RocketWatcher

/-- The facts that a cycle is told of the launch with key `k`. -/
def reports (k : String) (cycle : WatcherStep) : List LaunchFacts :=
  match cycle.input.env.fetch with
  | .error _ => []
  | .ok fetch => (fetch.launches.filter fun l => l.key = k).map Launch.facts

instance (k : String) (cycle : WatcherStep) : Decidable (DropsRecord k cycle) :=
  inferInstanceAs (Decidable (_ ∧ _))

/-- How often the record of key `k` is dropped. -/
def drops (k : String) (steps : List WatcherStep) : ℕ :=
  steps.countP fun cycle => DropsRecord k cycle

/-! ## One decision -/

/-- A correction tells other facts than those it corrects. -/
theorem Decides.news {policy : AlertPolicy} {now : Int} {terms : List String} {launch : Launch}
    {record : Option AlertRecord} {a : Alert}
    (h : Decides policy now terms launch record (some a)) (hshift : 0 < policy.correctionTimeShift)
    (hkind : a.kind = .correction) : a.previous ≠ some a.launch.facts := by
  intro hsame
  cases h with
  | noGo status before =>
    have hfacts := congrArg LaunchFacts.status (Option.some.inj hsame)
    exact before (hfacts.trans status)
  | timingNowImprecise status before after =>
    have hfacts := congrArg LaunchFacts.precision (Option.some.inj hsame)
    rw [hfacts] at before
    exact Bool.false_ne_true (after.symm.trans before)
  | timeChanged status kept shifted =>
    obtain ⟨time, time', htime, htime', hle⟩ := shifted
    have hfacts := congrArg LaunchFacts.launchTime (Option.some.inj hsame)
    obtain rfl : time = time' := by
      rw [htime] at hfacts
      exact Option.some.inj (hfacts.trans htime')
    rw [sub_self, abs_zero] at hle
    exact absurd hle (not_le.mpr hshift)
  | @countdown _ kind _ _ eligible =>
    obtain rfl : kind = .correction := hkind
    exact eligible

/-- Of alerts that may follow one another, one is of each kind of countdown. -/
theorem countP_kind_le_one {alerts : List Alert} (h : alerts.Pairwise MayFollow) {kind : AlertKind}
    (hkind : kind ≠ .correction) : alerts.countP (fun a => a.kind = kind) ≤ 1 := by
  induction h with
  | nil => exact Nat.zero_le 1
  | @cons a alerts hnext _ ih =>
    by_cases ha : a.kind = kind
    · have hnone : alerts.countP (fun a => a.kind = kind) = 0 := by
        rw [List.countP_eq_zero]
        intro b hb hbkind
        have hbkind : b.kind = kind := of_decide_eq_true hbkind
        refine hnext b hb (hbkind ▸ hkind) (.of_mem ?_)
        rw [ha, hbkind]
        exact List.mem_singleton_self kind
      simp [ha, hnone]
    · simpa [ha] using ih

/-- There are four kinds. -/
theorem length_eq_kinds (alerts : List Alert) : alerts.length =
    alerts.countP (fun a => a.kind = .launchSoon) +
      alerts.countP (fun a => a.kind = .launchImminent) +
      alerts.countP (fun a => a.kind = .hourPrecision) +
      alerts.countP (fun a => a.kind = .correction) := by
  induction alerts with
  | nil => rfl
  | cons a alerts ih => cases hkind : a.kind <;> simp [hkind] <;> omega

/-- What extends the last alerts of a list extends the list. -/
theorem Chained.append_of_suffix {alerts recent new : List Alert} (h : Chained alerts)
    (hrecent : Chained (recent ++ new)) (hsuffix : recent <:+ alerts) :
    Chained (alerts ++ new) := by
  obtain ⟨old, rfl⟩ := hsuffix
  intro before a after heq hkind
  rcases append_eq_append_cons heq with ⟨after', -, hbefore⟩ | ⟨before', rfl, rfl⟩
  · exact h before a after' hbefore hkind
  · obtain ⟨last, hlast, hprevious⟩ := hrecent (recent ++ before') a after (by simp) hkind
    refine ⟨last, ?_, hprevious⟩
    rw [List.append_assoc, List.getLast?_append, hlast]
    rfl

/-! ## Runs -/

/-- What is told of a launch by its reports : all alerts, and the recent ones, those since its
record was last dropped. -/
structure Told (facts : List LaunchFacts) (dropped : ℕ) (alerts recent : List Alert) : Prop where
  suffix : recent <:+ alerts
  chained : Chained alerts
  recent_chained : Chained recent
  news : ∀ a ∈ alerts, a.kind = .correction → a.previous ≠ some a.launch.facts
  mayFollow : recent.Pairwise MayFollow
  reported : (alerts.map (·.launch.facts)).Sublist facts
  count_le : ∀ kind ≠ AlertKind.correction, alerts.countP (fun a => a.kind = kind) ≤
    dropped + recent.countP (fun a => a.kind = kind)

namespace Told

variable {facts more : List LaunchFacts} {dropped : ℕ} {alerts recent new : List Alert}

theorem nil : Told [] 0 [] [] where
  suffix := List.suffix_rfl
  chained := chained_nil
  recent_chained := chained_nil
  news := by simp
  mayFollow := .nil
  reported := .slnil
  count_le _ _ := Nat.zero_le _

/-- Further alerts that the record notes. -/
theorem append (h : Told facts dropped alerts recent) (hchained : Chained (recent ++ new))
    (hnews : ∀ a ∈ new, a.kind = .correction → a.previous ≠ some a.launch.facts)
    (hfollow : (recent ++ new).Pairwise MayFollow)
    (hreported : (new.map (·.launch.facts)).Sublist more) :
    Told (facts ++ more) dropped (alerts ++ new) (recent ++ new) where
  suffix := by
    obtain ⟨old, rfl⟩ := h.suffix
    exact ⟨old, by simp⟩
  chained := h.chained.append_of_suffix hchained h.suffix
  recent_chained := hchained
  news a ha := (List.mem_append.mp ha).elim (h.news a) (hnews a)
  mayFollow := hfollow
  reported := by
    rw [List.map_append]
    exact h.reported.append hreported
  count_le kind hkind := by
    rw [List.countP_append, List.countP_append]
    have hold := h.count_le kind hkind
    omega

/-- The record is dropped. -/
theorem drop (h : Told facts dropped alerts recent) :
    Told (facts ++ more) (dropped + 1) alerts [] where
  suffix := List.nil_suffix
  chained := h.chained
  recent_chained := chained_nil
  news := h.news
  mayFollow := .nil
  reported := h.reported.trans (List.sublist_append_left _ _)
  count_le kind hkind := by
    have hold := h.count_le kind hkind
    have hone := countP_kind_le_one h.mayFollow hkind
    rw [List.countP_nil]
    omega

/-- Each correction is of a change. -/
theorem corrections_le (h : Told facts dropped alerts recent) :
    alerts.countP (fun a => a.kind = .correction) ≤ changes facts := by
  refine (countP_le_changes fun before a after heq hkind => ?_).trans
    (changes_le_of_sublist h.reported)
  have hkind : a.kind = .correction := of_decide_eq_true hkind
  obtain ⟨last, hlast, hprevious⟩ := h.chained before a after heq hkind
  refine ⟨last, hlast, fun hsame => h.news a (by simp [heq]) hkind ?_⟩
  rw [hprevious, hsame]

/-- Each kind of countdown is told once, and once more for each time the record was dropped. -/
theorem countdowns_le (h : Told facts dropped alerts recent) {kind : AlertKind}
    (hkind : kind ≠ .correction) : alerts.countP (fun a => a.kind = kind) ≤ 1 + dropped := by
  have hcount := h.count_le kind hkind
  have hone := countP_kind_le_one h.mayFollow hkind
  omega

theorem length_le (h : Told facts dropped alerts recent) :
    alerts.length ≤ 3 * (1 + dropped) + changes facts := by
  have hsoon := h.countdowns_le (show AlertKind.launchSoon ≠ .correction by decide)
  have himminent := h.countdowns_le (show AlertKind.launchImminent ≠ .correction by decide)
  have hhour := h.countdowns_le (show AlertKind.hourPrecision ≠ .correction by decide)
  have hcorrections := h.corrections_le
  rw [length_eq_kinds]
  omega

end Told

/-- The alerts that a cycle decides go on with those the record of their key summarises. -/
theorem Told.append_decision {facts : List LaunchFacts} {dropped : ℕ} {alerts recent : List Alert}
    (h : Told facts dropped alerts recent) {input : CycleInput} {records : List AlertRecord}
    {d : CycleDecision} (hdecide : decideCycle input records = .ok d)
    (hshift : 0 < input.policy.correctionTimeShift) {k : String}
    (hrecord : recordOf records k = AlertRecord.ofAlerts recent) :
    Told (facts ++ (input.launches.filter fun l => l.key = k).map Launch.facts) dropped
      (alerts ++ d.alertsOf k) (recent ++ d.alertsOf k) := by
  have hlaunches := (decideCycle_launches hdecide k).map Launch.facts
  rw [List.map_map] at hlaunches
  have hkinds := (trackKey_kinds input records input.launches k).2
  rw [← decideCycle_alerts hdecide, hrecord, sentKinds_ofAlerts] at hkinds
  have hchained := (trackKey_ofAlerts input hrecord input.launches).2 h.recent_chained
  rw [← decideCycle_alerts hdecide] at hchained
  refine h.append hchained (fun a ha hkind => ?_) ?_ hlaunches
  · obtain ⟨terms, launch, record, hd⟩ :=
      decideCycle_mem_alerts hdecide (List.mem_filter.mp ha).1
    obtain rfl := hd.launch_eq
    exact hd.news hshift hkind
  · refine List.pairwise_append.mpr ⟨h.mayFollow, hkinds.1, fun a ha b hb hkind hsent => ?_⟩
    refine hkinds.2 b hb hkind (hsent.mono fun kind hmem => ?_)
    rw [List.mem_singleton.mp hmem]
    exact List.mem_map_of_mem ha

/-- One more cycle. -/
theorem Told.cycle {facts : List LaunchFacts} {dropped : ℕ} {alerts recent : List Alert}
    (h : Told facts dropped alerts recent) (cycle : WatcherStep)
    (hstep : watcher.step cycle.before cycle.input = .ok (cycle.output, cycle.after))
    (hpromised : cycle.input.Promised)
    (hshift : 0 < cycle.input.config.policy.correctionTimeShift) {k : String}
    (hrecord : recordOf cycle.before k = AlertRecord.ofAlerts recent) :
    ∃ recent', recordOf cycle.after k = AlertRecord.ofAlerts recent' ∧
      Told (facts ++ reports k cycle) (dropped + drops k [cycle])
        (alerts ++ issuedFor k [cycle]) recent' := by
  rcases record_of_cycle cycle hstep hpromised hrecord with
    ⟨hafter, hkeeps⟩ | ⟨hafter, hnone, hdrops⟩
  · refine ⟨_, hafter, ?_⟩
    have hdropped : drops k [cycle] = 0 := by simp [drops, hkeeps]
    rw [hdropped, Nat.add_zero]
    rcases issuedFor_cases hstep hpromised k with ⟨-, hnone⟩ | ⟨fetch, d, hfetch, hdecide, -, hnew⟩
    · rw [hnone]
      refine h.append ?_ (by simp) ?_ (List.nil_sublist _)
      · rw [List.append_nil]
        exact h.recent_chained
      · rw [List.append_nil]
        exact h.mayFollow
    · rw [hnew, reports, hfetch]
      exact h.append_decision hdecide hshift hrecord
  · have hdropped : drops k [cycle] = 1 := by simp [drops, hdrops]
    rw [hdropped, hnone, List.append_nil]
    exact ⟨[], hafter, h.drop⟩

/-- The alerts of a run. -/
theorem told_of_run {steps : List WatcherStep} {stored : List AlertRecord}
    (hrun : watcher.Run [] steps stored) (hpromised : ∀ s ∈ steps, s.input.Promised)
    (hshift : ∀ s ∈ steps, 0 < s.input.config.policy.correctionTimeShift) (k : String) :
    ∃ recent, recordOf stored k = AlertRecord.ofAlerts recent ∧
      Told (steps.flatMap (reports k)) (drops k steps) (issuedFor k steps) recent := by
  induction hrun with
  | nil => exact ⟨[], rfl, .nil⟩
  | @snoc steps before call effects after hrun hstep ih =>
    obtain ⟨recent, hrecord, h⟩ := ih (fun s hs => hpromised s (List.mem_append_left _ hs))
      fun s hs => hshift s (List.mem_append_left _ hs)
    have hmem : (⟨before, call, effects, after⟩ : WatcherStep) ∈
        steps ++ [⟨before, call, effects, after⟩] := List.mem_append_right _ List.mem_cons_self
    have hcycle := h.cycle ⟨before, call, effects, after⟩ hstep (hpromised _ hmem) (hshift _ hmem)
      hrecord
    rwa [List.flatMap_append, List.flatMap_singleton, issuedFor_append, drops, List.countP_append]

/-- A message says which launch it is about. -/
theorem launchKey_of_issued {steps : List WatcherStep} {i : Issued} (hi : i ∈ issued steps) :
    i.message.launchKey = i.alert.launch.key := by
  obtain ⟨cycle, -, hi⟩ := List.mem_flatMap.mp hi
  unfold issuedBy at hi
  split at hi
  · split at hi
    · next hplan =>
      obtain ⟨created, hcreated, rfl⟩ := List.mem_map.mp hi
      obtain ⟨-, -, zone, -, hformat⟩ := planCycle_eq_ok hplan
      exact (formatAlert_eq_ok (hformat created hcreated)).1
    · cases hi
  · cases hi

theorem countP_inbox_le {stored stored' : List AlertRecord} {steps : List WatcherStep}
    (hrun : watcher.Run stored steps stored') (hpromised : ∀ s ∈ steps, s.input.Promised)
    (k name : String) : (inbox name (steps.flatMap (·.output))).countP (fun m => m.launchKey = k) ≤
      (issuedFor k steps).length := by
  calc (inbox name (steps.flatMap (·.output))).countP (fun m => m.launchKey = k)
      ≤ ((issued steps).map (·.message)).countP (fun m => m.launchKey = k) :=
        (inbox_of_run hrun hpromised name).2.countP_le
    _ = (issued steps).countP fun i => i.alert.launch.key = k := by
        rw [List.countP_map]
        exact List.countP_congr fun i hi => by simp [launchKey_of_issued hi]
    _ = (issuedFor k steps).length := by
        rw [issuedFor, ← List.countP_eq_length_filter, List.countP_map]
        rfl

/-- In every run from an empty store, with failures and crashes : the corrections of a launch are
no more than the changes of its reported facts, each countdown is issued once and once more for
each time the record of the launch was dropped, and a recipient is sent no more messages about the
launch than these together. -/
theorem notifications_bounded {steps : List WatcherStep} {stored : List AlertRecord}
    (hrun : watcher.Run [] steps stored) (hpromised : ∀ s ∈ steps, s.input.Promised)
    (hshift : ∀ s ∈ steps, 0 < s.input.config.policy.correctionTimeShift) (k : String) :
    (issuedFor k steps).countP (fun a => a.kind = .correction) ≤
        changes (steps.flatMap (reports k)) ∧
      (∀ kind ≠ AlertKind.correction,
        (issuedFor k steps).countP (fun a => a.kind = kind) ≤ 1 + drops k steps) ∧
      ∀ name, (inbox name (steps.flatMap (·.output))).countP (fun m => m.launchKey = k) ≤
        3 * (1 + drops k steps) + changes (steps.flatMap (reports k)) := by
  obtain ⟨recent, -, h⟩ := told_of_run hrun hpromised hshift k
  exact ⟨h.corrections_le, fun kind => h.countdowns_le, fun name =>
    (countP_inbox_le hrun hpromised k name).trans h.length_le⟩

theorem shift_calledOff {call : CycleCall} (h : call ∈ calledOff) :
    0 < call.config.policy.correctionTimeShift := by
  simp only [calledOff, List.mem_cons, List.not_mem_nil, or_false] at h
  rcases h with rfl | rfl <;> decide

/-- The launch is called off, which is one change. -/
theorem notifications_bounded_calledOff : ∃ steps stored,
    watcher.exec [] calledOff = .ok (steps, stored) ∧
      (issuedFor makeLaunch.key steps).map (·.kind) = [.launchSoon, .correction] ∧
      changes (steps.flatMap (reports makeLaunch.key)) = 1 ∧
      (inbox "alice" (steps.flatMap (·.output))).countP (fun m => m.launchKey = makeLaunch.key) ≤
        4 := by
  obtain ⟨steps, stored, hexec, hinputs, hkinds, hchanges, hdrops⟩ : ∃ steps stored,
      watcher.exec [] calledOff = .ok (steps, stored) ∧ steps.map (·.input) = calledOff ∧
        (issuedFor makeLaunch.key steps).map (·.kind) = [.launchSoon, .correction] ∧
        changes (steps.flatMap (reports makeLaunch.key)) = 1 ∧ drops makeLaunch.key steps = 0 :=
    ⟨_, _, rfl, rfl, rfl, rfl, rfl⟩
  have hcall {s : WatcherStep} (hs : s ∈ steps) : s.input ∈ calledOff :=
    hinputs ▸ List.mem_map_of_mem hs
  obtain ⟨-, -, hinbox⟩ := notifications_bounded (Mealy.Run.of_exec hexec)
    (fun s hs => promised_calledOff (hcall hs)) (fun s hs => shift_calledOff (hcall hs))
    makeLaunch.key
  rw [hchanges, hdrops] at hinbox
  exact ⟨steps, stored, hexec, hkinds, hchanges, hinbox "alice"⟩

end RocketWatcher
