import RocketWatcher.Announced

/-!
# What the records say was sent

The stored records and the inboxes of the recipients tell one story (`recorded_was_sent`). The
cycles of a run that save issue alerts, each with its message. A recipient is sent the messages of
these alerts in order, and misses at most those of the cycles that crash or do not list it. The
record of a key summarises the alerts issued for it since a cycle last dropped its record.
-/

namespace RocketWatcher

/-- What the loader and the collaborators promise of a cycle. -/
structure CycleCall.Promised (call : CycleCall) : Prop extends call.Configured where
  retention : 0 ≤ call.config.policy.retention
  names : (call.config.recipients.map (·.name)).Nodup
  collaborators : Collaborators call.env

/-- The messages for a recipient among the effects. -/
def inbox (name : String) (effects : List Effect) : List Message :=
  ((effects.filterMap Effect.delivery).filter fun sent => sent.2 = name).map Prod.fst

/-- An alert that a cycle of a run has saved, with its message. -/
structure Issued where
  cycle : WatcherStep
  alert : Alert
  message : Message

/-- The cycle does not crash, and its config lists the recipient. -/
def Issued.reaches (name : String) (issued : Issued) : Bool :=
  issued.cycle.input.crashAfter.isNone &&
    (issued.cycle.input.config.recipients.map (·.name)).contains name

/-- A save that replaces the stored records. -/
def Effect.replaces : Effect → Bool
  | .save _ replaced => replaced
  | .log _ | .send .. => false

/-- The alerts a cycle decides, once they are saved. -/
def issuedBy (cycle : WatcherStep) : List Issued :=
  match cycle.output.any Effect.replaces, cycle.input.env.fetch with
  | true, .ok fetch =>
    match planCycle cycle.input.env cycle.input.config fetch.launches cycle.before with
    | .ok (_, messages) => messages.map fun created => ⟨cycle, created.1, created.2⟩
    | .error _ => []
  | _, _ => []

/-- The alerts of a run, in order. -/
def issued (steps : List WatcherStep) : List Issued := steps.flatMap issuedBy

/-- Those for the launch with key `k`. -/
def issuedFor (k : String) (steps : List WatcherStep) : List Alert :=
  ((issued steps).map (·.alert)).filter fun a => a.launch.key = k

/-- The cycle drops the record of key `k`. -/
def DropsRecord (k : String) (cycle : WatcherStep) : Prop :=
  recordOf cycle.before k ≠ none ∧ recordOf cycle.after k = none

/-! ## Inboxes -/

section Inbox

variable {name : String}

@[simp] theorem inbox_append (effects effects' : List Effect) :
    inbox name (effects ++ effects') = inbox name effects ++ inbox name effects' := by
  simp [inbox]

/-- Only sends matter. -/
theorem inbox_visible (effects : List Effect) :
    inbox name (effects.filter Effect.visible) = inbox name effects := by
  rw [inbox, filterMap_delivery_visible, inbox]

theorem inbox_of_no_sends {effects : List Effect} (h : ∀ m r, Effect.send m r ∉ effects) :
    inbox name effects = [] := by
  rw [inbox, deliveries_of_no_sends h]
  rfl

theorem inbox_isPrefix {effects effects' : List Effect} (h : effects <+: effects') :
    inbox name effects <+: inbox name effects' :=
  ((h.filterMap _).filter _).map _

/-- A message to every recipient arrives once with those that are listed. -/
theorem inbox_recipients {recipients : List Recipient} (hnames : (recipients.map (·.name)).Nodup)
    (m : Message) : inbox name (recipients.map fun r => .send m r.name) =
      if (recipients.map (·.name)).contains name then [m] else [] := by
  induction recipients with
  | nil => rfl
  | cons r recipients ih =>
    obtain ⟨hnew, hrest⟩ := List.nodup_cons.mp hnames
    have hcons : inbox name ((r :: recipients).map fun r => .send m r.name) =
        (if r.name = name then [m] else []) ++
          inbox name (recipients.map fun r => .send m r.name) := by
      rw [List.map_cons, ← List.singleton_append, inbox_append]
      congr 1
      by_cases h : r.name = name <;> simp [inbox, Effect.delivery, h]
    rw [hcons, ih hrest]
    by_cases h : r.name = name
    · subst h
      simp [hnew]
    · simp [h, Ne.symm h]

/-- All messages to all recipients arrive in order. -/
theorem inbox_allSends {config : Config} (hnames : (config.recipients.map (·.name)).Nodup)
    (messages : List (Alert × Message)) : inbox name (allSends config messages) =
      if (config.recipients.map (·.name)).contains name then messages.map Prod.snd else [] := by
  induction messages with
  | nil => simp [allSends, inbox]
  | cons created messages ih =>
    have hcons : allSends config (created :: messages) =
        config.recipients.map (fun r => .send created.2 r.name) ++ allSends config messages := rfl
    rw [hcons, inbox_append, ih, inbox_recipients hnames]
    split <;> rfl

end Inbox

/-! ## One cycle -/

section Cycle

variable {cycle : WatcherStep}

theorem any_replaces_visible (effects : List Effect) :
    (effects.filter Effect.visible).any Effect.replaces = effects.any Effect.replaces := by
  rw [List.any_filter]
  congr 1
  funext e
  cases e <;> rfl

/-- A cycle whose collaborators keep their promises is idle and issues nothing, or saves its
decision and issues its alerts. Then it sends all their messages, or is cut short. -/
theorem issued_cases
    (hstep : watcher.step cycle.before cycle.input = .ok (cycle.output, cycle.after))
    (hpromised : cycle.input.Promised) :
    (Idle cycle.before cycle.after cycle.output ∧ issuedBy cycle = []) ∨
    ∃ fetch d messages rest, cycle.input.env.fetch = .ok fetch ∧
      planCycle cycle.input.env cycle.input.config fetch.launches cycle.before =
        .ok (d, messages) ∧
      cycle.output.filter Effect.visible = .save d.updatedRecords true :: rest ∧
      rest <+: allSends cycle.input.config messages ∧
      (cycle.input.crashAfter = none → rest = allSends cycle.input.config messages) ∧
      cycle.after = d.updatedRecords ∧
      issuedBy cycle = messages.map fun created => ⟨cycle, created.1, created.2⟩ := by
  obtain ⟨zone, hzone⟩ := hpromised.zone
  obtain ⟨outcome, effects, -, htrace, hends⟩ :=
    runCycle_ends hpromised.terms hzone hpromised.collaborators cycle.before
  obtain ⟨houtput, hafter⟩ := watcherWith_step.mp hstep
  have hpart : cycle.output.filter Effect.visible <+: effects := by
    rw [← htrace, houtput]
    exact (done_isPrefix _).filter _
  have hidle {seen : List Effect} (hseen : cycle.output.filter Effect.visible = seen)
      (hkeeps : seen.foldl Effect.store cycle.before = cycle.before)
      (hsends : ∀ m name, Effect.send m name ∉ seen) (hnone : seen.any Effect.replaces = false) :
      Idle cycle.before cycle.after cycle.output ∧ issuedBy cycle = [] := by
    rw [← hseen, any_replaces_visible] at hnone
    exact ⟨idle_of_seen hafter hseen hkeeps hsends, by simp [issuedBy, hnone]⟩
  cases hends with
  | fetchFailed | loadFailed | dryRun | unchanged =>
    exact .inl (hidle (List.prefix_nil.mp hpart) rfl (by simp) rfl)
  | saveFailed =>
    rcases List.prefix_cons_iff.mp hpart with hnone | ⟨rest, hseen, hrest⟩
    · exact .inl (hidle hnone rfl (by simp) rfl)
    · obtain rfl := List.prefix_nil.mp hrest
      exact .inl (hidle hseen rfl (by simp) rfl)
  | @saved fetch plan _ fetched _ planned =>
    rcases List.prefix_cons_iff.mp hpart with hnone | ⟨rest, hseen, hrest⟩
    · exact .inl (hidle hnone rfl (by simp) rfl)
    refine .inr ⟨fetch, plan.1, plan.2, rest, fetched, planned, hseen, hrest, fun hcrash => ?_,
      ?_, ?_⟩
    · rw [houtput, CycleCall.done, hcrash] at hseen
      exact (List.cons.inj (hseen.symm.trans htrace)).2
    · rw [hafter, foldl_store_visible, hseen, List.foldl_cons]
      exact foldl_store_of_isPrefix hrest
    · have hsaved : cycle.output.any Effect.replaces = true := by
        rw [← any_replaces_visible, hseen]
        rfl
      simp [issuedBy, hsaved, fetched, planned]

/-- A cycle sends what it issues, unless it is cut short, and nothing else. -/
theorem inbox_of_cycle (cycle : WatcherStep)
    (hstep : watcher.step cycle.before cycle.input = .ok (cycle.output, cycle.after))
    (hpromised : cycle.input.Promised) (name : String) :
    (((issuedBy cycle).filter (·.reaches name)).map (·.message)).Sublist
        (inbox name cycle.output) ∧
      (inbox name cycle.output).Sublist ((issuedBy cycle).map (·.message)) := by
  rcases issued_cases hstep hpromised with
    ⟨⟨-, hsends⟩, hnone⟩ | ⟨-, d, messages, rest, -, -, hseen, hrest, hall, -, hissued⟩
  · rw [hnone, inbox_of_no_sends hsends]
    exact ⟨.slnil, .slnil⟩
  have hinbox : inbox name cycle.output = inbox name rest := by
    rw [← inbox_visible, hseen]
    rfl
  have hmessages : (issuedBy cycle).map (·.message) = messages.map Prod.snd := by
    rw [hissued, List.map_map]
    rfl
  have hsends : inbox name (allSends cycle.input.config messages) = _ :=
    inbox_allSends hpromised.names messages
  rw [hinbox, hmessages]
  constructor
  · cases hreaches : cycle.input.crashAfter.isNone &&
        (cycle.input.config.recipients.map (·.name)).contains name with
    | true =>
      obtain ⟨hcrash, hlisted⟩ := Bool.and_eq_true_iff.mp hreaches
      rw [hall (Option.isNone_iff_eq_none.mp hcrash), hsends, if_pos hlisted, ← hmessages]
      exact List.filter_sublist.map _
    | false =>
      have hnone : (issuedBy cycle).filter (·.reaches name) = [] := by
        rw [hissued, List.filter_map, List.filter_eq_nil_iff.mpr, List.map_nil]
        intro created _
        simpa [Issued.reaches] using hreaches
      rw [hnone]
      exact List.nil_sublist _
  · refine (inbox_isPrefix hrest).sublist.trans ?_
    rw [hsends]
    split
    · exact .refl _
    · exact List.nil_sublist _

theorem createdAt_of_mem {input : CycleInput} {records : List AlertRecord} {d : CycleDecision}
    (h : decideCycle input records = .ok d) {a : Alert} (ha : a ∈ d.alerts) :
    a.createdAt = input.now := by
  obtain ⟨terms, launch, record, hd⟩ := decideCycle_mem_alerts h ha
  exact hd.createdAt_eq

theorem ofAlerts_eq_none {alerts : List Alert} :
    AlertRecord.ofAlerts alerts = none ↔ alerts = [] := by
  cases alerts <;> simp [AlertRecord.ofAlerts]

/-- For a key, the cycle issues nothing and stores nothing, or what it decides. -/
theorem issuedFor_cases
    (hstep : watcher.step cycle.before cycle.input = .ok (cycle.output, cycle.after))
    (hpromised : cycle.input.Promised) (k : String) :
    (cycle.after = cycle.before ∧ issuedFor k [cycle] = []) ∨
    ∃ fetch d, cycle.input.env.fetch = .ok fetch ∧
      decideCycle (cycleInput cycle.input.env cycle.input.config fetch.launches) cycle.before =
        .ok d ∧ cycle.after = d.updatedRecords ∧ issuedFor k [cycle] = d.alertsOf k := by
  rcases issued_cases hstep hpromised with
    ⟨⟨hafter, -⟩, hnone⟩ | ⟨fetch, d, messages, _, hfetch, hplan, -, -, -, hafter, hissued⟩
  · exact .inl ⟨hafter, by simp [issuedFor, issued, hnone]⟩
  · obtain ⟨hdecide, hfst, -⟩ := planCycle_eq_ok hplan
    refine .inr ⟨fetch, d, hfetch, hdecide, hafter, ?_⟩
    simp [issuedFor, issued, hissued, CycleDecision.alertsOf, ← hfst, Function.comp_def]

/-- The cycle notes its alerts in the record of their key, or drops a record it had. -/
theorem record_of_cycle (cycle : WatcherStep)
    (hstep : watcher.step cycle.before cycle.input = .ok (cycle.output, cycle.after))
    (hpromised : cycle.input.Promised) {k : String} {alerts : List Alert}
    (h : recordOf cycle.before k = AlertRecord.ofAlerts alerts) :
    (recordOf cycle.after k = AlertRecord.ofAlerts (alerts ++ issuedFor k [cycle]) ∧
        ¬DropsRecord k cycle) ∨
      (recordOf cycle.after k = none ∧ issuedFor k [cycle] = [] ∧ DropsRecord k cycle) := by
  rcases issuedFor_cases hstep hpromised k with
    ⟨hafter, hnone⟩ | ⟨fetch, d, -, hdecide, hafter, hnew⟩
  · left
    refine ⟨by rw [hafter, hnone, List.append_nil, h], fun ⟨hsome, hdropped⟩ => hsome ?_⟩
    rwa [hafter] at hdropped
  have hrecord := recordOf_commit hdecide h
  rw [← hafter, ← hnew] at hrecord
  unfold Commit.keep at hrecord
  split at hrecord
  · next hlast =>
    obtain ⟨rfl, hempty⟩ := List.append_eq_nil_iff.mp (List.getLast?_eq_none_iff.mp hlast)
    exact .inl ⟨by rw [hrecord, hempty]; rfl, fun hdrops => hdrops.1 h⟩
  · next last hlast =>
    split at hrecord
    · refine .inl ⟨hrecord, fun ⟨_, hdropped⟩ => ?_⟩
      rw [hrecord, ofAlerts_eq_none] at hdropped
      simp [hdropped] at hlast
    · next hold =>
      -- the last alert is old, so it is none of the cycle
      have hnone : issuedFor k [cycle] = [] := by
        by_contra hsome
        rw [List.getLast?_append_of_ne_nil _ hsome, hnew] at hlast
        have hin := (List.mem_filter.mp (List.mem_of_getLast? hlast)).1
        have hret := hpromised.retention
        exact hold (by simpa [CycleDecision.commit, cycleInput, createdAt_of_mem hdecide hin])
      refine .inr ⟨hrecord, hnone, fun hbefore => ?_, hrecord⟩
      rw [h, ofAlerts_eq_none] at hbefore
      simp [hbefore, hnone] at hlast

end Cycle

/-! ## Runs -/

theorem issuedFor_append (k : String) (steps steps' : List WatcherStep) :
    issuedFor k (steps ++ steps') = issuedFor k steps ++ issuedFor k steps' := by
  simp [issuedFor, issued]

/-- A run sends what it issues, except in cycles that are cut short, and nothing else. -/
theorem inbox_of_run {stored stored' : List AlertRecord} {steps : List WatcherStep}
    (hrun : watcher.Run stored steps stored') (hpromised : ∀ s ∈ steps, s.input.Promised)
    (name : String) :
    (((issued steps).filter (·.reaches name)).map (·.message)).Sublist
        (inbox name (steps.flatMap (·.output))) ∧
      (inbox name (steps.flatMap (·.output))).Sublist ((issued steps).map (·.message)) := by
  induction hrun with
  | nil => exact ⟨.slnil, .slnil⟩
  | @snoc steps before call effects after hrun hstep ih =>
    have hsent := ih fun s hs => hpromised s (List.mem_append_left _ hs)
    obtain ⟨hreached, honly⟩ := inbox_of_cycle ⟨before, call, effects, after⟩ hstep
      (hpromised _ (List.mem_append_right _ List.mem_cons_self)) name
    simp only [issued, List.flatMap_append, List.flatMap_singleton, List.filter_append,
      List.map_append, inbox_append]
    exact ⟨hsent.1.append hreached, hsent.2.append honly⟩

/-- In every run from an empty store, with failures and crashes : a recipient is sent the messages
of the alerts that are saved, in order and without others, and misses only messages of cycles that
crash or do not list the recipient. The stored record of a key summarises the alerts saved for it
since its record was last dropped. -/
theorem recorded_was_sent {steps : List WatcherStep} {stored : List AlertRecord}
    (hrun : watcher.Run [] steps stored) (hpromised : ∀ s ∈ steps, s.input.Promised) :
    (∀ name,
      (((issued steps).filter (·.reaches name)).map (·.message)).Sublist
          (inbox name (steps.flatMap (·.output))) ∧
        (inbox name (steps.flatMap (·.output))).Sublist ((issued steps).map (·.message))) ∧
    ∀ k, ∃ early late, steps = early ++ late ∧
      recordOf stored k = AlertRecord.ofAlerts (issuedFor k late) ∧
      (∀ s, early.getLast? = some s → DropsRecord k s) ∧ ∀ s ∈ late, ¬DropsRecord k s := by
  refine ⟨inbox_of_run hrun hpromised, fun k => ?_⟩
  induction hrun with
  | nil => exact ⟨[], [], rfl, rfl, by simp, by simp⟩
  | @snoc steps stored call effects stored' hrun hstep ih =>
    obtain ⟨early, late, rfl, hrecord, hdropped, hkept⟩ :=
      ih fun s hs => hpromised s (List.mem_append_left _ hs)
    have hlast : call.Promised := hpromised _ (List.mem_append_right _ List.mem_cons_self)
    rcases record_of_cycle ⟨stored, call, effects, stored'⟩ hstep hlast hrecord with
      ⟨hafter, hkeeps⟩ | ⟨hafter, -, hdrops⟩
    · refine ⟨early, late ++ [⟨stored, call, effects, stored'⟩], by simp, ?_, hdropped, ?_⟩
      · rw [issuedFor_append]
        exact hafter
      · intro s hs
        rcases List.mem_append.mp hs with hs | hs
        · exact hkept s hs
        · rw [List.mem_singleton.mp hs]
          exact hkeeps
    · refine ⟨early ++ late ++ [⟨stored, call, effects, stored'⟩], [], by simp, hafter, ?_,
        by simp⟩
      intro s hs
      rw [List.getLast?_concat] at hs
      rwa [← Option.some.inj hs]

theorem promised_testCall (launches : List Launch) (now : Int) (crashAfter : Option Nat) :
    CycleCall.Promised { testCall launches now with crashAfter } where
  terms := List.cons_ne_nil _ _
  zone := ⟨_, rfl⟩
  retention := (testCall_admissible launches now).retention
  names := (testCall_admissible launches now).names
  collaborators := ⟨by simp [testCall], .inl rfl, fun _ _ _ => ⟨_, rfl⟩⟩

theorem promised_calledOff {call : CycleCall} (h : call ∈ calledOff) : call.Promised := by
  simp only [calledOff, List.mem_cons, List.not_mem_nil, or_false] at h
  rcases h with rfl | rfl
  · exact promised_testCall _ _ (some 3)
  · exact promised_testCall _ _ none

/-- Alice misses the launch soon of the cycle that crashes, and is told that it is called off. -/
theorem recorded_was_sent_calledOff : ∃ steps stored,
    watcher.exec [] calledOff = .ok (steps, stored) ∧
      (issued steps).map (·.alert.kind) = [.launchSoon, .correction] ∧
      (inbox "alice" (steps.flatMap (·.output))).length = 1 ∧
      (inbox "alice" (steps.flatMap (·.output))).Sublist ((issued steps).map (·.message)) := by
  obtain ⟨steps, stored, hexec, hinputs, hkinds, hlength⟩ : ∃ steps stored,
      watcher.exec [] calledOff = .ok (steps, stored) ∧ steps.map (·.input) = calledOff ∧
        (issued steps).map (·.alert.kind) = [.launchSoon, .correction] ∧
        (inbox "alice" (steps.flatMap (·.output))).length = 1 :=
    ⟨_, _, rfl, rfl, rfl, rfl⟩
  refine ⟨steps, stored, hexec, hkinds, hlength,
    ((recorded_was_sent (Mealy.Run.of_exec hexec) fun s hs => ?_).1 "alice").2⟩
  exact promised_calledOff (hinputs ▸ List.mem_map_of_mem hs)

end RocketWatcher
