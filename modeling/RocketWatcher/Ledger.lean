import RocketWatcher.Delivery

/-!
# The ledger of alerts

What the stored records are the memory of. A ledger lists the alerts of each key, and a cycle
commits its alerts to it; a list is forgotten once its last alert is older than the retention.
The ledger knows of no records, files or failures.

The watcher refines it (`watcher_refines_ledger`) : whatever fails and wherever the process
crashes, the cycles of a run that replace the stored records are those that commit, they send
committed alerts only, and the stored record of a key is a summary of its list in the ledger.
Each correction in a list refers to the alert before it (`Chained`).
-/

namespace RocketWatcher

/-! ## Ledgers -/

/-- The alerts noted for each key. -/
abbrev Ledger := String → List Alert

/-- The alerts of one cycle. -/
structure Commit where
  now : Int
  retention : Int
  alerts : List Alert

/-- The list of a key after a commit, unless its last alert is too old. -/
def Commit.keep (commit : Commit) (alerts : List Alert) : List Alert :=
  match alerts.getLast? with
  | none => []
  | some last => if commit.now - last.createdAt ≤ commit.retention then alerts else []

def Ledger.commit (ledger : Ledger) (commit : Commit) : Ledger := fun k =>
  commit.keep (ledger k ++ commit.alerts.filter fun a => a.launch.key = k)

/-- Commits in a row. Some cycles do not commit. -/
def ledgerMachine : Mealy Ledger (Option Commit) Unit Empty where
  step ledger
    | none => .ok ((), ledger)
    | some commit => .ok ((), ledger.commit commit)

/-- A correction comes after another alert, and replaces the facts of the last one. -/
def Chained (alerts : List Alert) : Prop :=
  ∀ before a after, alerts = before ++ a :: after → a.kind = .correction →
    ∃ last, before.getLast? = some last ∧ a.previous = some last.launch.facts

theorem chained_nil : Chained [] := by
  intro before a after h
  simp at h

theorem Commit.keep_chained {commit : Commit} {alerts : List Alert} (h : Chained alerts) :
    Chained (commit.keep alerts) := by
  unfold Commit.keep
  split
  · exact chained_nil
  · split
    · exact h
    · exact chained_nil

/-! ## Records as summaries -/

/-- The record of a list of alerts. What identifies the launch is from the first alert, what is
known about it from the last one. -/
def AlertRecord.ofAlerts : List Alert → Option AlertRecord
  | [] => none
  | first :: rest =>
    let last := (first :: rest).getLast (List.cons_ne_nil first rest)
    some
      { key := first.launch.key
        sourceName := first.launch.sourceName
        sourceLaunchId := first.launch.sourceLaunchId
        launchName := last.launch.name
        matchedTerms := last.matchedTerms
        lastFacts := last.launch.facts
        sentAlerts := (first :: rest).map fun a => ⟨a.kind, a.createdAt, a.reason⟩
        firstAlertAt := first.createdAt
        lastAlertAt := last.createdAt }

/-- One more alert is noted in the record. -/
theorem ofAlerts_snoc (alerts : List Alert) (a : Alert) :
    AlertRecord.ofAlerts (alerts ++ [a]) =
      some (updatedRecord (AlertRecord.ofAlerts alerts) a.launch a a.createdAt) := by
  cases alerts with
  | nil => rfl
  | cons first rest => simp [AlertRecord.ofAlerts, updatedRecord]

@[simp] theorem sentKinds_ofAlerts (alerts : List Alert) :
    sentKinds (AlertRecord.ofAlerts alerts) = alerts.map (·.kind) := by
  cases alerts <;> simp [AlertRecord.ofAlerts, sentKinds]

theorem ofAlerts_getLast? (alerts : List Alert) :
    (AlertRecord.ofAlerts alerts).map (fun r => (r.lastFacts, r.lastAlertAt)) =
      alerts.getLast?.map fun a => (a.launch.facts, a.createdAt) := by
  cases alerts with
  | nil => rfl
  | cons first rest => simp [AlertRecord.ofAlerts, List.getLast?_eq_some_getLast]

/-- The list is kept when its record is. -/
theorem ofAlerts_keep (input : CycleInput) (commit : Commit) (hnow : commit.now = input.now)
    (hretention : commit.retention = input.policy.retention) (alerts : List Alert) :
    AlertRecord.ofAlerts (commit.keep alerts) =
      (AlertRecord.ofAlerts alerts).filter (retained input) := by
  have hlast := ofAlerts_getLast? alerts
  unfold Commit.keep
  cases halerts : alerts.getLast? with
  | none =>
    obtain rfl := List.getLast?_eq_none_iff.mp halerts
    rfl
  | some last =>
    rw [halerts, Option.map_some, Option.map_eq_some_iff] at hlast
    obtain ⟨r, hr, hfacts⟩ := hlast
    have hat : r.lastAlertAt = last.createdAt := (Prod.mk.inj hfacts).2
    simp only [hr, hnow, hretention]
    split
    · next hkeep => rw [Option.filter_some_pos (by simp [retained, hat, hkeep]), hr]
    · next hdrop => rw [Option.filter_some_neg (by simpa [retained, hat] using hdrop)]; rfl

/-! ## One cycle -/

section Cycle

variable {input : CycleInput} {records : List AlertRecord} {d : CycleDecision}

/-- The alerts of a key go to the end of its list, which stays chained. -/
theorem trackKey_ofAlerts (input : CycleInput) {alerts : List Alert} {k : String}
    (h : recordOf records k = AlertRecord.ofAlerts alerts) (launches : List Launch) :
    (trackKey input records launches k).1 =
        AlertRecord.ofAlerts (alerts ++ (trackKey input records launches k).2) ∧
      (Chained alerts → Chained (alerts ++ (trackKey input records launches k).2)) := by
  refine (launchMachine input).track_invariant (P := fun record new =>
    record = AlertRecord.ofAlerts (alerts ++ new) ∧ (Chained alerts → Chained (alerts ++ new)))
    ⟨by simpa using h, by simp⟩ ?_
  rintro _ new launch r alert - ⟨rfl, hchain⟩ hstep
  obtain ⟨-, rfl, terms, hd⟩ := launchMachine_step_some hstep
  obtain rfl := hd.launch_eq
  rw [← List.append_assoc, ofAlerts_snoc, hd.createdAt_eq]
  refine ⟨rfl, fun hchained before a after heq hkind => ?_⟩
  rcases append_eq_append_cons heq with ⟨after', -, hbefore⟩ | ⟨before', rfl, hsingle⟩
  · exact hchain hchained before a after' hbefore hkind
  · cases before' with
    | cons b before' => simp at hsingle
    | nil =>
      obtain ⟨rfl, -⟩ := List.cons.inj hsingle
      obtain ⟨r, hr, hprevious⟩ := hd.of_correction hkind
      have hlast := ofAlerts_getLast? (alerts ++ new)
      rw [hr, Option.map_some, eq_comm, Option.map_eq_some_iff] at hlast
      obtain ⟨last, hlast, hfacts⟩ := hlast
      exact ⟨last, by simpa using hlast, by rw [hprevious, (Prod.mk.inj hfacts).1]⟩

/-- The decision of a cycle, committed. -/
def CycleDecision.commit (d : CycleDecision) (input : CycleInput) : Commit :=
  ⟨input.now, input.policy.retention, d.alerts⟩

/-- The record of a key after a decision is that of its list after the commit. -/
theorem recordOf_commit (hdecide : decideCycle input records = .ok d) {alerts : List Alert}
    {k : String} (h : recordOf records k = AlertRecord.ofAlerts alerts) :
    recordOf d.updatedRecords k =
      AlertRecord.ofAlerts ((d.commit input).keep (alerts ++ d.alertsOf k)) := by
  rw [recordOf_updatedRecords hdecide, (trackKey_ofAlerts input h input.launches).1,
    ← decideCycle_alerts hdecide]
  exact (ofAlerts_keep input (d.commit input) rfl rfl _).symm

/-- The stored records are those of the ledger, in key order, and its lists are chained. -/
structure Summarises (records : List AlertRecord) (ledger : Ledger) : Prop where
  recordOf_eq : ∀ k, recordOf records k = AlertRecord.ofAlerts (ledger k)
  sorted : KeySorted AlertRecord.key records
  chained : ∀ k, Chained (ledger k)

theorem summarises_nil : Summarises [] fun _ => [] where
  recordOf_eq _ := rfl
  sorted := .nil
  chained _ := chained_nil

/-- Deciding on the records of a ledger returns those of the ledger with the commit. -/
theorem Summarises.commit {ledger : Ledger} (h : Summarises records ledger)
    (hdecide : decideCycle input records = .ok d) :
    Summarises d.updatedRecords (ledger.commit (d.commit input)) where
  recordOf_eq k := recordOf_commit hdecide (h.recordOf_eq k)
  sorted := keySorted_updatedRecords hdecide
  chained k := by
    have htrack := (trackKey_ofAlerts input (h.recordOf_eq k) input.launches).2 (h.chained k)
    rw [← decideCycle_alerts hdecide] at htrack
    exact Commit.keep_chained htrack

end Cycle

/-! ## Runs -/

/-- The cycle has saved the decision on the launches it fetched, with these messages. -/
def Committed (step : WatcherStep) (d : CycleDecision) (messages : List (Alert × Message)) :
    Prop :=
  ∃ fetch, step.input.env.fetch = .ok fetch ∧
    planCycle step.input.env step.input.config fetch.launches step.before = .ok (d, messages) ∧
    step.after = d.updatedRecords

/-- The cycle commits, or keeps the stored records and sends nothing. A cycle that commits sends
the messages of its alerts. -/
def CommitsAs (step : WatcherStep) (entry : Mealy.Transition Ledger (Option Commit) Unit) : Prop :=
  (entry.input = none ∧ step.after = step.before ∧
      step.output.filterMap Effect.delivery = []) ∨
    ∃ d messages, Committed step d messages ∧
      entry.input = some ⟨step.input.env.now, step.input.config.policy.retention, d.alerts⟩ ∧
      step.output.filterMap Effect.delivery <+:
        (allSends step.input.config messages).filterMap Effect.delivery

/-- Whatever fails in a run and wherever it crashes, the stored records summarise a ledger of the
alerts it has saved and not dropped since, and only alerts of the ledger's commits are sent. Each
correction in the ledger refers to the alert of its key just before it. -/
theorem watcher_refines_ledger {steps : List WatcherStep} {stored : List AlertRecord}
    (hrun : watcher.Run [] steps stored) :
    ∃ entries ledger, ledgerMachine.Run (fun _ => []) entries ledger ∧
      Summarises stored ledger ∧ List.Forall₂ CommitsAs steps entries := by
  refine hrun.refine (R := Summarises) summarises_nil ?_
  intro stored ledger call effects stored' h hstep
  rcases cycle_cases hstep with
    ⟨rfl, hsends⟩ | ⟨fetch, d, messages, rest, hfetch, hplan, hseen, hrest, rfl⟩
  · exact ⟨none, (), ledger, rfl, h, .inl ⟨rfl, rfl, deliveries_of_no_sends hsends⟩⟩
  · refine ⟨_, (), _, rfl, h.commit (planCycle_eq_ok hplan).1,
      .inr ⟨d, messages, ⟨fetch, hfetch, hplan, rfl⟩, rfl, ?_⟩⟩
    dsimp only
    rw [← filterMap_delivery_visible, hseen]
    exact hrest.filterMap _

/-- A launch soon that is called off; the first cycle crashes before it sends. -/
def calledOff : List CycleCall :=
  [{ testCall [makeLaunch] kNow with crashAfter := some 3 },
    testCall [{ makeLaunch with status := .noGo }] (kNow + 600)]

theorem watcher_refines_ledger_calledOff : ∃ steps stored entries ledger,
    watcher.exec [] calledOff = .ok (steps, stored) ∧
      ledgerMachine.Run (fun _ => []) entries ledger ∧
      (ledger makeLaunch.key).map (·.kind) = [.launchSoon, .correction] ∧
      List.Forall₂ CommitsAs steps entries := by
  obtain ⟨steps, stored, hexec, hkinds⟩ : ∃ steps stored,
      watcher.exec [] calledOff = .ok (steps, stored) ∧
        sentKinds (recordOf stored makeLaunch.key) = [.launchSoon, .correction] :=
    ⟨_, _, rfl, rfl⟩
  obtain ⟨entries, ledger, hledger, hsummary, hall⟩ :=
    watcher_refines_ledger (Mealy.Run.of_exec hexec)
  refine ⟨steps, stored, entries, ledger, hexec, hledger, ?_, hall⟩
  rw [← sentKinds_ofAlerts, ← hsummary.recordOf_eq, hkinds]

end RocketWatcher
