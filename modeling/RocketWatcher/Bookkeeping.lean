import Mathlib.Order.Compare
import Mathlib.Data.String.Basic
import RocketWatcher.CycleSpec

/-!
# Bookkeeping of one cycle

No alert goes unrecorded and no record changes without an alert. `Booked` relates the
record a key had before the launch loop, the alerts the loop gave for the key so far, and
the record in force : every further alert of the key keeps it (`Booked.snoc`), so it holds
of the whole cycle (`booked_trackKey`), and `decideCycle_bookkeeping` reads it off the
returned records.
-/

namespace RocketWatcher

/-- The facts a correction replaces : those of the last alert before it in this cycle, or
those of the stored record. -/
def factsInForce (stored : Option AlertRecord) (before : List Alert) : Option LaunchFacts :=
  match before.getLast? with
  | some alert => some alert.launch.facts
  | none => stored.map (·.lastFacts)

/-- `alerts` are noted in `record`, and nothing else happened to `stored`. -/
structure Booked (now : Int) (stored record : Option AlertRecord) (alerts : List Alert) : Prop where
  untouched : alerts = [] → record = stored
  noted : ∀ last, alerts.getLast? = some last → ∃ r, record = some r ∧
    r.sentAlerts = stored.elim [] (·.sentAlerts) ++ alerts.map (fun a => ⟨a.kind, now, a.reason⟩) ∧
    r.lastFacts = last.launch.facts ∧ r.lastAlertAt = now ∧
    r.firstAlertAt = stored.elim now (·.firstAlertAt)
  previous : ∀ before a after, alerts = before ++ a :: after → a.kind = .correction →
    ∃ facts, factsInForce stored before = some facts ∧ a.previous = some facts

namespace Booked

variable {now : Int} {stored record : Option AlertRecord} {alerts : List Alert}

theorem start : Booked now stored stored [] where
  untouched _ := rfl
  noted := by simp
  previous := by simp

/-- The record in force has the facts a correction replaces. -/
theorem lastFacts_eq (h : Booked now stored record alerts) {r : AlertRecord}
    (hr : record = some r) : factsInForce stored alerts = some r.lastFacts := by
  unfold factsInForce
  cases hlast : alerts.getLast? with
  | none =>
    rw [← h.untouched (List.getLast?_eq_none_iff.mp hlast), hr]
    rfl
  | some last =>
    obtain ⟨r', hr', -, hfacts, -⟩ := h.noted last hlast
    obtain rfl : r = r' := by simpa [hr] using hr'
    rw [hfacts]

/-- One more alert of the key. -/
theorem snoc (h : Booked now stored record alerts) {policy : AlertPolicy} {terms : List String}
    {launch : Launch} {alert : Alert}
    (hd : Decides policy now terms launch record (some alert)) :
    Booked now stored (some (updatedRecord record launch alert now)) (alerts ++ [alert]) where
  untouched := by simp
  noted := by
    intro last hlast
    obtain rfl : alert = last := by simpa using hlast
    refine ⟨_, rfl, ?_⟩
    cases hlast : alerts.getLast? with
    | none =>
      obtain rfl := List.getLast?_eq_none_iff.mp hlast
      obtain rfl := h.untouched rfl
      cases record with
      | none => simp [updatedRecord, hd.launch_eq]
      | some r => simp [updatedRecord, hd.launch_eq]
    | some last =>
      obtain ⟨r, rfl, hsent, -, -, hfirst⟩ := h.noted last hlast
      simp [updatedRecord, hd.launch_eq, hsent, hfirst]
  previous := by
    intro before a after heq hk
    rcases List.eq_nil_or_concat after with rfl | ⟨after, b, rfl⟩
    · obtain ⟨rfl, ha⟩ := List.append_inj' heq rfl
      obtain rfl := List.singleton_inj.mp ha
      obtain ⟨r, hr, hprev⟩ := hd.of_correction hk
      exact ⟨r.lastFacts, h.lastFacts_eq hr, hprev⟩
    · have heq' : alerts ++ [alert] = (before ++ a :: after) ++ [b] := by simpa using heq
      exact h.previous before a after (List.append_inj' heq' rfl).1 hk

end Booked

variable {input : CycleInput} {records : List AlertRecord} {d : CycleDecision}

theorem booked_trackKey (input : CycleInput) (records : List AlertRecord) (launches : List Launch)
    (k : String) :
    Booked input.now (recordOf records k) (trackKey input records launches k).1
      (trackKey input records launches k).2 := by
  refine (launchMachine input).track_invariant (P := Booked input.now (recordOf records k))
    .start ?_
  intro record alerts launch r alert _ hbooked hstep
  obtain ⟨-, rfl, terms, hd⟩ := launchMachine_step_some hstep
  exact hbooked.snoc hd

/-- The whole bookkeeping of a cycle. The returned records are strictly increasing by key.
A key without alerts keeps its first stored record unchanged, unless the retention drops
it. A key with alerts has one record, to which exactly these alerts are appended in order.
A correction carries the facts in force just before it. -/
theorem decideCycle_bookkeeping (hret : 0 ≤ input.policy.retention)
    (h : decideCycle input records = .ok d) :
    (d.updatedRecords.map (·.key)).Pairwise (· < ·) ∧
    ∀ k, (d.alertsOf k = [] → ∀ r, r ∈ d.updatedRecords ∧ r.key = k ↔
          recordOf records k = some r ∧ input.now - r.lastAlertAt ≤ input.policy.retention) ∧
      (∀ last, (d.alertsOf k).getLast? = some last →
        ∃ r, (d.updatedRecords.filter fun r => r.key = k) = [r] ∧
          r.sentAlerts = (recordOf records k).elim [] (·.sentAlerts) ++
            (d.alertsOf k).map (fun a => ⟨a.kind, input.now, a.reason⟩) ∧
          r.lastFacts = last.launch.facts ∧ r.lastAlertAt = input.now ∧
          r.firstAlertAt = (recordOf records k).elim input.now (·.firstAlertAt)) ∧
      (∀ before a after, d.alertsOf k = before ++ a :: after → a.kind = .correction →
        ∃ facts, factsInForce (recordOf records k) before = some facts ∧
          a.previous = some facts) := by
  have hsorted := keySorted_updatedRecords h
  refine ⟨?_, fun k => ?_⟩
  · rw [List.pairwise_map]
    exact hsorted.imp fun hlt => compare_lt_iff_lt.mp hlt
  have hbooked := booked_trackKey input records input.launches k
  rw [decideCycle_alerts h k]
  refine ⟨fun hnone r => ?_, fun last hlast => ?_, hbooked.previous⟩
  · rw [← hbooked.untouched hnone, mem_updatedRecords h]
    constructor
    · rintro ⟨hr, rfl⟩
      exact hr
    · rintro ⟨hr, hret⟩
      obtain rfl := trackKey_key hr
      exact ⟨⟨hr, hret⟩, rfl⟩
  · obtain ⟨r, hr, hsent, hfacts, hlastAt, hfirstAt⟩ := hbooked.noted last hlast
    obtain rfl := trackKey_key hr
    have hmem : r ∈ d.updatedRecords := (mem_updatedRecords h).mpr ⟨hr, by omega⟩
    exact ⟨r, hsorted.filter_key_eq hmem, hsent, hfacts, hlastAt, hfirstAt⟩

/-- A launch listed twice is alerted once and has one record. -/
theorem decideCycle_bookkeeping_makeLaunch :
    ∃ d, decideCycle (testCycle [makeLaunch, makeLaunch] kNow) [] = .ok d ∧
      ∃ r, (d.updatedRecords.filter fun r => r.key = makeLaunch.key) = [r] ∧
        r.sentAlerts = [⟨.launchSoon, kNow, none⟩] ∧ r.lastAlertAt = kNow := by
  obtain ⟨d, hd, halerts⟩ : ∃ d, decideCycle (testCycle [makeLaunch, makeLaunch] kNow) [] = .ok d ∧
      d.alertsOf makeLaunch.key = [makeCountdown makeLaunch .launchSoon ["Starlink"] kNow] :=
    ⟨_, rfl, rfl⟩
  have hret : 0 ≤ (testCycle [makeLaunch, makeLaunch] kNow).policy.retention := by decide
  have hbooks := (decideCycle_bookkeeping hret hd).2 makeLaunch.key
  obtain ⟨r, hone, hsent, -, hlast, -⟩ := hbooks.2.1 _ (by rw [halerts]; rfl)
  rw [halerts] at hsent
  exact ⟨d, hd, r, hone, hsent, hlast⟩

end RocketWatcher
