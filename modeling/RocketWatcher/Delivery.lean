import RocketWatcher.Bookkeeping
import RocketWatcher.Watcher

/-!
# At-most-once delivery

No recipient is notified of one kind of alert twice for a launch, and none of a launch soon
after the launch was imminent, whatever fails and wherever the process crashes, unless the
record of the launch was dropped in between (`at_most_once`). Records are saved before
anything is sent, so every notification sent is noted in the stored record of its key until
the retention drops it (`Noted`), and a kind the record notes is not decided for again.
-/

namespace RocketWatcher

/-! ## The kinds one cycle sends -/

section Kinds

variable {input : CycleInput} {records : List AlertRecord} {d : CycleDecision} {k : String}

/-- The alerts of a key, against the kinds its stored record lists : `b` may follow `a`. -/
def MayFollow (a b : Alert) : Prop :=
  b.kind ≠ .correction → ¬Suppressed [a.kind] b.kind

/-- The record of a key lists the kinds it had and those of the alerts of the cycle, and
none of these alerts is suppressed by the ones before it. -/
theorem trackKey_kinds (input : CycleInput) (records : List AlertRecord) (launches : List Launch)
    (k : String) :
    sentKinds (trackKey input records launches k).1 =
        sentKinds (recordOf records k) ++ (trackKey input records launches k).2.map (·.kind) ∧
      (trackKey input records launches k).2.Pairwise MayFollow ∧
      ∀ a ∈ (trackKey input records launches k).2, a.kind ≠ .correction →
        ¬Suppressed (sentKinds (recordOf records k)) a.kind := by
  refine (launchMachine input).track_invariant (P := fun record alerts =>
    sentKinds record = sentKinds (recordOf records k) ++ alerts.map (·.kind) ∧
      alerts.Pairwise MayFollow ∧ ∀ a ∈ alerts, a.kind ≠ .correction →
        ¬Suppressed (sentKinds (recordOf records k)) a.kind) (by simp) ?_
  rintro record alerts launch r alert - ⟨hkinds, hpairwise, hstored⟩ hstep
  obtain ⟨-, rfl, terms, hd⟩ := launchMachine_step_some hstep
  have hunsent := fun hkind => hkinds ▸ hd.not_suppressed hkind
  refine ⟨by simp [hkinds], ?_, ?_⟩
  · refine List.pairwise_append.mpr ⟨hpairwise, List.pairwise_singleton _ _, ?_⟩
    intro a ha b hb hkind hsuppressed
    obtain rfl := List.mem_singleton.mp hb
    refine hunsent hkind (hsuppressed.mono fun kind hmem => ?_)
    rw [List.mem_singleton.mp hmem]
    exact List.mem_append_right _ (List.mem_map_of_mem ha)
  · intro a ha hkind hsuppressed
    rcases List.mem_append.mp ha with ha | ha
    · exact hstored a ha hkind hsuppressed
    · obtain rfl := List.mem_singleton.mp ha
      exact hunsent hkind (hsuppressed.mono (List.subset_append_left _ _))

/-- What the cycle leaves of a record : nothing once it is older than the retention, and
else all the kinds it had and those of the new alerts. -/
theorem decideCycle_kinds (h : decideCycle input records = .ok d)
    (hret : 0 ≤ input.policy.retention) (k : String) :
    (recordOf d.updatedRecords k = none ∧ d.alertsOf k = [] ∧ ∀ r, recordOf records k = some r →
      input.policy.retention < input.now - r.lastAlertAt) ∨
    sentKinds (recordOf d.updatedRecords k) =
      sentKinds (recordOf records k) ++ (d.alertsOf k).map (·.kind) := by
  have hkinds := (trackKey_kinds input records input.launches k).1
  have hbooked := booked_trackKey input records input.launches k
  have hrecord := recordOf_updatedRecords h k
  rw [← decideCycle_alerts h k] at hkinds hbooked
  cases halerts : (d.alertsOf k).getLast? with
  | some last =>
    obtain ⟨r, hr, -, -, hlast, -⟩ := hbooked.noted last halerts
    rw [hr] at hrecord hkinds
    right
    rw [hrecord, ← hkinds]
    simp [Option.filter, retained, hlast, hret]
  | none =>
    have hnone := List.getLast?_eq_none_iff.mp halerts
    rw [hbooked.untouched hnone] at hrecord
    cases hr : recordOf records k with
    | none => exact Or.inr (by simp [hrecord, hr, hnone])
    | some r =>
      rw [hr] at hrecord
      by_cases hkept : input.now - r.lastAlertAt ≤ input.policy.retention
      · right
        rw [hrecord, hnone]
        simp [Option.filter, retained, hkept]
      · left
        refine ⟨by rw [hrecord]; simp [Option.filter, retained, hkept], hnone, ?_⟩
        rintro _ ⟨rfl⟩
        exact not_le.mp hkept

/-- No alert of a cycle is suppressed by the stored record of its key. -/
theorem decideCycle_unsent (h : decideCycle input records = .ok d) {a : Alert}
    (ha : a ∈ d.alerts) (hkind : a.kind ≠ .correction) :
    ¬Suppressed (sentKinds (recordOf records a.launch.key)) a.kind := by
  have hmem : a ∈ d.alertsOf a.launch.key := List.mem_filter.mpr ⟨ha, by simp⟩
  rw [decideCycle_alerts h] at hmem
  exact (trackKey_kinds input records input.launches a.launch.key).2.2 a hmem hkind

/-- None is suppressed by an alert of its key before it. -/
theorem decideCycle_mayFollow (h : decideCycle input records = .ok d) :
    d.alerts.Pairwise fun a b => a.launch.key = b.launch.key → MayFollow a b := by
  rw [List.pairwise_iff_forall_sublist]
  intro a b hsub hkey
  have hsub' : [a, b].Sublist (d.alertsOf a.launch.key) := by
    simpa [CycleDecision.alertsOf, hkey] using
      hsub.filter fun c => decide (c.launch.key = a.launch.key)
  rw [decideCycle_alerts h] at hsub'
  have hpairwise := (trackKey_kinds input records input.launches
    a.launch.key).2.1.sublist hsub'
  simpa using hpairwise

end Kinds

/-! ## The effects of one cycle -/

section Cycle

variable {call : CycleCall} {stored stored' : List AlertRecord} {effects : List Effect}

theorem done_isPrefix (x : Cycle CycleOutcome) : call.done x <+: x.trace := by
  unfold CycleCall.done
  cases call.crashAfter with
  | none => exact List.prefix_rfl
  | some n => exact List.take_prefix n _

/-- A cycle of which no save that succeeds is seen neither stores nor sends. -/
def Idle (stored stored' : List AlertRecord) (effects : List Effect) : Prop :=
  stored' = stored ∧ ∀ m name, Effect.send m name ∉ effects

/-- A cycle that has saved its decision; then it sends, and may be cut short. -/
def Saved (call : CycleCall) (stored stored' : List AlertRecord) (effects : List Effect) : Prop :=
  ∃ launches d messages rest, planCycle call.env call.config launches stored = .ok (d, messages) ∧
    effects.filter Effect.visible = .save d.updatedRecords true :: rest ∧
    rest <+: allSends call.config messages ∧ stored' = d.updatedRecords

theorem idle_of_seen {seen : List Effect} (hstored : stored' = effects.foldl Effect.store stored)
    (hseen : effects.filter Effect.visible = seen)
    (hkeeps : seen.foldl Effect.store stored = stored)
    (hsends : ∀ m name, Effect.send m name ∉ seen) : Idle stored stored' effects := by
  constructor
  · rw [hstored, foldl_store_visible, hseen, hkeeps]
  · intro m name hmem
    exact hsends m name (hseen ▸ List.mem_filter.mpr ⟨hmem, rfl⟩)

/-- A cycle is idle, or saves the decision on the launches it has fetched. -/
theorem cycle_cases (hstep : watcher.step stored call = .ok (effects, stored')) :
    Idle stored stored' effects ∨ ∃ fetch d messages rest, call.env.fetch = .ok fetch ∧
      planCycle call.env call.config fetch.launches stored = .ok (d, messages) ∧
      effects.filter Effect.visible = .save d.updatedRecords true :: rest ∧
      rest <+: allSends call.config messages ∧ stored' = d.updatedRecords := by
  obtain ⟨heffects, hstored⟩ := watcherWith_step.mp hstep
  have hpart : effects.filter Effect.visible <+:
      (quietCycle recordsChanged call.env call.config stored).trace.filter Effect.visible := by
    rw [← (runCycleWith_quiet recordsChanged call.env call.config stored).trace, heffects]
    exact (done_isPrefix _).filter _
  have hidle (h : effects.filter Effect.visible <+: []) : Idle stored stored' effects :=
    idle_of_seen hstored (List.prefix_nil.mp h) rfl (by simp)
  unfold quietCycle at hpart
  cases hfetch : call.env.fetch with
  | error error =>
    rw [hfetch] at hpart
    exact .inl (hidle hpart)
  | ok fetch =>
    cases hload : call.env.loadError with
    | some error =>
      rw [hfetch, hload] at hpart
      cases error <;> exact .inl (hidle hpart)
    | none =>
      simp only [hfetch, hload] at hpart
      cases hplan : planCycle call.env call.config fetch.launches stored with
      | error error =>
        rw [hplan] at hpart
        exact .inl (hidle hpart)
      | ok plan =>
        obtain ⟨d, messages⟩ := plan
        simp only [hplan, Traced.ofExcept_ok_bind] at hpart
        cases hdry : call.env.dryRun with
        | true =>
          rw [hdry] at hpart
          exact .inl (hidle hpart)
        | false =>
          simp only [hdry, Bool.false_eq_true, ↓reduceIte] at hpart
          cases hchanged : recordsChanged stored d with
          | false =>
            obtain ⟨hnone, -⟩ : d.alerts = [] ∧ d.updatedRecords.length = stored.length := by
              simpa [recordsChanged] using hchanged
            obtain rfl : messages = [] := by
              simpa [hnone] using (planCycle_eq_ok hplan).2.1
            rw [hchanged] at hpart
            exact .inl (hidle (hpart.trans (emits_notify [] _).isPrefix))
          | true =>
            obtain ⟨rest, htrace, hrest⟩ := saveAndNotify_trace call.env call.config d
              messages { alertsCreated := d.alerts.length }
            simp only [hchanged, ↓reduceIte, htrace, List.prefix_cons_iff] at hpart
            rcases hpart with hnone | ⟨seen, hseen, hpart⟩
            · exact .inl (hidle (hnone ▸ List.prefix_rfl))
            have hsends := hpart.trans (hrest.trans (sendsAfterSave_isPrefix messages))
            cases hreplaced : call.env.saveAnswer.replaced with
            | true =>
              rw [hreplaced] at hseen
              refine .inr ⟨fetch, d, messages, seen, rfl, hplan, hseen, hsends, ?_⟩
              rw [hstored, foldl_store_visible, hseen, List.foldl_cons]
              exact foldl_store_of_isPrefix hsends
            | false =>
              rw [sendsAfterSave_of_not_replaced messages hreplaced] at hrest
              obtain rfl := List.prefix_nil.mp (hpart.trans hrest)
              rw [hreplaced] at hseen
              exact .inl (idle_of_seen hstored hseen rfl (by simp))

/-- A cycle is idle, or saves first and sends afterwards. -/
theorem cycle_effects (hstep : watcher.step stored call = .ok (effects, stored')) :
    Idle stored stored' effects ∨ Saved call stored stored' effects := by
  rcases cycle_cases hstep with hidle | ⟨fetch, d, messages, rest, -, hsaved⟩
  · exact .inl hidle
  · exact .inr ⟨fetch.launches, d, messages, rest, hsaved⟩

end Cycle

/-! ## Notifications -/

/-- The effect notifies the recipient of an alert of this kind for the key. -/
def Effect.Notifies (e : Effect) (k : String) (kind : AlertKind) (name : String) : Prop :=
  ∃ m, e = .send m name ∧ m.launchKey = k ∧ m.alertKind = kind.toString

/-- The second effect tells a recipient what the first one has made superfluous : the same
kind again, or for any recipient that the launch is soon after it was imminent. -/
def Effect.Repeats (first second : Effect) (k : String) : Prop :=
  ∃ kind kind' name name', kind ≠ .correction ∧ kind' ≠ .correction ∧
    first.Notifies k kind name ∧ second.Notifies k kind' name' ∧ Suppressed [kind] kind' ∧
    (kind = kind' → name = name')

section Sends

variable {env : CycleEnv} {config : Config} {launches : List Launch}
  {stored : List AlertRecord} {d : CycleDecision} {messages : List (Alert × Message)}

/-- A notification is of an alert of the decision. -/
theorem alert_of_send (hplan : planCycle env config launches stored = .ok (d, messages))
    {e : Effect} (he : e ∈ allSends config messages) {k name : String} {kind : AlertKind}
    (hnotifies : e.Notifies k kind name) :
    ∃ a ∈ d.alerts, a.launch.key = k ∧ a.kind = kind := by
  obtain ⟨created, hcreated, r, -, rfl⟩ := mem_allSends he
  obtain ⟨m, hm, rfl, hkind⟩ := hnotifies
  obtain ⟨rfl, -⟩ : created.2 = m ∧ r.name = name := by simpa using hm
  obtain ⟨-, hfst, zone, -, hmessages⟩ := planCycle_eq_ok hplan
  have hformat := hmessages created hcreated
  exact ⟨created.1, hfst ▸ List.mem_map_of_mem hcreated, (formatAlert_eq_ok hformat).1.symm,
    kind_of_message hformat hkind⟩

/-- One cycle makes no notification superfluous that it sends later. -/
theorem allSends_pairwise (hplan : planCycle env config launches stored = .ok (d, messages))
    (hnames : (config.recipients.map (·.name)).Nodup) :
    (allSends config messages).Pairwise fun first second => ∀ k, ¬first.Repeats second k := by
  obtain ⟨hdecide, hfst, zone, -, hmessages⟩ := planCycle_eq_ok hplan
  have hfollow := decideCycle_mayFollow hdecide
  rw [← hfst, List.pairwise_map] at hfollow
  refine List.pairwise_flatMap.mpr ⟨fun created _ => ?_, ?_⟩
  · rw [List.Nodup, List.pairwise_map] at hnames
    rw [List.pairwise_map]
    refine hnames.imp fun hne k hrepeats => hne ?_
    obtain ⟨kind, kind', name, name', -, -, ⟨m, hm, -, hkind⟩, ⟨m', hm', -, hkind'⟩, -, hsame⟩ :=
      hrepeats
    obtain ⟨rfl, rfl⟩ := Effect.send.inj hm
    obtain ⟨rfl, rfl⟩ := Effect.send.inj hm'
    exact hsame (AlertKind.toString_injective (hkind.symm.trans hkind'))
  · refine hfollow.imp_of_mem fun {p q} hp hq hmay e he e' he' k hrepeats => ?_
    obtain ⟨kind, kind', name, name', -, hne, ⟨m, hm, hkey, hkind⟩, ⟨m', hm', hkey', hkind'⟩,
      hsuppressed, -⟩ := hrepeats
    obtain ⟨r, -, rfl⟩ := List.mem_map.mp he
    obtain ⟨r', -, rfl⟩ := List.mem_map.mp he'
    obtain ⟨rfl, rfl⟩ := Effect.send.inj hm
    obtain ⟨rfl, rfl⟩ := Effect.send.inj hm'
    obtain rfl := kind_of_message (hmessages p hp) hkind
    obtain rfl := kind_of_message (hmessages q hq) hkind'
    refine hmay ?_ hne hsuppressed
    rw [← (formatAlert_eq_ok (hmessages p hp)).1, ← (formatAlert_eq_ok (hmessages q hq)).1, hkey,
      hkey']

end Sends

/-! ## Runs -/

/-- An effect, with the cycle it belongs to. -/
abbrev Event := WatcherStep × Effect

/-- Everything a run has done, in order. -/
def events (steps : List WatcherStep) : List Event :=
  steps.flatMap fun s => s.output.map fun e => (s, e)

/-- A cycle drops the record of key `k`, which is older than the retention. -/
def Event.Drops (event : Event) (k : String) : Prop :=
  ∃ records r, event.2 = .save records true ∧ recordOf event.1.before k = some r ∧
    event.1.input.config.policy.retention < event.1.input.env.now - r.lastAlertAt ∧
    recordOf records k = none

/-- What the cycles of a run are promised. -/
structure CycleCall.Admissible (call : CycleCall) : Prop where
  wet : call.env.dryRun = false
  retention : 0 ≤ call.config.policy.retention
  names : (call.config.recipients.map (·.name)).Nodup

/-- Every notification sent is noted in the stored record, or the record was dropped since. -/
def Noted (done : List Event) (stored : List AlertRecord) : Prop :=
  ∀ before first after, done = before ++ first :: after → ∀ k kind name,
    first.2.Notifies k kind name →
    (∃ event ∈ after, event.Drops k) ∨ kind ∈ sentKinds (recordOf stored k)

/-- Nothing superfluous was sent without a drop in between. -/
def NothingRepeated (done : List Event) : Prop :=
  ∀ before first mid second after, done = before ++ first :: mid ++ second :: after → ∀ k,
    first.2.Repeats second.2 k → ∃ event ∈ mid, event.Drops k

theorem append_eq_append_cons {α : Type*} {l l' before after : List α} {a : α}
    (h : l ++ l' = before ++ a :: after) :
    (∃ after', after = after' ++ l' ∧ l = before ++ a :: after') ∨
      ∃ before', before = l ++ before' ∧ l' = before' ++ a :: after := by
  rcases List.append_eq_append_iff.mp h with ⟨m, rfl, rfl⟩ | ⟨m, rfl, hm⟩
  · exact Or.inr ⟨m, rfl, rfl⟩
  · cases m with
    | nil => exact Or.inr ⟨[], by simp, by simpa using hm.symm⟩
    | cons b m =>
      obtain ⟨rfl, rfl⟩ := List.cons.inj hm
      exact Or.inl ⟨m, rfl, rfl⟩

section Step

variable {done : List Event} {call : CycleCall} {stored stored' : List AlertRecord}
  {effects : List Effect} {step : WatcherStep}

/-- The sends of a cycle that has saved are notifications of its decision. -/
theorem send_of_saved {d : CycleDecision} {messages : List (Alert × Message)}
    {rest : List Effect}
    (hseen : effects.filter Effect.visible = .save d.updatedRecords true :: rest)
    (hrest : rest <+: allSends call.config messages) {m : Message} {name : String}
    (h : Effect.send m name ∈ effects) : Effect.send m name ∈ allSends call.config messages := by
  have hvisible : Effect.send m name ∈ effects.filter Effect.visible :=
    List.mem_filter.mpr ⟨h, rfl⟩
  rw [hseen] at hvisible
  exact hrest.subset (by simpa using hvisible)

/-- A message that a cycle sends is that of an alert it has decided, for a recipient. -/
theorem alert_of_mem_effects (hstep : watcher.step stored call = .ok (effects, stored'))
    {m : Message} {name : String} (h : Effect.send m name ∈ effects) :
    name ∈ call.config.recipients.map (·.name) ∧ ∃ fetch d a zone, call.env.fetch = .ok fetch ∧
      decideCycle (cycleInput call.env call.config fetch.launches) stored = .ok d ∧
      a ∈ d.alerts ∧ call.config.displayZone call.env.locateZone = .ok zone ∧
      formatAlert a zone = .ok m := by
  rcases cycle_cases hstep with ⟨-, hnone⟩ | ⟨fetch, d, messages, rest, hok, hplan, hseen, hrest, -⟩
  · exact absurd h (hnone m name)
  obtain ⟨created, hcreated, r, hr, heq⟩ := mem_allSends (send_of_saved hseen hrest h)
  obtain ⟨rfl, rfl⟩ := Effect.send.inj heq
  obtain ⟨hdecide, halerts, zone, hzone, hformat⟩ := planCycle_eq_ok hplan
  exact ⟨List.mem_map_of_mem hr, fetch, d, created.1, zone, hok, hdecide,
    halerts ▸ List.mem_map_of_mem hcreated, hzone, hformat created hcreated⟩

theorem Noted.of_idle (h : Noted done stored) (hidle : Idle stored stored' effects) :
    Noted (done ++ effects.map (step, ·)) stored' := by
  obtain ⟨rfl, hsends⟩ := hidle
  intro before first after heq k kind name hnotifies
  rcases append_eq_append_cons heq with ⟨after', rfl, hdone⟩ | ⟨before', rfl, hnew⟩
  · exact (h before first after' hdone k kind name hnotifies).imp_left
      fun ⟨event, hevent, hdrops⟩ => ⟨event, List.mem_append_left _ hevent, hdrops⟩
  · have hmem : first ∈ effects.map (step, ·) := hnew ▸ by simp
    obtain ⟨e, he, rfl⟩ := List.mem_map.mp hmem
    obtain ⟨m, rfl, -⟩ := hnotifies
    exact absurd he (hsends m name)

theorem Noted.of_saved (h : Noted done stored) (hret : 0 ≤ call.config.policy.retention)
    (hsaved : Saved call stored stored' effects) :
    Noted (done ++ effects.map (⟨stored, call, effects, stored'⟩, ·)) stored' := by
  obtain ⟨launches, d, messages, rest, hplan, hseen, hrest, rfl⟩ := hsaved
  obtain ⟨hdecide, -, -⟩ := planCycle_eq_ok hplan
  have hsave : Effect.save d.updatedRecords true ∈ effects :=
    List.mem_of_mem_filter (hseen ▸ List.mem_cons_self)
  intro before first after heq k kind name hnotifies
  have hkinds := decideCycle_kinds hdecide hret k
  rcases append_eq_append_cons heq with ⟨after', rfl, hdone⟩ | ⟨before', rfl, hnew⟩
  · rcases h before first after' hdone k kind name hnotifies with
      ⟨event, hevent, hdrops⟩ | hnoted
    · exact Or.inl ⟨event, List.mem_append_left _ hevent, hdrops⟩
    rcases hkinds with ⟨hnone, -, hold⟩ | hkept
    · obtain ⟨r, hr⟩ : ∃ r, recordOf stored k = some r := by
        cases hr : recordOf stored k with
        | none => simp [hr, sentKinds] at hnoted
        | some r => exact ⟨r, rfl⟩
      exact Or.inl ⟨_, List.mem_append_right _ (List.mem_map_of_mem hsave), _, r, rfl, hr,
        hold r hr, hnone⟩
    · exact Or.inr (hkept ▸ List.mem_append_left _ hnoted)
  · have hmem : first ∈ effects.map (⟨stored, call, effects, d.updatedRecords⟩, ·) :=
      hnew ▸ by simp
    obtain ⟨e, he, rfl⟩ := List.mem_map.mp hmem
    obtain ⟨m, rfl, hm⟩ := hnotifies
    obtain ⟨a, ha, hkey, rfl⟩ := alert_of_send hplan (send_of_saved hseen hrest he) ⟨m, rfl, hm⟩
    have halert : a ∈ d.alertsOf k := List.mem_filter.mpr ⟨ha, by simp [hkey]⟩
    rcases hkinds with ⟨-, hnone, -⟩ | hkept
    · simp [hnone] at halert
    · exact Or.inr (hkept ▸ List.mem_append_right _ (List.mem_map_of_mem halert))

/-- A cycle sends nothing that the notifications before it have made superfluous. -/
theorem NothingRepeated.append (h : NothingRepeated done)
    (hold : ∀ before first after, done = before ++ first :: after → ∀ e ∈ effects, ∀ k,
      first.2.Repeats e k → ∃ event ∈ after, event.Drops k)
    (hnew : ∀ first second, [first, second].Sublist effects → ∀ k, ¬first.Repeats second k) :
    NothingRepeated (done ++ effects.map (step, ·)) := by
  intro before first mid second after heq k hrepeats
  rcases append_eq_append_cons heq with ⟨after', -, hdone⟩ | ⟨before', hbefore, hlate⟩
  · exact h before first mid second after' hdone k hrepeats
  have hmem : second ∈ effects.map (step, ·) := hlate ▸ by simp
  obtain ⟨e, he, rfl⟩ := List.mem_map.mp hmem
  rcases append_eq_append_cons hbefore.symm with ⟨mid', rfl, hdone⟩ | ⟨early, -, rfl⟩
  · obtain ⟨event, hevent, hdrops⟩ := hold before first mid' hdone e he k hrepeats
    exact ⟨event, List.mem_append_left _ hevent, hdrops⟩
  · have hsub : [first, (step, e)].Sublist (effects.map (step, ·)) := by
      rw [hlate, List.append_assoc, List.cons_append]
      refine List.sublist_append_of_sublist_right (List.Sublist.cons_cons _ ?_)
      exact List.sublist_append_of_sublist_right (by simp)
    have hsub' : [first.2, e].Sublist effects := by
      simpa [Function.comp_def] using hsub.map Prod.snd
    exact absurd hrepeats (hnew first.2 e hsub' k)

theorem NothingRepeated.of_idle (h : NothingRepeated done)
    (hidle : Idle stored stored' effects) : NothingRepeated (done ++ effects.map (step, ·)) := by
  refine h.append (fun _ first _ _ e he k hrepeats => ?_) (fun first second hsub k hrepeats => ?_)
  all_goals
    obtain ⟨_, _, _, name', -, -, -, ⟨m', rfl, -⟩, -⟩ := hrepeats
  · exact absurd he (hidle.2 m' name')
  · exact absurd (hsub.subset (by simp)) (hidle.2 m' name')

theorem NothingRepeated.of_saved (h : NothingRepeated done) (hnoted : Noted done stored)
    (hnames : (call.config.recipients.map (·.name)).Nodup)
    (hsaved : Saved call stored stored' effects) :
    NothingRepeated (done ++ effects.map (step, ·)) := by
  obtain ⟨launches, d, messages, rest, hplan, hseen, hrest, -⟩ := hsaved
  obtain ⟨hdecide, -, -⟩ := planCycle_eq_ok hplan
  refine h.append (fun before first after hdone e he k hrepeats => ?_)
    (fun first second hsub k hrepeats => ?_)
  · obtain ⟨kind, kind', name, name', -, hne, hfirst, ⟨m', rfl, hm'⟩, hsuppressed, -⟩ := hrepeats
    refine (hnoted before first after hdone k kind name hfirst).resolve_right fun hlisted => ?_
    obtain ⟨a, ha, rfl, rfl⟩ := alert_of_send hplan (send_of_saved hseen hrest he) ⟨m', rfl, hm'⟩
    refine decideCycle_unsent hdecide ha hne (hsuppressed.mono fun sent hsent => ?_)
    rwa [List.mem_singleton.mp hsent]
  · obtain ⟨_, _, name, name', -, -, ⟨m, rfl, -⟩, ⟨m', rfl, -⟩, -⟩ := id hrepeats
    have hvisible : [Effect.send m name, .send m' name'].Sublist
        (.save d.updatedRecords true :: rest) := hseen ▸ hsub.filter Effect.visible
    have hsends : [Effect.send m name, .send m' name'].Sublist (allSends call.config messages) := by
      cases hvisible with
      | cons _ hsub => exact hsub.trans hrest.sublist
    have hpairwise := (allSends_pairwise hplan hnames).sublist hsends
    exact (List.pairwise_pair.mp hpairwise) k hrepeats

end Step

/-- What every run from an empty store keeps. -/
theorem noted_of_run {steps : List WatcherStep} {stored : List AlertRecord}
    (hrun : watcher.Run [] steps stored) (hadm : ∀ s ∈ steps, s.input.Admissible) :
    Noted (events steps) stored ∧ NothingRepeated (events steps) := by
  revert hadm
  refine hrun.invariant (P := fun steps stored => (∀ s ∈ steps, s.input.Admissible) →
    Noted (events steps) stored ∧ NothingRepeated (events steps)) ?_ ?_
  · refine fun _ => ⟨fun before first after h => ?_, fun before first mid second after h => ?_⟩
    · simp [events] at h
    · simp [events] at h
  · intro steps stored call effects stored' _ ih hstep hadm
    obtain ⟨hnoted, hrepeated⟩ := ih fun s hs => hadm s (List.mem_append_left _ hs)
    obtain ⟨-, hret, hnames⟩ : call.Admissible :=
      hadm ⟨stored, call, effects, stored'⟩ (List.mem_append_right _ List.mem_cons_self)
    have hevents : events (steps ++ [⟨stored, call, effects, stored'⟩]) =
        events steps ++ effects.map (⟨stored, call, effects, stored'⟩, ·) := by simp [events]
    rw [hevents]
    rcases cycle_effects hstep with hidle | hsaved
    · exact ⟨hnoted.of_idle hidle, hrepeated.of_idle hidle⟩
    · exact ⟨hnoted.of_saved hret hsaved, hrepeated.of_saved hnoted hnames hsaved⟩

/-- At-most-once delivery. In every run of the watcher from an empty store, whatever its
sources, stores and channels answer and wherever its cycles are cut short : a recipient gets
two notifications of one kind for a key only if a cycle between them drops the record of the
key, and the same holds of a launch-soon notification after a launch-imminent one. -/
theorem at_most_once {steps : List WatcherStep} {stored : List AlertRecord}
    (hrun : watcher.Run [] steps stored) (hadm : ∀ s ∈ steps, s.input.Admissible)
    {before mid after : List Event} {first second : Event}
    (hevents : events steps = before ++ first :: mid ++ second :: after) (k : String) :
    (∀ kind name, kind ≠ .correction → first.2.Notifies k kind name →
      second.2.Notifies k kind name → ∃ event ∈ mid, event.Drops k) ∧
    (∀ name name', first.2.Notifies k .launchImminent name →
      second.2.Notifies k .launchSoon name' → ∃ event ∈ mid, event.Drops k) := by
  have hrepeated := (noted_of_run hrun hadm).2 before first mid second after hevents k
  refine ⟨fun kind name hne hfirst hsecond => hrepeated ?_, fun name name' hfirst hsecond =>
    hrepeated ?_⟩
  · exact ⟨kind, kind, name, name, hne, hne, hfirst, hsecond, .of_mem List.mem_cons_self,
      fun _ => rfl⟩
  · exact ⟨.launchImminent, .launchSoon, name, name', by simp, by simp, hfirst, hsecond,
      Or.inr List.mem_cons_self, by simp⟩

theorem eq_take_cons_drop {α : Type*} {l : List α} {i : Nat} {a : α} (h : l[i]? = some a) :
    l = l.take i ++ a :: l.drop (i + 1) := by
  obtain ⟨hi, rfl⟩ := List.getElem?_eq_some_iff.mp h
  rw [← List.drop_eq_getElem_cons hi, List.take_append_drop]

/-- The launch of the test suite, under its key, 40 days later. -/
def nextLaunch : Launch := { makeLaunch with launchTime := some (kNow + 3458700) }

theorem testCall_admissible (launches : List Launch) (now : Int) :
    (testCall launches now).Admissible where
  wet := rfl
  retention := (by decide : 0 ≤ makeConfig.policy.retention)
  names := (by decide : (makeConfig.recipients.map (·.name)).Nodup)

/-- Alice hears of the launch again because its record was dropped after a month. -/
theorem at_most_once_makeLaunch :
    ∃ steps stored, watcher.Run [] steps stored ∧
      steps.map (·.input.env.now) = [kNow, kNow + 2678400, kNow + 3456000] ∧
      ∃ before first mid second after, events steps = before ++ first :: mid ++ second :: after ∧
        first.2.Notifies makeLaunch.key .launchSoon "alice" ∧
        second.2.Notifies makeLaunch.key .launchSoon "alice" ∧
        ∃ event ∈ mid, event.Drops makeLaunch.key := by
  obtain ⟨steps, stored, first, second, hexec, hnow, hadm, hi, hj, hfirst, hsecond⟩ :
      ∃ steps stored first second, watcher.exec [] [testCall [makeLaunch] kNow,
          testCall [] (kNow + 2678400), testCall [nextLaunch] (kNow + 3456000)] =
          .ok (steps, stored) ∧
        steps.map (·.input.env.now) = [kNow, kNow + 2678400, kNow + 3456000] ∧
        (∀ s ∈ steps, s.input.Admissible) ∧
        (events steps)[5]? = some first ∧ ((events steps).drop 6)[11]? = some second ∧
        first.2.Notifies makeLaunch.key .launchSoon "alice" ∧
        second.2.Notifies makeLaunch.key .launchSoon "alice" := by
    refine ⟨_, _, _, _, rfl, rfl, ?_, rfl, rfl, ⟨_, rfl, rfl, rfl⟩, ⟨_, rfl, rfl, rfl⟩⟩
    simp [testCall_admissible]
  have hrun := Mealy.Run.of_exec hexec
  have hevents : events steps = (events steps).take 5 ++
      first :: ((events steps).drop 6).take 11 ++ second :: ((events steps).drop 6).drop 12 := by
    rw [List.append_assoc, List.cons_append, ← eq_take_cons_drop hj]
    exact eq_take_cons_drop hi
  exact ⟨steps, stored, hrun, hnow, _, first, _, second, _, hevents, hfirst, hsecond,
    (at_most_once hrun hadm hevents makeLaunch.key).1 .launchSoon "alice" (by simp) hfirst hsecond⟩

end RocketWatcher
