import RocketWatcher.CountdownText
import RocketWatcher.Watcher

/-!
# A cycle is all or nothing

A cycle whose fetch, load or save fails, and a dry run, sends nothing and leaves the stored
records alone. Every other cycle sends each alert to each recipient, after the save, whatever
the deliveries report, and what it stores does not depend on them. The outcome is ok exactly
when nothing failed (`cycle_atomic`).
-/

open Traced

namespace RocketWatcher

variable {env : CycleEnv} {config : Config} {stored : List AlertRecord}

/-- The ways the collaborators of a cycle can fail : a load or a save with a storage error, a
failed save leaves the stored records alone, and the channel never throws. -/
structure Collaborators (env : CycleEnv) : Prop where
  load : ∀ error, env.loadError = some error → ∃ what, error = .storageError what
  save : env.saveAnswer = .saved ∨ ∃ what, env.saveAnswer = .failed (.storageError what) false
  send : ∀ n message name, ∃ result, env.send n message name = .ok result

/-- Something keeps the cycle from notifying. -/
def Blocked (env : CycleEnv) : Prop :=
  (∃ error, env.fetch = .error error) ∨ env.loadError ≠ none ∨ env.dryRun = true ∨
    env.saveAnswer ≠ .saved

def Effect.isSend : Effect → Bool
  | .send .. => true
  | .log _ | .save .. => false

/-- The sends of a script, in order. -/
def sends (x : Cycle CycleOutcome) : List Effect :=
  x.trace.filter Effect.isSend

/-- The records stored after a script. -/
def storedBy (x : Cycle CycleOutcome) (stored : List AlertRecord) : List AlertRecord :=
  x.trace.foldl Effect.store stored

/-- The deliveries are the channel's answers to the sends, in order. -/
structure Answered (env : CycleEnv) (effects : List Effect) (deliveries : List DeliveryResult) :
    Prop where
  length_eq : effects.length = deliveries.length
  answer : ∀ n message name, effects[n]? = some (.send message name) →
    ∃ result, env.send n message name = .ok result ∧ deliveries[n]? = some result

theorem Answered.nil : Answered env [] [] :=
  ⟨rfl, by simp⟩

/-- All deliveries are reported ok when every answer is. -/
theorem Answered.all_ok_iff {effects : List Effect} {deliveries : List DeliveryResult}
    (h : Answered env effects deliveries) (hsends : ∀ e ∈ effects, ∃ m r, e = .send m r) :
    (∀ delivery ∈ deliveries, delivery.ok = true) ↔
      ∀ n message name, effects[n]? = some (.send message name) →
        ∃ result, env.send n message name = .ok result ∧ result.ok = true := by
  constructor
  · intro hall n message name hn
    obtain ⟨result, hresult, hdelivered⟩ := h.answer n message name hn
    exact ⟨result, hresult, hall result (List.mem_of_getElem? hdelivered)⟩
  · intro hall delivery hdelivery
    obtain ⟨n, hn, rfl⟩ := List.getElem_of_mem hdelivery
    have hlt : n < effects.length := h.length_eq ▸ hn
    obtain ⟨message, name, hsend⟩ := hsends _ (List.getElem_mem hlt)
    have hsent : effects[n]? = some (.send message name) := by
      rw [List.getElem?_eq_getElem hlt, hsend]
    obtain ⟨result, hresult, hok⟩ := hall n message name hsent
    obtain ⟨result', hresult', hdelivered⟩ := h.answer n message name hsent
    rw [List.getElem?_eq_getElem hn, Option.some.injEq] at hdelivered
    rw [hdelivered, Except.ok.inj (hresult'.symm.trans hresult), hok]

theorem deliverTo_answered (hc : Collaborators env) {effects : List Effect}
    {deliveries : List DeliveryResult} (h : Answered env effects deliveries) (message : Message)
    (recipient : Recipient) :
    ∃ deliveries', (deliverTo env message deliveries recipient).result = .ok deliveries' ∧
      Answered env (effects ++ [.send message recipient.name]) deliveries' := by
  obtain ⟨result, hresult⟩ := hc.send deliveries.length message recipient.name
  refine ⟨deliveries ++ [result], ?_, by simp [h.length_eq], ?_⟩
  · simp only [deliverTo, hresult]
    rfl
  · intro n message' name hn
    rcases lt_trichotomy n effects.length with hlt | rfl | hgt
    · rw [List.getElem?_append_left hlt] at hn
      rw [List.getElem?_append_left (h.length_eq ▸ hlt)]
      exact h.answer n message' name hn
    · rw [List.getElem?_concat_length] at hn
      obtain ⟨rfl, rfl⟩ := Effect.send.inj (Option.some.inj hn)
      exact ⟨result, by rw [h.length_eq]; exact hresult, by rw [h.length_eq]; simp⟩
    · rw [List.getElem?_eq_none (by simpa [Nat.succ_le_iff] using hgt)] at hn
      cases hn

/-- Every alert goes to every recipient, whatever the deliveries report. -/
theorem notify_answered (hc : Collaborators env) (config : Config)
    (messages : List (Alert × Message)) (outcome : CycleOutcome)
    (houtcome : outcome.deliveries = []) :
    ∃ deliveries, (notify env config messages outcome).result =
        .ok { outcome with deliveries } ∧
      Answered env (allSends config messages) deliveries := by
  have hloop : ∃ deliveries, (messages.foldlM (notifyAlert env config) outcome.deliveries).result =
      .ok deliveries ∧ Answered env ([] ++ allSends config messages) deliveries := by
    refine foldlM_result (R := Answered env) (fun effects deliveries created _ h => ?_)
      (houtcome ▸ Answered.nil)
    rw [List.map_eq_flatMap]
    show ∃ deliveries', (config.recipients.foldlM (deliverTo env created.2) deliveries).result =
      .ok deliveries' ∧ _
    exact foldlM_result (R := Answered env)
      (fun effects deliveries r _ h => deliverTo_answered hc h created.2 r) h
  obtain ⟨deliveries, hresult, hanswered⟩ := hloop
  refine ⟨deliveries, ?_, by simpa using hanswered⟩
  rw [notify, bind_of_ok hresult]
  rfl

/-- With include terms and a known zone the cycle gets as far as its messages. -/
theorem planCycle_isOk {zone : TimeZone} (hterms : config.includeTerms ≠ [])
    (hzone : config.displayZone env.locateZone = .ok zone) (launches : List Launch)
    (stored : List AlertRecord) :
    ∃ plan, planCycle env config launches stored = .ok plan := by
  obtain ⟨d, hd⟩ : ∃ d, decideCycle (cycleInput env config launches) stored = .ok d :=
    decideCycle_isOk stored hterms
  obtain ⟨messages, hmessages⟩ : ∃ messages, formatAlerts d.alerts zone = .ok messages := by
    refine Except.mapM_isOk fun alert halert => ?_
    obtain ⟨terms, launch, record, hdecides⟩ := decideCycle_mem_alerts hd halert
    obtain ⟨message, hmessage⟩ := hdecides.formatAlert_isOk zone
    exact ⟨(alert, message), Except.bind_eq_ok.mpr ⟨message, hmessage, rfl⟩⟩
  refine ⟨(d, messages), ?_⟩
  simp [planCycle, hd, hzone, hmessages]

/-- How a cycle ends : its outcome, and its saves and sends. -/
inductive CycleEnds (env : CycleEnv) (config : Config) (stored : List AlertRecord) :
    CycleOutcome → List Effect → Prop
  | fetchFailed {error} (fetch : env.fetch = .error error) :
      CycleEnds env config stored { sourceFailed := true } []
  | loadFailed {fetch error} (fetched : env.fetch = .ok fetch)
      (load : env.loadError = some error) :
      CycleEnds env config stored { saveFailed := true } []
  | dryRun {fetch plan} (fetched : env.fetch = .ok fetch) (loaded : env.loadError = none)
      (planned : planCycle env config fetch.launches stored = .ok plan)
      (dry : env.dryRun = true) :
      CycleEnds env config stored { alertsCreated := plan.1.alerts.length } []
  | unchanged {fetch plan} (fetched : env.fetch = .ok fetch) (loaded : env.loadError = none)
      (planned : planCycle env config fetch.launches stored = .ok plan)
      (wet : env.dryRun = false) (same : recordsChanged stored plan.1 = false) :
      CycleEnds env config stored {} []
  | saved {fetch plan deliveries} (fetched : env.fetch = .ok fetch)
      (loaded : env.loadError = none)
      (planned : planCycle env config fetch.launches stored = .ok plan)
      (wet : env.dryRun = false) (changed : recordsChanged stored plan.1 = true)
      (save : env.saveAnswer = .saved)
      (answered : Answered env (allSends config plan.2) deliveries) :
      CycleEnds env config stored { alertsCreated := plan.1.alerts.length, deliveries }
        (.save plan.1.updatedRecords true :: allSends config plan.2)
  | saveFailed {fetch plan what} (fetched : env.fetch = .ok fetch)
      (loaded : env.loadError = none)
      (planned : planCycle env config fetch.launches stored = .ok plan)
      (wet : env.dryRun = false) (changed : recordsChanged stored plan.1 = true)
      (save : env.saveAnswer = .failed (.storageError what) false) :
      CycleEnds env config stored
        { alertsCreated := plan.1.alerts.length, saveFailed := true }
        [.save plan.1.updatedRecords false]

/-- A cycle that is not saved has nothing to send. -/
theorem no_messages_of_unchanged {launches : List Launch}
    {plan : CycleDecision × List (Alert × Message)}
    (hplan : planCycle env config launches stored = .ok plan)
    (hsame : recordsChanged stored plan.1 = false) : plan.1.alerts = [] ∧ plan.2 = [] := by
  obtain ⟨-, hmessages, -⟩ := planCycle_eq_ok hplan
  have halerts : plan.1.alerts = [] := by
    simp only [recordsChanged, Bool.or_eq_false_iff, Bool.not_eq_false'] at hsame
    simpa using hsame.1
  rw [halerts, List.map_eq_nil_iff] at hmessages
  exact ⟨halerts, hmessages⟩

/-- Every cycle ends in one of these ways. -/
theorem runCycle_ends {zone : TimeZone} (hterms : config.includeTerms ≠ [])
    (hzone : config.displayZone env.locateZone = .ok zone) (hc : Collaborators env)
    (stored : List AlertRecord) :
    ∃ outcome effects, (runCycle env config stored).result = .ok outcome ∧
      (runCycle env config stored).trace.filter Effect.visible = effects ∧
      CycleEnds env config stored outcome effects := by
  have hquiet := runCycleWith_quiet recordsChanged env config stored
  rw [runCycle, hquiet.result, hquiet.trace, quietCycle]
  cases hfetch : env.fetch with
  | error error => exact ⟨_, _, rfl, rfl, .fetchFailed hfetch⟩
  | ok fetch =>
    cases hload : env.loadError with
    | some error =>
      obtain ⟨what, rfl⟩ := hc.load error hload
      exact ⟨_, _, rfl, rfl, .loadFailed hfetch hload⟩
    | none =>
      obtain ⟨plan, hplan⟩ := planCycle_isOk hterms hzone fetch.launches stored
      simp only [hplan, Traced.ofExcept_ok_bind]
      cases hdry : env.dryRun with
      | true => exact ⟨_, _, rfl, rfl, .dryRun hfetch hload hplan hdry⟩
      | false =>
        simp only [Bool.false_eq_true, ↓reduceIte]
        cases hchanged : recordsChanged stored plan.1 with
        | false =>
          obtain ⟨halerts, hmessages⟩ := no_messages_of_unchanged hplan hchanged
          simp only [Bool.false_eq_true, ↓reduceIte, halerts, hmessages]
          exact ⟨_, _, rfl, rfl, .unchanged hfetch hload hplan hdry hchanged⟩
        | true =>
          simp only [↓reduceIte]
          rcases hc.save with hsave | ⟨what, hsave⟩
          · obtain ⟨deliveries, hresult, hanswered⟩ := notify_answered hc config plan.2
              { alertsCreated := plan.1.alerts.length } rfl
            have hends := CycleEnds.saved hfetch hload hplan hdry hchanged hsave hanswered
            refine ⟨_, _, ?_, ?_, hends⟩
            · simp only [saveAndNotify, afterSave, hsave]
              exact hresult
            · simp only [saveAndNotify, afterSave, hsave, SaveAnswer.replaced]
              have hsends := (emits_notify plan.2
                { alertsCreated := plan.1.alerts.length }).eq_of_ok _ hresult
              rw [← hsends]
              rfl
          · have hends := CycleEnds.saveFailed hfetch hload hplan hdry hchanged hsave
            refine ⟨_, _, ?_, ?_, hends⟩
            all_goals
              simp only [saveAndNotify, afterSave, hsave, SaveAnswer.replaced]
              rfl

/-- Sends and stores are seen. -/
theorem sends_eq_filter (x : Cycle CycleOutcome) :
    sends x = (x.trace.filter Effect.visible).filter Effect.isSend := by
  rw [sends, List.filter_filter]
  refine List.filter_congr fun e _ => ?_
  cases e <;> rfl

theorem storedBy_eq_foldl (x : Cycle CycleOutcome) (stored : List AlertRecord) :
    storedBy x stored = (x.trace.filter Effect.visible).foldl Effect.store stored :=
  foldl_store_visible x.trace stored

theorem filter_isSend_allSends (config : Config) (messages : List (Alert × Message)) :
    (allSends config messages).filter Effect.isSend = allSends config messages := by
  refine List.filter_eq_self.mpr fun e he => ?_
  obtain ⟨_, -, _, -, rfl⟩ := mem_allSends he
  rfl

/-- A blocked cycle shows nothing but a save that changed nothing. -/
theorem CycleEnds.of_blocked {outcome : CycleOutcome} {effects : List Effect}
    (h : CycleEnds env config stored outcome effects) (hblocked : Blocked env) :
    effects.filter Effect.isSend = [] ∧ effects.foldl Effect.store stored = stored := by
  cases h with
  | fetchFailed | loadFailed | dryRun | unchanged | saveFailed => exact ⟨rfl, rfl⟩
  | saved fetched loaded _ wet _ save => simp [Blocked, fetched, loaded, wet, save] at hblocked

/-- The outcome is ok when nothing failed. -/
theorem CycleEnds.ok_iff {outcome : CycleOutcome} {effects : List Effect}
    (h : CycleEnds env config stored outcome effects) :
    outcome.ok = true ↔ (∃ fetch, env.fetch = .ok fetch) ∧ env.loadError = none ∧
      (∀ records, .save records false ∉ effects) ∧
      ∀ n message name, (effects.filter Effect.isSend)[n]? = some (.send message name) →
        ∃ result, env.send n message name = .ok result ∧ result.ok = true := by
  cases h with
  | fetchFailed fetch => simp [CycleOutcome.ok, fetch]
  | loadFailed _ load => simp [CycleOutcome.ok, load]
  | dryRun fetched loaded => simp [CycleOutcome.ok, CycleOutcome.anyDeliveryFailed, fetched, loaded]
  | unchanged fetched loaded =>
    simp [CycleOutcome.ok, CycleOutcome.anyDeliveryFailed, fetched, loaded]
  | saveFailed => simp [CycleOutcome.ok]
  | @saved fetch plan deliveries fetched loaded _ _ _ _ answered =>
    have hnosave : ∀ records, Effect.save records false ∉ allSends config plan.2 := by
      intro records hmem
      obtain ⟨_, -, _, -, heq⟩ := mem_allSends hmem
      cases heq
    rw [List.filter_cons_of_neg Bool.false_ne_true, filter_isSend_allSends,
      ← answered.all_ok_iff fun e he => by
        obtain ⟨_, -, _, -, heq⟩ := mem_allSends he
        exact ⟨_, _, heq⟩]
    simp [CycleOutcome.ok, CycleOutcome.anyDeliveryFailed, fetched, loaded, hnosave]

/-- A cycle that is not blocked saves if it has to, and then sends everything. -/
theorem CycleEnds.of_not_blocked {outcome : CycleOutcome} {effects : List Effect} {zone : TimeZone}
    (h : CycleEnds env config stored outcome effects) (hfree : ¬Blocked env)
    (hzone : config.displayZone env.locateZone = .ok zone) :
    ∃ fetch d messages, env.fetch = .ok fetch ∧
      decideCycle (cycleInput env config fetch.launches) stored = .ok d ∧
      messages.map Prod.fst = d.alerts ∧
      (∀ created ∈ messages, formatAlert created.1 zone = .ok created.2) ∧
      effects = (if recordsChanged stored d then [.save d.updatedRecords true] else []) ++
        allSends config messages := by
  simp only [Blocked, not_or, not_exists, ne_eq, not_not, Bool.not_eq_true] at hfree
  obtain ⟨hfetch, hload, hdry, hsave⟩ := hfree
  have hplanned {fetch : FetchResult} {plan : CycleDecision × List (Alert × Message)}
      (hplan : planCycle env config fetch.launches stored = .ok plan) :
      decideCycle (cycleInput env config fetch.launches) stored = .ok plan.1 ∧
        plan.2.map Prod.fst = plan.1.alerts ∧
        ∀ created ∈ plan.2, formatAlert created.1 zone = .ok created.2 := by
    obtain ⟨hdecide, hfst, zone', hzone', hformat⟩ := planCycle_eq_ok hplan
    obtain rfl : zone = zone' := Except.ok.inj (hzone.symm.trans hzone')
    exact ⟨hdecide, hfst, hformat⟩
  cases h with
  | fetchFailed fetch => exact absurd fetch (hfetch _)
  | loadFailed _ load => simp [hload] at load
  | dryRun _ _ _ dry => simp [hdry] at dry
  | saveFailed _ _ _ _ _ save => simp [hsave] at save
  | @unchanged fetch plan fetched _ planned _ same =>
    obtain ⟨hdecide, hfst, hformat⟩ := hplanned planned
    refine ⟨fetch, plan.1, plan.2, fetched, hdecide, hfst, hformat, ?_⟩
    rw [same, (no_messages_of_unchanged planned same).2]
    rfl
  | @saved fetch plan _ fetched _ planned _ changed =>
    obtain ⟨hdecide, hfst, hformat⟩ := hplanned planned
    refine ⟨fetch, plan.1, plan.2, fetched, hdecide, hfst, hformat, ?_⟩
    rw [changed]
    rfl

/-- What a blocked cycle stores. -/
theorem storedBy_of_blocked {zone : TimeZone} (env : CycleEnv) (hterms : config.includeTerms ≠ [])
    (hzone : config.displayZone env.locateZone = .ok zone) (hc : Collaborators env)
    (hblocked : Blocked env) (stored : List AlertRecord) :
    storedBy (runCycle env config stored) stored = stored := by
  obtain ⟨_, effects, -, htrace, hends⟩ := runCycle_ends hterms hzone hc stored
  rw [storedBy_eq_foldl, htrace]
  exact (hends.of_blocked hblocked).2

/-- What is stored does not depend on the deliveries. -/
theorem storedBy_send {zone : TimeZone} (hterms : config.includeTerms ≠ [])
    (hzone : config.displayZone env.locateZone = .ok zone) (hc : Collaborators env)
    (stored : List AlertRecord) {send : Nat → Message → String → Except Exn DeliveryResult}
    (hsend : ∀ n message name, ∃ result, send n message name = .ok result) :
    storedBy (runCycle { env with send } config stored) stored =
      storedBy (runCycle env config stored) stored := by
  by_cases hdry : env.dryRun = true
  · have hblocked : Blocked env := Or.inr (Or.inr (Or.inl hdry))
    have hc' : Collaborators { env with send } := ⟨hc.load, hc.save, hsend⟩
    rw [storedBy_of_blocked env hterms hzone hc hblocked,
      storedBy_of_blocked { env with send } hterms hzone hc' hblocked]
  · have hwet : env.dryRun = false := by simpa using hdry
    have hwet' : CycleEnv.dryRun { env with send } = false := hwet
    rw [storedBy, storedBy, runCycle_stored hwet, runCycle_stored hwet']
    rfl

/-- The law of one cycle, for a config with include terms and a known display zone as the
loader accepts them. Each alert is sent to each recipient or none is, the records are replaced
by the decided ones or left alone, and the outcome tells whether anything failed. -/
theorem cycle_atomic {zone : TimeZone} (hterms : config.includeTerms ≠ [])
    (hzone : config.displayZone env.locateZone = .ok zone) (hc : Collaborators env)
    (stored : List AlertRecord) :
    ∃ outcome, (runCycle env config stored).result = .ok outcome ∧
      (Blocked env → sends (runCycle env config stored) = [] ∧
        storedBy (runCycle env config stored) stored = stored) ∧
      (¬Blocked env → ∃ fetch d messages, env.fetch = .ok fetch ∧
        decideCycle (cycleInput env config fetch.launches) stored = .ok d ∧
        messages.map Prod.fst = d.alerts ∧
        (∀ created ∈ messages, formatAlert created.1 zone = .ok created.2) ∧
        (runCycle env config stored).trace.filter Effect.visible =
          (if recordsChanged stored d then [.save d.updatedRecords true] else []) ++
            allSends config messages) ∧
      (∀ send : Nat → Message → String → Except Exn DeliveryResult,
        (∀ n message name, ∃ result, send n message name = .ok result) →
        storedBy (runCycle { env with send } config stored) stored =
          storedBy (runCycle env config stored) stored) ∧
      (outcome.ok = true ↔ (∃ fetch, env.fetch = .ok fetch) ∧ env.loadError = none ∧
        (∀ records, .save records false ∉ (runCycle env config stored).trace) ∧
        ∀ n message name,
          (sends (runCycle env config stored))[n]? = some (.send message name) →
            ∃ result, env.send n message name = .ok result ∧ result.ok = true) := by
  obtain ⟨outcome, effects, hresult, htrace, hends⟩ := runCycle_ends hterms hzone hc stored
  have hsends : sends (runCycle env config stored) = effects.filter Effect.isSend := by
    rw [sends_eq_filter, htrace]
  have hstored : storedBy (runCycle env config stored) stored =
      effects.foldl Effect.store stored := by
    rw [storedBy_eq_foldl, htrace]
  refine ⟨outcome, hresult, fun hblocked => ?_, fun hfree => ?_, fun send hsend =>
    storedBy_send hterms hzone hc stored hsend, ?_⟩
  · rw [hsends, hstored]
    exact hends.of_blocked hblocked
  · rw [htrace]
    exact hends.of_not_blocked hfree hzone
  · have hsaves : ∀ records, Effect.save records false ∈ effects ↔
        .save records false ∈ (runCycle env config stored).trace := by
      intro records
      rw [← htrace, List.mem_filter]
      simp [Effect.visible]
    rw [hends.ok_iff, hsends]
    simp only [hsaves]

/-- A cycle in which alice is never reached. -/
def unreachable : CycleEnv :=
  { (testCall [makeLaunch] kNow).env with
    send := fun _ _ name => .ok ⟨name, name != "alice", "answered"⟩ }

/-- Bob gets his message all the same, and the outcome is not ok. -/
theorem cycle_atomic_makeLaunch :
    ∃ outcome messages, (runCycle unreachable makeConfig []).result = .ok outcome ∧
      sends (runCycle unreachable makeConfig []) = allSends makeConfig messages ∧
      messages.length = 1 ∧ outcome.ok = false := by
  have hc : Collaborators unreachable :=
    ⟨by simp [unreachable, testCall], .inl rfl, fun n message name => ⟨_, rfl⟩⟩
  have hzone : makeConfig.displayZone unreachable.locateZone = .ok pacificDaylight := rfl
  obtain ⟨outcome, hresult, -, hfree, -, hok⟩ := cycle_atomic (by decide) hzone hc []
  have hnotBlocked : ¬Blocked unreachable := by simp [Blocked, unreachable, testCall]
  obtain ⟨fetch, d, messages, hfetch, hdecide, hfst, -, htrace⟩ := hfree hnotBlocked
  obtain rfl : fetch = ⟨[makeLaunch], []⟩ := (Except.ok.inj hfetch).symm
  have hlength : messages.length = 1 := by
    have halerts := congrArg List.length hfst
    rw [List.length_map] at halerts
    obtain ⟨d', hd', hone⟩ : ∃ d', decideCycle (cycleInput unreachable makeConfig [makeLaunch]) [] =
      .ok d' ∧ d'.alerts.length = 1 := ⟨_, rfl, rfl⟩
    obtain rfl : d' = d := Except.ok.inj (hd'.symm.trans hdecide)
    rw [halerts, hone]
  have hsends : sends (runCycle unreachable makeConfig []) = allSends makeConfig messages := by
    rw [sends_eq_filter, htrace, List.filter_append, filter_isSend_allSends]
    cases recordsChanged [] d <;> rfl
  refine ⟨outcome, messages, hresult, hsends, hlength, ?_⟩
  rw [Bool.eq_false_iff, ne_eq, hok, hsends]
  rintro ⟨-, -, -, hall⟩
  obtain ⟨created, rfl⟩ := List.length_eq_one_iff.mp hlength
  obtain ⟨result, hresult, hdelivered⟩ := hall 0 created.2 "alice" rfl
  obtain rfl := Except.ok.inj hresult
  exact absurd hdelivered (by decide)

end RocketWatcher
