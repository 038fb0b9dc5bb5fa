import RocketWatcher.Bookkeeping
import RocketWatcher.LaunchLibrary
import RocketWatcher.Storage
import RocketWatcher.Watcher

/-!
# The record file over a run

The watcher with its real source and its real store : every cycle fetches from Launch Library 2,
loads the record file, and replaces it when it saves. A time in a year of five characters is
written in a form that is not read back, and from then on every load fails
(`watcher_can_lock_itself_out`). As long as no record is given such a time, every file the
watcher leaves loads (`file_loads_along_run`).
-/

namespace RocketWatcher

/-- One cycle : what is around the watcher, without file system failures. -/
structure FileCall where
  config : Config
  now : Int
  httpGet : String → Int → Except Exn String
  send : Nat → Message → String → Except Exn DeliveryResult
  locateZone : String → Except Exn TimeZone

section FileWatcher

variable (text : JsonText) (options : LaunchLibraryOptions) (path : String)

/-- What `load` answers on a file. -/
def loadFile (file : Option Json) : Except Exn (List AlertRecord) :=
  load path (file.map .ok)

def storedIn (file : Option Json) : List AlertRecord :=
  (loadFile path file).toOption.getD []

def FileCall.env (call : FileCall) (file : Option Json) : CycleEnv where
  now := call.now
  dryRun := false
  fetch := fetch text options call.httpGet
  loadError := match loadFile path file with
    | .error error => some error
    | .ok _ => none
  saveAnswer := .saved
  send := call.send
  locateZone := call.locateZone

/-- The file after an effect. -/
def Effect.write (file : Option Json) : Effect → Option Json
  | .save records true => some (payload records)
  | .save _ false | .log _ | .send .. => file

/-- The watcher over the record file; there is none at first. -/
def fileWatcher : Mealy (Option Json) FileCall (List Effect) Empty where
  step file call :=
    let effects := (runCycle (call.env text options path file) call.config
      (storedIn path file)).trace
    .ok (effects, effects.foldl Effect.write file)

end FileWatcher

/-! ## What a cycle writes -/

/-- The launch is owed an alert against the record in force. -/
def Owed (input : CycleInput) (record : Option AlertRecord) (launch : Launch) : Prop :=
  input.Relevant launch ∧ ¬Quiet input.policy record launch input.now

/-- The last launch of its key in the list that is owed an alert, each against the record the
launches before it leave in force. -/
def LastOwed (input : CycleInput) (records : List AlertRecord) (launches : List Launch)
    (launch : Launch) : Prop :=
  ∃ before after, launches = before ++ launch :: after ∧
    Owed input (trackKey input records before launch.key).1 launch ∧
    ∀ mid later rest, after = mid ++ later :: rest → later.key = launch.key →
      ¬Owed input (trackKey input records (before ++ launch :: mid) later.key).1 later

/-- A launch the cycle makes a record of has a time that can be written, and so has the clock. -/
def Harmless (input : CycleInput) (records : List AlertRecord) : Prop :=
  ∀ launch, LastOwed input records input.launches launch →
    WritableTime input.now ∧ ∀ time ∈ launch.launchTime, WritableTime time

variable {input : CycleInput} {records : List AlertRecord} {launches : List Launch}

/-- Nothing but writable times is harmless. -/
theorem Harmless.of_launchTimes (hnow : WritableTime input.now)
    (h : ∀ launch ∈ input.launches, ∀ time ∈ launch.launchTime, WritableTime time) :
    Harmless input records := by
  rintro launch ⟨before, after, heq, -⟩
  exact ⟨hnow, h launch (by simp [heq])⟩

/-- An alert breaks the silence. -/
theorem Decides.not_quiet {policy : AlertPolicy} {now : Int} {terms : List String}
    {launch : Launch} {record : Option AlertRecord} {alert : Alert}
    (h : Decides policy now terms launch record (some alert)) :
    ¬Quiet policy record launch now := by
  intro hquiet
  cases h with
  | noGo status before => exact before (hquiet.noGo status _ rfl)
  | timingNowImprecise status before after =>
    have hkept := (hquiet.go status _ rfl).1 before
    simp [after] at hkept
  | timeChanged status _ shifted => exact (hquiet.go status _ rfl).2 shifted
  | countdown status _ eligible unsent => exact unsent (hquiet.countdown status _ eligible)

theorem trackKey_snoc (input : CycleInput) (records : List AlertRecord) (launches : List Launch)
    (launch : Launch) (k : String) :
    trackKey input records (launches ++ [launch]) k =
      if launch.key = k then
        (launchMachine input).trackItem (trackKey input records launches k) launch
      else trackKey input records launches k := by
  rw [trackKey, List.filter_append]
  split
  · next hkey => simp [hkey, KeyedMachine.track_snoc, trackKey]
  · next hkey => simp [hkey, trackKey]

/-- One more launch that is not owed an alert, or has another key. -/
theorem LastOwed.snoc {launch launch' : Launch} (h : LastOwed input records launches launch)
    (hlater : launch'.key = launch.key →
      ¬Owed input (trackKey input records launches launch'.key).1 launch') :
    LastOwed input records (launches ++ [launch']) launch := by
  obtain ⟨before, after, rfl, howed, hrest⟩ := h
  refine ⟨before, after ++ [launch'], by simp, howed, fun mid later rest heq hkey => ?_⟩
  rcases List.eq_nil_or_concat rest with rfl | ⟨rest, last, rfl⟩
  · obtain ⟨rfl, hone⟩ := List.append_inj' heq rfl
    obtain rfl := List.singleton_inj.mp hone
    exact hlater hkey
  · have heq' : after ++ [launch'] = (mid ++ later :: rest) ++ [last] := by simpa using heq
    exact hrest mid later rest (List.append_inj' heq' rfl).1 hkey

/-- The last alert of a key is for the last launch that is owed one. -/
theorem lastOwed_of_getLast {k : String} {last : Alert}
    (h : (trackKey input records launches k).2.getLast? = some last) :
    last.launch.key = k ∧ LastOwed input records launches last.launch := by
  induction launches using List.reverseRecOn generalizing last with
  | nil => simp [trackKey] at h
  | append_singleton launches launch ih =>
    rw [trackKey_snoc] at h
    split at h
    · next hkey =>
      subst hkey
      rw [KeyedMachine.trackItem] at h
      cases hstep : (launchMachine input).step (trackKey input records launches launch.key).1
        launch with
      | none =>
        rw [hstep] at h
        obtain ⟨hkey, hlast⟩ := ih h
        refine ⟨hkey, hlast.snoc fun _ howed => ?_⟩
        exact howed.2 (launchMachine_step_none howed.1 hstep)
      | some step =>
        obtain ⟨r, alert⟩ := step
        rw [hstep] at h
        obtain rfl : alert = last := by simpa using h
        obtain ⟨hrel, -, terms, hd⟩ := launchMachine_step_some hstep
        refine ⟨by rw [hd.launch_eq], launches, [], by rw [hd.launch_eq], ?_, by simp⟩
        rw [hd.launch_eq]
        exact ⟨hrel, hd.not_quiet⟩
    · next hkey =>
      obtain ⟨hlastKey, hlast⟩ := ih h
      exact ⟨hlastKey, hlast.snoc fun heq => absurd (heq.trans hlastKey) hkey⟩

/-- A harmless cycle on writable records leaves writable records. -/
theorem writable_updatedRecords {d : CycleDecision} (h : decideCycle input records = .ok d)
    (hrecords : ∀ r ∈ records, r.Writable) (hharmless : Harmless input records) :
    ∀ r ∈ d.updatedRecords, r.Writable := by
  intro r hr
  have hin := ((mem_updatedRecords h).mp hr).1
  have hbooked := booked_trackKey input records input.launches r.key
  have hstored (stored : AlertRecord) (hs : recordOf records r.key = some stored) :
      stored.Writable := hrecords stored (List.mem_of_find?_eq_some hs)
  cases hlast : (trackKey input records input.launches r.key).2.getLast? with
  | none =>
    rw [hbooked.untouched (List.getLast?_eq_none_iff.mp hlast)] at hin
    exact hstored r hin
  | some last =>
    obtain ⟨-, howed⟩ := lastOwed_of_getLast hlast
    obtain ⟨hnow, htime⟩ := hharmless last.launch howed
    obtain ⟨r', hr', hsent, hfacts, hlastAt, hfirstAt⟩ := hbooked.noted last hlast
    obtain rfl : r = r' := Option.some.inj (hin.symm.trans hr')
    refine ⟨?_, ?_, ?_, hlastAt ▸ hnow⟩
    · rw [hfacts]
      exact htime
    · intro sent hmem
      rw [hsent] at hmem
      rcases List.mem_append.mp hmem with hold | hnew
      · cases hs : recordOf records r.key with
        | none => simp [hs] at hold
        | some stored => exact (hstored stored hs).createdAt sent (by simpa [hs] using hold)
      · obtain ⟨alert, -, rfl⟩ := List.mem_map.mp hnew
        exact hnow
    · rw [hfirstAt]
      cases hs : recordOf records r.key with
      | none => exact hnow
      | some stored => exact (hstored stored hs).firstAlertAt

/-! ## Runs -/

/-- The file loads, to records that can be written again. -/
def Loads (path : String) (file : Option Json) : Prop :=
  ∃ records, loadFile path file = .ok records ∧ ∀ r ∈ records, r.Writable

/-- The file after a cycle follows the records after it. -/
theorem foldl_write (effects : List Effect) (file : Option Json) (stored : List AlertRecord) :
    (effects.foldl Effect.write file = file ∧ effects.foldl Effect.store stored = stored) ∨
      effects.foldl Effect.write file = some (payload (effects.foldl Effect.store stored)) := by
  induction effects using List.reverseRecOn with
  | nil => exact .inl ⟨rfl, rfl⟩
  | append_singleton effects e ih =>
    simp only [List.foldl_append, List.foldl_cons, List.foldl_nil]
    cases e with
    | log line => exact ih
    | send message name => exact ih
    | save records replaced =>
      cases replaced with
      | true => exact .inr rfl
      | false => exact ih

/-- What a cycle stores is what it decided, or what was there. -/
theorem storedAfter_cases {changed : List AlertRecord → CycleDecision → Bool} (env : CycleEnv)
    (config : Config) (stored : List AlertRecord) :
    storedAfter changed env config stored = stored ∨
      ∃ fetched d, env.fetch = .ok fetched ∧
        decideCycle (cycleInput env config fetched.launches) stored = .ok d ∧
        storedAfter changed env config stored = d.updatedRecords := by
  unfold storedAfter
  split
  · next fetched hfetch _ =>
    split
    · next d messages hplan =>
      split
      · exact .inr ⟨fetched, d, hfetch, (planCycle_eq_ok hplan).1, rfl⟩
      · exact .inl rfl
    · exact .inl rfl
  · exact .inl rfl

section FileRuns

variable {text : JsonText} {options : LaunchLibraryOptions} {path : String}

/-- The cycle is harmless to the file it finds. -/
def FileCall.Harmless (text : JsonText) (options : LaunchLibraryOptions) (path : String)
    (file : Option Json) (call : FileCall) : Prop :=
  ∀ fetched, fetch text options call.httpGet = .ok fetched →
    RocketWatcher.Harmless ⟨fetched.launches, call.config.policy, call.config.launchProvider,
      call.config.includeTerms, call.now⟩ (storedIn path file)

theorem loads_none (path : String) : Loads path none :=
  ⟨[], rfl, by simp⟩

theorem loads_payload (path : String) {records : List AlertRecord}
    (h : ∀ r ∈ records, r.Writable) : Loads path (some (payload records)) :=
  ⟨sortByKey records, load_payload path h, fun r hr => h r ((List.mem_insertionSort _).mp hr)⟩

/-- A harmless cycle on a file that loads leaves a file that loads. -/
theorem Loads.step {file file' : Option Json} {call : FileCall} {effects : List Effect}
    (h : Loads path file) (hharmless : call.Harmless text options path file)
    (hstep : (fileWatcher text options path).step file call = .ok (effects, file')) :
    Loads path file' := by
  obtain ⟨records, hload, hwritable⟩ := h
  obtain ⟨rfl, rfl⟩ := Prod.mk.inj (Except.ok.inj hstep)
  have hstored : storedIn path file = records := by
    rw [storedIn, hload]
    rfl
  rw [hstored]
  rcases foldl_write (runCycle (call.env text options path file) call.config records).trace file
    records with ⟨hfile, -⟩ | hfile
  · rw [hfile]
    exact ⟨records, hload, hwritable⟩
  · rw [hfile, runCycle_stored rfl]
    refine loads_payload path ?_
    rcases storedAfter_cases (call.env text options path file) call.config records with
      hsame | ⟨fetched, d, hfetch, hdecide, hnew⟩
    · rw [hsame]
      exact hwritable
    · rw [hnew]
      exact writable_updatedRecords hdecide hwritable (hstored ▸ hharmless fetched hfetch)

/-- The law of runs. -/
theorem file_loads_along_run {steps : List (Mealy.Transition (Option Json) FileCall (List Effect))}
    {file : Option Json} (hrun : (fileWatcher text options path).Run none steps file)
    (hharmless : ∀ s ∈ steps, s.input.Harmless text options path s.before) :
    Loads path file ∧ ∀ s ∈ steps, Loads path s.after := by
  refine hrun.invariant (P := fun steps file =>
    (∀ s ∈ steps, s.input.Harmless text options path s.before) →
      Loads path file ∧ ∀ s ∈ steps, Loads path s.after)
    (fun _ => ⟨loads_none path, by simp⟩) ?_ hharmless
  intro steps file call effects file' _ ih hstep hsteps
  obtain ⟨hbefore, hpast⟩ := ih fun s hs => hsteps s (List.mem_append_left _ hs)
  have hafter := hbefore.step (hsteps _ (List.mem_append_right _ List.mem_cons_self)) hstep
  refine ⟨hafter, fun s hs => ?_⟩
  rcases List.mem_append.mp hs with hs | hs
  · exact hpast s hs
  · rw [List.mem_singleton.mp hs]
    exact hafter

end FileRuns

/-! ## A launch that slips to the end of time -/

section Slipped

-- the texts of responses are compared character by character
set_option maxRecDepth 8000

/-- A response with one go launch at a net time. -/
def response (net : String) : Json :=
  .object [("results", .array [.object [("id", .string "abc-123"),
    ("name", .string "Falcon 9 Block 5 | Starlink Group 12-34"),
    ("launch_service_provider", .object [("name", .string "SpaceX")]), ("net", .string net),
    ("net_precision", .object [("name", .string "Minute")]),
    ("status", .object [("abbrev", .string "Go")])]])]

/-- Its text. -/
def responseBody (net : String) : String :=
  "\x7b\"results\":[\x7b\"id\":\"abc-123\"," ++
  "\"name\":\"Falcon 9 Block 5 | Starlink Group 12-34\"," ++
  "\"launch_service_provider\":\x7b\"name\":\"SpaceX\"\x7d,\"net\":\"" ++ net ++ "\"," ++
  "\"net_precision\":\x7b\"name\":\"Minute\"\x7d,\"status\":\x7b\"abbrev\":\"Go\"\x7d\x7d]\x7d"

/-- A parser that knows three responses. -/
def netText : JsonText where
  parse body :=
    match ["2026-06-09T18:45:00Z", "2026-06-09T19:45:00Z", "9999-12-31T23:59:59-01:00"].find?
      fun net => responseBody net = body with
    | some net => .ok (response net)
    | none => .error (.jsonError "parse error")
  dump _ := ""

/-- A cycle that is told a net time. -/
def netCall (net : String) (now : Int) : FileCall where
  config := makeConfig
  now := now
  httpGet _ _ := .ok (responseBody net)
  send _ _ name := .ok ⟨name, true, "delivered"⟩
  locateZone _ := .ok pacificDaylight

/-- The launch is alerted, and then moved to the last second of the year 9999 in a zone one
hour behind. The correction is saved, and the file it is saved in does not load. -/
theorem watcher_can_lock_itself_out :
    ¬∀ (text : JsonText) (options : LaunchLibraryOptions) (path : String) steps file,
      (fileWatcher text options path).Run none steps file →
      (∀ s ∈ steps, 0 < s.input.config.policy.launchSoon ∧
        0 < s.input.config.policy.launchImminent ∧
        0 < s.input.config.policy.correctionTimeShift ∧
        0 < s.input.config.policy.scheduleLookahead ∧ 0 < s.input.config.policy.retention) →
      ∀ s ∈ steps, ∃ records, loadFile path s.after = .ok records := by
  intro hall
  obtain ⟨steps, file, hexec, hpolicy, s, hs, hfails⟩ : ∃ steps file,
      (fileWatcher netText {} "alerts.json").exec none
        [netCall "2026-06-09T18:45:00Z" kNow, netCall "9999-12-31T23:59:59-01:00" (kNow + 300)] =
          .ok (steps, file) ∧
      steps.map (·.input.config.policy) = [makeConfig.policy, makeConfig.policy] ∧
      ∃ s ∈ steps, (loadFile "alerts.json" s.after).toBool = false :=
    ⟨_, _, rfl, rfl, _, List.mem_cons_of_mem _ List.mem_cons_self, rfl⟩
  have hpositive : ∀ s ∈ steps, s.input.config.policy = makeConfig.policy := by
    intro s hs
    simpa [hpolicy] using List.mem_map_of_mem (f := (·.input.config.policy)) hs
  obtain ⟨records, hload⟩ := hall netText {} "alerts.json" steps file (Mealy.Run.of_exec hexec)
    (fun s hs => by rw [hpositive s hs]; decide) s hs
  rw [hload] at hfails
  cases hfails

/-- The same launch moved by an hour stays in the file. -/
theorem file_loads_along_run_moved :
    ∃ steps file, (fileWatcher netText {} "alerts.json").exec none
        [netCall "2026-06-09T18:45:00Z" kNow, netCall "2026-06-09T19:45:00Z" (kNow + 300)] =
          .ok (steps, file) ∧ Loads "alerts.json" file ∧ file.isSome = true := by
  obtain ⟨steps, file, hexec, hinputs, hsome⟩ : ∃ steps file,
      (fileWatcher netText {} "alerts.json").exec none
        [netCall "2026-06-09T18:45:00Z" kNow, netCall "2026-06-09T19:45:00Z" (kNow + 300)] =
          .ok (steps, file) ∧
      steps.map (·.input) = [netCall "2026-06-09T18:45:00Z" kNow,
        netCall "2026-06-09T19:45:00Z" (kNow + 300)] ∧ file.isSome = true :=
    ⟨_, _, rfl, rfl, rfl⟩
  have hharmless (net : String) (now : Int) (file : Option Json) (hnow : WritableTime now)
      (h : ∃ fetched, fetch netText {} (netCall net now).httpGet = .ok fetched ∧
        ∀ launch ∈ fetched.launches, ∀ time ∈ launch.launchTime, WritableTime time) :
      (netCall net now).Harmless netText {} "alerts.json" file := by
    intro fetched hfetch
    obtain ⟨fetched', hfetch', htimes⟩ := h
    obtain rfl : fetched' = fetched := Except.ok.inj (hfetch'.symm.trans hfetch)
    exact .of_launchTimes hnow htimes
  refine ⟨steps, file, hexec, (file_loads_along_run (Mealy.Run.of_exec hexec) ?_).1, hsome⟩
  intro s hs
  have hinput : s.input ∈ steps.map (·.input) := List.mem_map_of_mem hs
  rw [hinputs, List.mem_pair] at hinput
  rcases hinput with hinput | hinput
  · rw [hinput]
    exact hharmless _ _ _ (by decide) ⟨_, rfl, by decide⟩
  · rw [hinput]
    exact hharmless _ _ _ (by decide) ⟨_, rfl, by decide⟩

end Slipped

end RocketWatcher
