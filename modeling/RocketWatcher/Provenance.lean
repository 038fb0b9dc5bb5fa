import RocketWatcher.CurlHttp
import RocketWatcher.MappedLaunches
import RocketWatcher.RelevanceSpec
import RocketWatcher.SilentMapping

/-!
# Where a message comes from

From the message a recipient gets back to the response it is about, through formatting, deciding,
mapping and the transport. What is sent names an item of the answer to this cycle's request, that
is of the configured provider, matches an include term, and is go, or on hold for the message
that says so (`sent_is_reported`).
-/

namespace RocketWatcher

/-- What a fetch asks of libcurl. -/
def LaunchLibraryOptions.request (options : LaunchLibraryOptions) : CurlRequest :=
  ⟨cBytes (bytes options.url), kUserAgent, options.timeout, true, none⟩

/-- `LaunchLibrarySource::fetch` over `curlHttpGet`. -/
def LaunchLibraryOptions.fetchCurl (options : LaunchLibraryOptions) (text : JsonText)
    (curl : Curl) : Except Exn FetchResult :=
  fetch text options fun url timeout => (curl.httpGet url timeout).result

/-- The abbreviation of the item's status, as it is compared. -/
def statusAbbreviation (item : Json) : Option String :=
  (optionalStringField (item.member "status") "abbrev").map fun abbreviation =>
    toLower (trim abbreviation)

/-- The message is about this item. -/
structure ReportedBy (text : JsonText) (config : Config) (message : Message) (item : Json) : Prop
    where
  key : ∃ id, item.find? "id" = some id ∧ message.launchKey = "ll2:" ++ itemId text id
  relevant : ∃ launch, (mapLaunch text item).result = .ok launch ∧
    message.launchName = launch.name ∧ ProviderAgrees launch config.launchProvider ∧
    ∃ term ∈ config.includeTerms, TermMatches launch term
  status : statusAbbreviation item =
    some (if message.alertKind = "correction:no_go" then "hold" else "go")

/-! ## The response -/

section Response

variable {curl : Curl} {text : JsonText} {options : LaunchLibraryOptions}

/-- A body is returned for a response that is no error. -/
theorem httpGet_eq_ok {url : String} {timeout : Int} {body : String}
    (h : (curl.httpGet url timeout).result = .ok body) :
    ∃ response, curl.easyPerform ⟨cBytes (bytes url), kUserAgent, timeout, true, none⟩ =
      .ok response ∧ response.status < 400 ∧ response.body = body := by
  obtain ⟨_, -, h⟩ := Traced.result_bind_eq_ok.mp h
  obtain ⟨response, hperform, h⟩ := Traced.result_bind_eq_ok.mp h
  refine ⟨response, ?_, ?_⟩
  · obtain ⟨_, -, hperform⟩ := Traced.result_bind_eq_ok.mp hperform
    split at hperform
    · cases hperform
    · next answer hanswer =>
      obtain rfl := Except.ok.inj hperform
      exact hanswer
  · split at h
    · cases h
    · next hstatus => exact ⟨not_le.mp hstatus, Except.ok.inj h⟩

theorem valueOr_eq_ok {data defaultValue value : Json} {key : String}
    (h : data.valueOr key defaultValue = .ok value) :
    ∃ members, data = .object members ∧ value = (members.lookup key).getD defaultValue := by
  cases data with
  | object members => exact ⟨members, rfl, (Except.ok.inj h).symm⟩
  | _ => cases h

/-- A launch is fetched from an item of the results. -/
theorem mem_launches_of_fetchCurl {result : FetchResult}
    (h : options.fetchCurl text curl = .ok result) {launch : Launch}
    (hlaunch : launch ∈ result.launches) :
    ∃ response members results item, curl.easyPerform options.request = .ok response ∧
      response.status < 400 ∧ text.parse response.body = .ok (.object members) ∧
      members.lookup "results" = some results ∧ item ∈ results.elements ∧
      (mapLaunch text item).result = .ok launch := by
  unfold LaunchLibraryOptions.fetchCurl at h
  cases hbody : (curl.httpGet options.url options.timeout).result >>= text.parse with
  | error error =>
    rw [fetch_of_error hbody] at h
    cases h
  | ok payload =>
    rw [fetch_of_ok hbody] at h
    obtain ⟨results, hresults, hmapped⟩ := Except.bind_eq_ok.mp h
    obtain ⟨body, hget, hparse⟩ := Except.bind_eq_ok.mp hbody
    obtain ⟨response, hperform, hstatus, rfl⟩ := httpGet_eq_ok hget
    obtain ⟨members, rfl, hvalue⟩ := valueOr_eq_ok hresults
    rw [← Except.ok.inj hmapped, foldl_fetchItem, List.nil_append] at hlaunch
    obtain ⟨item, hitem, hadds⟩ := List.mem_flatMap.mp hlaunch
    have hlookup : members.lookup "results" = some results := by
      cases hlookup : members.lookup "results" with
      | some value => rw [hvalue, hlookup, Option.getD_some]
      | none =>
        rw [hvalue, hlookup] at hitem
        cases hitem
    refine ⟨response, members, results, item, hperform, hstatus, hparse, hlookup, hitem, ?_⟩
    by_cases hid : HasId item
    · obtain ⟨mapped, hmap, hcontribution, -⟩ := contribution_of_hasId text hid
      rw [hcontribution] at hadds
      rw [List.mem_singleton.mp hadds]
      exact hmap
    · obtain ⟨what, hcontribution⟩ := contribution_of_not_hasId text hid
      rw [hcontribution] at hadds
      cases hadds

theorem mapLaunch_sourceLaunchId {item : Json} {launch : Launch}
    (h : (mapLaunch text item).result = .ok launch) :
    ∃ id, item.find? "id" = some id ∧ launch.sourceLaunchId = itemId text id := by
  obtain ⟨id, hid⟩ := hasId_of_ok h
  refine ⟨id, hid, ?_⟩
  unfold mapLaunch at h
  rw [Json.atKey_of_find hid, Traced.ofExcept_ok_bind] at h
  dsimp only at h
  split at h
  on_goal 1 => obtain ⟨_, -, h⟩ := Traced.result_bind_eq_ok.mp h
  all_goals
    obtain ⟨net, -, h⟩ := Traced.result_bind_eq_ok.mp h
    obtain ⟨time, -, h⟩ := Traced.result_bind_eq_ok.mp h
    obtain ⟨netPrecision, -, h⟩ := Traced.result_bind_eq_ok.mp h
    obtain ⟨precision, -, h⟩ := Traced.result_bind_eq_ok.mp h
    obtain ⟨status, -, h⟩ := Traced.result_bind_eq_ok.mp h
    obtain ⟨mapped, -, h⟩ := Traced.result_bind_eq_ok.mp h
    obtain ⟨mission, -, h⟩ := Traced.result_bind_eq_ok.mp h
    obtain ⟨pad, -, h⟩ := Traced.result_bind_eq_ok.mp h
    rw [← Except.ok.inj h]
    rfl

/-- A status that is acted on has its abbreviation. -/
theorem statusAbbreviation_of_mapLaunch {item : Json} {launch : Launch}
    (h : (mapLaunch text item).result = .ok launch) :
    (launch.status = .go → statusAbbreviation item = some "go") ∧
      (launch.status = .noGo → statusAbbreviation item = some "hold") := by
  obtain ⟨id, hid⟩ := hasId_of_ok h
  obtain ⟨mapped, _, _, _, _, hmap, -, -, -, -, hstatus⟩ := mapLaunch_of_id text hid
  rw [hmap] at h
  obtain rfl := Except.ok.inj h
  have hentries : ∀ entry ∈ kStatusMap, (entry.2 = .go → entry.1 = "go") ∧
      (entry.2 = .noGo → entry.1 = "hold") := by decide
  unfold mapStatus at hstatus
  unfold statusAbbreviation
  split at hstatus
  · obtain ⟨-, hunknown⟩ := eq_of_warned hstatus
    simp [hunknown]
  · next abbreviation habbreviation =>
    simp only [habbreviation, Option.map_some, Option.some.injEq]
    split at hstatus
    · next status hlookup =>
      obtain ⟨-, rfl⟩ := eq_of_silent hstatus
      exact hentries _ (mem_of_lookup hlookup)
    · obtain ⟨-, hunknown⟩ := eq_of_warned hstatus
      simp [hunknown]

end Response

/-! ## The message -/

/-- What the message of an alert says about its launch. -/
theorem formatAlert_launch {alert : Alert} {zone : TimeZone} {message : Message}
    (h : formatAlert alert zone = .ok message) : message.launchName = alert.launch.name := by
  unfold formatAlert at h
  cases hkind : alert.kind with
  | correction =>
    simp only [hkind, formatCorrection] at h
    cases hreason : alert.reason with
    | none => simp [hreason] at h
    | some reason =>
      cases reason <;> simp only [hreason, Except.ok.injEq, Except.pure_eq_ok] at h <;>
        exact h ▸ rfl
  | launchSoon | launchImminent | hourPrecision =>
    cases htime : alert.launch.launchTime with
    | none => simp [hkind, minutesAway, requiredLaunchTime, htime] at h
    | some time =>
      simp only [hkind, minutesAway, requiredLaunchTime, htime, Except.ok.injEq, Except.ok_bind,
        Except.pure_eq_ok] at h
      exact h ▸ rfl

/-- Only the message that a launch is no longer go is about one that is not. -/
theorem status_of_message {policy : AlertPolicy} {now : Int} {terms : List String}
    {launch : Launch} {record : Option AlertRecord} {alert : Alert} {zone : TimeZone}
    {message : Message} (hd : Decides policy now terms launch record (some alert))
    (h : formatAlert alert zone = .ok message) :
    message.alertKind = "correction:no_go" ∧ launch.status = .noGo ∨
      message.alertKind ≠ "correction:no_go" ∧ launch.status = .go := by
  have hkind := (formatAlert_eq_ok h).2
  cases hd with
  | noGo status =>
    rcases hkind with ⟨-, hne⟩ | ⟨-, reason, hreason, hkind⟩
    · exact absurd rfl hne
    · obtain rfl : .noGo = reason := Option.some.inj hreason
      exact .inl ⟨hkind, status⟩
  | timingNowImprecise status | timeChanged status =>
    rcases hkind with ⟨-, hne⟩ | ⟨-, reason, hreason, hkind⟩
    · exact absurd rfl hne
    · obtain rfl := Option.some.inj hreason
      exact .inr ⟨hkind ▸ by decide, status⟩
  | @countdown _ kind status _ eligible =>
    rcases hkind with ⟨hkind, -⟩ | ⟨hcorrection, -⟩
    · exact .inr ⟨hkind ▸ AlertKind.toString_ne_correction _ .noGo, status⟩
    · obtain rfl : kind = .correction := hcorrection
      exact eligible.elim

/-- The key of the message is that of the item. -/
theorem key_of_message {text : JsonText} {item : Json} {alert : Alert} {zone : TimeZone}
    {message : Message} (hmap : (mapLaunch text item).result = .ok alert.launch)
    (h : formatAlert alert zone = .ok message) :
    ∃ id, item.find? "id" = some id ∧ message.launchKey = "ll2:" ++ itemId text id := by
  obtain ⟨id, hid, hlaunchId⟩ := mapLaunch_sourceLaunchId hmap
  obtain ⟨mapped, hmapped, -, hsource, -⟩ := contribution_of_hasId text ⟨id, hid⟩
  obtain rfl := Except.ok.inj (hmapped.symm.trans hmap)
  refine ⟨id, hid, ?_⟩
  rw [(formatAlert_eq_ok h).1, Launch.key, hsource, hlaunchId]
  rfl

/-- What is relevant agrees with the provider and has a term. -/
theorem agrees_of_relevant {launch : Launch} {launchProvider : String}
    {includeTerms : List String} {relevance : RelevanceResult}
    (h : evaluateRelevance launch launchProvider includeTerms = .ok relevance)
    (hyes : relevance.relevant = true) :
    ProviderAgrees launch launchProvider ∧ ∃ term ∈ includeTerms, TermMatches launch term := by
  obtain ⟨relevant, matched, reason⟩ := relevance
  obtain rfl : relevant = true := hyes
  obtain ⟨hprovider, rfl, hne⟩ := evaluateRelevance_relevant_iff.mp ⟨reason, h⟩
  obtain ⟨term, hterm⟩ := List.exists_mem_of_ne_nil _ hne
  obtain ⟨hin, hmatches⟩ := List.mem_filter.mp hterm
  exact ⟨hprovider, term, hin, of_decide_eq_true hmatches⟩

/-! ## Cycles -/

/-- A cycle over libcurl sends a message to a configured recipient only, and only about an item
of the response it has fetched. -/
theorem sent_is_reported {call : CycleCall} {stored stored' : List AlertRecord}
    {effects : List Effect} {options : LaunchLibraryOptions} {text : JsonText} {curl : Curl}
    (hstep : watcher.step stored call = .ok (effects, stored'))
    (hfetch : call.env.fetch = options.fetchCurl text curl) {message : Message} {name : String}
    (hsend : .send message name ∈ effects) :
    name ∈ call.config.recipients.map (·.name) ∧
      ∃ response members results, curl.easyPerform options.request = .ok response ∧
        response.status < 400 ∧ text.parse response.body = .ok (.object members) ∧
        members.lookup "results" = some results ∧
        ∃ item ∈ results.elements, ReportedBy text call.config message item := by
  obtain ⟨hname, fetch, d, alert, zone, hok, hdecide, halert, -, hmessage⟩ :=
    alert_of_mem_effects hstep hsend
  refine ⟨hname, ?_⟩
  obtain ⟨state, hstate, hloop, -⟩ := decideCycle_eq_ok hdecide
  obtain ⟨before, after, _, hlaunches, -, ⟨relevance, hrelevance, hyes⟩, _, hd⟩ :=
    decideLaunches_mem_alerts hstate (hloop ▸ halert)
  have hlaunch : alert.launch ∈ fetch.launches := by
    rw [show fetch.launches = _ from hlaunches]
    simp
  obtain ⟨response, members, results, item, hperform, hstatus, hparse, hresults, hitem, hmap⟩ :=
    mem_launches_of_fetchCurl (hfetch ▸ hok) hlaunch
  refine ⟨response, members, results, hperform, hstatus, hparse, hresults, item, hitem, ?_⟩
  exact
    { key := key_of_message hmap hmessage
      relevant := ⟨alert.launch, hmap, formatAlert_launch hmessage,
        agrees_of_relevant hrelevance hyes⟩
      status := by
        obtain ⟨hgo, hhold⟩ := statusAbbreviation_of_mapLaunch hmap
        rcases status_of_message hd hmessage with ⟨hkind, hstatus⟩ | ⟨hkind, hstatus⟩
        · rw [if_pos hkind, hhold hstatus]
        · rw [if_neg hkind, hgo hstatus] }

/-- An item for a launch 45 minutes out. -/
def starlinkItem : Json :=
  .object [("id", .string "abc-123"), ("name", .string "Starlink Group 12-34"),
    ("launch_service_provider", .object [("name", .string "SpaceX")]),
    ("net", .string "2026-06-09T18:45:00Z"),
    ("net_precision", .object [("name", .string "Minute")]),
    ("status", .object [("abbrev", .string "Go")])]

/-- A response with the item. -/
def starlinkBody : String :=
  "\x7b\"results\":[\x7b\"id\":\"abc-123\",\"name\":\"Starlink Group 12-34\"," ++
  "\"launch_service_provider\":\x7b\"name\":\"SpaceX\"\x7d," ++
  "\"net\":\"2026-06-09T18:45:00Z\"," ++
  "\"net_precision\":\x7b\"name\":\"Minute\"\x7d," ++
  "\"status\":\x7b\"abbrev\":\"Go\"\x7d\x7d]\x7d"

/-- A parser that knows this response. -/
def starlinkText : JsonText where
  parse body :=
    if body = starlinkBody then .ok (.object [("results", .array [starlinkItem])])
    else .error (.jsonError "parse error")
  dump _ := ""

/-- Every transfer is answered with it. -/
def starlinkCurl : Curl :=
  { answeringCurl with easyPerform := fun _ => .ok ⟨200, starlinkBody⟩ }

def fetchedCall : CycleCall :=
  { testCall [] kNow with
    env := { (testCall [] kNow).env with
      fetch := LaunchLibraryOptions.fetchCurl {} starlinkText starlinkCurl } }

/-- What the item is mapped to. -/
def starlinkItemLaunch : Launch :=
  { makeLaunch with
    name := "Starlink Group 12-34"
    missionName := none
    missionDescription := none
    padName := none }

theorem parse_starlinkBody :
    starlinkText.parse starlinkBody = .ok (.object [("results", .array [starlinkItem])]) := by
  simp only [starlinkText, ↓reduceIte]

theorem fetchedCall_eq : fetchedCall = testCall [starlinkItemLaunch] kNow := by
  have hget (url : String) (timeout : Int) :
      (starlinkCurl.httpGet url timeout).result = .ok starlinkBody := rfl
  have hfetch : LaunchLibraryOptions.fetchCurl {} starlinkText starlinkCurl =
      .ok ⟨[starlinkItemLaunch], []⟩ := by
    rw [LaunchLibraryOptions.fetchCurl,
      fetch_of_ok (by rw [hget, Except.ok_bind, parse_starlinkBody])]
    rfl
  rw [fetchedCall, hfetch]
  rfl

theorem sent_is_reported_starlink : ∃ effects stored' message,
    watcher.step [] fetchedCall = .ok (effects, stored') ∧
      .send message "alice" ∈ effects ∧
        ReportedBy starlinkText makeConfig message starlinkItem := by
  obtain ⟨effects, stored', message, hstep, hsend⟩ : ∃ effects stored' message,
      watcher.step [] fetchedCall = .ok (effects, stored') ∧
        (effects.filterMap Effect.delivery)[0]? = some (message, "alice") := by
    rw [fetchedCall_eq]
    exact ⟨_, _, _, rfl, rfl⟩
  have hin := mem_deliveries.mp (List.mem_of_getElem? hsend)
  refine ⟨effects, stored', message, hstep, hin, ?_⟩
  have hfetch : fetchedCall.env.fetch =
      LaunchLibraryOptions.fetchCurl {} starlinkText starlinkCurl := rfl
  obtain ⟨-, response, members, results, hperform, -, hparse, hresults, item, hitem, hreported⟩ :=
    sent_is_reported hstep hfetch hin
  obtain rfl := Except.ok.inj hperform
  obtain rfl := Json.object.inj (Except.ok.inj (parse_starlinkBody.symm.trans hparse))
  obtain rfl := Option.some.inj hresults
  obtain rfl := List.mem_singleton.mp hitem
  exact hreported

end RocketWatcher
