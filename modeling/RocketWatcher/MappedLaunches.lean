import RocketWatcher.LaunchLibrary

/-!
# Mapped launches

A fetch is put together from what each item of the results adds to it, so a bad item costs one
warning and nothing else (`fetch_results`). What is answered outside an object is not guarded
(`fetchContained_iff`).
-/

namespace RocketWatcher

/-- An object with an id, of any type. -/
def HasId (item : Json) : Prop :=
  ∃ id, item.find? "id" = some id

instance (item : Json) : Decidable (HasId item) :=
  decidable_of_iff ((item.find? "id").isSome = true) Option.isSome_iff_exists

/-- What one item adds to a fetch. -/
def contribution (text : JsonText) (item : Json) : FetchResult :=
  fetchItem text ⟨[], []⟩ item

theorem fetchItem_eq (text : JsonText) (result : FetchResult) (item : Json) :
    fetchItem text result item = ⟨result.launches ++ (contribution text item).launches,
      result.warnings ++ (contribution text item).warnings⟩ := by
  simp only [contribution, fetchItem]
  cases (mapLaunch text item).result with
  | ok launch => simp
  | error error => simp

/-- The loop over the results. -/
theorem foldl_fetchItem (text : JsonText) (items : List Json) (result : FetchResult) :
    items.foldl (fetchItem text) result =
      ⟨result.launches ++ items.flatMap fun item => (contribution text item).launches,
        result.warnings ++ items.flatMap fun item => (contribution text item).warnings⟩ := by
  induction items generalizing result with
  | nil => simp
  | cons item items ih =>
    rw [List.foldl_cons, ih, fetchItem_eq]
    simp

/-- An item with an id adds its launch, whatever else it has. -/
theorem contribution_of_hasId (text : JsonText) {item : Json} (h : HasId item) :
    ∃ launch, (mapLaunch text item).result = .ok launch ∧
      contribution text item = ⟨[launch], (mapLaunch text item).trace⟩ ∧
      launch.sourceName = "ll2" ∧ (launch.launchTime = none → launch.precision = .unknown) := by
  obtain ⟨id, hid⟩ := h
  obtain ⟨launch, _, _, _, _, hmap, hsource, -, -, hprecision, -⟩ :=
    mapLaunch_of_id text hid
  refine ⟨launch, by rw [hmap], by simp [contribution, fetchItem, hmap], hsource, fun htime => ?_⟩
  simp [hprecision, htime]

theorem mapLaunch_of_not_hasId (text : JsonText) {item : Json} (h : ¬HasId item) :
    ∃ error, mapLaunch text item = ⟨[], .error error⟩ := by
  have hat : ∃ error, item.atKey "id" = .error error := by
    cases item with
    | object members =>
      have hlookup : members.lookup "id" = none :=
        Option.eq_none_iff_forall_ne_some.mpr fun id hid => h ⟨id, hid⟩
      exact ⟨_, by rw [Json.atKey, hlookup]⟩
    | _ => exact ⟨_, rfl⟩
  obtain ⟨error, hat⟩ := hat
  refine ⟨error, ?_⟩
  rw [mapLaunch, hat]
  rfl

theorem hasId_of_ok {text : JsonText} {item : Json} {launch : Launch}
    (h : (mapLaunch text item).result = .ok launch) : HasId item := by
  by_contra hid
  obtain ⟨error, hmap⟩ := mapLaunch_of_not_hasId text hid
  simp [hmap] at h

/-- Any other item adds one warning. -/
theorem contribution_of_not_hasId (text : JsonText) {item : Json} (h : ¬HasId item) :
    ∃ what, contribution text item = ⟨[], ["skipped unmappable launch payload: " ++ what]⟩ := by
  obtain ⟨error, hmap⟩ := mapLaunch_of_not_hasId text h
  exact ⟨error.what, by simp [contribution, fetchItem, hmap]⟩

theorem fetch_of_error {text : JsonText} {options : LaunchLibraryOptions}
    {httpGet : String → Int → Except Exn String} {error : Exn}
    (h : (httpGet options.url options.timeout >>= text.parse) = .error error) :
    fetch text options httpGet =
      .error (.sourceError ("Launch Library 2 fetch failed: " ++ error.what)) := by
  have hbody : (httpGet options.url options.timeout).bind text.parse = .error error := h
  rw [fetch, hbody]
  rfl

theorem fetch_of_ok {text : JsonText} {options : LaunchLibraryOptions}
    {httpGet : String → Int → Except Exn String} {payload : Json}
    (h : (httpGet options.url options.timeout >>= text.parse) = .ok payload) :
    fetch text options httpGet = (payload.valueOr "results" (.array []) >>= fun results =>
      .ok (results.elements.foldl (fetchItem text) ⟨[], []⟩)) := by
  have hbody : (httpGet options.url options.timeout).bind text.parse = .ok payload := h
  rw [fetch, hbody]
  rfl

/-- The launches of a fetch are those of the items with an id, in order. -/
theorem forall₂_launches (text : JsonText) (items : List Json) :
    List.Forall₂ (fun item launch => (mapLaunch text item).result = .ok launch)
      (items.filter HasId) (items.flatMap fun item => (contribution text item).launches) := by
  induction items with
  | nil => exact .nil
  | cons item items ih =>
    rw [List.flatMap_cons]
    by_cases hid : HasId item
    · obtain ⟨launch, hmap, hcontribution, -⟩ := contribution_of_hasId text hid
      rw [List.filter_cons_of_pos (by simpa using hid), hcontribution]
      exact .cons hmap ih
    · obtain ⟨what, hcontribution⟩ := contribution_of_not_hasId text hid
      rw [List.filter_cons_of_neg (by simpa using hid), hcontribution]
      exact ih

/-- The results of a payload are mapped one by one : each object with an id becomes a launch, each
other item one warning. -/
theorem fetch_results (text : JsonText) (options : LaunchLibraryOptions)
    (httpGet : String → Int → Except Exn String) {body : String}
    {members : List (String × Json)} {items : List Json}
    (hget : httpGet options.url options.timeout = .ok body)
    (hparse : text.parse body = .ok (.object members))
    (hresults : members.lookup "results" = some (.array items)) :
    (∃ result, fetch text options httpGet = .ok result ∧
      List.Forall₂ (fun item launch => (mapLaunch text item).result = .ok launch)
        (items.filter HasId) result.launches ∧
      (∀ launch ∈ result.launches, launch.sourceName = "ll2" ∧
        (launch.launchTime = none → launch.precision = .unknown)) ∧
      result.launches = (items.flatMap fun item => (contribution text item).launches) ∧
      result.warnings = (items.flatMap fun item => (contribution text item).warnings)) ∧
    ∀ item,
      (HasId item → ∃ launch,
        contribution text item = ⟨[launch], (mapLaunch text item).trace⟩) ∧
      (¬HasId item → ∃ what,
        contribution text item = ⟨[], ["skipped unmappable launch payload: " ++ what]⟩) := by
  have hvalue : (Json.object members).valueOr "results" (.array []) = .ok (.array items) := by
    simp [Json.valueOr, hresults]
  have hfetch : fetch text options httpGet =
      .ok ⟨items.flatMap fun item => (contribution text item).launches,
        items.flatMap fun item => (contribution text item).warnings⟩ := by
    rw [fetch_of_ok (Except.bind_eq_ok.mpr ⟨body, hget, hparse⟩), hvalue, Except.ok_bind,
      Json.elements_array, foldl_fetchItem]
    rfl
  refine ⟨⟨_, hfetch, forall₂_launches text items, ?_, rfl, rfl⟩, fun item => ⟨fun h => ?_,
    contribution_of_not_hasId text⟩⟩
  · intro launch hlaunch
    obtain ⟨item, -, hlaunch⟩ := List.mem_flatMap.mp hlaunch
    by_cases hid : HasId item
    · obtain ⟨launch', -, hcontribution, hfacts⟩ := contribution_of_hasId text hid
      rw [hcontribution, List.mem_singleton] at hlaunch
      rw [hlaunch]
      exact hfacts
    · obtain ⟨what, hcontribution⟩ := contribution_of_not_hasId text hid
      rw [hcontribution] at hlaunch
      cases hlaunch
  · obtain ⟨launch, -, hcontribution, -⟩ := contribution_of_hasId text h
    exact ⟨launch, hcontribution⟩

/-- A response with an item that has just an id, and one that is no object. -/
def twoItemsBody : String :=
  "\x7b\"results\":[\x7b\"id\":7\x7d,5]\x7d"

/-- A parser that knows two responses. -/
def twoResponses : JsonText where
  parse body :=
    if body = twoItemsBody then
      .ok (.object [("results", .array [.object [("id", .integer 7)], .integer 5])])
    else if body = "[]" then .ok (.array [])
    else .error (.jsonError "parse error")
  dump
    | .integer value => toString value
    | _ => ""

theorem fetch_results_twoItems :
    ∃ result, fetch twoResponses {} (fun _ _ => .ok twoItemsBody) = .ok result ∧
      List.Forall₂ (fun item launch => (mapLaunch twoResponses item).result = .ok launch)
        [.object [("id", .integer 7)]] result.launches := by
  obtain ⟨⟨result, hfetch, hlaunches, -⟩, -⟩ :=
    fetch_results twoResponses {} (fun _ _ => .ok twoItemsBody) rfl rfl rfl
  exact ⟨result, hfetch, hlaunches⟩

/-! ## What escapes a fetch -/

/-- A fetch ends with a result or a `SourceError`. -/
def FetchContained (text : JsonText) (options : LaunchLibraryOptions)
    (httpGet : String → Int → Except Exn String) : Prop :=
  (∃ result, fetch text options httpGet = .ok result) ∨
    ∃ what, fetch text options httpGet = .error (.sourceError what)

/-- The transport answers with JSON that is no object. -/
def AnswersNonObject (text : JsonText) (options : LaunchLibraryOptions)
    (httpGet : String → Int → Except Exn String) : Prop :=
  ∃ body payload, httpGet options.url options.timeout = .ok body ∧
    text.parse body = .ok payload ∧ ∀ members, payload ≠ .object members

/-- The exception of `payload.value` is the one that is not caught. -/
theorem fetchContained_iff (text : JsonText) (options : LaunchLibraryOptions)
    (httpGet : String → Int → Except Exn String) :
    FetchContained text options httpGet ↔ ¬AnswersNonObject text options httpGet := by
  have hanswers : AnswersNonObject text options httpGet ↔ ∃ payload,
      (httpGet options.url options.timeout >>= text.parse) = .ok payload ∧
        ∀ members, payload ≠ .object members := by
    simp only [Except.bind_eq_ok]
    constructor
    · rintro ⟨body, payload, hget, hparse, hpayload⟩
      exact ⟨payload, ⟨body, hget, hparse⟩, hpayload⟩
    · rintro ⟨payload, ⟨body, hget, hparse⟩, hpayload⟩
      exact ⟨body, payload, hget, hparse, hpayload⟩
  rw [hanswers]
  cases hbody : httpGet options.url options.timeout >>= text.parse with
  | error error => exact iff_of_true (.inr ⟨_, fetch_of_error hbody⟩) (by simp)
  | ok payload =>
    rw [FetchContained, fetch_of_ok hbody]
    cases payload with
    | object members => exact iff_of_true (.inl ⟨_, rfl⟩) (by simp)
    | _ => exact iff_of_false (by simp [Json.valueOr, Json.typeError]) (by simp)

/-- A list of launches at the top level is not read, and not reported as a `SourceError`. -/
theorem fetch_can_throw_type_error :
    ¬∀ (text : JsonText) (options : LaunchLibraryOptions)
      (httpGet : String → Int → Except Exn String), FetchContained text options httpGet := by
  intro hall
  have hthrows : fetch twoResponses {} (fun _ _ => .ok "[]") =
      .error (Json.typeError "306" "cannot use value() with array") := rfl
  rcases hall twoResponses {} fun _ _ => .ok "[]" with ⟨result, hok⟩ | ⟨what, herror⟩
  · rw [hthrows] at hok
    cases hok
  · rw [hthrows] at herror
    cases herror

end RocketWatcher
