import RocketWatcher.MappedLaunches

/-!
# Unknowns and warnings

What the adapter cannot map becomes unknown, with a warning that names the launch. There is one
way to an unknown without a warning : a launch without a net time whose other members are all
mapped (`warnsOfUnknown_iff`).
-/

namespace RocketWatcher

/-- The warnings name the launch. -/
def Labelled (label : String) (warnings : List String) : Prop :=
  ∀ warning ∈ warnings, ∃ rest, warning = label ++ rest

/-- No net time is reported. -/
def NetBlank (net : Json) : Prop :=
  net = .null ∨ net = .string ""

/-- The precision is one of the names, or of one of the families. -/
def PrecisionKnown (netPrecision : Json) : Prop :=
  ∃ name, optionalStringField netPrecision "name" = some name ∧
    ((kPrecisionMap.lookup (toLower (trim name))).isSome = true ∨
      kImprecisePrefixes.any (startsWith (toLower (trim name))) = true)

/-- The status is one of the abbreviations. -/
def StatusKnown (status : Json) : Prop :=
  ∃ abbreviation, optionalStringField status "abbrev" = some abbreviation ∧
    (kStatusMap.lookup (toLower (trim abbreviation))).isSome = true

/-- The status is TBC or TBD, in any case. -/
def Tentative (status : Json) : Prop :=
  ∃ abbreviation, optionalStringField status "abbrev" = some abbreviation ∧
    (toLower (trim abbreviation) = "tbc" ∨ toLower (trim abbreviation) = "tbd")

/-! ## The members -/

theorem mem_of_lookup {α : Type} {entries : List (String × α)} {key : String} {value : α}
    (h : entries.lookup key = some value) : (key, value) ∈ entries := by
  obtain ⟨before, after, rfl, -⟩ := List.lookup_eq_some_iff.mp h
  simp

theorem labelled_nil (label : String) : Labelled label [] := by
  simp [Labelled]

theorem labelled_singleton {label warning : String} (h : ∃ rest, warning = label ++ rest) :
    Labelled label [warning] := by
  simpa [Labelled] using h

theorem eq_of_silent {α : Type} {a a' : α} {warnings : List String}
    (h : (pure a : Mapping α) = ⟨warnings, .ok a'⟩) : warnings = [] ∧ a' = a := by
  simpa [Traced.pure_eq_mk, eq_comm] using h

theorem eq_of_warned {α : Type} {a a' : α} {warning : String} {warnings : List String}
    (h : (do warn warning; return a : Mapping α) = ⟨warnings, .ok a'⟩) :
    warnings = [warning] ∧ a' = a := by
  simpa [warn, Traced.perform, Traced.pure_eq_mk, eq_comm] using h

theorem providerWarnings_spec (item : Json) (label : String) :
    Labelled label (providerWarnings item label) ∧
      (providerWarnings item label = [] ↔ providerName item ≠ "") := by
  unfold providerWarnings
  split_ifs with hempty
  · exact ⟨labelled_singleton ⟨_, rfl⟩, by simpa using hempty⟩
  · exact ⟨labelled_nil label, by simpa using hempty⟩

/-- A blank net gives no time and no warning. -/
theorem parseNet_spec {text : JsonText} {net : Json} {label : String} {warnings : List String}
    {time : Option Int} (h : parseNet text net label = ⟨warnings, .ok time⟩) :
    Labelled label warnings ∧ (warnings = [] ∧ time = none ↔ NetBlank net) := by
  unfold parseNet at h
  split at h
  · obtain ⟨rfl, rfl⟩ := eq_of_silent h
    exact ⟨labelled_nil label, iff_of_true ⟨rfl, rfl⟩ (.inl rfl)⟩
  · obtain ⟨rfl, rfl⟩ := eq_of_silent h
    exact ⟨labelled_nil label, iff_of_true ⟨rfl, rfl⟩ (.inr rfl)⟩
  · next hnull hempty =>
    have hblank : ¬NetBlank net := fun hblank => hblank.elim hnull hempty
    dsimp only at h
    split at h
    · obtain ⟨rfl, rfl⟩ := eq_of_silent h
      exact ⟨labelled_nil label, iff_of_false (by simp) hblank⟩
    · obtain ⟨rfl, rfl⟩ := eq_of_warned h
      refine ⟨labelled_singleton ?_, iff_of_false (by simp) hblank⟩
      simp only [String.append_assoc]
      exact ⟨_, rfl⟩

/-- Without a warning the precision is known, and not mapped to unknown. -/
theorem mapPrecision_spec {netPrecision : Json} {label : String} {warnings : List String}
    {precision : TimingPrecision}
    (h : mapPrecision netPrecision label = ⟨warnings, .ok precision⟩) :
    Labelled label warnings ∧ (warnings = [] ↔ PrecisionKnown netPrecision) ∧
      (warnings = [] → precision ≠ .unknown) := by
  unfold mapPrecision at h
  split at h
  · next hname =>
    obtain ⟨rfl, rfl⟩ := eq_of_warned h
    refine ⟨labelled_singleton ⟨_, rfl⟩, iff_of_false (by simp) ?_, by simp⟩
    rintro ⟨name, hsome, -⟩
    simp [hname] at hsome
  · next name hname =>
    have hknown : PrecisionKnown netPrecision ↔
        (kPrecisionMap.lookup (toLower (trim name))).isSome = true ∨
          kImprecisePrefixes.any (startsWith (toLower (trim name))) = true := by
      simp only [PrecisionKnown, hname, Option.some.injEq, exists_eq_left']
    rw [hknown]
    dsimp only at h
    split at h
    · next precision' hlookup =>
      obtain ⟨rfl, rfl⟩ := eq_of_silent h
      have hmapped : ∀ entry ∈ kPrecisionMap, entry.2 ≠ .unknown := by decide
      exact ⟨labelled_nil label, iff_of_true rfl (.inl (by rw [hlookup]; rfl)),
        fun _ => hmapped _ (mem_of_lookup hlookup)⟩
    · next hlookup =>
      split at h
      · next hfamily =>
        obtain ⟨rfl, rfl⟩ := eq_of_silent h
        exact ⟨labelled_nil label, iff_of_true rfl (.inr hfamily), by simp⟩
      · next hfamily =>
        obtain ⟨rfl, rfl⟩ := eq_of_warned h
        refine ⟨labelled_singleton ?_, iff_of_false (by simp) ?_, by simp⟩
        · simp only [String.append_assoc]
          exact ⟨_, rfl⟩
        · rw [hlookup]
          exact fun h => h.elim (by simp) hfamily

/-- Without a warning the status is known, and mapped to unknown only for a tentative slot. -/
theorem mapStatus_spec {status : Json} {label : String} {warnings : List String}
    {mapped : LaunchStatus} (h : mapStatus status label = ⟨warnings, .ok mapped⟩) :
    Labelled label warnings ∧ (warnings = [] ↔ StatusKnown status) ∧
      (warnings = [] → mapped = .unknown → Tentative status) := by
  unfold mapStatus at h
  split at h
  · next habbreviation =>
    obtain ⟨rfl, rfl⟩ := eq_of_warned h
    refine ⟨labelled_singleton ⟨_, rfl⟩, iff_of_false (by simp) ?_, by simp⟩
    rintro ⟨abbreviation, hsome, -⟩
    simp [habbreviation] at hsome
  · next abbreviation habbreviation =>
    have hknown : StatusKnown status ↔
        (kStatusMap.lookup (toLower (trim abbreviation))).isSome = true := by
      simp only [StatusKnown, habbreviation, Option.some.injEq, exists_eq_left']
    rw [hknown]
    split at h
    · next status' hlookup =>
      obtain ⟨rfl, rfl⟩ := eq_of_silent h
      have htentative : ∀ entry ∈ kStatusMap, entry.2 = .unknown →
          entry.1 = "tbc" ∨ entry.1 = "tbd" := by decide
      have hentry := htentative (toLower (trim abbreviation), mapped) (mem_of_lookup hlookup)
      refine ⟨labelled_nil label, iff_of_true rfl (by rw [hlookup]; rfl), fun _ hunknown => ?_⟩
      exact ⟨abbreviation, habbreviation, hentry hunknown⟩
    · next hlookup =>
      obtain ⟨rfl, rfl⟩ := eq_of_warned h
      refine ⟨labelled_singleton ?_, iff_of_false (by simp) (by simp [hlookup]), by simp⟩
      simp only [String.append_assoc]
      exact ⟨_, rfl⟩

/-! ## The items -/

/-- If a launch is mapped to an unknown, other than to the status of a tentative slot, there is a
warning that names it. -/
def WarnsOfUnknown (text : JsonText) (item : Json) (launch : Launch) : Prop :=
  launch.precision = .unknown ∨
      (launch.status = .unknown ∧ ¬Tentative (item.member "status")) →
    ∃ warning ∈ (mapLaunch text item).trace, ∃ rest, warning = launch.label ++ rest

/-- The net time is blank, and everything else is mapped. -/
structure OnlyNetBlank (item : Json) : Prop where
  net : NetBlank (item.member "net")
  precision : PrecisionKnown (item.member "net_precision")
  status : StatusKnown (item.member "status")
  provider : providerName item ≠ ""

/-- What a mapping warns of names its launch, and an item is mapped without a warning when its
members are known and no net time is unreadable. -/
theorem mapLaunch_warnings {text : JsonText} {item : Json} {launch : Launch}
    (h : (mapLaunch text item).result = .ok launch) :
    Labelled launch.label (mapLaunch text item).trace ∧
      ((mapLaunch text item).trace = [] →
        (launch.precision = .unknown → NetBlank (item.member "net")) ∧
        PrecisionKnown (item.member "net_precision") ∧ StatusKnown (item.member "status") ∧
        providerName item ≠ "" ∧ (launch.status = .unknown → Tentative (item.member "status"))) ∧
      (OnlyNetBlank item → (mapLaunch text item).trace = [] ∧ launch.precision = .unknown) := by
  obtain ⟨id, hid⟩ := hasId_of_ok h
  obtain ⟨launch', netWarnings, precisionWarnings, precision, statusWarnings, hmap, -, hnet,
    hprecision, hoverride, hstatus⟩ := mapLaunch_of_id text hid
  obtain rfl : launch' = launch := by
    rw [hmap] at h
    exact Except.ok.inj h
  obtain ⟨hlabelled₀, hprovider⟩ := providerWarnings_spec item launch'.label
  obtain ⟨hlabelled₁, hblank⟩ := parseNet_spec hnet
  obtain ⟨hlabelled₂, hknown, hmapped⟩ := mapPrecision_spec hprecision
  obtain ⟨hlabelled₃, hstatus, htentative⟩ := mapStatus_spec hstatus
  rw [hmap]
  refine ⟨?_, fun hsilent => ?_, fun honly => ?_⟩
  · simp only [Labelled, List.forall_mem_append]
    exact ⟨⟨⟨hlabelled₀, hlabelled₁⟩, hlabelled₂⟩, hlabelled₃⟩
  · simp only [List.append_eq_nil_iff] at hsilent
    obtain ⟨⟨⟨h₀, h₁⟩, h₂⟩, h₃⟩ := hsilent
    refine ⟨fun hunknown => hblank.mp ⟨h₁, ?_⟩, hknown.mp h₂, hstatus.mp h₃, hprovider.mp h₀,
      htentative h₃⟩
    -- With a time the precision is the mapped one.
    cases htime : launch'.launchTime with
    | none => rfl
    | some time =>
      rw [hoverride, htime] at hunknown
      exact absurd hunknown (hmapped h₂)
  · obtain ⟨h₁, htime⟩ := hblank.mpr honly.net
    have h₀ := hprovider.mpr honly.provider
    have h₂ := hknown.mpr honly.precision
    have h₃ := hstatus.mpr honly.status
    exact ⟨by simp [h₀, h₁, h₂, h₃], by simp [hoverride, htime]⟩

theorem warnsOfUnknown_iff {text : JsonText} {item : Json} {launch : Launch}
    (h : (mapLaunch text item).result = .ok launch) :
    WarnsOfUnknown text item launch ↔ ¬OnlyNetBlank item := by
  obtain ⟨hlabelled, hsilent, hblank⟩ := mapLaunch_warnings h
  constructor
  · intro hwarns honly
    obtain ⟨htrace, hunknown⟩ := hblank honly
    obtain ⟨warning, hmem, -⟩ := hwarns (.inl hunknown)
    simp [htrace] at hmem
  · intro honly hunknown
    by_cases htrace : (mapLaunch text item).trace = []
    · obtain ⟨hnet, hprecision, hstatus, hprovider, htentative⟩ := hsilent htrace
      rcases hunknown with hunknown | ⟨hunknown, hnot⟩
      · exact absurd ⟨hnet hunknown, hprecision, hstatus, hprovider⟩ honly
      · exact absurd (htentative hunknown) hnot
    · obtain ⟨warning, warnings, hcons⟩ := List.exists_cons_of_ne_nil htrace
      have hmem : warning ∈ (mapLaunch text item).trace := by simp [hcons]
      exact ⟨warning, hmem, hlabelled warning hmem⟩

/-- A go launch to the minute whose net time has gone missing. -/
def untimedItem : Json :=
  .object [("id", .string "abc-123"), ("name", .string "Falcon 9"), ("net", .null),
    ("launch_service_provider", .object [("name", .string "SpaceX")]),
    ("net_precision", .object [("name", .string "Minute")]),
    ("status", .object [("abbrev", .string "Go")])]

def untimedLaunch : Launch where
  sourceName := "ll2"
  sourceLaunchId := "abc-123"
  name := "Falcon 9"
  provider := "SpaceX"
  launchTime := none
  precision := .unknown
  status := .go
  missionName := none
  missionDescription := none
  padName := none

theorem mapLaunch_untimedItem (text : JsonText) :
    mapLaunch text untimedItem = ⟨[], .ok untimedLaunch⟩ :=
  rfl

/-- The precision of a launch without a net time becomes unknown, and nothing is said of it. -/
theorem unknown_can_be_silent :
    ¬∀ (text : JsonText) (item : Json) (launch : Launch),
      (mapLaunch text item).result = .ok launch → WarnsOfUnknown text item launch := by
  intro hall
  obtain ⟨warning, hmem, -⟩ := hall twoResponses untimedItem untimedLaunch
    (by rw [mapLaunch_untimedItem]) (.inl rfl)
  rw [mapLaunch_untimedItem] at hmem
  cases hmem

/-- An item with an unknown precision name, of no provider and in no status. -/
def vagueItem : Json :=
  .object [("id", .string "abc-123"), ("net", .null),
    ("net_precision", .object [("name", .string "Fortnight")])]

/-- The vague item is warned of, and the one whose net time has gone missing is not. -/
theorem warnsOfUnknown_iff_vagueItem :
    ∃ launch, (mapLaunch twoResponses vagueItem).result = .ok launch ∧
      launch.precision = .unknown ∧ ¬OnlyNetBlank vagueItem ∧
      (∃ warning ∈ (mapLaunch twoResponses vagueItem).trace, ∃ rest,
        warning = launch.label ++ rest) ∧
      OnlyNetBlank untimedItem ∧ ¬WarnsOfUnknown twoResponses untimedItem untimedLaunch := by
  obtain ⟨launch, hmap, hunknown⟩ : ∃ launch,
      (mapLaunch twoResponses vagueItem).result = .ok launch ∧ launch.precision = .unknown :=
    ⟨_, rfl, rfl⟩
  have hvague : ¬OnlyNetBlank vagueItem := fun h => h.provider rfl
  have huntimed : OnlyNetBlank untimedItem :=
    ⟨.inl rfl, ⟨_, rfl, .inl rfl⟩, ⟨_, rfl, rfl⟩, by decide⟩
  have hmapped : (mapLaunch twoResponses untimedItem).result = .ok untimedLaunch := by
    rw [mapLaunch_untimedItem]
  refine ⟨launch, hmap, hunknown, hvague, (warnsOfUnknown_iff hmap).mpr hvague (.inl hunknown),
    huntimed, ?_⟩
  rw [warnsOfUnknown_iff hmapped, not_not]
  exact huntimed

end RocketWatcher
