import RocketWatcher.Core
import RocketWatcher.Library.Folded

/-!
# What relevance means

Relevance without lower casing : the providers agree up to the case of their letters, and a term
matches when it occurs, up to case, inside one of the fields. `evaluateRelevance` finds just the
terms that match (`evaluateRelevance_spec`), so letter case and white space around a provider do
not matter, and more terms never make a launch irrelevant.
-/

open Folded

namespace RocketWatcher

/-- The same character, or one ASCII letter in its two cases. -/
def SameLetter (c d : Char) : Prop :=
  c = d ∨ (c.isUpper = true ∧ d.toNat = c.toNat + 32) ∨ (d.isUpper = true ∧ c.toNat = d.toNat + 32)

/-- The same text but for the case of its letters. -/
def SameText (text text' : String) : Prop :=
  List.Forall₂ SameLetter text.toList text'.toList

/-- The term is inside the field, in one piece, up to case. -/
def OccursIn (term field : String) : Prop :=
  ∃ part, part <:+: field.toList ∧ List.Forall₂ SameLetter part term.toList

/-- A field of a launch that is present and not empty. -/
inductive SearchableField (launch : Launch) : String → Prop
  | name (hne : launch.name ≠ "") : SearchableField launch launch.name
  | missionName {field} (h : launch.missionName = some field) (hne : field ≠ "") :
      SearchableField launch field
  | missionDescription {field} (h : launch.missionDescription = some field) (hne : field ≠ "") :
      SearchableField launch field
  | padName {field} (h : launch.padName = some field) (hne : field ≠ "") :
      SearchableField launch field

/-- The term is inside one of the fields. -/
def TermMatches (launch : Launch) (term : String) : Prop :=
  ∃ field, SearchableField launch field ∧ OccursIn term field

/-- The providers are the same up to case, white space around them aside. -/
def ProviderAgrees (launch : Launch) (launchProvider : String) : Prop :=
  SameText (trim launch.provider) (trim launchProvider)

/-! ## Letters -/

theorem isUpper_iff (c : Char) : c.isUpper = true ↔ 65 ≤ c.toNat ∧ c.toNat ≤ 90 :=
  decide_eq_true_iff

theorem toNat_toLower (c : Char) :
    c.toLower.toNat = if c.isUpper = true then c.toNat + 32 else c.toNat := by
  unfold Char.toLower
  split_ifs with h hupper hupper
  · have hle := ((isUpper_iff c).mp hupper).2
    show (c.val + 32).toNat = c.val.toNat + 32
    rw [UInt32.toNat_add]
    exact Nat.mod_eq_of_lt (by
      have hc : c.val.toNat ≤ 90 := hle
      simp only [UInt32.reduceToNat]
      omega)
  · exact absurd ((isUpper_iff c).mpr ⟨h.1, h.2⟩) hupper
  · obtain ⟨hlow, hhigh⟩ := (isUpper_iff c).mp hupper
    exact absurd ⟨hlow, hhigh⟩ h
  · rfl

/-- Two characters are the same letter when they have one lower case. -/
theorem sameLetter_iff (c d : Char) : SameLetter c d ↔ c.toLower = d.toLower := by
  rw [← Char.toNat_inj, toNat_toLower, toNat_toLower, SameLetter, ← Char.toNat_inj]
  simp only [isUpper_iff]
  split_ifs
  all_goals omega

theorem sameLetter_isSpace (c d : Char) (h : SameLetter c d) : isSpace c = isSpace d := by
  have hspace (c : Char) : isSpace c = true ↔ c.toNat = 32 ∨ 9 ≤ c.toNat ∧ c.toNat ≤ 13 := by
    simp [isSpace, ← Char.toNat_inj]
  rw [Bool.eq_iff_iff, hspace, hspace]
  rcases h with rfl | ⟨hupper, heq⟩ | ⟨hupper, heq⟩
  · rfl
  · have hrange := (isUpper_iff c).mp hupper
    omega
  · have hrange := (isUpper_iff d).mp hupper
    omega

/-! ## Texts -/

theorem sameText_iff {text text' : String} :
    SameText text text' ↔ toLower text = toLower text' := by
  rw [SameText, forall₂_iff_map_eq sameLetter_iff, toLower, toLower, String.ofList_inj]

instance (text text' : String) : Decidable (SameText text text') :=
  decidable_of_iff _ sameText_iff.symm

instance (launch : Launch) (launchProvider : String) :
    Decidable (ProviderAgrees launch launchProvider) :=
  inferInstanceAs (Decidable (SameText _ _))

theorem SameText.eq_empty_iff {text text' : String} (h : SameText text text') :
    text = "" ↔ text' = "" := by
  rw [← String.toList_eq_nil_iff, ← String.toList_eq_nil_iff, ← List.length_eq_zero_iff,
    ← List.length_eq_zero_iff, List.Forall₂.length_eq h]

theorem occursIn_iff {term field : String} :
    OccursIn term field ↔ containsText (toLower field) (toLower term) = true := by
  rw [containsText, decide_eq_true_iff, toLower, toLower, String.toList_ofList,
    String.toList_ofList, map_infix_map_iff sameLetter_iff, OccursIn]

theorem mem_searchableFields {launch : Launch} {field : String} :
    field ∈ launch.searchableFields ↔ SearchableField launch field := by
  simp only [Launch.searchableFields, List.mem_append, List.mem_filterMap, List.mem_cons,
    List.not_mem_nil, or_false]
  constructor
  · rintro (hname | ⟨optionalField, hmem, hfield⟩)
    · split_ifs at hname with hempty
      · cases hname
      · obtain rfl := List.mem_singleton.mp hname
        exact .name (by simpa using hempty)
    · obtain ⟨hsome, hne⟩ := Option.filter_eq_some_iff.mp hfield
      have hne' : field ≠ "" := by simpa using hne
      rcases hmem with rfl | rfl | rfl
      · exact .missionName hsome hne'
      · exact .missionDescription hsome hne'
      · exact .padName hsome hne'
  · have hfilter {field : String} (hne : field ≠ "") :
        (some field).filter (fun field => !field.isEmpty) = some field := by simp [hne]
    rintro (hne | ⟨h, hne⟩ | ⟨h, hne⟩ | ⟨h, hne⟩)
    · simp [hne]
    · exact .inr ⟨_, .inl rfl, by rw [h, hfilter hne]⟩
    · exact .inr ⟨_, .inr (.inl rfl), by rw [h, hfilter hne]⟩
    · exact .inr ⟨_, .inr (.inr rfl), by rw [h, hfilter hne]⟩

theorem termMatches_iff {launch : Launch} {term : String} :
    TermMatches launch term ↔
      ((launch.searchableFields.map toLower).any fun field =>
        containsText field (toLower term)) = true := by
  simp only [TermMatches, List.any_map, List.any_eq_true, mem_searchableFields, occursIn_iff,
    Function.comp_apply]

instance (launch : Launch) (term : String) : Decidable (TermMatches launch term) :=
  decidable_of_iff _ termMatches_iff.symm

/-- The terms that match, in order. -/
def matchingTerms (launch : Launch) (includeTerms : List String) : List String :=
  includeTerms.filter (TermMatches launch)

/-- A launch is relevant when the providers agree and some term matches. -/
theorem evaluateRelevance_cases (launch : Launch) (launchProvider : String)
    {includeTerms : List String} (hterms : includeTerms ≠ []) :
    (ProviderAgrees launch launchProvider ∧ matchingTerms launch includeTerms ≠ [] ∧
      ∃ reason, evaluateRelevance launch launchProvider includeTerms =
        .ok ⟨true, matchingTerms launch includeTerms, reason⟩) ∨
    (¬(ProviderAgrees launch launchProvider ∧ matchingTerms launch includeTerms ≠ []) ∧
      ∃ reason, evaluateRelevance launch launchProvider includeTerms =
        .ok ⟨false, [], reason⟩) := by
  have hmatching : (includeTerms.filter fun term => (launch.searchableFields.map toLower).any
      fun field => containsText field (toLower term)) = matchingTerms launch includeTerms := by
    refine List.filter_congr fun term _ => ?_
    rw [Bool.eq_iff_iff, ← termMatches_iff, decide_eq_true_iff]
  simp only [evaluateRelevance, List.isEmpty_iff, hterms, if_false, hmatching]
  rw [ProviderAgrees, sameText_iff]
  by_cases hprovider : toLower (trim launch.provider) = toLower (trim launchProvider)
  · rw [if_neg (not_not.mpr hprovider)]
    by_cases hempty : matchingTerms launch includeTerms = []
    · rw [if_pos hempty]
      exact .inr ⟨fun h => h.2 hempty, _, rfl⟩
    · rw [if_neg hempty]
      exact .inl ⟨hprovider, hempty, _, rfl⟩
  · rw [if_pos hprovider]
    exact .inr ⟨fun h => hprovider h.1, _, rfl⟩

/-! ## Case, padding, more terms -/

variable {launch launch' : Launch} {launchProvider launchProvider' : String}
  {includeTerms includeTerms' : List String}

/-- The text in other letter cases, with white space around it. -/
def PaddedCopy (text text' : String) : Prop :=
  ∃ lead core trail, text'.toList = lead ++ core ++ trail ∧ (∀ c ∈ lead, isSpace c = true) ∧
    (∀ c ∈ trail, isSpace c = true) ∧ List.Forall₂ SameLetter text.toList core

theorem PaddedCopy.trim {text text' : String} (h : PaddedCopy text text') :
    SameText (trim text) (trim text') := by
  obtain ⟨lead, core, trail, htext', hlead, htrail, hcore⟩ := h
  have hstrip : strip isSpace text'.toList = strip isSpace core := by
    rw [htext', strip_append hlead htrail]
  simp only [SameText, RocketWatcher.trim, String.toList_ofList]
  show List.Forall₂ SameLetter (strip isSpace text.toList) (strip isSpace text'.toList)
  rw [hstrip]
  exact forall₂_strip sameLetter_isSpace hcore

/-- The launch with its provider and the searched fields in other letter cases, and the
provider padded. -/
structure Recased (launch launch' : Launch) : Prop where
  provider : PaddedCopy launch.provider launch'.provider
  name : SameText launch.name launch'.name
  missionName : Option.Rel SameText launch.missionName launch'.missionName
  missionDescription : Option.Rel SameText launch.missionDescription launch'.missionDescription
  padName : Option.Rel SameText launch.padName launch'.padName

/-- An optional field in other letter cases is the same in lower case. -/
theorem map_filter_eq_of_rel {field field' : Option String} (h : Option.Rel SameText field field') :
    (field.filter fun f => !f.isEmpty).map toLower =
      (field'.filter fun f => !f.isEmpty).map toLower := by
  cases h with
  | none => rfl
  | @some f f' hsame =>
    by_cases hempty : f = ""
    · simp [hempty, hsame.eq_empty_iff.mp hempty]
    · have hempty' : f' ≠ "" := mt hsame.eq_empty_iff.mpr hempty
      simp [Option.filter_some, hempty, hempty', sameText_iff.mp hsame]

/-- The fields are the same in lower case. -/
theorem Recased.map_searchableFields (h : Recased launch launch') :
    launch.searchableFields.map toLower = launch'.searchableFields.map toLower := by
  have hname : (if launch.name.isEmpty then [] else [launch.name]).map toLower =
      (if launch'.name.isEmpty then [] else [launch'.name]).map toLower := by
    by_cases hempty : launch.name = ""
    · simp [hempty, h.name.eq_empty_iff.mp hempty]
    · have hempty' : launch'.name ≠ "" := mt h.name.eq_empty_iff.mpr hempty
      simp [hempty, hempty', sameText_iff.mp h.name]
  rw [Launch.searchableFields, Launch.searchableFields, List.map_append, List.map_append, hname,
    List.map_filterMap, List.map_filterMap]
  simp only [List.filterMap_cons, List.filterMap_nil, map_filter_eq_of_rel h.missionName,
    map_filter_eq_of_rel h.missionDescription, map_filter_eq_of_rel h.padName]

theorem Recased.termMatches_iff (h : Recased launch launch') {term term' : String}
    (hterm : SameText term term') :
    TermMatches launch term ↔ TermMatches launch' term' := by
  rw [RocketWatcher.termMatches_iff, RocketWatcher.termMatches_iff, h.map_searchableFields,
    sameText_iff.mp hterm]

theorem Recased.providerAgrees_iff (h : Recased launch launch')
    (hprovider : PaddedCopy launchProvider launchProvider') :
    ProviderAgrees launch launchProvider ↔ ProviderAgrees launch' launchProvider' := by
  simp only [ProviderAgrees, sameText_iff, sameText_iff.mp h.provider.trim,
    sameText_iff.mp hprovider.trim]

/-- The matching terms are at the same positions. -/
theorem Recased.matchingTerms (h : Recased launch launch')
    (hterms : List.Forall₂ SameText includeTerms includeTerms') :
    List.Forall₂ (fun term term' => TermMatches launch term ↔ TermMatches launch' term')
        includeTerms includeTerms' ∧
      List.Forall₂ SameText (matchingTerms launch includeTerms)
        (matchingTerms launch' includeTerms') := by
  refine ⟨hterms.imp fun term term' hterm => h.termMatches_iff hterm, ?_⟩
  refine List.rel_filter (fun term term' hterm => ?_) hterms
  simpa using h.termMatches_iff hterm

theorem matchingTerms_subset (h : includeTerms ⊆ includeTerms') :
    matchingTerms launch includeTerms ⊆ matchingTerms launch includeTerms' :=
  List.filter_subset _ h

theorem evaluateRelevance_relevant_iff {matched : List String} :
    (∃ reason, evaluateRelevance launch launchProvider includeTerms =
        .ok ⟨true, matched, reason⟩) ↔
      ProviderAgrees launch launchProvider ∧ matched = matchingTerms launch includeTerms ∧
        matched ≠ [] := by
  by_cases hterms : includeTerms = []
  · subst hterms
    constructor
    · rintro ⟨reason, heq⟩
      cases heq
    · rintro ⟨-, rfl, hne⟩
      exact absurd rfl hne
  · rcases evaluateRelevance_cases launch launchProvider hterms with
      ⟨hprovider, hne, reason, heq⟩ | ⟨hnot, reason, heq⟩
    · rw [heq]
      constructor
      · rintro ⟨reason', heq'⟩
        obtain ⟨-, rfl, -⟩ := RelevanceResult.mk.inj (Except.ok.inj heq')
        exact ⟨hprovider, rfl, hne⟩
      · rintro ⟨-, rfl, -⟩
        exact ⟨reason, rfl⟩
    · rw [heq]
      constructor
      · rintro ⟨reason', heq'⟩
        cases heq'
      · rintro ⟨hprovider, rfl, hne⟩
        exact absurd ⟨hprovider, hne⟩ hnot

/-- Letter case and padding change nothing. -/
theorem evaluateRelevance_recased (hterms : includeTerms ≠ []) (hlaunch : Recased launch launch')
    (hprovider : PaddedCopy launchProvider launchProvider')
    (hincluded : List.Forall₂ SameText includeTerms includeTerms') :
    ∃ result result', evaluateRelevance launch launchProvider includeTerms = .ok result ∧
      evaluateRelevance launch' launchProvider' includeTerms' = .ok result' ∧
      result.relevant = result'.relevant ∧
      List.Forall₂ SameText result.matchedTerms result'.matchedTerms ∧
      List.Forall₂ (fun term term' => TermMatches launch term ↔ TermMatches launch' term')
        includeTerms includeTerms' := by
  have hterms' : includeTerms' ≠ [] := by
    rintro rfl
    exact hterms (List.forall₂_nil_right_iff.mp hincluded)
  obtain ⟨hpositions, hmatching⟩ := hlaunch.matchingTerms hincluded
  have hempty : matchingTerms launch includeTerms = [] ↔
      matchingTerms launch' includeTerms' = [] := by
    rw [← List.length_eq_zero_iff, ← List.length_eq_zero_iff, hmatching.length_eq]
  have hcondition :
      (ProviderAgrees launch launchProvider ∧ matchingTerms launch includeTerms ≠ []) ↔
        (ProviderAgrees launch' launchProvider' ∧ matchingTerms launch' includeTerms' ≠ []) :=
    and_congr (hlaunch.providerAgrees_iff hprovider) (not_congr hempty)
  rcases evaluateRelevance_cases launch launchProvider hterms with
    ⟨hagrees, hne, reason, heq⟩ | ⟨hnot, reason, heq⟩
  · obtain ⟨hagrees', hne'⟩ := hcondition.mp ⟨hagrees, hne⟩
    obtain ⟨reason', heq'⟩ := evaluateRelevance_relevant_iff.mpr ⟨hagrees', rfl, hne'⟩
    exact ⟨_, _, heq, heq', rfl, hmatching, hpositions⟩
  · rcases evaluateRelevance_cases launch' launchProvider' hterms' with
      ⟨hagrees', hne', -⟩ | ⟨-, reason', heq'⟩
    · exact absurd (hcondition.mpr ⟨hagrees', hne'⟩) hnot
    · exact ⟨_, _, heq, heq', rfl, .nil, hpositions⟩

theorem evaluateRelevance_of_subset (hsubset : includeTerms ⊆ includeTerms')
    (h : ∃ result, evaluateRelevance launch launchProvider includeTerms = .ok result ∧
      result.relevant = true) :
    ∃ result, evaluateRelevance launch launchProvider includeTerms' = .ok result ∧
      result.relevant = true := by
  obtain ⟨⟨relevant, matched, reason⟩, heq, rfl⟩ := h
  obtain ⟨hprovider, rfl, hne⟩ := evaluateRelevance_relevant_iff.mp ⟨reason, heq⟩
  have hne' : matchingTerms launch includeTerms' ≠ [] := by
    intro hempty
    exact hne (List.subset_nil.mp (hempty ▸ matchingTerms_subset hsubset))
  obtain ⟨reason', heq'⟩ := evaluateRelevance_relevant_iff.mpr ⟨hprovider, rfl, hne'⟩
  exact ⟨_, heq', rfl⟩

/-- A launch is relevant when the providers agree up to case and white space and some term is
inside a field up to case, and the matched terms are all those. Letter case and padded
providers change neither, and more terms do not make a launch irrelevant. -/
theorem evaluateRelevance_spec :
    (∀ (launch : Launch) (launchProvider : String) (includeTerms matched : List String),
      (∃ reason, evaluateRelevance launch launchProvider includeTerms =
          .ok ⟨true, matched, reason⟩) ↔
        ProviderAgrees launch launchProvider ∧ matched = matchingTerms launch includeTerms ∧
          matched ≠ []) ∧
    (∀ (launch launch' : Launch) (launchProvider launchProvider' : String)
        (includeTerms includeTerms' : List String), includeTerms ≠ [] → Recased launch launch' →
      PaddedCopy launchProvider launchProvider' →
      List.Forall₂ SameText includeTerms includeTerms' →
      ∃ result result', evaluateRelevance launch launchProvider includeTerms = .ok result ∧
        evaluateRelevance launch' launchProvider' includeTerms' = .ok result' ∧
        result.relevant = result'.relevant ∧
        List.Forall₂ SameText result.matchedTerms result'.matchedTerms ∧
        List.Forall₂ (fun term term' => TermMatches launch term ↔ TermMatches launch' term')
          includeTerms includeTerms') ∧
    ∀ (launch : Launch) (launchProvider : String) (includeTerms includeTerms' : List String),
      includeTerms ⊆ includeTerms' →
      (∃ result, evaluateRelevance launch launchProvider includeTerms = .ok result ∧
        result.relevant = true) →
      ∃ result, evaluateRelevance launch launchProvider includeTerms' = .ok result ∧
        result.relevant = true :=
  ⟨fun _ _ _ _ => evaluateRelevance_relevant_iff,
    fun _ _ _ _ _ _ hterms hlaunch hprovider hincluded =>
      evaluateRelevance_recased hterms hlaunch hprovider hincluded,
    fun _ _ _ _ hsubset hrelevant => evaluateRelevance_of_subset hsubset hrelevant⟩

/-- A launch with one field to search besides its name. -/
def starlinkLaunch : Launch :=
  { makeLaunch with
    name := "Falcon 9"
    missionName := some "Starlink 12"
    missionDescription := none
    padName := some "" }

/-- The same, shouted. -/
def shoutedLaunch : Launch :=
  { starlinkLaunch with
    name := "FALCON 9"
    provider := "\tSPACEX "
    missionName := some "STARLINK 12" }

theorem shoutedLaunch_recased : Recased starlinkLaunch shoutedLaunch where
  provider := ⟨['\t'], "SPACEX".toList, [' '], by decide, by decide, by decide,
    (by decide : SameText "SpaceX" "SPACEX")⟩
  name := by decide
  missionName := .some (by decide)
  missionDescription := .none
  padName := .some (by decide)

theorem evaluateRelevance_spec_starlinkLaunch :
    (∃ reason, evaluateRelevance starlinkLaunch "SpaceX" ["Crew", "link"] =
      .ok ⟨true, ["link"], reason⟩) ∧
    (∃ result result', evaluateRelevance starlinkLaunch "SpaceX" ["Crew", "link"] = .ok result ∧
      evaluateRelevance shoutedLaunch " spacex" ["crew", "LINK"] = .ok result' ∧
      result.relevant = result'.relevant) ∧
    ∃ result, evaluateRelevance starlinkLaunch "SpaceX" ["Crew", "link"] = .ok result ∧
      result.relevant = true := by
  obtain ⟨hiff, hrecased, hmore⟩ := evaluateRelevance_spec
  refine ⟨(hiff _ _ _ _).mpr ⟨by decide, by decide, by decide⟩, ?_, ?_⟩
  · obtain ⟨result, result', heq, heq', hrelevant, -⟩ :=
      hrecased starlinkLaunch shoutedLaunch "SpaceX" " spacex" ["Crew", "link"] ["crew", "LINK"]
        (by decide) shoutedLaunch_recased
        ⟨[' '], "spacex".toList, [], by decide, by decide, by decide,
          (by decide : SameText "SpaceX" "spacex")⟩
        (.cons (by decide) (.cons (by decide) .nil))
    exact ⟨result, result', heq, heq', hrelevant⟩
  · exact hmore starlinkLaunch "SpaceX" ["link"] ["Crew", "link"] (by decide) ⟨_, rfl, rfl⟩

end RocketWatcher
