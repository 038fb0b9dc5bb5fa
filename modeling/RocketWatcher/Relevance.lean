import RocketWatcher.Domain

/-!
# Relevance

`evaluateRelevance` of `relevance.cpp`: a relevant launch matches the configured provider
and at least one include term, both up to letter case. Terms are matched as plain
substrings of single searchable fields.
-/

namespace RocketWatcher

structure RelevanceResult where
  relevant : Bool
  matchedTerms : List String
  reason : String
  deriving DecidableEq, Repr

/-- Throws if there are no include terms; startup validation rejects that configuration. -/
def evaluateRelevance (launch : Launch) (launchProvider : String)
    (includeTerms : List String) : Except Exn RelevanceResult :=
  if includeTerms.isEmpty then
    .error (.invalidArgument
      "include_terms must not be empty; startup validation should reject this")
  else if toLower (trim launch.provider) ≠ toLower (trim launchProvider) then
    .ok ⟨false, [], "provider \"" ++ launch.provider ++ "\" does not match \"" ++
      launchProvider ++ "\""⟩
  else
    let fieldsLower := launch.searchableFields.map toLower
    let matched := includeTerms.filter fun term =>
      fieldsLower.any fun field => containsText field (toLower term)
    if matched.isEmpty then
      .ok ⟨false, [], "no include term matched any searchable field"⟩
    else
      .ok ⟨true, matched, "matched terms: " ++ join matched ", "⟩

/-- Without include terms relevance cannot be evaluated, with them it always can. -/
theorem evaluateRelevance_isOk_iff (launch : Launch) (launchProvider : String)
    (includeTerms : List String) :
    (∃ result, evaluateRelevance launch launchProvider includeTerms = .ok result) ↔
      includeTerms ≠ [] := by
  unfold evaluateRelevance
  cases includeTerms with
  | nil => simp
  | cons term terms =>
    simp only [List.isEmpty_cons, Bool.false_eq_true, ↓reduceIte, ne_eq, reduceCtorEq,
      not_false_eq_true, iff_true]
    split_ifs <;> exact ⟨_, rfl⟩

/-- A matching provider and one matching term make a launch relevant. -/
theorem evaluateRelevance_of_match {launch : Launch} {launchProvider : String}
    {includeTerms : List String} {term field : String}
    (hprovider : toLower (trim launch.provider) = toLower (trim launchProvider))
    (hterm : term ∈ includeTerms) (hfield : field ∈ launch.searchableFields)
    (hmatch : containsText (toLower field) (toLower term) = true) :
    ∃ result, evaluateRelevance launch launchProvider includeTerms = .ok result ∧
      result.relevant = true := by
  have hmatched : term ∈ includeTerms.filter fun term =>
      (launch.searchableFields.map toLower).any fun field =>
        containsText field (toLower term) := by
    rw [List.mem_filter, List.any_eq_true]
    exact ⟨hterm, toLower field, List.mem_map_of_mem hfield, hmatch⟩
  unfold evaluateRelevance
  rw [if_neg (by simpa using List.ne_nil_of_mem hterm), if_neg (not_not.mpr hprovider)]
  dsimp only
  rw [if_neg (by simpa using List.ne_nil_of_mem hmatched)]
  exact ⟨_, rfl, rfl⟩

end RocketWatcher
