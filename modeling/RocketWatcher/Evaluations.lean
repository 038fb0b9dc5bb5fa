import RocketWatcher.CycleSpec

/-!
# What a cycle logs about its launches

`decideCycle` returns one evaluation for each launch, in order. Each names its launch, and the
note after the name can be read back : it tells whether the cycle created an alert for this
launch, and of which kind and reason (`evaluations_tell`).
-/

namespace RocketWatcher

/-- The notes that report an alert, with its kind and reason. -/
def alertNotes : List (String × AlertKind × Option CorrectionReason) :=
  [("launch imminent alert", .launchImminent, none), ("launch soon alert", .launchSoon, none),
    ("hour-precision alert", .hourPrecision, none),
    ("correction alert (no go)", .correction, some .noGo),
    ("correction alert (time changed)", .correction, some .timeChanged),
    ("correction alert (timing now imprecise)", .correction, some .timingNowImprecise)]

/-- What a note says. -/
def readNote (note : String) : Option (AlertKind × Option CorrectionReason) :=
  alertNotes.lookup note

/-- One launch of a cycle, with the alert it got. -/
structure Evaluation where
  launch : Launch
  note : String
  alert : Option Alert

def Evaluation.line (evaluation : Evaluation) : String :=
  evaluation.launch.name ++ " [" ++ evaluation.launch.key ++ "]" ++ ": " ++ evaluation.note

/-- The note of an evaluation tells about the alert for its launch. -/
structure Evaluation.Truthful (input : CycleInput) (evaluation : Evaluation) : Prop where
  note : readNote evaluation.note = evaluation.alert.map fun a => (a.kind, a.reason)
  launch_eq : ∀ a, evaluation.alert = some a → a.launch = evaluation.launch
  irrelevant : ¬input.Relevant evaluation.launch →
    ∃ reason, evaluation.note = "not relevant (" ++ reason ++ ")"

/-! ## One launch -/

theorem readNote_not_relevant (reason : String) :
    readNote ("not relevant (" ++ reason ++ ")") = none := by
  have hfirst : ∀ entry ∈ alertNotes, entry.1.toList.head? ≠ some 'n' := by decide
  rw [readNote, List.lookup_eq_none_iff]
  intro entry hentry
  rw [bne_iff_ne]
  intro heq
  refine hfirst entry hentry ?_
  rw [← heq]
  simp

/-- The note of a go launch that is not corrected. -/
theorem readNote_decideGoCountdown (launch : Launch) (sent : List AlertKind)
    (terms : List String) (policy : AlertPolicy) (now : Int) :
    readNote (decideGoCountdown launch sent terms policy now).note =
      (decideGoCountdown launch sent terms policy now).alert.map fun a => (a.kind, a.reason) := by
  unfold decideGoCountdown
  split
  · cases launch.precision <;> rfl
  split
  · rfl
  · dsimp only
    split_ifs <;> rfl

theorem readNote_decideGoCorrection {launch : Launch} {record : AlertRecord}
    {terms : List String} {policy : AlertPolicy} {now : Int} {decision : LaunchDecision}
    (h : decideGoCorrection launch record terms policy now = some decision) :
    readNote decision.note = decision.alert.map fun a => (a.kind, a.reason) := by
  simp only [decideGoCorrection, shift_eq_abs] at h
  split at h
  · obtain rfl := Option.some.inj h
    rfl
  · split at h
    · split at h
      · obtain rfl := Option.some.inj h
        rfl
      · cases h
    · cases h

/-- The note of a decision can be read back. -/
theorem readNote_decideForLaunch (launch : Launch) (record : Option AlertRecord)
    (terms : List String) (policy : AlertPolicy) (now : Int) :
    readNote (decideForLaunch launch record terms policy now).note =
      (decideForLaunch launch record terms policy now).alert.map fun a => (a.kind, a.reason) := by
  unfold decideForLaunch
  cases hstatus : launch.status with
  | ended | unknown => rfl
  | noGo =>
    cases record with
    | none => rfl
    | some r =>
      dsimp only
      split_ifs <;> rfl
  | go =>
    dsimp only
    split
    · next decision hdecision =>
      obtain ⟨r, -, hcorrection⟩ := Option.bind_eq_some_iff.mp hdecision
      exact readNote_decideGoCorrection hcorrection
    · exact readNote_decideGoCountdown launch _ terms policy now

variable {input : CycleInput} {launch : Launch}

/-- The loop body adds one evaluation. -/
theorem decideLaunch_evaluation {state state' : LoopState}
    (h : decideLaunch input state launch = .ok state') :
    ∃ evaluation : Evaluation, evaluation.launch = launch ∧ evaluation.Truthful input ∧
      state'.evaluations = state.evaluations ++ [evaluation.line] ∧
      state'.alerts = state.alerts ++ evaluation.alert.toList := by
  obtain ⟨relevance, hrelevance, h⟩ := Except.bind_eq_ok.mp h
  cases hrelevant : relevance.relevant with
  | false =>
    simp only [hrelevant, Bool.not_false, ↓reduceIte, Except.pure_eq_ok, Except.ok.injEq] at h
    refine ⟨⟨launch, "not relevant (" ++ relevance.reason ++ ")", none⟩, rfl,
      ⟨readNote_not_relevant _, by simp, fun _ => ⟨_, rfl⟩⟩, ?_, ?_⟩
    · have hnote : ": not relevant (" = ": " ++ "not relevant (" := rfl
      simp only [← h, Evaluation.line, hnote, String.append_assoc]
    · simp [← h]
  | true =>
    have hyes : input.Relevant launch := ⟨relevance, hrelevance, hrelevant⟩
    let decision := decideForLaunch launch state.recordMap[launch.key]? relevance.matchedTerms
      input.policy input.now
    have hlaunch : ∀ a, decision.alert = some a → a.launch = launch := by
      intro a ha
      have hd := decides input.policy input.now relevance.matchedTerms launch
        state.recordMap[launch.key]?
      exact Decides.launch_eq (ha ▸ hd)
    refine ⟨⟨launch, decision.note, decision.alert⟩, rfl,
      ⟨readNote_decideForLaunch .., hlaunch, fun hno => absurd hyes hno⟩, ?_, ?_⟩
    all_goals
      simp only [hrelevant, Bool.not_true, Bool.false_eq_true, ↓reduceIte] at h
      split at h
      · next hnone =>
        rw [← Except.ok.inj h]
        simp [Evaluation.line, String.append_assoc, decision, hnone]
      · next alert hsome =>
        rw [← Except.ok.inj h]
        simp [Evaluation.line, String.append_assoc, decision, hsome]

/-! ## The cycle -/

/-- A cycle evaluates every launch once, in order. Each evaluation names its launch, its note
tells the kind and the reason of the alert created for it, if any, and there are no other
alerts. -/
theorem evaluations_tell {records : List AlertRecord} {d : CycleDecision}
    (h : decideCycle input records = .ok d) :
    ∃ evaluations : List Evaluation, evaluations.map (·.launch) = input.launches ∧
      d.evaluations = evaluations.map Evaluation.line ∧
      d.alerts = evaluations.filterMap (·.alert) ∧
      ∀ evaluation ∈ evaluations, evaluation.Truthful input := by
  have hloop : ∀ launches state, decideLaunches input records launches = .ok state →
      ∃ evaluations : List Evaluation, evaluations.map (·.launch) = launches ∧
        state.evaluations = evaluations.map Evaluation.line ∧
        state.alerts = evaluations.filterMap (·.alert) ∧
        ∀ evaluation ∈ evaluations, evaluation.Truthful input := by
    intro launches
    induction launches using List.reverseRecOn with
    | nil =>
      rintro state hstate
      obtain rfl : _ = state := by simpa [decideLaunches] using hstate
      exact ⟨[], rfl, rfl, rfl, by simp⟩
    | append_singleton launches launch ih =>
      intro state hstate
      obtain ⟨before, hbefore, hlaunch⟩ := decideLaunches_snoc_eq_ok.mp hstate
      obtain ⟨evaluations, hlaunches, hlines, halerts, htruthful⟩ := ih before hbefore
      obtain ⟨evaluation, rfl, hnew, hline, halert⟩ := decideLaunch_evaluation hlaunch
      refine ⟨evaluations ++ [evaluation], by simp [hlaunches], by simp [hline, hlines], ?_, ?_⟩
      · rw [halert, halerts, List.filterMap_append]
        cases hnone : evaluation.alert <;> simp [hnone]
      · simpa [or_imp, forall_and, hnew] using htruthful
  obtain ⟨state, hstate, hd⟩ := Except.bind_eq_ok.mp h
  obtain rfl := Except.ok.inj hd
  exact hloop input.launches state hstate

/-- A launch of another provider. -/
def otherLaunch : Launch :=
  { makeLaunch with sourceLaunchId := "def-456", provider := "Rocket Lab" }

theorem evaluations_tell_otherLaunch : ∃ d first second,
    decideCycle (testCycle [otherLaunch, makeLaunch] kNow) [] = .ok d ∧
      d.evaluations = [first, second].map Evaluation.line ∧ first.launch = otherLaunch ∧
      first.alert = none ∧ readNote second.note = some (.launchSoon, none) := by
  obtain ⟨d, hd, halerts⟩ : ∃ d,
      decideCycle (testCycle [otherLaunch, makeLaunch] kNow) [] = .ok d ∧
        d.alerts = [makeCountdown makeLaunch .launchSoon ["Starlink"] kNow] := ⟨_, rfl, rfl⟩
  obtain ⟨evaluations, hlaunches, hlines, hcreated, htruthful⟩ := evaluations_tell hd
  obtain ⟨first, second, rfl⟩ : ∃ first second, evaluations = [first, second] := by
    have hlength := congrArg List.length hlaunches
    rw [List.length_map] at hlength
    exact List.length_eq_two.mp hlength
  obtain ⟨hfirst, hsecond⟩ : first.launch = otherLaunch ∧ second.launch = makeLaunch := by
    simpa [testCycle] using hlaunches
  have hnone : first.alert = none := by
    cases halert : first.alert with
    | none => rfl
    | some a =>
      have hlaunch := (htruthful first List.mem_cons_self).launch_eq a halert
      have hmem : a ∈ d.alerts := by simp [hcreated, halert]
      rw [halerts, List.mem_singleton] at hmem
      rw [hmem, hfirst] at hlaunch
      exact absurd hlaunch (by decide)
  refine ⟨d, first, second, hd, hlines, hfirst, hnone, ?_⟩
  rw [(htruthful second (by simp)).note]
  rw [halerts, List.filterMap_cons_none hnone] at hcreated
  cases halert : second.alert with
  | none => simp [halert] at hcreated
  | some a =>
    obtain rfl : _ = a := by simpa [halert] using hcreated
    rfl

end RocketWatcher
