import Mathlib.Algebra.Order.Group.Unbundled.Abs
import Mathlib.Algebra.Order.Group.Int
import RocketWatcher.Core

/-!
# What one decision can be

`Decides` is the decision table of one launch against its record : the three
corrections, the countdown alerts, and silence, each with everything that is known when
it is chosen. `decides` proves that `decideForLaunch` follows the table, so later proofs
go by cases on the table and never unfold the decision tree.
-/

namespace RocketWatcher

@[simp] theorem TimingPrecision.isUntimed_eq (p : TimingPrecision) : p.isUntimed = !p.isTimed := by
  cases p <;> rfl

/-- Both times are known and at least the policy's shift apart. -/
def Shifted (policy : AlertPolicy) (prev : LaunchFacts) (launch : Launch) : Prop :=
  ∃ before after, prev.launchTime = some before ∧ launch.launchTime = some after ∧
    policy.correctionTimeShift ≤ |after - before|

/-- No correction of a go launch is due against its record. -/
def NoCorrection (policy : AlertPolicy) (record : Option AlertRecord) (launch : Launch) : Prop :=
  ∀ r, record = some r →
    (r.lastFacts.precision.isTimed → launch.precision.isTimed) ∧ ¬Shifted policy r.lastFacts launch

/-- The launch time is inside the window of a countdown or hour-precision alert. -/
def Eligible (policy : AlertPolicy) (launch : Launch) (now : Int) : AlertKind → Prop
  | .launchImminent => launch.precision = .precise ∧ ∃ time, launch.launchTime = some time ∧
      0 ≤ time - now ∧ time - now ≤ min policy.launchImminent policy.scheduleLookahead
  | .launchSoon => launch.precision = .precise ∧ ∃ time, launch.launchTime = some time ∧
      0 ≤ time - now ∧ time - now ≤ min policy.launchSoon policy.scheduleLookahead
  | .hourPrecision => launch.precision = .hour ∧ ∃ time, launch.launchTime = some time ∧
      -kHourWindow ≤ time - now ∧ time - now ≤ min kHourWindow policy.scheduleLookahead
  | .correction => False

/-- The kinds already sent that keep a countdown or hour-precision alert from being sent. -/
def Suppressed (sent : List AlertKind) : AlertKind → Prop
  | .launchSoon => .launchSoon ∈ sent ∨ .launchImminent ∈ sent
  | kind => kind ∈ sent

theorem Suppressed.of_mem {sent : List AlertKind} {kind : AlertKind} (h : kind ∈ sent) :
    Suppressed sent kind := by
  cases kind
  case launchSoon => exact Or.inl h
  all_goals exact h

theorem Suppressed.mono {sent sent' : List AlertKind} (hsub : sent ⊆ sent') {kind : AlertKind}
    (h : Suppressed sent kind) : Suppressed sent' kind := by
  cases kind
  case launchSoon => exact h.imp (@hsub _) (@hsub _)
  all_goals exact hsub h

/-- What is known of a launch the cycle stays silent about. -/
structure Quiet (policy : AlertPolicy) (record : Option AlertRecord) (launch : Launch)
    (now : Int) : Prop where
  noGo : launch.status = .noGo → ∀ r, record = some r → r.lastFacts.status = .noGo
  go : launch.status = .go → NoCorrection policy record launch
  countdown : launch.status = .go → ∀ kind, Eligible policy launch now kind →
    Suppressed (sentKinds record) kind

/-- The decision table of a launch against its record. -/
inductive Decides (policy : AlertPolicy) (now : Int) (terms : List String) (launch : Launch) :
    Option AlertRecord → Option Alert → Prop
  | noGo {r} (status : launch.status = .noGo) (before : r.lastFacts.status ≠ .noGo) :
      Decides policy now terms launch (some r) (some (makeCorrection launch r .noGo terms now))
  | timingNowImprecise {r} (status : launch.status = .go)
      (before : r.lastFacts.precision.isTimed = true) (after : launch.precision.isTimed = false) :
      Decides policy now terms launch (some r)
        (some (makeCorrection launch r .timingNowImprecise terms now))
  | timeChanged {r} (status : launch.status = .go)
      (kept : r.lastFacts.precision.isTimed → launch.precision.isTimed)
      (shifted : Shifted policy r.lastFacts launch) :
      Decides policy now terms launch (some r)
        (some (makeCorrection launch r .timeChanged terms now))
  | countdown {record kind} (status : launch.status = .go)
      (current : NoCorrection policy record launch) (eligible : Eligible policy launch now kind)
      (unsent : ¬Suppressed (sentKinds record) kind)
      (urgent : kind = .launchSoon → ¬Eligible policy launch now .launchImminent) :
      Decides policy now terms launch record (some (makeCountdown launch kind terms now))
  | silent {record} (quiet : Quiet policy record launch now) :
      Decides policy now terms launch record none

variable {policy : AlertPolicy} {now : Int} {terms : List String} {launch : Launch}

/-- The shift `decideForLaunch` computes is the distance of the two times. -/
theorem shift_eq_abs (before after : Int) :
    (if after ≥ before then after - before else before - after) = |after - before| := by
  split_ifs with h
  · rw [abs_of_nonneg (by omega)]
  · rw [abs_of_neg (by omega)]
    omega

/-- The correction of a go launch with a record. -/
theorem decideGoCorrection_cases (policy : AlertPolicy) (now : Int) (terms : List String)
    (launch : Launch) (r : AlertRecord) :
    ((decideGoCorrection launch r terms policy now).map (·.alert) =
        some (some (makeCorrection launch r .timingNowImprecise terms now)) ∧
      r.lastFacts.precision.isTimed = true ∧ launch.precision.isTimed = false) ∨
    ((decideGoCorrection launch r terms policy now).map (·.alert) =
        some (some (makeCorrection launch r .timeChanged terms now)) ∧
      (r.lastFacts.precision.isTimed → launch.precision.isTimed) ∧
      Shifted policy r.lastFacts launch) ∨
    (decideGoCorrection launch r terms policy now = none ∧
      NoCorrection policy (some r) launch) := by
  have hnone (hkept : r.lastFacts.precision.isTimed → launch.precision.isTimed)
      (hshift : ¬Shifted policy r.lastFacts launch) : NoCorrection policy (some r) launch := by
    rintro _ ⟨rfl⟩
    exact ⟨hkept, hshift⟩
  unfold decideGoCorrection
  by_cases himp : r.lastFacts.precision.isTimed = true ∧ launch.precision.isTimed = false
  · exact Or.inl ⟨by simp [himp], himp⟩
  have hkept : r.lastFacts.precision.isTimed → launch.precision.isTimed := by
    intro h
    by_contra hlaunch
    exact himp ⟨h, by simpa using hlaunch⟩
  have hcond : (r.lastFacts.precision.isTimed && launch.precision.isUntimed) = false := by
    simpa using hkept
  simp only [hcond, Bool.false_eq_true, ↓reduceIte, shift_eq_abs]
  cases hprev : r.lastFacts.launchTime with
  | none => exact Or.inr (Or.inr ⟨rfl, hnone hkept (by simp [Shifted, hprev])⟩)
  | some before =>
    cases hafter : launch.launchTime with
    | none => exact Or.inr (Or.inr ⟨rfl, hnone hkept (by simp [Shifted, hafter])⟩)
    | some after =>
      by_cases hshift : policy.correctionTimeShift ≤ |after - before|
      · exact Or.inr (Or.inl ⟨by simp [hshift], hkept, before, after, hprev, hafter, hshift⟩)
      · refine Or.inr (Or.inr ⟨by simp [hshift], hnone hkept ?_⟩)
        rintro ⟨b, a, hb, ha, hle⟩
        obtain rfl : before = b := by simpa [hprev] using hb
        obtain rfl : after = a := by simpa [hafter] using ha
        exact hshift hle

/-- The countdown alert of a go launch, once no correction is due. -/
theorem decideGoCountdown_cases (policy : AlertPolicy) (now : Int) (terms : List String)
    (launch : Launch) (sent : List AlertKind) :
    (∃ kind, (decideGoCountdown launch sent terms policy now).alert =
        some (makeCountdown launch kind terms now) ∧
      Eligible policy launch now kind ∧ ¬Suppressed sent kind ∧
      (kind = .launchSoon → ¬Eligible policy launch now .launchImminent)) ∨
    ((decideGoCountdown launch sent terms policy now).alert = none ∧
      ∀ kind, Eligible policy launch now kind → Suppressed sent kind) := by
  unfold decideGoCountdown
  cases hp : launch.precision
  case imprecise | unknown =>
    refine Or.inr ⟨rfl, fun kind he => ?_⟩
    cases kind <;> simp [Eligible, hp] at he
  all_goals
    cases ht : launch.launchTime with
    | none =>
      refine Or.inr ⟨rfl, fun kind he => ?_⟩
      cases kind <;> simp [Eligible, ht] at he
    | some time => ?_
  case precise =>
    simp only [TimingPrecision.isUntimed_eq, TimingPrecision.isTimed, BEq.rfl, Bool.true_or,
      Bool.not_true, Bool.false_eq_true, ↓reduceIte]
    split_ifs with hlook hpast himm hsoon
    · refine Or.inr ⟨rfl, fun kind he => ?_⟩
      cases kind <;> simp [Eligible, hp, ht] at he <;> omega
    · refine Or.inr ⟨rfl, fun kind he => ?_⟩
      cases kind <;> simp [Eligible, hp, ht] at he <;> omega
    · refine Or.inl ⟨_, rfl, ⟨hp, time, ht, ?_⟩, himm.2, by simp⟩
      omega
    · refine Or.inl ⟨_, rfl, ⟨hp, time, ht, ?_⟩, ?_, fun _ he => ?_⟩
      · omega
      · simpa [Suppressed] using hsoon.2
      · simp [Eligible, hp, ht] at he
        exact himm ⟨by omega, hsoon.2.2⟩
    · refine Or.inr ⟨rfl, fun kind he => ?_⟩
      cases kind <;> simp [Eligible, hp, ht] at he
      · simp only [Suppressed]
        by_contra hsent
        rw [not_or] at hsent
        exact hsoon ⟨by omega, hsent⟩
      · by_contra hsent
        exact himm ⟨by omega, hsent⟩
  case hour =>
    simp only [TimingPrecision.isUntimed_eq, TimingPrecision.isTimed, BEq.rfl, Bool.or_true,
      Bool.not_true, Bool.false_eq_true, ↓reduceIte, reduceCtorEq]
    split_ifs with hlook hwindow
    · refine Or.inr ⟨rfl, fun kind he => ?_⟩
      cases kind <;> simp [Eligible, hp, ht] at he
      omega
    · refine Or.inl ⟨_, rfl, ⟨hp, time, ht, ?_⟩, hwindow.2.2, by simp⟩
      omega
    · refine Or.inr ⟨rfl, fun kind he => ?_⟩
      cases kind
      case hourPrecision =>
        simp only [Eligible, ht, Option.some.injEq, exists_eq_left'] at he
        by_contra hsent
        exact hwindow ⟨by omega, by omega, hsent⟩
      all_goals simp [Eligible, hp] at he

/-- `decideForLaunch` follows the decision table. -/
theorem decides (policy : AlertPolicy) (now : Int) (terms : List String) (launch : Launch)
    (record : Option AlertRecord) :
    Decides policy now terms launch record
      (decideForLaunch launch record terms policy now).alert := by
  have hgo (status : launch.status = .go) (current : NoCorrection policy record launch) :
      Decides policy now terms launch record
        (decideGoCountdown launch (sentKinds record) terms policy now).alert := by
    rcases decideGoCountdown_cases policy now terms launch (sentKinds record) with
      ⟨kind, heq, he, hs, hu⟩ | ⟨heq, hq⟩
    · rw [heq]
      exact .countdown status current he hs hu
    · rw [heq]
      refine .silent ⟨fun h => ?_, fun _ => current, fun _ => hq⟩
      rw [status] at h
      cases h
  unfold decideForLaunch
  cases hs : launch.status with
  | ended | unknown => exact .silent ⟨by simp [hs], by simp [hs], by simp [hs]⟩
  | noGo =>
    cases record with
    | none => exact .silent ⟨by simp, by simp [hs], by simp [hs]⟩
    | some r =>
      by_cases hr : r.lastFacts.status = .noGo
      · simp only [hr, ↓reduceIte]
        exact .silent ⟨by simp [hr], by simp [hs], by simp [hs]⟩
      · simp only [hr, ↓reduceIte]
        exact .noGo hs hr
  | go =>
    cases record with
    | none => exact hgo hs (by simp [NoCorrection])
    | some r =>
      simp only [Option.bind_some]
      rcases decideGoCorrection_cases policy now terms launch r with
        ⟨heq, hb, ha⟩ | ⟨heq, hk, hsh⟩ | ⟨heq, hc⟩
      · obtain ⟨d, hd, hda⟩ := Option.map_eq_some_iff.mp heq
        rw [hd, hda]
        exact .timingNowImprecise hs hb ha
      · obtain ⟨d, hd, hda⟩ := Option.map_eq_some_iff.mp heq
        rw [hd, hda]
        exact .timeChanged hs hk hsh
      · rw [heq]
        exact hgo hs hc

namespace Decides

variable {record : Option AlertRecord} {alert : Alert}

theorem launch_eq (h : Decides policy now terms launch record (some alert)) :
    alert.launch = launch := by
  cases h <;> rfl

theorem createdAt_eq (h : Decides policy now terms launch record (some alert)) :
    alert.createdAt = now := by
  cases h <;> rfl

/-- An alert has a reason exactly when it is a correction. -/
theorem reason_isSome_iff (h : Decides policy now terms launch record (some alert)) :
    alert.reason.isSome ↔ alert.kind = .correction := by
  cases h with
  | noGo | timingNowImprecise | timeChanged => simp [makeCorrection]
  | @countdown _ kind _ _ eligible =>
    cases kind with
    | correction => exact eligible.elim
    | launchSoon | launchImminent | hourPrecision => simp [makeCountdown]

/-- A correction needs a record, whose facts it carries as the previous ones. -/
theorem of_correction (h : Decides policy now terms launch record (some alert))
    (hk : alert.kind = .correction) :
    ∃ r, record = some r ∧ alert.previous = some r.lastFacts := by
  cases h with
  | noGo | timingNowImprecise | timeChanged => exact ⟨_, rfl, rfl⟩
  | @countdown _ kind _ _ eligible =>
    obtain rfl : kind = .correction := hk
    exact eligible.elim

/-- A kind is sent only while no alert of the record suppresses it. -/
theorem not_suppressed (h : Decides policy now terms launch record (some alert))
    (hk : alert.kind ≠ .correction) : ¬Suppressed (sentKinds record) alert.kind := by
  cases h with
  | noGo | timingNowImprecise | timeChanged => exact absurd rfl hk
  | countdown _ _ _ unsent => exact unsent

end Decides

end RocketWatcher
