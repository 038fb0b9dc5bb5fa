import RocketWatcher.Announced
import RocketWatcher.CountdownText
import RocketWatcher.Library.Sampled

/-!
# Launches are announced in time

What the polling interval is good for. If the cycles come at most `gap` apart and the window of a
countdown kind is at least two gaps wide, a launch that is reported with the same facts throughout
the window is announced within two gaps of its opening, and so before liftoff
(`announced_in_time`).
-/

namespace RocketWatcher

/-- When the window of a countdown kind opens for a launch at this time. -/
def opening (policy : AlertPolicy) (kind : AlertKind) (time : Int) : Int :=
  time - min (countdownWindow policy kind) policy.scheduleLookahead

/-- The window of a countdown kind is open from its opening to the launch time. -/
theorem eligible_of_opening {policy : AlertPolicy} {launch : Launch} {kind : AlertKind}
    {time now : Int} (hkind : kind = .launchSoon ∨ kind = .launchImminent)
    (hprecise : launch.precision = .precise) (htime : launch.launchTime = some time)
    (hopen : opening policy kind time ≤ now) (hnow : now ≤ time) :
    Eligible policy launch now kind := by
  rcases hkind with rfl | rfl
  all_goals
    simp only [opening, countdownWindow] at hopen
    exact ⟨hprecise, time, htime, by omega, by omega⟩

/-- A cycle under the policy that sees the launch, with these facts. -/
def Sees (policy : AlertPolicy) (launch : Launch) (step : WatcherStep) : Prop :=
  step.input.config.policy = policy ∧ ∃ fetch launch', Polled step fetch launch' ∧
    launch'.key = launch.key ∧ launch'.facts = launch.facts

/-- A launch with a countdown window of at least two gaps is announced within two gaps of its
opening, in every run that polls from before it until a gap into it. Cycles outside of the window
may fail or crash. -/
theorem announced_in_time {start : WatcherStep} {steps : List WatcherStep}
    {stored : List AlertRecord} {launch : Launch} {time gap : Int} {kind : AlertKind}
    {policy : AlertPolicy} (hrun : watcher.Run [] (start :: steps) stored)
    (hconfigured : ∀ s ∈ start :: steps, s.input.Configured)
    (hsampled : Sampled (fun s => s.input.env.now) gap (start :: steps)) (hgap : 0 ≤ gap)
    (hkind : kind = .launchSoon ∨ kind = .launchImminent)
    (hwide : 2 * gap ≤ time - opening policy kind time)
    (hearly : start.input.env.now < opening policy kind time)
    (hlate : ∃ s ∈ start :: steps, opening policy kind time + gap ≤ s.input.env.now)
    (hgo : launch.status = .go) (hprecise : launch.precision = .precise)
    (htime : launch.launchTime = some time)
    (hsees : ∀ s ∈ steps, opening policy kind time ≤ s.input.env.now → s.input.env.now < time →
      Sees policy launch s)
    (hshift : 0 < policy.correctionTimeShift) (hret : 0 ≤ policy.retention) :
    ∃ s ∈ start :: steps, s.input.env.now < opening policy kind time + 2 * gap ∧
      Announces s launch.key kind := by
  obtain ⟨before, first, second, after, hsplit, hbefore, hfirst, hfirst', hsecond, hsecond'⟩ :=
    hsampled.exists_adjacent hgap hearly hlate
  have hmem {s : WatcherStep} (hs : s ∈ before ++ [first, second]) : s ∈ start :: steps := by
    rw [hsplit]
    simp only [List.mem_append, List.mem_cons, List.not_mem_nil, or_false] at hs ⊢
    tauto
  have hlater {s : WatcherStep} (hs : s ∈ before ++ [first, second])
      (hopen : opening policy kind time ≤ s.input.env.now) : s ∈ steps :=
    (List.mem_cons.mp (hmem hs)).resolve_left fun heq => absurd hopen (by rw [heq]; omega)
  -- the two polls
  obtain ⟨hpolicy₁, fetch₁, launch₁, hpolled₁, hkey₁, hfacts₁⟩ :=
    hsees first (hlater (by simp) hfirst) hfirst (by omega)
  obtain ⟨hpolicy₂, fetch₂, launch₂, hpolled₂, hkey₂, hfacts₂⟩ :=
    hsees second (hlater (by simp) (by omega)) (by omega) (by omega)
  have hopens {s : WatcherStep} {launch' : Launch} (hpolicy : s.input.config.policy = policy)
      (hfacts : launch'.facts = launch.facts) (hopen : opening policy kind time ≤ s.input.env.now)
      (hnow : s.input.env.now ≤ time) :
      Eligible s.input.config.policy launch' s.input.env.now kind := by
    rw [hpolicy]
    exact eligible_of_opening hkind ((congrArg LaunchFacts.precision hfacts).trans hprecise)
      ((congrArg LaunchFacts.launchTime hfacts).trans htime) hopen hnow
  -- they follow each other in the run
  rw [hsplit] at hrun
  obtain ⟨m, hrun₀, hrest⟩ := hrun.of_append
  obtain ⟨rfl, hstep₁, hrest⟩ := hrest.of_cons
  obtain ⟨hbetween, hstep₂, -⟩ := hrest.of_cons
  obtain ⟨s, hs, hannounces⟩ := announces_of_polls hrun₀ hstep₁ hstep₂ (by rw [hbetween])
    (fun s hs => hconfigured s (hmem hs)) hpolled₁ hpolled₂ (hpolicy₂.trans hpolicy₁.symm)
    (hpolicy₁ ▸ hshift) (hpolicy₁ ▸ hret) (hkey₂.trans hkey₁.symm) (hfacts₂.trans hfacts₁.symm)
    ((congrArg LaunchFacts.status hfacts₁).trans hgo)
    (hopens hpolicy₁ hfacts₁ hfirst (by omega)) (hopens hpolicy₂ hfacts₂ (by omega) (by omega))
  refine ⟨s, hmem hs, ?_, hkey₁ ▸ hannounces⟩
  simp only [List.mem_append, List.mem_cons, List.not_mem_nil, or_false] at hs
  rcases hs with hs | rfl | rfl
  · have hlt := hbefore s hs
    omega
  · omega
  · omega

/-- Polls every ten minutes, from before the launch-soon window of an hour. -/
theorem announced_in_time_makeLaunch : ∃ start second third stored,
    watcher.exec [] [testCall [makeLaunch] (kNow - 1200), testCall [makeLaunch] (kNow - 600),
        testCall [makeLaunch] kNow] = .ok ([start, second, third], stored) ∧
      ∃ s ∈ [start, second, third], s.input.env.now < kNow + 300 ∧
        Announces s makeLaunch.key .launchSoon := by
  obtain ⟨start, second, third, stored, hexec, hstart, hsecond, hthird⟩ :
      ∃ start second third stored, watcher.exec [] [testCall [makeLaunch] (kNow - 1200),
          testCall [makeLaunch] (kNow - 600), testCall [makeLaunch] kNow] =
          .ok ([start, second, third], stored) ∧
        start.input = testCall [makeLaunch] (kNow - 1200) ∧
        second.input = testCall [makeLaunch] (kNow - 600) ∧
        third.input = testCall [makeLaunch] kNow :=
    ⟨_, _, _, _, rfl, rfl, rfl, rfl⟩
  have hopening : opening makeConfig.policy .launchSoon (kNow + 2700) = kNow - 900 := by decide
  have hconfigured : ∀ s ∈ [start, second, third], s.input.Configured := by
    simp only [List.forall_mem_cons, hstart, hsecond, hthird]
    exact ⟨⟨List.cons_ne_nil _ _, _, rfl⟩, ⟨List.cons_ne_nil _ _, _, rfl⟩,
      ⟨List.cons_ne_nil _ _, _, rfl⟩, by simp⟩
  have hsees {s : WatcherStep} {now : Int} (h : s.input = testCall [makeLaunch] now) :
      Sees makeConfig.policy makeLaunch s :=
    ⟨by rw [h]; rfl, _, _, polled_makeLaunch h, rfl, rfl⟩
  have hsampled : Sampled (fun s => s.input.env.now) 600 [start, second, third] := by
    refine Sampled.cons_cons_iff.mpr ⟨?_, Sampled.cons_cons_iff.mpr ⟨?_, .singleton _⟩⟩
    · rw [hstart, hsecond]
      decide
    · rw [hsecond, hthird]
      decide
  have hwide : 2 * 600 ≤ kNow + 2700 - opening makeConfig.policy .launchSoon (kNow + 2700) := by
    decide
  have hall : ∀ s ∈ [second, third], Sees makeConfig.policy makeLaunch s := by
    simp only [List.forall_mem_cons]
    exact ⟨hsees hsecond, hsees hthird, by simp⟩
  obtain ⟨s, hs, hnow, hannounces⟩ := announced_in_time (Mealy.Run.of_exec hexec) hconfigured
    hsampled (by decide) (.inl rfl) hwide (by rw [hstart]; decide)
    ⟨third, by simp, by rw [hthird]; decide⟩ rfl rfl rfl (fun s hs _ _ => hall s hs) (by decide)
    (by decide)
  rw [hopening] at hnow
  exact ⟨start, second, third, stored, hexec, s, hs, by omega, hannounces⟩

end RocketWatcher
