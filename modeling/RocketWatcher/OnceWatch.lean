import Mathlib.Logic.Function.Basic
import RocketWatcher.ExitCodes

/-!
# A watch is `once`, cycle after cycle

The commands `once` and `watch` share their cycle, and nothing is kept between two cycles of a
watch but the record file. So `once`, run by a timer, does to the record file what a watch does and
notifies the same (`watch_is_once`). A watch that crashes or that an exception ends is some runs of
`once`, of which the last one is cut short.
-/

open Traced

namespace RocketWatcher

/-- `once` on a cycle of the run. -/
def Invocation.once (invocation : Invocation) (args : List String) (crashAfter : Option ℕ)
    (cycle : CycleWorld) : Invocation :=
  ⟨args, { invocation.world with cycle := cycle, laterCycles := [] }, crashAfter⟩

/-- The arguments are for `once` with the config file of the run. -/
structure Invocation.IsOnce (invocation : Invocation) (args : List String) : Prop where
  accepted : (parseArgs args).Accepted
  command : (parseArgs args).command = "once"
  wet : (parseArgs args).dryRun = false
  configPath : (parseArgs args).configPath = (parseArgs invocation.args).configPath

/-- A run with this config gets as far as its first cycle. -/
structure Started (world : World) (config : Config) : Prop where
  channel : (buildConfigured world config).result = .ok ()
  source : (buildSource world config).result = .ok ()
  zone : ∃ zone, config.displayZone world.locateZone = .ok zone

/-! ## Commands -/

section Commands

variable {world : World} {config : Config}

theorem commandOnce_watched (h : Started world config) :
    (commandOnce world config false).trace.filter CliEffect.watched =
      (seenOf world.locateZone config world.cycle).map CliEffect.ofEffect := by
  obtain ⟨zone, hzone⟩ := h.zone
  let finish : Cli Int := do
    let outcome ← cliCycle world config zone true false ⟨true, world.cycle.send⟩ world.cycle
    return if outcome.ok then 0 else 1
  have hfinish : finish.trace =
      (cliCycle world config zone true false ⟨true, world.cycle.send⟩ world.cycle).trace :=
    trace_bind_pure _ _
  have hcommand : commandOnce world config false =
      (buildConfigured world config >>= fun _ => buildSource world config >>= fun _ => finish) := by
    unfold commandOnce
    rw [hzone]
    rfl
  rw [hcommand, (SameView.of_silent emits_buildConfigured h.channel).trace,
    (SameView.of_silent emits_buildSource h.source).trace, hfinish]
  exact cliCycle_watched world config zone world.cycle

/-- A watch that does not get to its first cycle saves nothing and notifies nobody. -/
theorem commandWatch_of_not_started (h : ¬Started world config) :
    (commandWatch world config).trace.filter CliEffect.watched = [] := by
  have hbuilds : (buildConfigured world config).trace.filter CliEffect.watched = [] :=
    List.prefix_nil.mp emits_buildConfigured.isPrefix
  have hsources : (buildSource world config).trace.filter CliEffect.watched = [] :=
    List.prefix_nil.mp emits_buildSource.isPrefix
  unfold commandWatch
  cases hchannel : (buildConfigured world config).result with
  | error e =>
    rw [bind_of_error hchannel]
    dsimp only
    exact hbuilds
  | ok =>
    rw [(SameView.of_silent emits_buildConfigured hchannel).trace]
    cases hsource : (buildSource world config).result with
    | error e =>
      rw [bind_of_error hsource]
      dsimp only
      exact hsources
    | ok =>
      rw [(SameView.of_silent emits_buildSource hsource).trace]
      cases hzone : config.displayZone world.locateZone with
      | error e => rfl
      | ok zone => exact absurd ⟨hchannel, hsource, zone, hzone⟩ h

end Commands

/-! ## One run of `once` -/

section Once

variable {invocation : Invocation} {args : List String} {config : Config} {files : RecordFiles}

/-- What a run with a config leaves in the record files. -/
theorem program_step (hconfig : invocation.config = .ok config) (files : RecordFiles)
    {effects : List CliEffect}
    (hdone : invocation.done (runMain invocation.args (invocation.worldOn files)) = effects) :
    program.step files invocation = .ok (effects, Function.update files config.alertRecordsPath
      ((effects.filterMap CliEffect.effect).foldl Effect.store
        (files config.alertRecordsPath))) := by
  have hfiles : (fun path => if invocation.uses path then effects.foldl CliEffect.store (files path)
      else files path) = Function.update files config.alertRecordsPath
        ((effects.filterMap CliEffect.effect).foldl Effect.store
          (files config.alertRecordsPath)) := by
    funext path
    rw [Function.update_apply, ← foldl_store_effect]
    have huses : invocation.uses path = decide (config.alertRecordsPath = path) := by
      rw [Invocation.uses, hconfig]
    rw [huses]
    by_cases hpath : config.alertRecordsPath = path
    · subst hpath
      simp
    · simp [hpath, Ne.symm hpath]
  rw [← hfiles, ← hdone]
  rfl

theorem once_config (hargs : invocation.IsOnce args) (crashAfter : Option ℕ) (cycle : CycleWorld) :
    (invocation.once args crashAfter cycle).config = invocation.config := by
  unfold Invocation.config Invocation.once
  rw [hargs.configPath]

/-- What is seen of a run of `once` that does not crash. -/
theorem runMain_once (hargs : invocation.IsOnce args) (hconfig : invocation.config = .ok config)
    (hstarted : Started invocation.world config) (files : RecordFiles) (crashAfter : Option ℕ)
    (cycle : CycleWorld) :
    (runMain args ((invocation.once args crashAfter cycle).worldOn files)).trace.filterMap
        CliEffect.effect =
      seenOf invocation.world.locateZone config
        { cycle with stored := files config.alertRecordsPath } := by
  let world : World :=
    { invocation.world with
      cycle := { cycle with stored := files config.alertRecordsPath }, laterCycles := [] }
  have hworld : (invocation.once args crashAfter cycle).worldOn files = world := by
    unfold Invocation.worldOn
    rw [once_config hargs, hconfig]
    rfl
  have hload : loadConfig world.locateZone (parseArgs args).configPath
      (world.configFile (parseArgs args).configPath) = .ok config := by
    rw [hargs.configPath]
    exact hconfig
  have hcommand : runCommand (parseArgs args) world = commandOnce world config false := by
    unfold runCommand
    rw [hload, ofExcept_ok_bind, if_pos hargs.command, hargs.wet]
  have hstarted : Started world config := ⟨hstarted.channel, hstarted.source, hstarted.zone⟩
  have hsingle := filterMap_effect_seenOf world.locateZone config [world.cycle]
  simp only [List.flatMap_cons, List.flatMap_nil, List.append_nil] at hsingle
  have hmain : (runMain args world).trace.filter CliEffect.watched =
      (catchConfigError (runCommand (parseArgs args) world)).trace.filter CliEffect.watched := by
    rw [runMain_of_accepted hargs.accepted]
    rfl
  rw [hworld, ← filterMap_effect_watched, hmain, catchConfigError_watched, hcommand,
    commandOnce_watched hstarted, hsingle]

/-- The complete run of `once` for a cycle. -/
theorem once_step (hargs : invocation.IsOnce args) (hconfig : invocation.config = .ok config)
    (hstarted : Started invocation.world config) (files : RecordFiles) (cycle : CycleWorld) :
    ∃ done, program.step files (invocation.once args none cycle) =
        .ok (done, Function.update files config.alertRecordsPath
          ((done.filterMap CliEffect.effect).foldl Effect.store (files config.alertRecordsPath))) ∧
      done.filterMap CliEffect.effect = seenOf invocation.world.locateZone config
        { cycle with stored := files config.alertRecordsPath } :=
  ⟨_, program_step ((once_config hargs none cycle).trans hconfig) files rfl,
    runMain_once hargs hconfig hstarted files none cycle⟩

/-- A run of `once` that crashes somewhere in a cycle. -/
theorem once_step_of_isPrefix (hargs : invocation.IsOnce args)
    (hconfig : invocation.config = .ok config) (hstarted : Started invocation.world config)
    (files : RecordFiles) (cycle : CycleWorld) {effects : List Effect}
    (h : effects <+: seenOf invocation.world.locateZone config
      { cycle with stored := files config.alertRecordsPath }) :
    ∃ n done, program.step files (invocation.once args (some n) cycle) =
        .ok (done, Function.update files config.alertRecordsPath
          ((done.filterMap CliEffect.effect).foldl Effect.store (files config.alertRecordsPath))) ∧
      done.filterMap CliEffect.effect = effects := by
  rw [← runMain_once hargs hconfig hstarted files none cycle] at h
  obtain ⟨done, hdone, rfl⟩ := List.prefix_filterMap_iff.mp h
  have hcut : (invocation.once args (some done.length) cycle).done
      (runMain args ((invocation.once args (some done.length) cycle).worldOn files)) = done :=
    (List.prefix_iff_eq_take.mp hdone).symm
  exact ⟨done.length, done,
    program_step ((once_config hargs (some done.length) cycle).trans hconfig) files hcut, rfl⟩

end Once

/-! ## Runs of `once` -/

/-- The saves and notifications of some runs. -/
def watchedIn (runs : List ProgramStep) : List Effect :=
  runs.flatMap fun run => run.output.filterMap CliEffect.effect

/-- Runs of these invocations do this to a record file and leave the others alone. -/
def DoneBy (path : String) (files : RecordFiles) (seen : List Effect)
    (invocations : List Invocation) : Prop :=
  ∃ runs, program.Run files runs
      (Function.update files path (seen.foldl Effect.store (files path))) ∧
    watchedIn runs = seen ∧ runs.map (·.input) = invocations

namespace DoneBy

variable {path : String} {files : RecordFiles} {seen : List Effect} {invocations : List Invocation}

theorem nil (path : String) (files : RecordFiles) : DoneBy path files [] [] :=
  ⟨[], by simpa using .nil, rfl, rfl⟩

/-- One more run before the others. -/
theorem cons {invocation : Invocation} {done : List CliEffect}
    (hstep : program.step files invocation = .ok (done, Function.update files path
      ((done.filterMap CliEffect.effect).foldl Effect.store (files path))))
    (h : DoneBy path (Function.update files path
      ((done.filterMap CliEffect.effect).foldl Effect.store (files path))) seen invocations) :
    DoneBy path files (done.filterMap CliEffect.effect ++ seen) (invocation :: invocations) := by
  obtain ⟨runs, hrun, hseen, hinputs⟩ := h
  rw [Function.update_self, Function.update_idem, ← List.foldl_append] at hrun
  refine ⟨_, (Mealy.Run.snoc .nil hstep).append hrun, ?_, ?_⟩
  · rw [watchedIn, List.nil_append, List.singleton_append, List.flatMap_cons]
    exact congrArg _ hseen
  · simp [hinputs]

end DoneBy

section Runs

variable {invocation : Invocation} {args : List String} {config : Config}

/-- The threaded cycles, one by one. -/
theorem seen_threadCycles_cons (locateZone : String → Except Exn TimeZone) (config : Config)
    (stored : List AlertRecord) (cycle : CycleWorld) (cycles : List CycleWorld) :
    (threadCycles locateZone config stored (cycle :: cycles)).flatMap (seenOf locateZone config) =
      seenOf locateZone config { cycle with stored := stored } ++
        (threadCycles locateZone config ((seenOf locateZone config
          { cycle with stored := stored }).foldl Effect.store stored) cycles).flatMap
            (seenOf locateZone config) := by
  have hleaves : cycle.leaves locateZone config stored = (seenOf locateZone config
      { cycle with stored := stored }).foldl Effect.store stored := foldl_store_visible _ _
  rw [threadCycles, List.flatMap_cons, hleaves]

/-- Complete runs of `once` for some cycles. -/
theorem onces_of_cycles (hargs : invocation.IsOnce args) (hconfig : invocation.config = .ok config)
    (hstarted : Started invocation.world config) (cycles : List CycleWorld) (files : RecordFiles) :
    DoneBy config.alertRecordsPath files
      ((threadCycles invocation.world.locateZone config (files config.alertRecordsPath)
        cycles).flatMap (seenOf invocation.world.locateZone config))
      (cycles.map (invocation.once args none)) := by
  induction cycles generalizing files with
  | nil => exact .nil _ files
  | cons cycle cycles ih =>
    obtain ⟨done, hstep, hdone⟩ := once_step hargs hconfig hstarted files cycle
    have hrest := ih (Function.update files config.alertRecordsPath
      ((done.filterMap CliEffect.effect).foldl Effect.store (files config.alertRecordsPath)))
    rw [Function.update_self] at hrest
    rw [seen_threadCycles_cons, ← hdone]
    exact .cons hstep hrest

/-- Runs of `once` for the first of some cycles, of which the last may crash. -/
theorem onces_of_isPrefix (hargs : invocation.IsOnce args)
    (hconfig : invocation.config = .ok config) (hstarted : Started invocation.world config)
    (cycles : List CycleWorld) (files : RecordFiles) (seen : List Effect)
    (h : seen <+: (threadCycles invocation.world.locateZone config
      (files config.alertRecordsPath) cycles).flatMap
        (seenOf invocation.world.locateZone config)) :
    ∃ whole cut n, whole ++ cut <+: cycles ∧ cut.length ≤ 1 ∧
      DoneBy config.alertRecordsPath files seen
        (whole.map (invocation.once args none) ++ cut.map (invocation.once args (some n))) := by
  induction cycles generalizing files seen with
  | nil =>
    obtain rfl := List.prefix_nil.mp h
    exact ⟨[], [], 0, List.prefix_rfl, Nat.zero_le 1, .nil _ files⟩
  | cons cycle cycles ih =>
    rw [seen_threadCycles_cons] at h
    -- the runs end in the first cycle, or go on after it
    rcases List.prefix_or_prefix_of_prefix h (List.prefix_append _ _) with hfirst | ⟨rest, rfl⟩
    · obtain ⟨n, done, hstep, rfl⟩ :=
        once_step_of_isPrefix hargs hconfig hstarted files cycle hfirst
      refine ⟨[], [cycle], n, List.prefix_append [cycle] cycles, le_rfl, ?_⟩
      have hone := DoneBy.cons hstep (.nil _ _)
      rwa [List.append_nil] at hone
    · rw [List.prefix_append_right_inj] at h
      obtain ⟨done, hstep, hdone⟩ := once_step hargs hconfig hstarted files cycle
      rw [← hdone] at h ⊢
      obtain ⟨whole, cut, n, hcycles, hcut, hrest⟩ := ih (Function.update files
        config.alertRecordsPath ((done.filterMap CliEffect.effect).foldl Effect.store
          (files config.alertRecordsPath))) rest (by rwa [Function.update_self])
      exact ⟨cycle :: whole, cut, n, List.cons_prefix_cons.mpr ⟨rfl, hcycles⟩, hcut,
        .cons hstep hrest⟩

end Runs

/-! ## The watch -/

section Watch

variable {invocation : Invocation} {args : List String} {config : Config}
  {files files' : RecordFiles} {output : List CliEffect}

theorem runCommand_watch {world : World}
    (hwatch : (parseArgs invocation.args).command = "watch")
    (hconfig : invocation.config = .ok config)
    (hzone : world.locateZone = invocation.world.locateZone)
    (hfile : world.configFile = invocation.world.configFile) :
    runCommand (parseArgs invocation.args) world = commandWatch world config := by
  have hload : loadConfig world.locateZone (parseArgs invocation.args).configPath
      (world.configFile (parseArgs invocation.args).configPath) = .ok config := by
    rw [hzone, hfile]
    exact hconfig
  unfold runCommand
  rw [hload, ofExcept_ok_bind, if_neg (by rw [hwatch]; decide), if_pos hwatch]

/-- A watch that does not get to its first cycle is seen nothing of. -/
theorem nothing_of_not_started (hwatch : (parseArgs invocation.args).command = "watch")
    (hconfig : invocation.config = .ok config) (hstarted : ¬Started invocation.world config)
    (hstep : program.step files invocation = .ok (output, files')) :
    output.filterMap CliEffect.effect = [] := by
  obtain ⟨rfl, -⟩ := Prod.mk.inj (Except.ok.inj hstep)
  obtain ⟨hzone, hfile, -⟩ := worldOn_of_config files hconfig
  have hnot : ¬Started (invocation.worldOn files) config := by
    unfold Invocation.worldOn
    rw [hconfig]
    exact fun h => hstarted ⟨h.channel, h.source, h.zone⟩
  have hseen := runMain_watched invocation.args (invocation.worldOn files)
  rw [runCommand_watch hwatch hconfig hzone hfile, commandWatch_of_not_started hnot] at hseen
  have hpart := ((invocation.done_isPrefix _).filter CliEffect.watched).trans hseen
  rw [← filterMap_effect_watched, List.prefix_nil.mp hpart]
  rfl

theorem env_of_mem_threadCycles {locateZone : String → Except Exn TimeZone} {cycle : CycleWorld}
    (cycles : List CycleWorld) (stored : List AlertRecord)
    (h : cycle ∈ threadCycles locateZone config stored cycles) :
    ∃ original ∈ cycles, cycle.env locateZone = original.env locateZone := by
  induction cycles generalizing stored with
  | nil => cases h
  | cons original cycles ih =>
    rcases List.mem_cons.mp h with rfl | h
    · exact ⟨original, List.mem_cons_self, rfl⟩
    · obtain ⟨other, hother, henv⟩ := ih _ h
      exact ⟨other, List.mem_cons_of_mem _ hother, henv⟩

/-- The collaborators are the same whatever is stored. -/
theorem sound_worldOn (hsound : invocation.world.Sound) (hconfig : invocation.config = .ok config) :
    (invocation.worldOn files).Sound := by
  obtain ⟨hzone, -, hcycles⟩ := worldOn_of_config files hconfig
  refine ⟨?_, ?_, fun cycle hcycle => ?_⟩
  · unfold Invocation.worldOn
    rw [hconfig]
    exact hsound.channel
  · unfold Invocation.worldOn
    rw [hconfig]
    exact hsound.source
  · rw [hcycles] at hcycle
    obtain ⟨original, horiginal, henv⟩ := env_of_mem_threadCycles _ _ hcycle
    rw [hzone, henv]
    exact hsound.cycles original horiginal

/-- A watch with nothing wrong is seen all its cycles of. -/
theorem seen_of_watch (haccepted : (parseArgs invocation.args).Accepted)
    (hwatch : (parseArgs invocation.args).command = "watch")
    (hconfig : invocation.config = .ok config) (hsound : invocation.world.Sound)
    {zone : TimeZone} (hzone : config.displayZone invocation.world.locateZone = .ok zone)
    (hterms : config.includeTerms ≠ [])
    (hsecrets : secretProblems invocation.world.getEnv config = [])
    (hcrash : invocation.crashAfter = none)
    (hstep : program.step files invocation = .ok (output, files')) :
    output.filterMap CliEffect.effect =
      (threadCycles invocation.world.locateZone config (files config.alertRecordsPath)
        invocation.cycles).flatMap (seenOf invocation.world.locateZone config) := by
  obtain ⟨hlocate, hfile, hcycles⟩ := worldOn_of_config files hconfig
  have henv : (invocation.worldOn files).getEnv = invocation.world.getEnv := by
    unfold Invocation.worldOn
    rw [hconfig]
  obtain ⟨hresult, hseen⟩ := commandWatch_ends (sound_worldOn hsound hconfig) hterms
    (by rw [hlocate]; exact hzone) (by rw [henv]; exact hsecrets)
  rw [← runCommand_watch hwatch hconfig hlocate hfile] at hresult hseen
  rw [hlocate, hcycles] at hseen
  have hdone : invocation.done (runMain invocation.args (invocation.worldOn files)) = output :=
    (Prod.mk.inj (Except.ok.inj hstep)).1
  rw [Invocation.done, hcrash, runMain_of_ok haccepted hresult] at hdone
  rw [← hdone, ← hseen]
  rfl

end Watch

/-- Whatever a watch does to the record files, and whom it notifies, is what `once` does, run on
its cycles one after the other until the watch ends; a crash or an exception that ends it is a
crash of the last run. If nothing is wrong it is `once` on all its cycles. -/
theorem watch_is_once {invocation : Invocation} {args : List String} {files files' : RecordFiles}
    {output : List CliEffect} (haccepted : (parseArgs invocation.args).Accepted)
    (hwatch : (parseArgs invocation.args).command = "watch") (hargs : invocation.IsOnce args)
    (hstep : program.step files invocation = .ok (output, files')) :
    (∃ runs whole cut n, program.Run files runs files' ∧
      watchedIn runs = output.filterMap CliEffect.effect ∧ whole ++ cut <+: invocation.cycles ∧
      cut.length ≤ 1 ∧ runs.map (·.input) =
        whole.map (invocation.once args none) ++ cut.map (invocation.once args (some n))) ∧
    (invocation.crashAfter = none → invocation.world.Sound →
      startProblems (parseArgs invocation.args) invocation.world = [] →
      ∃ runs, program.Run files runs files' ∧
        watchedIn runs = output.filterMap CliEffect.effect ∧
        runs.map (·.input) = invocation.cycles.map (invocation.once args none)) := by
  cases hconfig : invocation.config with
  | error error =>
    obtain ⟨hnone, rfl⟩ := refused_step hconfig hstep
    refine ⟨⟨[], [], [], 0, .nil, hnone.symm, List.nil_prefix, Nat.zero_le 1, rfl⟩,
      fun _ _ hstart => ?_⟩
    obtain ⟨data, hfile, -, hload, -⟩ := started_of_no_problem hstart
    rw [Invocation.config, hfile, hload] at hconfig
    cases hconfig
  | ok config =>
    have hfiles : files' = Function.update files config.alertRecordsPath
        ((output.filterMap CliEffect.effect).foldl Effect.store
          (files config.alertRecordsPath)) := by
      have hout := (Prod.mk.inj (Except.ok.inj hstep)).1
      exact (Prod.mk.inj (Except.ok.inj (hstep.symm.trans (program_step hconfig files hout)))).2
    subst hfiles
    refine ⟨?_, fun hcrash hsound hstart => ?_⟩
    · by_cases hstarted : Started invocation.world config
      · obtain ⟨whole, cut, n, hcycles, hcut, runs, hrun, hseen, hinputs⟩ := onces_of_isPrefix
          hargs hconfig hstarted invocation.cycles files _ (seen_of_step hconfig hstep)
        exact ⟨runs, whole, cut, n, hrun, hseen, hcycles, hcut, hinputs⟩
      · rw [nothing_of_not_started hwatch hconfig hstarted hstep]
        obtain ⟨runs, hrun, hseen, hinputs⟩ := DoneBy.nil config.alertRecordsPath files
        exact ⟨runs, [], [], 0, hrun, hseen, List.nil_prefix, Nat.zero_le 1, hinputs⟩
    · obtain ⟨data, hfile, hwell, hload, hsecrets⟩ := started_of_no_problem hstart
      obtain rfl : configOf data = config := by
        rw [Invocation.config, hfile, hload] at hconfig
        exact Except.ok.inj hconfig
      obtain ⟨zone, hzone⟩ := hwell.zone
      have hsecrets := hsecrets (parseArgs_wet haccepted (by rw [hwatch]; decide))
      have hstarted : Started invocation.world (configOf data) :=
        ⟨by rw [buildConfigured_eq hsound hsecrets], by rw [buildSource_eq hsound], zone, hzone⟩
      rw [seen_of_watch haccepted hwatch hconfig hsound hzone hwell.includeTerms.1 hsecrets hcrash
        hstep]
      exact onces_of_cycles hargs hconfig hstarted invocation.cycles files

/-- The watch of two cycles is `once` twice. -/
theorem watch_is_once_restarted : ∃ runs files' output,
    program.step (fun _ => []) restarted = .ok (output, files') ∧
      program.Run (fun _ => []) runs files' ∧ runs.length = 2 ∧
      (output.filterMap CliEffect.effect).length = 3 ∧
      watchedIn runs = output.filterMap CliEffect.effect := by
  have haccepted : (parseArgs restarted.args).Accepted := ⟨rfl, rfl⟩
  have hargs : restarted.IsOnce ["once"] := ⟨⟨rfl, rfl⟩, rfl, rfl, rfl⟩
  have hsound : restarted.world.Sound := by
    refine ⟨fun _ _ => rfl, fun _ => rfl, fun cycle hcycle => ?_⟩
    have hcycle : cycle = launchWorld.cycle := by
      simpa [restarted, secretWorld] using hcycle
    subst hcycle
    exact sound_launchWorld.cycles _ List.mem_cons_self
  have hcount : ((restarted.done (runMain restarted.args
      (restarted.worldOn fun _ => []))).filterMap CliEffect.effect).length = 3 := by
    decide +kernel
  obtain ⟨output, files', hstep, hlength⟩ : ∃ output files',
      program.step (fun _ => []) restarted = .ok (output, files') ∧
        (output.filterMap CliEffect.effect).length = 3 := ⟨_, _, rfl, hcount⟩
  obtain ⟨runs, hrun, hseen, hinputs⟩ :=
    (watch_is_once haccepted rfl hargs hstep).2 rfl hsound rfl
  refine ⟨runs, files', output, hstep, hrun, ?_, hlength, hseen⟩
  have hruns := congrArg List.length hinputs
  rwa [List.length_map, List.length_map] at hruns

end RocketWatcher
