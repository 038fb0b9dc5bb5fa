import RocketWatcher.Cli

/-!
# Dry runs

Which argument lists ask for a dry run, and that a dry run is not executed for real. A
`--dry-run` counts where it is not the value of `--config` or `--env-file`. If the arguments are
accepted it makes the run a dry one, of the command `once`, and a dry run does nothing but print
and read; if they are not, nothing is run at all (`dry_run_stays_dry`).
-/

open Traced

namespace RocketWatcher

/-! ## Where the flag counts -/

/-- The options that take the next argument as their value. -/
def TakesValue (arg : String) : Prop :=
  arg = "--config" ∨ arg = "--env-file"

/-- The argument at this position is the value of the option before it. -/
def ValueAt (args : List String) : Nat → Prop
  | 0 => False
  | i + 1 => (∃ arg ∈ args[i]?, TakesValue arg) ∧ ¬ValueAt args i

/-- The argument at this position is the flag. -/
def DryRunAt (args : List String) (i : Nat) : Prop :=
  args[i]? = some "--dry-run" ∧ ¬ValueAt args i

variable {arg value : String} {args rest : List String}

theorem valueAt_succ (args : List String) (i : Nat) :
    ValueAt args (i + 1) ↔ (∃ arg ∈ args[i]?, TakesValue arg) ∧ ¬ValueAt args i :=
  Iff.rfl

theorem valueAt_cons (h : ¬TakesValue arg) (i : Nat) :
    ValueAt (arg :: rest) (i + 1) ↔ ValueAt rest i := by
  induction i with
  | zero => simp [ValueAt, h]
  | succ i ih => rw [valueAt_succ _ (i + 1), valueAt_succ rest i, ih, List.getElem?_cons_succ]

/-- An option and its value come before the rest. -/
theorem valueAt_cons_cons (h : TakesValue arg) (i : Nat) :
    ValueAt (arg :: value :: rest) (i + 2) ↔ ValueAt rest i := by
  induction i with
  | zero => simp [ValueAt, h]
  | succ i ih =>
    rw [valueAt_succ _ (i + 2), valueAt_succ rest i, ih, List.getElem?_cons_succ,
      List.getElem?_cons_succ]

/-- The flag is asked for. -/
def AsksDryRun (args : List String) : Prop :=
  ∃ i, DryRunAt args i

theorem asksDryRun_nil : ¬AsksDryRun [] := by
  rintro ⟨i, hi, -⟩
  simp at hi

theorem asksDryRun_cons (h : ¬TakesValue arg) :
    AsksDryRun (arg :: rest) ↔ arg = "--dry-run" ∨ AsksDryRun rest := by
  constructor
  · rintro ⟨i, hi, hvalue⟩
    cases i with
    | zero => exact .inl (by simpa using hi)
    | succ i => exact .inr ⟨i, by simpa using hi, (valueAt_cons h i).not.mp hvalue⟩
  · rintro (rfl | ⟨i, hi, hvalue⟩)
    · exact ⟨0, rfl, id⟩
    · exact ⟨i + 1, by simpa using hi, (valueAt_cons h i).not.mpr hvalue⟩

theorem asksDryRun_cons_cons (h : TakesValue arg) :
    AsksDryRun (arg :: value :: rest) ↔ AsksDryRun rest := by
  constructor
  · rintro ⟨i, hi, hvalue⟩
    match i with
    | 0 =>
      obtain rfl : arg = "--dry-run" := by simpa using hi
      exact absurd h (by simp [TakesValue])
    | 1 => exact absurd (show ValueAt (arg :: value :: rest) 1 from ⟨⟨arg, rfl, h⟩, id⟩) hvalue
    | i + 2 => exact ⟨i, by simpa using hi, (valueAt_cons_cons h i).not.mp hvalue⟩
  · rintro ⟨i, hi, hvalue⟩
    exact ⟨i + 2, by simpa using hi, (valueAt_cons_cons h i).not.mpr hvalue⟩

/-! ## What is parsed -/

/-- The arguments are neither wrong nor a request for help. -/
def ParsedArgs.Accepted (parsed : ParsedArgs) : Prop :=
  parsed.showHelp = false ∧ parsed.error = ""

/-- The loop sets the flag where it counts, and only for `once`. -/
theorem parseFrom_dryRun (parsed : ParsedArgs)
    (hparsed : parsed.dryRun = true → parsed.command = "once") (args : List String)
    (haccepted : (parseFrom parsed args).Accepted) :
    ((parseFrom parsed args).dryRun = true ↔ parsed.dryRun = true ∨ AsksDryRun args) ∧
      ((parseFrom parsed args).dryRun = true → (parseFrom parsed args).command = "once") := by
  fun_induction parseFrom parsed args with
  | case1 parsed =>
    have hcheck : parsed.checkCommand = parsed := by
      unfold ParsedArgs.checkCommand at haccepted ⊢
      split_ifs at haccepted ⊢
      · exact absurd haccepted.2 (by simp)
      · exact absurd haccepted.2 (by simp)
      · rfl
    rw [hcheck]
    exact ⟨by simp [asksDryRun_nil], hparsed⟩
  | case2 => exact absurd haccepted.1 (by simp)
  | case3 => exact absurd haccepted.2 (by simp)
  | case4 parsed value rest _ hvalue ih =>
    rw [asksDryRun_cons_cons hvalue]
    exact ih hparsed haccepted
  | case5 parsed arg _ hvalue value rest _ ih =>
    rw [asksDryRun_cons_cons hvalue]
    exact ih hparsed haccepted
  | case6 => exact absurd haccepted.2 (by simp)
  | case7 parsed rest hcommand _ hvalue ih =>
    -- the flag, after the command
    have honce : parsed.command = "once" := not_not.mp hcommand
    obtain ⟨hflag, hkeeps⟩ := ih (fun _ => honce) haccepted
    rw [asksDryRun_cons hvalue]
    exact ⟨⟨fun _ => .inr (.inl rfl), fun _ => hflag.mpr (.inl rfl)⟩, hkeeps⟩
  | case8 parsed arg rest _ hvalue hflag hempty ih =>
    -- the command, so no flag came before it
    have hdry : parsed.dryRun = true → arg = "once" := by
      intro h
      simp [hparsed h] at hempty
    rw [asksDryRun_cons hvalue, or_iff_right hflag]
    exact ih hdry haccepted
  | case9 => exact absurd haccepted.2 (by simp)

theorem parseArgs_dryRun {args : List String} (haccepted : (parseArgs args).Accepted) :
    ((parseArgs args).dryRun = true ↔ AsksDryRun args) ∧
      ((parseArgs args).dryRun = true → (parseArgs args).command = "once") := by
  obtain ⟨hflag, honce⟩ := parseFrom_dryRun {} (by simp) args haccepted
  exact ⟨hflag.trans (or_iff_right Bool.false_ne_true), honce⟩

/-! ## What is run -/

/-- Text on the terminal. -/
def CliEffect.isText : CliEffect → Bool
  | .out _ | .err _ => true
  | .loadDotenv _ | .buildChannel | .buildSource | .send .. | .save .. | .appendLog _ => false

/-- The channel, the record file and the log file are touched. -/
def CliEffect.real : CliEffect → Bool
  | .buildChannel | .send .. | .save .. | .appendLog _ => true
  | .out _ | .err _ | .loadDotenv _ | .buildSource => false

/-- A dry cycle only logs. -/
theorem dry_runCycle_trace {env : CycleEnv} (hdry : env.dryRun = true) (config : Config)
    (stored : List AlertRecord) :
    ∀ e ∈ (runCycle env config stored).trace, ∃ line, e = .log line := by
  have hquiet : Emits Effect.visible (quietCycle recordsChanged env config stored) [] := by
    unfold quietCycle
    split
    · exact .pure _
    · exact .pure _
    · exact .ofExcept _
    · refine (Emits.ofExcept _).bind_silent fun plan _ => ?_
      simp only [hdry, if_true]
      exact .pure _
  have hnone : (runCycle env config stored).trace.filter Effect.visible = [] := by
    rw [runCycle, (runCycleWith_quiet recordsChanged env config stored).trace]
    exact List.prefix_nil.mp hquiet.isPrefix
  intro e he
  cases e with
  | log line => exact ⟨line, rfl⟩
  | save | send => exact absurd rfl (List.filter_eq_nil_iff.mp hnone _ he)

/-- With no log file, its lines go to the terminal. -/
theorem emits_cliCycle_dry (world : World) (config : Config) (zone : TimeZone) (channel : Channel)
    (cycle : CycleWorld) :
    Emits CliEffect.real (cliCycle world config zone false true channel cycle) [] := by
  have hreal : (cliCycle world config zone false true channel cycle).trace.filter
      CliEffect.real = [] := by
    rw [List.filter_eq_nil_iff]
    intro e he
    obtain ⟨⟨effect, n⟩, heffect, he⟩ := List.mem_flatMap.mp he
    obtain ⟨line, rfl⟩ := dry_runCycle_trace rfl config cycle.stored effect
      (List.fst_mem_of_mem_zipIdx heffect)
    obtain rfl : e = _ := by simpa [cycleEffect, logLine] using he
    simp [CliEffect.real]
  exact ⟨by rw [hreal], fun _ _ => hreal⟩

/-- `once --dry-run` builds the source and runs a dry cycle. -/
theorem emits_commandOnce_dry (world : World) (config : Config) :
    Emits CliEffect.real (commandOnce world config true) [] := by
  refine (Emits.ofExcept _).bind_silent fun zone _ => ?_
  refine Emits.bind_silent ?_ fun _ _ => ?_
  · exact (Emits.perform CliEffect.buildSource).bind_silent fun _ _ => .ofExcept _
  · exact (emits_cliCycle_dry world config zone nullChannel world.cycle).bind_silent
      fun _ _ => .pure _

theorem emits_catchConfigError {script : Cli Int} (h : Emits CliEffect.real script []) :
    Emits CliEffect.real (catchConfigError script) [] := by
  have hnone : script.trace.filter CliEffect.real = [] := List.prefix_nil.mp h.isPrefix
  have hcaught : (catchConfigError script).trace.filter CliEffect.real = [] := by
    unfold catchConfigError
    split
    · rw [List.filter_append, hnone]
      rfl
    · exact hnone
  exact ⟨by rw [hcaught], fun _ _ => hcaught⟩

theorem emits_runMain_dry {args : List String} (haccepted : (parseArgs args).Accepted)
    (hdry : (parseArgs args).dryRun = true) (world : World) :
    Emits CliEffect.real (runMain args world) [] := by
  have honce : (parseArgs args).command = "once" := (parseArgs_dryRun haccepted).2 hdry
  have hcommand : Emits CliEffect.real (runCommand (parseArgs args) world) [] := by
    refine (Emits.ofExcept _).bind_silent fun config _ => ?_
    rw [if_pos honce, hdry]
    exact emits_commandOnce_dry world config
  unfold runMain
  simp only [haccepted.1, haccepted.2, Bool.false_eq_true, if_false, ne_eq, not_true_eq_false]
  exact (Emits.perform (CliEffect.loadDotenv _)).bind_silent fun _ _ =>
    emits_catchConfigError hcommand

/-- Arguments that are not accepted get a text, whatever the world would answer. -/
theorem runMain_of_not_accepted {args : List String} (h : ¬(parseArgs args).Accepted) :
    ∃ texts code, (∀ e ∈ texts, CliEffect.isText e = true) ∧
      ∀ world, runMain args world = ⟨texts, .ok code⟩ := by
  by_cases hhelp : (parseArgs args).showHelp = true
  · refine ⟨[.out usage], 0, by simp [CliEffect.isText], fun world => ?_⟩
    simp only [runMain, hhelp, if_true]
    rfl
  · have herror : (parseArgs args).error ≠ "" := fun herror =>
      h ⟨by simpa using hhelp, herror⟩
    refine ⟨[.err ("error: " ++ (parseArgs args).error ++ "\n\n"), .err usage], 2,
      by simp [CliEffect.isText], fun world => ?_⟩
    simp only [runMain, hhelp, herror, ne_eq, not_false_eq_true, if_true]
    rfl

/-- A dry run is asked for by the flag and runs `once`; it does not build or call the channel,
save records or append to the log file. Arguments with the flag that are not accepted run
nothing. -/
theorem dry_run_stays_dry (args : List String) :
    ((parseArgs args).Accepted →
      ((parseArgs args).dryRun = true ↔ AsksDryRun args) ∧
        (AsksDryRun args → (parseArgs args).command = "once" ∧
          ∀ world, ∀ e ∈ (runMain args world).trace, e.real = false)) ∧
      (AsksDryRun args → ¬(parseArgs args).Accepted →
        ∃ texts code, (∀ e ∈ texts, CliEffect.isText e = true) ∧
          ∀ world, runMain args world = ⟨texts, .ok code⟩) := by
  refine ⟨fun haccepted => ?_, fun _ => runMain_of_not_accepted⟩
  obtain ⟨hflag, honce⟩ := parseArgs_dryRun haccepted
  refine ⟨hflag, fun hasks => ⟨honce (hflag.mpr hasks), fun world e he => ?_⟩⟩
  have hnone := List.prefix_nil.mp (emits_runMain_dry haccepted (hflag.mpr hasks) world).isPrefix
  simpa using List.filter_eq_nil_iff.mp hnone e he

/-- A world with a launch to alert about, and no secrets. -/
def launchWorld : World where
  configFile _ := .parsed (kValid [] [])
  locateZone := anyZone
  getEnv _ := none
  buildChannel _ _ := .ok ()
  buildSource _ := .ok ()
  startedAt := kNow
  cycle :=
    { now := kNow
      clock := fun _ => kNow
      endedAt := kNow
      fetch := .ok ⟨[makeLaunch], []⟩
      loadError := none
      stored := []
      saveAnswer := .saved
      send := fun _ _ name => .ok ⟨name, true, "delivered"⟩ }
  laterCycles := []
  stoppedAt := kNow

/-- A value that reads like the flag, and the flag. -/
def dryArgs : List String :=
  ["--config", "--dry-run", "once", "--dry-run"]

theorem dry_run_stays_dry_dryArgs :
    (parseArgs dryArgs).command = "once" ∧
      ∀ e ∈ (runMain dryArgs launchWorld).trace, e.real = false := by
  have haccepted : (parseArgs dryArgs).Accepted := ⟨by decide, by decide⟩
  obtain ⟨hdry, hstays⟩ := (dry_run_stays_dry dryArgs).1 haccepted
  obtain ⟨honce, hreal⟩ := hstays (hdry.mp (by decide))
  exact ⟨honce, hreal launchWorld⟩

example : (runMain dryArgs launchWorld).result = .ok 0 := by rfl

end RocketWatcher
