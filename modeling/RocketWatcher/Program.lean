import RocketWatcher.Delivery
import RocketWatcher.DryRun

/-!
# The program, run after run

`rocket-watcher` is started again and again : as `once` by a timer, as `watch` until it is
stopped, by hand, with this config file or that, and it may crash. What all these runs do to one
record file, and the notifications of the runs on this file, is what one watcher does that goes
through the cycles one after the other (`program_refines_watcher`). Dry runs, test notifications
and runs that are refused have no part in it.
-/

open Traced

namespace RocketWatcher

/-! ## Runs of the program -/

/-- The cycle as the watcher meets it. -/
def CycleWorld.env (cycle : CycleWorld) (locateZone : String → Except Exn TimeZone) :
    CycleEnv where
  now := cycle.now
  dryRun := false
  fetch := cycle.fetch
  loadError := cycle.loadError
  saveAnswer := cycle.saveAnswer
  send := cycle.send
  locateZone := locateZone

/-- The records a cycle leaves in the store. -/
def CycleWorld.leaves (cycle : CycleWorld) (locateZone : String → Except Exn TimeZone)
    (config : Config) (stored : List AlertRecord) : List AlertRecord :=
  (runCycle (cycle.env locateZone) config stored).trace.foldl Effect.store stored

/-- Each cycle on the records that the cycles before it have left. -/
def threadCycles (locateZone : String → Except Exn TimeZone) (config : Config)
    (stored : List AlertRecord) : List CycleWorld → List CycleWorld
  | [] => []
  | cycle :: cycles =>
    { cycle with stored := stored } ::
      threadCycles locateZone config (cycle.leaves locateZone config stored) cycles

/-- The record files, each with its records. -/
abbrev RecordFiles := String → List AlertRecord

/-- The program is started. A crash leaves its first `n` effects done. -/
structure Invocation where
  args : List String
  world : World
  crashAfter : Option Nat

namespace Invocation

/-- The config of the run, if it gets as far as that. -/
def config (invocation : Invocation) : Except Exn Config :=
  let path := (parseArgs invocation.args).configPath
  loadConfig invocation.world.locateZone path (invocation.world.configFile path)

def cycles (invocation : Invocation) : List CycleWorld :=
  invocation.world.cycle :: invocation.world.laterCycles

/-- What the run meets when these records are stored. -/
def worldOn (files : RecordFiles) (invocation : Invocation) : World :=
  let world := invocation.world
  match invocation.config with
  | .error _ => world
  | .ok config =>
    let stored := files config.alertRecordsPath
    { world with
      cycle := { world.cycle with stored := stored }
      laterCycles := threadCycles world.locateZone config
        (world.cycle.leaves world.locateZone config stored) world.laterCycles }

/-- The effects of the run that are done. -/
def done (invocation : Invocation) (x : Cli Int) : List CliEffect :=
  match invocation.crashAfter with
  | none => x.trace
  | some n => x.trace.take n

/-- The run is with this record file. -/
def uses (invocation : Invocation) (path : String) : Bool :=
  match invocation.config with
  | .error _ => false
  | .ok config => config.alertRecordsPath = path

end Invocation

/-- The records stored after an effect of the program. -/
def CliEffect.store (stored : List AlertRecord) : CliEffect → List AlertRecord
  | .save records true => records
  | .save _ false | .out _ | .err _ | .loadDotenv _ | .buildChannel | .buildSource | .send ..
  | .appendLog _ => stored

/-- The program, with the record files as its state. -/
def program : Mealy RecordFiles Invocation (List CliEffect) Empty where
  step files invocation :=
    let effects := invocation.done (runMain invocation.args (invocation.worldOn files))
    .ok (effects, fun path =>
      if invocation.uses path then effects.foldl CliEffect.store (files path) else files path)

/-! ## What the watcher has to do with it -/

/-- The saves and notifications. A test notification is none of a launch. -/
def CliEffect.effect : CliEffect → Option Effect
  | .save records replaced => some (.save records replaced)
  | .send message recipientName =>
    if message.alertKind = "test" then none else some (.send message recipientName)
  | .out _ | .err _ | .loadDotenv _ | .buildChannel | .buildSource | .appendLog _ => none

def CliEffect.watched (e : CliEffect) : Bool :=
  e.effect.isSome

/-- An effect of a cycle that is watched. -/
def CliEffect.ofEffect : Effect → CliEffect
  | .log line => .out line
  | .save records replaced => .save records replaced
  | .send message recipientName => .send message recipientName

/-- The effect is no test notification. -/
def Effect.OfLaunch (e : Effect) : Prop :=
  ∀ message name, e = .send message name → message.alertKind ≠ "test"

theorem filterMap_effect_watched (effects : List CliEffect) :
    (effects.filter CliEffect.watched).filterMap CliEffect.effect =
      effects.filterMap CliEffect.effect := by
  rw [List.filterMap_filter]
  refine List.filterMap_congr fun e _ => ?_
  cases h : e.effect with
  | none => simp [CliEffect.watched, h]
  | some effect => simp [CliEffect.watched, h]

theorem filterMap_effect_ofEffect {effects : List Effect}
    (hvisible : ∀ e ∈ effects, e.visible = true) (hlaunch : ∀ e ∈ effects, e.OfLaunch) :
    (effects.map CliEffect.ofEffect).filterMap CliEffect.effect = effects := by
  rw [List.filterMap_map]
  refine (List.filterMap_congr fun e he => ?_).trans List.filterMap_some
  cases e with
  | log line => exact absurd (hvisible _ he) (by simp [Effect.visible])
  | save records replaced => rfl
  | send message name => exact if_neg (hlaunch _ he message name rfl)

/-- The saves are the same. -/
theorem foldl_store_effect (effects : List CliEffect) (stored : List AlertRecord) :
    effects.foldl CliEffect.store stored =
      (effects.filterMap CliEffect.effect).foldl Effect.store stored := by
  induction effects generalizing stored with
  | nil => rfl
  | cons e effects ih =>
    rw [List.foldl_cons, ih]
    cases e with
    | save records replaced => cases replaced <;> rfl
    | send message name =>
      rw [List.filterMap_cons]
      by_cases htest : message.alertKind = "test"
      · rw [CliEffect.effect, if_pos htest]
        rfl
      · rw [CliEffect.effect, if_neg htest]
        rfl
    | out | err | loadDotenv | buildChannel | buildSource | appendLog => rfl

/-! ## One cycle of the program -/

/-- A cycle sends what its alerts are formatted to. -/
theorem ofLaunch_runCycle {env : CycleEnv} {config : Config} {stored : List AlertRecord} :
    ∀ e ∈ (runCycle env config stored).trace, e.OfLaunch := by
  rintro e he message name rfl htest
  let call : CycleCall := ⟨env, config, none⟩
  have hstep : watcher.step stored call = .ok ((runCycle env config stored).trace,
      (runCycle env config stored).trace.foldl Effect.store stored) := rfl
  rcases cycle_cases hstep with ⟨-, hnone⟩ | ⟨fetch, d, messages, rest, -, hplan, hseen, hrest, -⟩
  · exact hnone message name he
  · have hmem : Effect.send message name ∈ Effect.save d.updatedRecords true :: rest :=
      hseen ▸ List.mem_filter.mpr ⟨he, rfl⟩
    have hsend : Effect.send message name ∈ rest := by simpa using hmem
    obtain ⟨created, hcreated, r, -, heq⟩ := mem_allSends (hrest.subset hsend)
    obtain ⟨rfl, -⟩ := Effect.send.inj heq
    obtain ⟨-, -, zone, -, hmessages⟩ := planCycle_eq_ok hplan
    rcases (formatAlert_eq_ok (hmessages created hcreated)).2 with
      ⟨hkind, -⟩ | ⟨-, reason, -, hkind⟩
    · rw [htest] at hkind
      cases hcase : created.1.kind <;> rw [hcase] at hkind <;> exact absurd hkind (by decide)
    · rw [htest] at hkind
      cases reason <;> exact absurd hkind (by decide)

/-- The saves and sends of a cycle. -/
def seenOf (locateZone : String → Except Exn TimeZone) (config : Config) (cycle : CycleWorld) :
    List Effect :=
  (runCycle (cycle.env locateZone) config cycle.stored).trace.filter Effect.visible

theorem filterMap_effect_seenOf (locateZone : String → Except Exn TimeZone) (config : Config)
    (cycles : List CycleWorld) :
    (cycles.flatMap fun cycle =>
        (seenOf locateZone config cycle).map CliEffect.ofEffect).filterMap CliEffect.effect =
      cycles.flatMap (seenOf locateZone config) := by
  have hspec : ∀ e ∈ cycles.flatMap (seenOf locateZone config), e.visible = true ∧ e.OfLaunch := by
    intro e he
    obtain ⟨cycle, -, he⟩ := List.mem_flatMap.mp he
    obtain ⟨hmem, hvisible⟩ := List.mem_filter.mp he
    exact ⟨hvisible, ofLaunch_runCycle e hmem⟩
  rw [← List.map_flatMap]
  exact filterMap_effect_ofEffect (fun e he => (hspec e he).1) fun e he => (hspec e he).2

theorem cycleEffect_watched {zone : TimeZone} {toFile : Bool} {channel : Channel}
    {clock : Nat → Int} (hchannel : channel.configured = true) {e : Effect} (he : e.OfLaunch)
    (n : ℕ) :
    (cycleEffect zone toFile channel clock (e, n)).filter CliEffect.watched =
      ([e].filter Effect.visible).map CliEffect.ofEffect := by
  cases e with
  | log line => cases toFile <;> rfl
  | save records replaced => rfl
  | send message name =>
    have hkind : message.alertKind ≠ "test" := he message name rfl
    have hwatched : (CliEffect.send message name).watched = true := by
      simp [CliEffect.watched, CliEffect.effect, hkind]
    simp only [cycleEffect, hchannel, if_true, List.filter_cons_of_pos hwatched]
    rfl

theorem cliCycle_watched (world : World) (config : Config) (zone : TimeZone) (cycle : CycleWorld) :
    (cliCycle world config zone true false ⟨true, cycle.send⟩ cycle).trace.filter
      CliEffect.watched = (seenOf world.locateZone config cycle).map CliEffect.ofEffect := by
  let trace := (runCycle (cycle.env world.locateZone) config cycle.stored).trace
  calc (trace.zipIdx.flatMap (cycleEffect zone true ⟨true, cycle.send⟩ cycle.clock)).filter
        CliEffect.watched
      = trace.zipIdx.flatMap fun e => ([e.1].filter Effect.visible).map CliEffect.ofEffect := by
        rw [List.filter_flatMap]
        refine List.flatMap_congr fun e he => ?_
        exact cycleEffect_watched rfl (ofLaunch_runCycle _ (List.fst_mem_of_mem_zipIdx he)) _
    _ = ((trace.zipIdx.map Prod.fst).flatMap fun e => [e].filter Effect.visible).map
          CliEffect.ofEffect := by
        rw [List.map_flatMap, List.flatMap_map]
    _ = (trace.filter Effect.visible).map CliEffect.ofEffect := by
        rw [List.zipIdx_map_fst, ← List.filter_flatMap, List.flatMap_singleton']

theorem emits_cliCycle (world : World) (config : Config) (zone : TimeZone) (cycle : CycleWorld) :
    Emits CliEffect.watched (cliCycle world config zone true false ⟨true, cycle.send⟩ cycle)
      ((seenOf world.locateZone config cycle).map CliEffect.ofEffect) :=
  cliCycle_watched world config zone cycle ▸ Emits.self _

/-! ## One run of the program -/

section Run

variable {world : World} {config : Config}

theorem emits_buildConfigured : Emits CliEffect.watched (buildConfigured world config) [] :=
  (Emits.ofExcept _).bind_silent fun _ _ =>
    (Emits.perform CliEffect.buildChannel).bind_silent fun _ _ => .ofExcept _

theorem emits_buildSource : Emits CliEffect.watched (buildSource world config) [] :=
  (Emits.perform CliEffect.buildSource).bind_silent fun _ _ => .ofExcept _

theorem emits_watchLog (zone : TimeZone) (now : Int) (message : String) :
    Emits CliEffect.watched (watchLog zone now message) [] :=
  ⟨List.prefix_rfl, fun _ _ => rfl⟩

theorem emits_commandOnce_wet : Emits CliEffect.watched (commandOnce world config false)
    ((seenOf world.locateZone config world.cycle).map CliEffect.ofEffect) := by
  refine emits_buildConfigured.bind_silent fun _ _ => ?_
  refine (Emits.ofExcept _).bind_silent fun zone _ => ?_
  refine emits_buildSource.bind_silent fun _ _ => ?_
  exact (emits_cliCycle world config zone world.cycle).then_silent fun _ _ => .pure _

theorem emits_commandOnce_dry_watched :
    Emits CliEffect.watched (commandOnce world config true) [] := by
  refine (emits_commandOnce_dry world config).silent_mono fun e he => ?_
  cases e <;> first | rfl | exact absurd he (by simp [CliEffect.watched, CliEffect.effect])

theorem emits_watchCycle (zone : TimeZone) (cycle : CycleWorld) :
    Emits CliEffect.watched (watchCycle world config zone cycle)
      ((seenOf world.locateZone config cycle).map CliEffect.ofEffect) := by
  refine (emits_cliCycle world config zone cycle).then_silent fun outcome _ => ?_
  cases outcome.ok with
  | true => exact .pure _
  | false => exact emits_watchLog zone _ _

theorem emits_commandWatch (world : World) (config : Config) :
    Emits CliEffect.watched (commandWatch world config)
    ((world.cycle :: world.laterCycles).flatMap fun cycle =>
      (seenOf world.locateZone config cycle).map CliEffect.ofEffect) := by
  refine emits_buildConfigured.bind_silent fun _ _ => ?_
  refine emits_buildSource.bind_silent fun _ _ => ?_
  refine (Emits.ofExcept _).bind_silent fun zone _ => ?_
  refine (emits_watchLog zone _ _).bind_silent fun _ _ => ?_
  refine (Emits.forM fun cycle _ => emits_watchCycle zone cycle).then_silent fun _ _ => ?_
  exact (emits_watchLog zone _ _).bind_silent fun _ _ => .pure _

theorem emits_testDelivery {message : Message} (htest : message.alertKind = "test")
    (anyFailed : Bool) (recipient : Recipient × Nat) :
    Emits CliEffect.watched (testDelivery world message anyFailed recipient) [] := by
  have hsend : Emits CliEffect.watched
      (.perform (.send message recipient.1.name) : Cli Unit) [] := by
    have hnone : [CliEffect.send message recipient.1.name].filter CliEffect.watched = [] := by
      simp [CliEffect.watched, CliEffect.effect, htest]
    exact hnone ▸ Emits.perform _
  refine hsend.bind_silent fun _ _ => ?_
  refine (Emits.ofExcept _).bind_silent fun result _ => ?_
  exact (Emits.perform (CliEffect.out _)).bind_silent fun _ _ => .pure _

theorem emits_commandTestNotification :
    Emits CliEffect.watched (commandTestNotification world config) [] := by
  refine emits_buildConfigured.bind_silent fun _ _ => ?_
  refine (Emits.ofExcept _).bind_silent fun zone _ => ?_
  have hsilent : ∀ l : List (Recipient × Nat), (l.flatMap fun _ => ([] : List CliEffect)) = [] :=
    fun l => by simp
  refine Emits.bind_silent ?_ fun _ _ => .pure _
  rw [← hsilent config.recipients.zipIdx]
  exact Emits.foldlM (fun anyFailed r _ => emits_testDelivery rfl anyFailed r) false

/-- A command goes through the cycles, or through the first of them, or through none. -/
theorem runCommand_watched (parsed : ParsedArgs) (world : World)
    (hconfig : loadConfig world.locateZone parsed.configPath (world.configFile parsed.configPath) =
      .ok config) :
    (runCommand parsed world).trace.filter CliEffect.watched <+:
      (world.cycle :: world.laterCycles).flatMap fun cycle =>
        (seenOf world.locateZone config cycle).map CliEffect.ofEffect := by
  unfold runCommand
  rw [hconfig, Traced.ofExcept_ok_bind]
  split
  · cases parsed.dryRun with
    | true => exact emits_commandOnce_dry_watched.isPrefix.trans List.nil_prefix
    | false => exact emits_commandOnce_wet.isPrefix.trans (List.prefix_append _ _)
  split
  · exact (emits_commandWatch world config).isPrefix
  · exact emits_commandTestNotification.isPrefix.trans List.nil_prefix

theorem catchConfigError_watched (script : Cli Int) :
    (catchConfigError script).trace.filter CliEffect.watched =
      script.trace.filter CliEffect.watched := by
  unfold catchConfigError
  split
  · rw [List.filter_append]
    exact List.append_nil _
  · rfl

theorem runMain_watched (args : List String) (world : World) :
    (runMain args world).trace.filter CliEffect.watched <+:
      (runCommand (parseArgs args) world).trace.filter CliEffect.watched := by
  unfold runMain
  dsimp only
  split
  · exact List.nil_prefix
  split
  · exact List.nil_prefix
  · rw [← catchConfigError_watched (runCommand (parseArgs args) world)]
    exact List.prefix_rfl

end Run

/-! ## Cycles of the watcher -/

/-- The effects are the saves and sends of a run of the watcher, with calls that satisfy `P`. -/
def Realised (P : CycleCall → Prop) (stored : List AlertRecord) (effects : List Effect) : Prop :=
  ∃ steps, watcher.Run stored steps (effects.foldl Effect.store stored) ∧
    (steps.flatMap (·.output)).filter Effect.visible = effects ∧ ∀ step ∈ steps, P step.input

namespace Realised

variable {P : CycleCall → Prop} {stored : List AlertRecord} {effects : List Effect}

theorem nil (stored : List AlertRecord) : Realised P stored [] :=
  ⟨[], .nil, rfl, by simp⟩

theorem append {effects' : List Effect} (h : Realised P stored effects)
    (h' : Realised P (effects.foldl Effect.store stored) effects') :
    Realised P stored (effects ++ effects') := by
  obtain ⟨steps, hrun, hseen, hP⟩ := h
  obtain ⟨steps', hrun', hseen', hP'⟩ := h'
  refine ⟨steps ++ steps', ?_, ?_, ?_⟩
  · rw [List.foldl_append]
    exact hrun.append hrun'
  · rw [List.flatMap_append, List.filter_append, hseen, hseen']
  · simpa [or_imp, forall_and] using ⟨hP, hP'⟩

theorem mono {Q : CycleCall → Prop} (h : Realised P stored effects)
    (hPQ : ∀ call, P call → Q call) : Realised Q stored effects := by
  obtain ⟨steps, hrun, hseen, hP⟩ := h
  exact ⟨steps, hrun, hseen, fun step hstep => hPQ _ (hP step hstep)⟩

/-- What is seen of a cycle that crashes at any point. -/
theorem cycle {env : CycleEnv} {config : Config} (hP : ∀ n, P ⟨env, config, some n⟩)
    (h : effects <+: (runCycle env config stored).trace.filter Effect.visible) :
    Realised P stored effects := by
  obtain ⟨done, hdone, rfl⟩ := List.prefix_filter_iff.mp h
  rw [Realised, List.prefix_iff_eq_take.mp hdone, ← foldl_store_visible]
  let call : CycleCall := ⟨env, config, some done.length⟩
  refine ⟨[⟨stored, call, call.done (runCycle env config stored), _⟩], .snoc .nil rfl, ?_, ?_⟩
  · simp only [List.flatMap_cons, List.flatMap_nil, List.append_nil]
    rfl
  · simpa using hP done.length

end Realised

/-- What a run of the program calls the watcher with. -/
def Invocation.Calls (invocation : Invocation) (call : CycleCall) : Prop :=
  invocation.config = .ok call.config ∧
    ∃ cycle ∈ invocation.cycles, call.env = cycle.env invocation.world.locateZone

section Invocation

variable {invocation : Invocation} {config : Config} {files files' : RecordFiles}
  {effects : List CliEffect} {path : String}

theorem Invocation.done_isPrefix (invocation : Invocation) (x : Cli Int) :
    invocation.done x <+: x.trace := by
  unfold Invocation.done
  cases invocation.crashAfter with
  | none => exact List.prefix_rfl
  | some n => exact List.take_prefix n _

/-- A run whose config is refused saves nothing and sends nothing. -/
theorem runMain_refused {args : List String} {world : World} {error : Exn}
    (h : loadConfig world.locateZone (parseArgs args).configPath
      (world.configFile (parseArgs args).configPath) = .error error) :
    (runMain args world).trace.filter CliEffect.watched = [] := by
  have hcommand : (runCommand (parseArgs args) world).trace = [] := by
    unfold runCommand
    rw [h]
    rfl
  have hpart := runMain_watched args world
  rw [hcommand] at hpart
  exact List.prefix_nil.mp hpart

theorem worldOn_of_config (files : RecordFiles) (hconfig : invocation.config = .ok config) :
    (invocation.worldOn files).locateZone = invocation.world.locateZone ∧
      (invocation.worldOn files).configFile = invocation.world.configFile ∧
      (invocation.worldOn files).cycle :: (invocation.worldOn files).laterCycles =
        threadCycles invocation.world.locateZone config (files config.alertRecordsPath)
          invocation.cycles := by
  unfold Invocation.worldOn
  rw [hconfig]
  exact ⟨rfl, rfl, rfl⟩

/-- What is seen of a run is seen of its cycles. -/
theorem seen_of_step (hconfig : invocation.config = .ok config)
    (hstep : program.step files invocation = .ok (effects, files')) :
    effects.filterMap CliEffect.effect <+:
      (threadCycles invocation.world.locateZone config (files config.alertRecordsPath)
        invocation.cycles).flatMap (seenOf invocation.world.locateZone config) := by
  obtain ⟨rfl, -⟩ := Prod.mk.inj (Except.ok.inj hstep)
  obtain ⟨hzone, hfile, hcycles⟩ := worldOn_of_config files hconfig
  let cycles := threadCycles invocation.world.locateZone config (files config.alertRecordsPath)
    invocation.cycles
  let effects := invocation.done (runMain invocation.args (invocation.worldOn files))
  have hwatched : effects.filter CliEffect.watched <+: cycles.flatMap fun cycle =>
      (seenOf invocation.world.locateZone config cycle).map CliEffect.ofEffect := by
    refine ((invocation.done_isPrefix _).filter _).trans ((runMain_watched _ _).trans ?_)
    have hcommand := runCommand_watched (parseArgs invocation.args) (invocation.worldOn files)
      (by rw [hzone, hfile]; exact hconfig)
    rw [hzone, hcycles] at hcommand
    exact hcommand
  rw [← filterMap_effect_seenOf, ← filterMap_effect_watched]
  exact hwatched.filterMap _

/-- A run whose config is refused is seen nothing of, and leaves the files as they are. -/
theorem refused_step {error : Exn} (hconfig : invocation.config = .error error)
    (hstep : program.step files invocation = .ok (effects, files')) :
    effects.filterMap CliEffect.effect = [] ∧ files' = files := by
  obtain ⟨rfl, rfl⟩ := Prod.mk.inj (Except.ok.inj hstep)
  have hworld : invocation.worldOn files = invocation.world := by
    unfold Invocation.worldOn
    rw [hconfig]
  have huses : ∀ path, invocation.uses path = false := fun path => by
    rw [Invocation.uses, hconfig]
  have hnone := (invocation.done_isPrefix
    (runMain invocation.args invocation.world)).filter CliEffect.watched
  rw [runMain_refused hconfig] at hnone
  refine ⟨?_, funext fun path => by rw [huses, if_neg Bool.false_ne_true]⟩
  rw [hworld, ← filterMap_effect_watched, List.prefix_nil.mp hnone]
  rfl

end Invocation

abbrev ProgramStep := Mealy.Transition RecordFiles Invocation (List CliEffect)

/-- The watcher is called so by a run with this record file. -/
def CalledBy (path : String) (runs : List ProgramStep) (call : CycleCall) : Prop :=
  ∃ run ∈ runs, run.input.uses path ∧ run.input.Calls call

theorem CalledBy.append {path : String} {runs : List ProgramStep} {call : CycleCall}
    (h : CalledBy path runs call) (later : List ProgramStep) :
    CalledBy path (runs ++ later) call := by
  obtain ⟨run, hrun, hcalls⟩ := h
  exact ⟨run, List.mem_append_left _ hrun, hcalls⟩

section Runs

variable {files files' : RecordFiles} {runs : List ProgramStep}

end Runs

/-- The world of the dry run, with secrets. -/
def secretWorld : World :=
  { launchWorld with getEnv := fun _ => some "secret" }

/-- A watch that goes through two cycles. -/
def restarted : Invocation :=
  ⟨["watch"], { secretWorld with laterCycles := [secretWorld.cycle] }, none⟩

end RocketWatcher
