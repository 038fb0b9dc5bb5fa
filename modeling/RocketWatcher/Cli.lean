import RocketWatcher.LoadConfig
import RocketWatcher.QuietCycle
import Std.Data.TreeMap.Lemmas

/-!
# The command line

`cli.cpp` : the arguments, the three commands and `runMain`. A command is traced with what it
does to the terminal, the log file, the record file and the configured channel. What the world
answers (files, environment, source, store, channel and clocks) is a `World`.
-/

namespace RocketWatcher

/-! ## Arguments -/

structure ParsedArgs where
  configPath : String := "config.toml"
  envFilePath : String := ".env"
  command : String := ""
  dryRun : Bool := false
  showHelp : Bool := false
  error : String := ""
  deriving DecidableEq, Repr

/-- The check after the loop over the arguments. -/
def ParsedArgs.checkCommand (parsed : ParsedArgs) : ParsedArgs :=
  if parsed.command.isEmpty then { parsed with error := "a command is required" }
  else if parsed.command ≠ "once" ∧ parsed.command ≠ "watch" ∧
    parsed.command ≠ "test-notification" then
    { parsed with error := "unknown command: " ++ parsed.command }
  else parsed

/-- The loop over the arguments. -/
def parseFrom (parsed : ParsedArgs) : List String → ParsedArgs
  | [] => parsed.checkCommand
  | arg :: rest =>
    if arg = "--help" ∨ arg = "-h" then { parsed with showHelp := true }
    else if arg = "--config" ∨ arg = "--env-file" then
      match rest with
      | [] => { parsed with error := arg ++ " requires a value" }
      | value :: rest =>
        if arg = "--config" then parseFrom { parsed with configPath := value } rest
        else parseFrom { parsed with envFilePath := value } rest
    else if arg = "--dry-run" then
      if parsed.command ≠ "once" then
        { parsed with error := "--dry-run is only valid after the once command" }
      else parseFrom { parsed with dryRun := true } rest
    else if parsed.command.isEmpty then parseFrom { parsed with command := arg } rest
    else { parsed with error := "unexpected argument: " ++ arg }

def parseArgs (args : List String) : ParsedArgs :=
  parseFrom {} args

/-! ## Commands -/

structure PushoverSecrets where
  token : String
  userKeys : Std.TreeMap String String

/-- The trimmed value of an environment variable, empty when it is unset. -/
def secretValue (env : String → Option String) (name : String) : String :=
  trim ((env name).getD "")

def resolveSecrets (config : Config) (env : String → Option String) : Except Exn PushoverSecrets :=
  let token := secretValue env config.pushoverTokenEnv
  let missing := (if token.isEmpty then [config.pushoverTokenEnv] else []) ++
    (config.recipients.map (·.userKeyEnv)).filter fun name => (secretValue env name).isEmpty
  let userKeys := config.recipients.foldl (fun keys recipient =>
    if (secretValue env recipient.userKeyEnv).isEmpty then keys
    else keys.insert recipient.name (secretValue env recipient.userKeyEnv)) ∅
  if missing.isEmpty then .ok ⟨token, userKeys⟩
  else .error (.configError ("missing required secret environment variables: " ++
    join missing ", "))

/-- What a run of the program does. `send` is a call of the configured channel. -/
inductive CliEffect where
  | out (text : String)
  | err (text : String)
  | loadDotenv (path : String)
  | buildChannel
  | buildSource
  | send (message : Message) (recipientName : String)
  | save (records : List AlertRecord) (replaced : Bool)
  | appendLog (line : String)
  deriving DecidableEq, Repr

abbrev Cli := Traced CliEffect Exn

/-- What one cycle meets. `clock n` is the time at its `n`-th effect, `endedAt` the time once it
is over. -/
structure CycleWorld where
  now : Int
  clock : Nat → Int
  endedAt : Int
  fetch : Except Exn FetchResult
  loadError : Option Exn
  stored : List AlertRecord
  saveAnswer : SaveAnswer
  send : Nat → Message → String → Except Exn DeliveryResult

/-- What a run of the program meets. The environment is the one after the `.env` file is loaded.
A watch is started at one time and stopped at another, and goes through the cycles in between. -/
structure World where
  configFile : String → ConfigFile
  locateZone : String → Except Exn TimeZone
  getEnv : String → Option String
  buildChannel : Config → PushoverSecrets → Except Exn Unit
  buildSource : Config → Except Exn Unit
  startedAt : Int
  cycle : CycleWorld
  laterCycles : List CycleWorld
  stoppedAt : Int

/-- `2026-06-09 18:00:00`. -/
def formatUtcSeconds (time : Int) : String :=
  let c := splitLocal time
  c.date ++ " " ++ zeroPadded 2 c.hour ++ ":" ++ zeroPadded 2 c.minute ++ ":" ++
    zeroPadded 2 c.second

/-- `11:45 PDT`. -/
def formatDisplayShort (time : Int) (zone : TimeZone) : String :=
  let c := splitInZone time zone
  zeroPadded 2 c.hour ++ ":" ++ zeroPadded 2 c.minute ++ " " ++ zone.localAbbrev time

/-- A line of `makeLogger`. It goes to the log file when `toFile` is set. -/
def logLine (zone : TimeZone) (toFile : Bool) (now : Int) (message : String) : List CliEffect :=
  let line := "[" ++ formatUtcSeconds now ++ " UTC / " ++ formatDisplayShort now zone ++ "] " ++
    message
  .out (line ++ "\n") :: if toFile then [.appendLog (line ++ "\n")] else []

/-- A channel : whether it is the configured one, and what it answers. -/
structure Channel where
  configured : Bool
  send : Nat → Message → String → Except Exn DeliveryResult

/-- The channel of dry runs. -/
def nullChannel : Channel where
  configured := false
  send _ _ recipientName := .ok ⟨recipientName, true, "dry run, not sent"⟩

/-- An effect of a cycle, with its position in it. -/
def cycleEffect (zone : TimeZone) (toFile : Bool) (channel : Channel) (clock : Nat → Int) :
    Effect × Nat → List CliEffect
  | (.log message, n) => logLine zone toFile (clock n) message
  | (.save records replaced, _) => [.save records replaced]
  | (.send message recipientName, _) =>
    if channel.configured then [.send message recipientName] else []

/-- A cycle as the program runs it. -/
def cliCycle (world : World) (config : Config) (zone : TimeZone) (toFile dryRun : Bool)
    (channel : Channel) (cycle : CycleWorld) : Cli CycleOutcome :=
  let env : CycleEnv :=
    { now := cycle.now
      dryRun := dryRun
      fetch := cycle.fetch
      loadError := cycle.loadError
      saveAnswer := cycle.saveAnswer
      send := channel.send
      locateZone := world.locateZone }
  let script := runCycle env config cycle.stored
  ⟨script.trace.zipIdx.flatMap (cycleEffect zone toFile channel cycle.clock), script.result⟩

/-- The secrets, and with them the channel. -/
def buildConfigured (world : World) (config : Config) : Cli Unit := do
  let secrets ← .ofExcept (resolveSecrets config world.getEnv)
  .perform .buildChannel
  .ofExcept (world.buildChannel config secrets)

def buildSource (world : World) (config : Config) : Cli Unit := do
  .perform .buildSource
  .ofExcept (world.buildSource config)

def commandOnce (world : World) (config : Config) (dryRun : Bool) : Cli Int := do
  if !dryRun then
    buildConfigured world config
  let channel := if dryRun then nullChannel else ⟨true, world.cycle.send⟩
  let zone ← .ofExcept (config.displayZone world.locateZone)
  buildSource world config
  let outcome ← cliCycle world config zone (!dryRun) dryRun channel world.cycle
  return if outcome.ok then 0 else 1

/-- A log line of the watch itself. -/
def watchLog (zone : TimeZone) (now : Int) (message : String) : Cli Unit :=
  ⟨logLine zone true now message, .ok ()⟩

/-- One cycle of the watch. -/
def watchCycle (world : World) (config : Config) (zone : TimeZone) (cycle : CycleWorld) :
    Cli Unit := do
  let outcome ← cliCycle world config zone true false ⟨true, cycle.send⟩ cycle
  if !outcome.ok then
    watchLog zone cycle.endedAt "cycle finished with failures; continuing to poll"

def commandWatch (world : World) (config : Config) : Cli Int := do
  buildConfigured world config
  buildSource world config
  let zone ← .ofExcept (config.displayZone world.locateZone)
  watchLog zone world.startedAt ("watch started; polling every " ++
    toString config.pollIntervalMinutes ++ " minute(s)")
  (world.cycle :: world.laterCycles).forM (watchCycle world config zone)
  watchLog zone world.stoppedAt "watch stopped"
  return 0

/-- One test delivery; `n` calls of the channel came before it. -/
def testDelivery (world : World) (message : Message) (anyFailed : Bool)
    (recipient : Recipient × Nat) : Cli Bool := do
  .perform (.send message recipient.1.name)
  let result ← .ofExcept (world.cycle.send recipient.2 message recipient.1.name)
  let status := if result.ok then "delivered" else "FAILED"
  .perform (.out (status ++ " to " ++ recipient.1.name ++ ": " ++ result.detail ++ "\n"))
  return anyFailed || !result.ok

def commandTestNotification (world : World) (config : Config) : Cli Int := do
  buildConfigured world config
  let zone ← .ofExcept (config.displayZone world.locateZone)
  let now := world.cycle.now
  let message : Message :=
    { title := "Rocket Watcher test notification"
      body := "Test notification sent at " ++ formatUtcSeconds now ++ " UTC (" ++
        formatDisplay (some now) zone ++ "). Pushover delivery is working."
      alertKind := "test"
      launchKey := "test:synthetic"
      launchName := "test notification" }
  let anyFailed ← config.recipients.zipIdx.foldlM (testDelivery world message) false
  return if anyFailed then 1 else 0

/-- What `printUsage` prints. -/
def usage : String :=
  "usage: rocket-watcher [--config PATH] [--env-file PATH] COMMAND\n" ++
  "\n" ++
  "Personal SpaceX launch watcher.\n" ++
  "\n" ++
  "commands:\n" ++
  "  once [--dry-run]    run a single Watcher cycle; --dry-run evaluates\n" ++
  "                      launches and prints candidate alerts without\n" ++
  "                      sending, writing records, or writing logs\n" ++
  "  watch               run the long-lived polling loop\n" ++
  "  test-notification   send a synthetic notification to every recipient,\n" ++
  "                      bypassing launch evaluation\n" ++
  "\n" ++
  "options:\n" ++
  "  --config PATH       path to behavior config TOML (default config.toml)\n" ++
  "  --env-file PATH     path to secrets .env file (default .env)\n"

/-- The command of a run, with the config it loads. -/
def runCommand (parsed : ParsedArgs) (world : World) : Cli Int := do
  let config ← .ofExcept (loadConfig world.locateZone parsed.configPath
    (world.configFile parsed.configPath))
  if parsed.command = "once" then commandOnce world config parsed.dryRun
  else if parsed.command = "watch" then commandWatch world config
  else commandTestNotification world config

/-- A config error ends the run with exit code 2, other exceptions escape. -/
def catchConfigError (script : Cli Int) : Cli Int :=
  match script.result with
  | .error (.configError what) =>
    ⟨script.trace ++ [.err ("configuration error: " ++ what ++ "\n")], .ok 2⟩
  | _ => script

def runMain (args : List String) (world : World) : Cli Int :=
  let parsed := parseArgs args
  if parsed.showHelp then do
    .perform (.out usage)
    return 0
  else if parsed.error ≠ "" then do
    .perform (.err ("error: " ++ parsed.error ++ "\n\n"))
    .perform (.err usage)
    return 2
  else do
    .perform (.loadDotenv parsed.envFilePath)
    catchConfigError (runCommand parsed world)

end RocketWatcher
