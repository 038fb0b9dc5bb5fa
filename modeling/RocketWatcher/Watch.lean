import RocketWatcher.Program

/-!
# When the watch stops

The loop of `commandWatch` with `interruptibleSleep`, which sleeps in slices of a second and reads
the stop flag before each of them and after the last. The flag is set by a signal that may come at
any time, and stays set. Each read is of a slice or of a cycle, so a watch whose flag is first
read as set after `n` other reads has gone through `n` slices and further cycles together
(`watch_stops`) : once a stop is requested, the slice or the cycle under way is the last.
-/

open Traced

namespace RocketWatcher

/-! ## The loop -/

/-- What the watch does, sleeping included. -/
inductive WatchEffect where
  | cli (e : CliEffect)
  | sleepSecond
  deriving DecidableEq, Repr

abbrev Watch := Traced WatchEffect Exn

def WatchEffect.cli? : WatchEffect → Option CliEffect
  | .cli e => some e
  | .sleepSecond => none

def Cli.toWatch {α : Type} (script : Cli α) : Watch α :=
  ⟨script.trace.map .cli, script.result⟩

/-- Sleeps the seconds that remain. `stop n` is what the `n`-th read of the flag finds, `reads`
reads came before. Whether no stop was requested, and the reads so far. -/
def interruptibleSleep (stop : Nat → Bool) (reads : Nat) : Nat → Watch (Bool × Nat)
  | 0 => return (!stop reads, reads + 1)
  | remaining + 1 =>
    if stop reads then return (false, reads + 1)
    else do
      .perform .sleepSecond
      interruptibleSleep stop (reads + 1) remaining

/-- The seconds between two cycles. -/
def Config.interval (config : Config) : Nat :=
  (config.pollIntervalMinutes * 60).toNat

/-- The loop from its `k`-th cycle on. It is left when a stop is requested; `false` says that the
fuel was not enough. -/
def watchLoop (world : World) (config : Config) (zone : TimeZone) (cycles : Nat → CycleWorld)
    (stop : Nat → Bool) : Nat → Nat → Nat → Watch Bool
  | 0, _, _ => return false
  | fuel + 1, k, reads => do
    (watchCycle world config zone (cycles k)).toWatch
    let slept ← interruptibleSleep stop reads config.interval
    if slept.1 then watchLoop world config zone cycles stop fuel (k + 1) slept.2
    else return true

/-- `commandWatch` with its sleeps; no exit code when the fuel was not enough. -/
def commandWatchUntil (world : World) (config : Config) (cycles : Nat → CycleWorld)
    (stop : Nat → Bool) (fuel : Nat) : Watch (Option Int) := do
  (buildConfigured world config).toWatch
  (buildSource world config).toWatch
  let zone ← .ofExcept (config.displayZone world.locateZone)
  (watchLog zone world.startedAt ("watch started; polling every " ++
    toString config.pollIntervalMinutes ++ " minute(s)")).toWatch
  let stopped ← watchLoop world config zone cycles stop fuel 0 0
  if stopped then
    (watchLog zone world.stoppedAt "watch stopped").toWatch
    return some 0
  else return none

/-! ## One sleep -/

variable {stop : Nat → Bool} {n reads : Nat}

/-- The flag is first read as set after `n` other reads. -/
structure FirstSet (stop : Nat → Bool) (n : Nat) : Prop where
  set : stop n = true
  unset : ∀ m < n, stop m = false

theorem interruptibleSleep_of_lt (h : FirstSet stop n) {remaining : Nat}
    (hlt : reads + remaining < n) : interruptibleSleep stop reads remaining =
      ⟨List.replicate remaining .sleepSecond, .ok (true, reads + remaining + 1)⟩ := by
  induction remaining generalizing reads with
  | zero =>
    rw [interruptibleSleep, h.unset reads hlt]
    rfl
  | succ remaining ih =>
    rw [interruptibleSleep, h.unset reads (by omega), if_neg Bool.false_ne_true,
      ih (by omega), List.replicate_succ, Nat.add_right_comm reads 1, Nat.add_assoc reads]
    rfl

theorem interruptibleSleep_of_le (h : FirstSet stop n) {remaining : Nat} (hreads : reads ≤ n)
    (hle : n ≤ reads + remaining) : interruptibleSleep stop reads remaining =
      ⟨List.replicate (n - reads) .sleepSecond, .ok (false, n + 1)⟩ := by
  induction remaining generalizing reads with
  | zero =>
    obtain rfl : n = reads := by omega
    rw [interruptibleSleep, h.set, Nat.sub_self]
    rfl
  | succ remaining ih =>
    rw [interruptibleSleep]
    rcases Nat.eq_or_lt_of_le hreads with rfl | hlt
    · rw [h.set, if_pos rfl, Nat.sub_self]
      rfl
    · rw [h.unset reads hlt, if_neg Bool.false_ne_true, ih hlt (by omega)]
      obtain ⟨rest, rfl⟩ := Nat.exists_eq_add_of_lt hlt
      have hrest : reads + rest + 1 - reads = rest + 1 := by omega
      have hless : reads + rest + 1 - (reads + 1) = rest := by omega
      rw [hrest, hless, List.replicate_succ]
      rfl

/-! ## The loop, cycle after cycle -/

def WatchEffect.isSleep : WatchEffect → Bool
  | .cli _ => false
  | .sleepSecond => true

theorem shows_toWatch {α : Type} (script : Cli α) :
    Shows WatchEffect.cli? id script.toWatch script where
  trace := by
    rw [Cli.toWatch, List.filterMap_map]
    exact List.filterMap_some
  result := by
    show script.result = _
    cases script.result <;> rfl

theorem emits_toWatch {α : Type} (script : Cli α) :
    Emits WatchEffect.isSleep script.toWatch [] := by
  have hnone : script.toWatch.trace.filter WatchEffect.isSleep = [] := by
    simp [Cli.toWatch, List.filter_map, WatchEffect.isSleep, Function.comp_def]
  exact ⟨by rw [hnone], fun _ _ => hnone⟩

theorem cli?_replicate (m : ℕ) :
    (List.replicate m WatchEffect.sleepSecond).filterMap WatchEffect.cli? = [] := by
  simp [List.filterMap_replicate, WatchEffect.cli?]

theorem emits_replicate {α : Type} (m : ℕ) (a : α) :
    Emits WatchEffect.isSleep (⟨List.replicate m .sleepSecond, .ok a⟩ : Watch α)
      (List.replicate m .sleepSecond) := by
  have hall : (List.replicate m WatchEffect.sleepSecond).filter WatchEffect.isSleep =
      List.replicate m .sleepSecond := List.filter_replicate_of_pos rfl
  exact ⟨by rw [hall], fun _ _ => hall⟩

section Loop

variable {world : World} {config : Config} {zone : TimeZone} {cycles : ℕ → CycleWorld}

/-- The cycles from the `k`-th on that a watch goes through which has read the flag so often. -/
def cyclesFrom (cycles : ℕ → CycleWorld) (config : Config) (n k reads : ℕ) : List CycleWorld :=
  (List.range' k ((n - reads) / (config.interval + 1) + 1)).map cycles

theorem watchLoop_shows (world : World) (zone : TimeZone) (cycles : ℕ → CycleWorld) {fuel : ℕ}
    (k : ℕ) (h : FirstSet stop n) (hreads : reads ≤ n)
    (hfuel : (n - reads) / (config.interval + 1) < fuel) :
    Shows WatchEffect.cli? (fun _ => true)
        (watchLoop world config zone cycles stop fuel k reads)
        ((cyclesFrom cycles config n k reads).forM (watchCycle world config zone)) ∧
      Emits WatchEffect.isSleep (watchLoop world config zone cycles stop fuel k reads)
        (List.replicate (n - reads - (n - reads) / (config.interval + 1)) .sleepSecond) := by
  induction fuel generalizing k reads with
  | zero => exact absurd hfuel (Nat.not_lt_zero _)
  | succ fuel ih =>
    rw [watchLoop]
    rcases Nat.lt_or_ge (reads + config.interval) n with hlt | hle
    · -- the whole interval is slept, and the loop goes on
      have hrest : n - (reads + config.interval + 1) = n - reads - (config.interval + 1) := by
        omega
      have hdiv : (n - reads) / (config.interval + 1) =
          (n - (reads + config.interval + 1)) / (config.interval + 1) + 1 := by
        rw [hrest, Nat.div_eq_sub_div (Nat.succ_pos _) (by omega)]
      have hnext : reads + config.interval + 1 ≤ n := hlt
      obtain ⟨hshows, hemits⟩ := ih (k + 1) hnext (by omega)
      have hcycles : cyclesFrom cycles config n k reads =
          cycles k :: cyclesFrom cycles config n (k + 1) (reads + config.interval + 1) := by
        rw [cyclesFrom, hdiv, List.range'_succ, List.map_cons]
        rfl
      rw [hcycles, interruptibleSleep_of_lt h hlt]
      constructor
      · refine (shows_toWatch _).bind fun _ _ => ?_
        exact Shows.silent_bind (cli?_replicate _) hshows
      · refine (emits_toWatch _).bind_silent fun _ _ => ?_
        have hsum : n - reads - (n - reads) / (config.interval + 1) = config.interval +
            (n - (reads + config.interval + 1) -
              (n - (reads + config.interval + 1)) / (config.interval + 1)) := by
          have := Nat.div_le_self (n - (reads + config.interval + 1)) (config.interval + 1)
          omega
        rw [hsum, List.replicate_add]
        refine (emits_replicate _ _).bind fun slept hslept => ?_
        obtain rfl := Except.ok.inj hslept
        exact hemits
    · -- a stop is requested before the interval is over
      have hdiv : (n - reads) / (config.interval + 1) = 0 := Nat.div_eq_of_lt (by omega)
      have hcycles : cyclesFrom cycles config n k reads = [cycles k] := by
        rw [cyclesFrom, hdiv]
        rfl
      rw [hcycles, interruptibleSleep_of_le h hreads hle, hdiv, Nat.sub_zero]
      constructor
      · refine (shows_toWatch _).bind fun _ _ => ?_
        exact Shows.silent_bind (cli?_replicate _) (.pure _)
      · refine (emits_toWatch _).bind_silent fun _ _ => ?_
        refine (emits_replicate _ _).then_silent fun slept hslept => ?_
        obtain rfl := Except.ok.inj hslept
        exact .pure _

/-- With no stop requested, the interval is slept. -/
theorem interruptibleSleep_of_unset (reads : ℕ) (h : ∀ m, stop m = false) (remaining : ℕ) :
    ∃ slept, (interruptibleSleep stop reads remaining).result = .ok (true, slept) := by
  induction remaining generalizing reads with
  | zero =>
    rw [interruptibleSleep, h reads]
    exact ⟨_, rfl⟩
  | succ remaining ih =>
    rw [interruptibleSleep, h reads, if_neg Bool.false_ne_true]
    exact ih (reads + 1)

/-- And the loop is not left. -/
theorem watchLoop_of_unset (h : ∀ m, stop m = false) (fuel : ℕ) {k : ℕ} :
    (watchLoop world config zone cycles stop fuel k reads).result ≠ .ok true := by
  induction fuel generalizing k reads with
  | zero => simp [watchLoop]
  | succ fuel ih =>
    rw [watchLoop]
    intro hok
    obtain ⟨_, -, hrest⟩ := result_bind_eq_ok.mp hok
    obtain ⟨slept, hslept, hrest⟩ := result_bind_eq_ok.mp hrest
    obtain ⟨after, hsleep⟩ := interruptibleSleep_of_unset reads h config.interval
    obtain rfl := Except.ok.inj (hslept.symm.trans hsleep)
    exact ih hrest

end Loop

/-! ## The command -/

/-- The world of a watch that goes through its first cycle and so many later ones. -/
def World.watched (world : World) (cycles : ℕ → CycleWorld) (later : ℕ) : World :=
  { world with
    cycle := cycles 0
    laterCycles := (List.range' 1 later).map cycles }

/-- A watch whose flag is first read as set after `n` other reads does, apart from sleeping, what
`commandWatch` does on its first cycle and `n / (interval + 1)` later ones, and sleeps a second
for each read that no cycle comes after, if no exception ends it before. -/
theorem watch_stops (h : FirstSet stop n) (world : World) (config : Config)
    (cycles : ℕ → CycleWorld) {fuel : ℕ} (hfuel : n / (config.interval + 1) < fuel) :
    Shows WatchEffect.cli? some (commandWatchUntil world config cycles stop fuel)
        (commandWatch (world.watched cycles (n / (config.interval + 1))) config) ∧
      Emits WatchEffect.isSleep (commandWatchUntil world config cycles stop fuel)
        (List.replicate (n - n / (config.interval + 1)) .sleepSecond) := by
  have hloop (zone : TimeZone) := watchLoop_shows world zone cycles 0 h (Nat.zero_le n)
    (by simpa using hfuel)
  constructor
  · refine (shows_toWatch (buildConfigured world config)).bind fun _ _ => ?_
    refine (shows_toWatch (buildSource world config)).bind fun _ _ => ?_
    refine (Shows.ofExcept (config.displayZone world.locateZone)).bind fun zone _ => ?_
    refine (shows_toWatch (watchLog zone _ _)).bind fun _ _ => ?_
    refine (hloop zone).1.bind fun _ _ => ?_
    exact (shows_toWatch (watchLog zone _ _)).bind fun _ _ => .pure _
  · refine (emits_toWatch _).bind_silent fun _ _ => ?_
    refine (emits_toWatch _).bind_silent fun _ _ => ?_
    refine (Emits.ofExcept _).bind_silent fun zone _ => ?_
    refine (emits_toWatch _).bind_silent fun _ _ => ?_
    refine (hloop zone).2.then_silent fun stopped _ => ?_
    cases stopped with
    | false => exact .pure _
    | true => exact (emits_toWatch _).bind_silent fun _ _ => .pure _

/-- A watch that no stop is requested of does not end by itself. -/
theorem watch_goes_on (h : ∀ m, stop m = false) (world : World) (config : Config)
    (cycles : ℕ → CycleWorld) (fuel : ℕ) (code : Int) :
    (commandWatchUntil world config cycles stop fuel).result ≠ .ok (some code) := by
  intro hok
  obtain ⟨_, -, hrest⟩ := result_bind_eq_ok.mp hok
  obtain ⟨_, -, hrest⟩ := result_bind_eq_ok.mp hrest
  obtain ⟨zone, -, hrest⟩ := result_bind_eq_ok.mp hrest
  obtain ⟨_, -, hrest⟩ := result_bind_eq_ok.mp hrest
  obtain ⟨stopped, hloop, hrest⟩ := result_bind_eq_ok.mp hrest
  cases stopped with
  | false => simp at hrest
  | true => exact watchLoop_of_unset h fuel hloop

/-- Stopped 399 seconds after the first cycle, in the interval after the second. -/
theorem watch_stops_secondInterval :
    let script := commandWatchUntil secretWorld kValidConfig (fun _ => secretWorld.cycle)
      (fun m => decide (400 ≤ m)) 2
    script.trace.filterMap WatchEffect.cli? =
        (commandWatch (secretWorld.watched (fun _ => secretWorld.cycle) 1) kValidConfig).trace ∧
      script.trace.filter WatchEffect.isSleep = List.replicate 399 .sleepSecond := by
  have hset : FirstSet (fun m => decide (400 ≤ m)) 400 :=
    ⟨by decide, fun m hm => by simpa using hm⟩
  have hfuel : 400 / (kValidConfig.interval + 1) < 2 := by decide
  obtain ⟨hshows, hemits⟩ :=
    watch_stops hset secretWorld kValidConfig (fun _ => secretWorld.cycle) hfuel
  have hresult : (commandWatch (secretWorld.watched (fun _ => secretWorld.cycle) 1)
      kValidConfig).result = .ok 0 := rfl
  exact ⟨hshows.trace, hemits.eq_of_ok (some 0) (hshows.result.trans (congrArg _ hresult))⟩

end RocketWatcher
