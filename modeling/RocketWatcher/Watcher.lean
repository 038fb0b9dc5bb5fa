import RocketWatcher.Library.Mealy
import RocketWatcher.QuietCycle

/-!
# Cycles in a row

The watcher runs cycle after cycle against the record store. A save that succeeds replaces
the stored records, and the next load returns them. A cycle may be cut short by a crash of
the process between two of its effects; the watcher is then started again and goes on with
the records that are stored.
-/

namespace RocketWatcher

/-- The records stored after an effect. -/
def Effect.store (stored : List AlertRecord) : Effect → List AlertRecord
  | .save records true => records
  | .save _ false | .log _ | .send .. => stored

/-- A message sent to a recipient. -/
def Effect.delivery : Effect → Option (Message × String)
  | .send message recipientName => some (message, recipientName)
  | .log _ | .save .. => none

/-- One cycle of the watcher; a crash leaves its first `n` effects done. -/
structure CycleCall where
  env : CycleEnv
  config : Config
  crashAfter : Option Nat

/-- The effects of a cycle that are done. -/
def CycleCall.done (call : CycleCall) (x : Cycle CycleOutcome) : List Effect :=
  match call.crashAfter with
  | none => x.trace
  | some n => x.trace.take n

/-- The watcher, with `changed` as the test for the save. -/
def watcherWith (changed : List AlertRecord → CycleDecision → Bool) :
    Mealy (List AlertRecord) CycleCall (List Effect) Empty where
  step stored call :=
    let effects := call.done (runCycleWith changed call.env call.config stored)
    .ok (effects, effects.foldl Effect.store stored)

/-- The watcher of the program. -/
def watcher : Mealy (List AlertRecord) CycleCall (List Effect) Empty :=
  watcherWith recordsChanged

/-- One cycle of a run, with the stored records before and after it. -/
abbrev WatcherStep := Mealy.Transition (List AlertRecord) CycleCall (List Effect)

variable {changed : List AlertRecord → CycleDecision → Bool} {call : CycleCall}
  {stored stored' : List AlertRecord} {effects : List Effect}

theorem watcherWith_step :
    (watcherWith changed).step stored call = .ok (effects, stored') ↔
      effects = call.done (runCycleWith changed call.env call.config stored) ∧
        stored' = effects.foldl Effect.store stored := by
  simp only [watcherWith, Except.ok.injEq, Prod.mk.injEq]
  constructor
  · rintro ⟨rfl, rfl⟩
    exact ⟨rfl, rfl⟩
  · rintro ⟨rfl, rfl⟩
    exact ⟨rfl, rfl⟩

/-- Log lines do not touch the store. -/
theorem foldl_store_visible (effects : List Effect) (stored : List AlertRecord) :
    effects.foldl Effect.store stored =
      (effects.filter Effect.visible).foldl Effect.store stored := by
  induction effects generalizing stored with
  | nil => rfl
  | cons e effects ih =>
    cases e with
    | log line => exact ih stored
    | save records replaced =>
      rw [List.filter_cons_of_pos rfl]
      exact ih _
    | send message recipientName =>
      rw [List.filter_cons_of_pos rfl]
      exact ih stored

/-- Neither do sends. -/
theorem foldl_store_of_sends {effects : List Effect} (h : ∀ e ∈ effects, ∃ m r, e = .send m r)
    (stored : List AlertRecord) : effects.foldl Effect.store stored = stored := by
  induction effects with
  | nil => rfl
  | cons e effects ih =>
    obtain ⟨m, r, rfl⟩ := h e List.mem_cons_self
    exact ih fun e he => h e (List.mem_cons_of_mem _ he)

theorem mem_allSends {config : Config} {messages : List (Alert × Message)} {e : Effect}
    (h : e ∈ allSends config messages) : ∃ created ∈ messages, ∃ r ∈ config.recipients,
      e = .send created.2 r.name := by
  obtain ⟨created, hcreated, h⟩ := List.mem_flatMap.mp h
  obtain ⟨r, hr, rfl⟩ := List.mem_map.mp h
  exact ⟨created, hcreated, r, hr, rfl⟩

theorem foldl_store_of_isPrefix {config : Config} {messages : List (Alert × Message)}
    (h : effects <+: allSends config messages) : effects.foldl Effect.store stored = stored :=
  foldl_store_of_sends (fun e he => by
    obtain ⟨created, -, r, -, rfl⟩ := mem_allSends (h.subset he)
    exact ⟨_, _, rfl⟩) stored

theorem filterMap_delivery_visible (effects : List Effect) :
    (effects.filter Effect.visible).filterMap Effect.delivery =
      effects.filterMap Effect.delivery := by
  rw [List.filterMap_filter]
  refine List.filterMap_congr fun e _ => ?_
  cases e <;> rfl

theorem mem_deliveries {effects : List Effect} {message : Message} {name : String} :
    (message, name) ∈ effects.filterMap Effect.delivery ↔ .send message name ∈ effects := by
  rw [List.mem_filterMap]
  constructor
  · rintro ⟨e, he, hdelivery⟩
    cases e with
    | log line => cases hdelivery
    | save records replaced => cases hdelivery
    | send m r =>
      obtain ⟨rfl, rfl⟩ := Prod.mk.inj (Option.some.inj hdelivery)
      exact he
  · intro h
    exact ⟨_, h, rfl⟩

theorem deliveries_of_no_sends {effects : List Effect}
    (h : ∀ m name, Effect.send m name ∉ effects) : effects.filterMap Effect.delivery = [] :=
  List.eq_nil_iff_forall_not_mem.mpr fun sent hsent => h sent.1 sent.2 (mem_deliveries.mp hsent)

/-- What a cycle that is neither a dry run nor cut short leaves in the store. -/
def storedAfter (changed : List AlertRecord → CycleDecision → Bool) (env : CycleEnv)
    (config : Config) (stored : List AlertRecord) : List AlertRecord :=
  match env.fetch, env.loadError with
  | .ok fetch, none =>
    match planCycle env config fetch.launches stored with
    | .ok (decision, _) =>
      if changed stored decision && env.saveAnswer.replaced then decision.updatedRecords else stored
    | .error _ => stored
  | _, _ => stored

theorem foldl_store_saveAndNotify {env : CycleEnv} {config : Config} (decision : CycleDecision)
    (messages : List (Alert × Message)) (outcome : CycleOutcome) :
    ((saveAndNotify env config decision messages outcome).trace.filter Effect.visible).foldl
        Effect.store stored =
      if env.saveAnswer.replaced then decision.updatedRecords else stored := by
  obtain ⟨rest, htrace, hpart⟩ := saveAndNotify_trace env config decision
    messages outcome
  have hsends := hpart.trans (sendsAfterSave_isPrefix messages)
  rw [htrace, List.foldl_cons, foldl_store_of_isPrefix hsends]
  cases env.saveAnswer.replaced <;> rfl

theorem watcherWith_stored (hdry : call.env.dryRun = false) (hcrash : call.crashAfter = none)
    (h : (watcherWith changed).step stored call = .ok (effects, stored')) :
    stored' = storedAfter changed call.env call.config stored := by
  obtain ⟨rfl, rfl⟩ := watcherWith_step.mp h
  rw [CycleCall.done, hcrash, foldl_store_visible,
    (runCycleWith_quiet changed call.env call.config stored).trace]
  unfold quietCycle storedAfter
  cases call.env.fetch with
  | error error => rfl
  | ok fetch =>
    cases call.env.loadError with
    | some error => cases error <;> rfl
    | none =>
      dsimp only
      cases planCycle call.env call.config fetch.launches stored with
      | error error => rfl
      | ok plan =>
        obtain ⟨decision, messages⟩ := plan
        simp only [Traced.ofExcept_ok_bind, hdry, Bool.false_eq_true, ↓reduceIte]
        cases changed stored decision with
        | true => simpa using foldl_store_saveAndNotify decision messages _
        | false => exact foldl_store_of_isPrefix (emits_notify messages _).isPrefix

/-- What a cycle that is not a dry run stores. -/
theorem runCycle_stored {env : CycleEnv} {config : Config} (hdry : env.dryRun = false) :
    (runCycle env config stored).trace.foldl Effect.store stored =
      storedAfter recordsChanged env config stored := by
  let call : CycleCall := ⟨env, config, none⟩
  have hstep : watcher.step stored call = .ok ((runCycle env config stored).trace,
      (runCycle env config stored).trace.foldl Effect.store stored) := rfl
  exact watcherWith_stored hdry rfl hstep

/-! ## The configuration of the test suite -/

def makeConfig : Config where
  launchProvider := "SpaceX"
  includeTerms := ["Starlink"]
  recipients := [⟨"alice", "PUSHOVER_USER_ALICE"⟩, ⟨"bob", "PUSHOVER_USER_BOB"⟩]
  pushoverTokenEnv := "PUSHOVER_TOKEN"

/-- A cycle in which everything works. -/
def testCall (launches : List Launch) (now : Int) : CycleCall where
  env :=
    { now := now
      dryRun := false
      fetch := .ok ⟨launches, []⟩
      loadError := none
      saveAnswer := .saved
      send := fun _ _ name => .ok ⟨name, true, "delivered"⟩
      locateZone := fun _ => .ok pacificDaylight }
  config := makeConfig
  crashAfter := none

end RocketWatcher
