import RocketWatcher.Cli
import RocketWatcher.Library.Folded
import RocketWatcher.Pushover

/-!
# Each recipient's own key

The secrets of an accepted config. `resolveSecrets` fails just when a variable is blank, and
names those that are. Since recipient names are distinct, the channel built from the secrets
finds each recipient's own key, and posts to it (`recipients_reached`).
-/

open Folded

namespace RocketWatcher

/-- The variable is unset, or has white space only. -/
def BlankVariable (env : String → Option String) (name : String) : Prop :=
  ∀ value, env name = some value → ∀ c ∈ value.toList, isSpace c = true

theorem secretValue_eq_empty_iff {env : String → Option String} {name : String} :
    secretValue env name = "" ↔ BlankVariable env name := by
  have htrim (text : String) : trim text = "" ↔ ∀ c ∈ text.toList, isSpace c = true := by
    rw [← strip_eq_nil_iff, ← String.toList_eq_nil_iff, trim, String.toList_ofList, strip]
  rw [secretValue, htrim, BlankVariable]
  cases env name with
  | none => simp
  | some value => simp

instance (env : String → Option String) (name : String) : Decidable (BlankVariable env name) :=
  decidable_of_iff _ secretValue_eq_empty_iff

/-- The token's variable, then those of the recipients. -/
def secretVariables (config : Config) : List String :=
  config.pushoverTokenEnv :: config.recipients.map (·.userKeyEnv)

/-- The channel of the program. -/
def defaultBuildChannel (secrets : PushoverSecrets) : PushoverOptions where
  token := secrets.token
  userKeys := secrets.userKeys

/-- The loop over the recipients. -/
def addUserKey (env : String → Option String) (keys : Std.TreeMap String String)
    (recipient : Recipient) : Std.TreeMap String String :=
  if (secretValue env recipient.userKeyEnv).isEmpty then keys
  else keys.insert recipient.name (secretValue env recipient.userKeyEnv)

variable {config : Config} {env : String → Option String}

/-- The secrets, if no variable is blank, and else the blank ones in order. -/
theorem resolveSecrets_eq (config : Config) (env : String → Option String) :
    resolveSecrets config env =
      if (secretVariables config).filter (BlankVariable env) = [] then
        .ok ⟨secretValue env config.pushoverTokenEnv,
          config.recipients.foldl (addUserKey env) ∅⟩
      else .error (.configError ("missing required secret environment variables: " ++
        join ((secretVariables config).filter (BlankVariable env)) ", ")) := by
  have hblank (name : String) :
      (secretValue env name).isEmpty = decide (BlankVariable env name) := by
    rw [Bool.eq_iff_iff, String.isEmpty_iff, decide_eq_true_iff, secretValue_eq_empty_iff]
  have hmissing : (if (secretValue env config.pushoverTokenEnv).isEmpty then
        [config.pushoverTokenEnv] else []) ++
      (config.recipients.map (·.userKeyEnv)).filter (fun name => (secretValue env name).isEmpty) =
        (secretVariables config).filter (BlankVariable env) := by
    simp only [hblank, secretVariables, List.filter_cons]
    split_ifs <;> rfl
  simp only [resolveSecrets, hmissing, List.isEmpty_iff]
  rfl

/-- A name that no recipient has is not touched. -/
theorem foldl_addUserKey_of_not_mem {recipients : List Recipient} {name : String}
    (h : name ∉ recipients.map Recipient.name) (keys : Std.TreeMap String String) :
    (recipients.foldl (addUserKey env) keys)[name]? = keys[name]? := by
  induction recipients generalizing keys with
  | nil => rfl
  | cons recipient recipients ih =>
    rw [List.map_cons, List.mem_cons, not_or] at h
    rw [List.foldl_cons, ih h.2, addUserKey]
    split_ifs
    · rfl
    · simp [Std.TreeMap.getElem?_insert, Ne.symm h.1]

/-- With distinct names each recipient has the key of its own variable. -/
theorem foldl_addUserKey_of_mem {recipients : List Recipient} {recipient : Recipient}
    (hnames : (recipients.map Recipient.name).Nodup) (hmem : recipient ∈ recipients)
    (hset : ¬BlankVariable env recipient.userKeyEnv) (keys : Std.TreeMap String String) :
    (recipients.foldl (addUserKey env) keys)[recipient.name]? =
      some (secretValue env recipient.userKeyEnv) := by
  induction recipients generalizing keys with
  | nil => cases hmem
  | cons first recipients ih =>
    rw [List.map_cons, List.nodup_cons] at hnames
    rw [List.foldl_cons]
    rcases List.mem_cons.mp hmem with rfl | hmem
    · have hne : ¬(secretValue env recipient.userKeyEnv).isEmpty = true := by
        rw [String.isEmpty_iff, secretValue_eq_empty_iff]
        exact hset
      rw [foldl_addUserKey_of_not_mem hnames.1, addUserKey, if_neg hne]
      simp
    · exact ih hnames.2 hmem _

theorem secretValue_of_not_blank {name : String} (h : ¬BlankVariable env name) :
    ∃ value, env name = some value ∧ secretValue env name = trim value := by
  cases hvalue : env name with
  | none => exact absurd (fun value hsome => by simp [hvalue] at hsome) h
  | some value => exact ⟨value, rfl, by simp [secretValue, hvalue]⟩

/-- The secrets of an accepted config are refused just when a variable is blank, with the blank
ones in order. Otherwise a message to a recipient is one POST with the recipient's own key. -/
theorem recipients_reached {locateZone : String → Except Exn TimeZone} {path : String}
    {file : ConfigFile} (hload : loadConfig locateZone path file = .ok config)
    (env : String → Option String) :
    ((∃ error, resolveSecrets config env = .error error) ↔
      BlankVariable env config.pushoverTokenEnv ∨
        ∃ recipient ∈ config.recipients, BlankVariable env recipient.userKeyEnv) ∧
    (∀ error, resolveSecrets config env = .error error →
      error = .configError ("missing required secret environment variables: " ++
        join ((secretVariables config).filter (BlankVariable env)) ", ")) ∧
    ∀ secrets, resolveSecrets config env = .ok secrets → ∀ recipient ∈ config.recipients,
      ∃ token key, env config.pushoverTokenEnv = some token ∧
        env recipient.userKeyEnv = some key ∧
        ∀ (text : JsonText) (httpPost : Post → Except Exn HttpResponse) (message : Message),
          ((defaultBuildChannel secrets).send text httpPost message recipient.name).trace =
            [⟨"https://api.pushover.net/1/messages.json", [("token", trim token),
              ("user", trim key), ("title", message.title), ("message", message.body)], 15⟩] := by
  obtain ⟨data, -, haccepted⟩ := loadConfig_eq_ok hload
  have hblank : (secretVariables config).filter (BlankVariable env) = [] ↔
      ¬(BlankVariable env config.pushoverTokenEnv ∨
        ∃ recipient ∈ config.recipients, BlankVariable env recipient.userKeyEnv) := by
    simp [secretVariables, List.filter_eq_nil_iff]
  rw [resolveSecrets_eq]
  split_ifs with hnone
  · refine ⟨iff_of_false (by simp) (hblank.mp hnone), by simp, fun secrets hsecrets => ?_⟩
    obtain rfl := Except.ok.inj hsecrets
    intro recipient hmem
    have hset := not_or.mp (hblank.mp hnone)
    have hkeySet : ¬BlankVariable env recipient.userKeyEnv := fun h => hset.2 ⟨recipient, hmem, h⟩
    obtain ⟨token, htoken, htrimmed⟩ := secretValue_of_not_blank hset.1
    obtain ⟨key, hkey, hkeyTrimmed⟩ := secretValue_of_not_blank hkeySet
    refine ⟨token, key, htoken, hkey, fun text httpPost message => ?_⟩
    have hlookup := foldl_addUserKey_of_mem haccepted.names hmem hkeySet ∅
    rw [PushoverOptions.send_of_key hlookup (mt secretValue_eq_empty_iff.mp hkeySet),
      PushoverOptions.post, defaultBuildChannel, htrimmed, hkeyTrimmed]
    rfl
  · have hsome := not_not.mp (mt hblank.mpr hnone)
    refine ⟨iff_of_true ⟨_, rfl⟩ hsome, fun error herror => ?_, by simp⟩
    exact (Except.error.inj herror).symm

/-- An environment with padded secrets. -/
def kEnv (name : String) : Option String :=
  [("PUSHOVER_TOKEN", "app-token\n"), ("PUSHOVER_USER_ALICE", " user-key-a"),
    ("PUSHOVER_USER_BOB", "user-key-b")].lookup name

/-- The same without Bob's key. -/
def kEnvAlice (name : String) : Option String :=
  if name = "PUSHOVER_USER_BOB" then none else kEnv name

theorem recipients_reached_kValid :
    (∃ secrets, resolveSecrets kValidConfig kEnv = .ok secrets ∧
      ∀ (text : JsonText) (httpPost : Post → Except Exn HttpResponse) (message : Message),
        ∃ post, ((defaultBuildChannel secrets).send text httpPost message "bob").trace = [post] ∧
          post.fields.lookup "user" = some "user-key-b") ∧
    resolveSecrets kValidConfig kEnvAlice =
      .error (.configError "missing required secret environment variables: PUSHOVER_USER_BOB") := by
  have hload : loadConfig anyZone "config.toml" (.parsed (kValid [] [])) = .ok kValidConfig := rfl
  refine ⟨?_, ?_⟩
  · obtain ⟨-, -, hreached⟩ := recipients_reached hload kEnv
    obtain ⟨secrets, hsecrets⟩ : ∃ secrets, resolveSecrets kValidConfig kEnv = .ok secrets :=
      ⟨_, rfl⟩
    obtain ⟨token, key, -, hkey, hsend⟩ :=
      hreached secrets hsecrets ⟨"bob", "PUSHOVER_USER_BOB"⟩ (by decide)
    have hbob : kEnv "PUSHOVER_USER_BOB" = some "user-key-b" := by decide
    obtain rfl : key = "user-key-b" := Option.some.inj (hkey.symm.trans hbob)
    have htrim : trim "user-key-b" = "user-key-b" := by decide
    refine ⟨secrets, hsecrets, fun text httpPost message => ⟨_, hsend text httpPost message, ?_⟩⟩
    simp [List.lookup_cons, htrim]
  · obtain ⟨hrefused, hmessage, -⟩ := recipients_reached hload kEnvAlice
    have hblank : BlankVariable kEnvAlice "PUSHOVER_USER_BOB" := by
      simp [BlankVariable, kEnvAlice]
    obtain ⟨error, herror⟩ :=
      hrefused.mpr (.inr ⟨⟨"bob", "PUSHOVER_USER_BOB"⟩, by decide, hblank⟩)
    rw [herror, hmessage error herror]
    rfl

end RocketWatcher
