import Mathlib.Algebra.Order.Ring.Rat
import RocketWatcher.Json
import RocketWatcher.Orchestration
import Std.Data.TreeMap.Lemmas

/-!
# The Pushover channel

`pushover.cpp` : one POST per delivery, and how its response is read. The `status` member of the
response is converted to an `int`, which throws for a text and makes a `1` of other numbers.
Apart from responses with such a member, a delivery is reported truthfully (`truthful_iff`).
-/

namespace RocketWatcher

structure HttpResponse where
  status : Int
  body : String

/-- A form-encoded POST. -/
structure Post where
  url : String
  fields : List (String × String)
  timeout : Int
  deriving DecidableEq, Repr

def kPushoverApiUrl : String := "https://api.pushover.net/1/messages.json"

structure PushoverOptions where
  token : String
  userKeys : Std.TreeMap String String
  apiUrl : String := kPushoverApiUrl
  timeout : Int := 15

/-- One more error of the response. -/
def joinError (text : JsonText) (joined : String) (entry : Json) : String :=
  (if joined.isEmpty then joined else joined ++ "; ") ++
    match entry with
    | .string value => value
    | entry => text.dump entry

/-- A body that is no JSON object counts as an empty one. -/
def parseBody (text : JsonText) (body : String) : Json :=
  match text.parse body with
  | .ok (.object members) => .object members
  | _ => .object []

/-- The detail of a failed delivery. -/
def failureDetail (text : JsonText) (httpStatus : Int) (parsed : Json) (apiStatus : Int) : String :=
  let detail := "HTTP " ++ toString httpStatus ++ ", api status " ++
    (if (parsed.find? "status").isSome then toString apiStatus else "unknown")
  let joined := match parsed.find? "errors" with
    | some (.array entries) => entries.foldl (joinError text) ""
    | _ => ""
  if joined.isEmpty then detail else detail ++ ": " ++ joined

def interpretResponse (text : JsonText) (recipientName : String) (response : HttpResponse) :
    Except Exn DeliveryResult := do
  let parsed := parseBody text response.body
  let apiStatus ← parsed.intOr "status" (-1)
  if response.status = 200 ∧ apiStatus = 1 then
    return ⟨recipientName, true, "delivered"⟩
  return ⟨recipientName, false, failureDetail text response.status parsed apiStatus⟩

/-- What is posted to the user with a key. -/
def PushoverOptions.post (options : PushoverOptions) (key : String) (message : Message) : Post where
  url := options.apiUrl
  fields := [("token", options.token), ("user", key), ("title", message.title),
    ("message", message.body)]
  timeout := options.timeout

/-- `PushoverChannel::send`, over an HTTP transport. -/
def PushoverOptions.send (options : PushoverOptions) (text : JsonText)
    (httpPost : Post → Except Exn HttpResponse) (message : Message) (recipientName : String) :
    Traced Post Exn DeliveryResult :=
  match options.userKeys[recipientName]? with
  | none | some "" =>
    return ⟨recipientName, false, "no Pushover user key resolved for this recipient"⟩
  | some key => do
    .perform (options.post key message)
    match httpPost (options.post key message) with
    | .error error => return ⟨recipientName, false, "request failed: " ++ error.what⟩
    | .ok response => .ofExcept (interpretResponse text recipientName response)

/-! ## What a response says -/

/-- The body is an object with this `status` member. -/
def StatusMember (text : JsonText) (body : String) (status : Json) : Prop :=
  ∃ members, text.parse body = .ok (.object members) ∧ members.lookup "status" = some status

/-- The status members the channel misreads : those that are no number, and with HTTP 200 those
that become a `1` on conversion. -/
def Json.Misread (httpStatus : Int) : Json → Prop
  | null => True
  | boolean value => httpStatus = 200 ∧ value = true
  | integer value => httpStatus = 200 ∧ value ≠ 1 ∧ value % 2 ^ 32 = 1
  | float value => httpStatus = 200 ∧ 1 ≤ value ∧ value < 2
  | string _ => True
  | array _ => True
  | object _ => True

theorem castInt_eq_one_iff (value : Int) : castInt value = 1 ↔ value % 2 ^ 32 = 1 := by
  unfold castInt
  rw [Int.bmod_def]
  split <;> omega

theorem castFloat_eq_one_iff (value : Rat) :
    Json.castFloat value = 1 ↔ 1 ≤ value ∧ value < 2 := by
  have hfloor : value.floor = 1 ↔ 1 ≤ value ∧ value < 2 := by
    have hone : 1 ≤ value.floor ↔ 1 ≤ value := by simpa using Rat.le_floor_iff (x := 1)
    have htwo : value.floor < 2 ↔ value < 2 := by simpa using Rat.floor_lt_iff (x := 2)
    rw [← hone, ← htwo]
    omega
  have hbounds (n : Int) : (if -(2 ^ 31) ≤ n ∧ n < 2 ^ 31 then n else -(2 ^ 31)) = 1 ↔ n = 1 := by
    split <;> omega
  rw [Json.castFloat, hbounds]
  by_cases hsign : 0 ≤ value
  · rw [if_pos hsign, hfloor]
  · rw [if_neg hsign]
    -- a negative number is rounded up, to at most zero
    have hneg : 0 ≤ (-value).floor := Rat.le_floor_iff.mpr (by simpa using (not_le.mp hsign).le)
    constructor
    · intro h
      omega
    · rintro ⟨hone, -⟩
      exact absurd (zero_le_one.trans hone) hsign

theorem parseBody_isObject (text : JsonText) (body : String) :
    ∃ members, parseBody text body = .object members := by
  unfold parseBody
  split
  · exact ⟨_, rfl⟩
  · exact ⟨[], rfl⟩

theorem statusMember_iff {text : JsonText} {body : String} {status : Json} :
    StatusMember text body status ↔ (parseBody text body).find? "status" = some status := by
  unfold StatusMember parseBody
  constructor
  · rintro ⟨members, hparse, hlookup⟩
    rw [hparse]
    exact hlookup
  · intro h
    split at h
    · next members hparse => exact ⟨members, hparse, h⟩
    · cases h

/-- The `status` member as the channel has it. -/
theorem intOr_parseBody (text : JsonText) (body : String) :
    (parseBody text body).intOr "status" (-1) =
      match (parseBody text body).find? "status" with
      | some status => status.getInt
      | none => .ok (-1) := by
  obtain ⟨members, hmembers⟩ := parseBody_isObject text body
  rw [hmembers]
  rfl

/-- A member is read as the number it is, or misread. -/
theorem getInt_cases (status : Json) (httpStatus : Int) :
    (∃ n, status.getInt = .ok n ∧ (status.Misread httpStatus ↔
      httpStatus = 200 ∧ n = 1 ∧ status ≠ .integer 1)) ∨
      (∃ error, status.getInt = .error error) ∧ status.Misread httpStatus := by
  cases status with
  | null => exact .inr ⟨⟨_, rfl⟩, trivial⟩
  | string => exact .inr ⟨⟨_, rfl⟩, trivial⟩
  | array => exact .inr ⟨⟨_, rfl⟩, trivial⟩
  | object => exact .inr ⟨⟨_, rfl⟩, trivial⟩
  | boolean value => exact .inl ⟨_, rfl, by cases value <;> simp [Json.Misread]⟩
  | integer value =>
    refine .inl ⟨_, rfl, ?_⟩
    rw [castInt_eq_one_iff]
    simp only [Json.Misread, ne_eq, Json.integer.injEq]
    tauto
  | float value =>
    refine .inl ⟨_, rfl, ?_⟩
    rw [castFloat_eq_one_iff]
    simp [Json.Misread]

/-- What the channel makes of a response. -/
theorem interpretResponse_spec (text : JsonText) (name : String) (response : HttpResponse) :
    (∃ result, interpretResponse text name response = .ok result ∧ result.recipient = name ∧
        (result.ok = true ↔
          response.status = 200 ∧ StatusMember text response.body (.integer 1))) ↔
      ¬∃ status, StatusMember text response.body status ∧ status.Misread response.status := by
  simp only [statusMember_iff]
  have hread := intOr_parseBody text response.body
  cases hstatus : (parseBody text response.body).find? "status" with
  | none =>
    rw [hstatus] at hread
    simp [interpretResponse, hread]
  | some status =>
    rw [hstatus] at hread
    rcases getInt_cases status response.status with
      ⟨n, hint, hmisread⟩ | ⟨⟨error, herror⟩, hmisread⟩
    · simp only [hint] at hread
      have hone (h : status = .integer 1) : n = 1 := by
        rw [h] at hint
        exact (Except.ok.inj hint).symm
      simp only [interpretResponse, hread, Option.some.injEq, exists_eq_left', hmisread,
        Except.ok_bind, Except.pure_eq_ok]
      by_cases hdelivered : response.status = 200 ∧ n = 1
      · simp [hdelivered]
      · simp only [hdelivered, ↓reduceIte, Except.ok.injEq, exists_eq_left', true_and,
          Bool.false_eq_true, false_iff]
        constructor
        · rintro - ⟨hstatus, hn, -⟩
          exact hdelivered ⟨hstatus, hn⟩
        · rintro - ⟨hstatus, h⟩
          exact hdelivered ⟨hstatus, hone h⟩
    · simp only [herror] at hread
      simp [interpretResponse, hread, hmisread]

/-! ## Deliveries -/

/-- The recipient has a key, and this is the answer to the request for it. -/
def PushoverOptions.Answered (options : PushoverOptions)
    (httpPost : Post → Except Exn HttpResponse) (message : Message) (recipientName : String)
    (response : HttpResponse) : Prop :=
  ∃ key, options.userKeys[recipientName]? = some key ∧ key ≠ "" ∧
    httpPost (options.post key message) = .ok response

/-- A delivery to a user with a key posts, and reads the answer. -/
theorem PushoverOptions.send_of_key {options : PushoverOptions} {recipientName key : String}
    (hkey : options.userKeys[recipientName]? = some key) (hne : key ≠ "") (text : JsonText)
    (httpPost : Post → Except Exn HttpResponse) (message : Message) :
    options.send text httpPost message recipientName =
      ⟨[options.post key message], match httpPost (options.post key message) with
        | .error error => .ok ⟨recipientName, false, "request failed: " ++ error.what⟩
        | .ok response => interpretResponse text recipientName response⟩ := by
  unfold PushoverOptions.send
  rw [hkey]
  split
  · next heq => cases heq
  · next heq => exact absurd (Option.some.inj heq) hne
  · next heq =>
    obtain rfl := Option.some.inj heq
    rw [Traced.bind_of_ok rfl]
    cases httpPost (options.post key message) <;> rfl

/-- A result for the recipient, which is ok when the recipient has a key, the answer is HTTP 200
and its body is an object with `status` 1. -/
def PushoverOptions.Truthful (options : PushoverOptions) (text : JsonText)
    (httpPost : Post → Except Exn HttpResponse) (message : Message) (recipientName : String) :
    Prop :=
  ∃ result, (options.send text httpPost message recipientName).result = .ok result ∧
    result.recipient = recipientName ∧
    (result.ok = true ↔ ∃ response, options.Answered httpPost message recipientName response ∧
      response.status = 200 ∧ StatusMember text response.body (.integer 1))

/-- The answer has a status member the channel misreads. -/
def PushoverOptions.Misreads (options : PushoverOptions) (text : JsonText)
    (httpPost : Post → Except Exn HttpResponse) (message : Message) (recipientName : String) :
    Prop :=
  ∃ response status, options.Answered httpPost message recipientName response ∧
    StatusMember text response.body status ∧ status.Misread response.status

/-- Without an answer the delivery fails, and nothing can be misread. -/
theorem truthful_iff_of_unanswered {options : PushoverOptions} {text : JsonText}
    {httpPost : Post → Except Exn HttpResponse} {message : Message} {recipientName detail : String}
    (hsend : (options.send text httpPost message recipientName).result =
      .ok ⟨recipientName, false, detail⟩)
    (hnone : ∀ response, ¬options.Answered httpPost message recipientName response) :
    options.Truthful text httpPost message recipientName ↔
      ¬options.Misreads text httpPost message recipientName := by
  refine iff_of_true ⟨_, hsend, rfl, ?_⟩ ?_
  · simp [hnone]
  · rintro ⟨response, -, hanswered, -⟩
    exact hnone response hanswered

/-- A delivery is reported truthfully unless the status of its answer is misread. -/
theorem truthful_iff (options : PushoverOptions) (text : JsonText)
    (httpPost : Post → Except Exn HttpResponse) (message : Message) (recipientName : String) :
    options.Truthful text httpPost message recipientName ↔
      ¬options.Misreads text httpPost message recipientName := by
  cases hkey : options.userKeys[recipientName]? with
  | none =>
    have hsend : (options.send text httpPost message recipientName).result =
        .ok ⟨recipientName, false, "no Pushover user key resolved for this recipient"⟩ := by
      simp [PushoverOptions.send, hkey]
    exact truthful_iff_of_unanswered hsend (by simp [PushoverOptions.Answered, hkey])
  | some key =>
    by_cases hempty : key = ""
    · subst hempty
      have hsend : (options.send text httpPost message recipientName).result =
          .ok ⟨recipientName, false, "no Pushover user key resolved for this recipient"⟩ := by
        simp [PushoverOptions.send, hkey]
      exact truthful_iff_of_unanswered hsend (by simp [PushoverOptions.Answered, hkey])
    · cases hpost : httpPost (options.post key message) with
      | error error =>
        have hsend : (options.send text httpPost message recipientName).result =
            .ok ⟨recipientName, false, "request failed: " ++ error.what⟩ := by
          rw [PushoverOptions.send_of_key hkey hempty, hpost]
        exact truthful_iff_of_unanswered hsend (by simp [PushoverOptions.Answered, hkey, hpost])
      | ok response =>
        have hanswered (response' : HttpResponse) :
            options.Answered httpPost message recipientName response' ↔ response' = response := by
          simp [PushoverOptions.Answered, hkey, hpost, hempty, eq_comm]
        have hsend : (options.send text httpPost message recipientName).result =
            interpretResponse text recipientName response := by
          rw [PushoverOptions.send_of_key hkey hempty, hpost]
        simp only [PushoverOptions.Truthful, PushoverOptions.Misreads, hanswered, hsend,
          exists_eq_left, exists_and_left]
        exact interpretResponse_spec text recipientName response

/-- Alice's phone. -/
def aliceOnly : PushoverOptions where
  token := "app-token"
  userKeys := (∅ : Std.TreeMap String String).insert "alice" "user-key-a"

/-- A parser that knows one response, with a `null` status. -/
def nullStatus : JsonText where
  parse body :=
    if body = "\x7b\"status\":null\x7d" then .ok (.object [("status", .null)])
    else .error (.jsonError "parse error")
  dump _ := ""

/-- A `null` status escapes as an exception. -/
theorem delivery_can_be_misreported :
    ¬∀ (options : PushoverOptions) (text : JsonText) (httpPost : Post → Except Exn HttpResponse)
      (message : Message) (recipientName : String),
      options.Truthful text httpPost message recipientName := by
  intro hall
  have hthrows : (aliceOnly.send nullStatus (fun _ => .ok ⟨200, "\x7b\"status\":null\x7d"⟩)
      ⟨"Launch soon", "Liftoff", "launch_soon", "ll2:abc-123", "Starlink"⟩ "alice").result =
      .error (Json.typeError "302" "type must be number, but is null") := by decide
  obtain ⟨result, hresult, -⟩ := hall aliceOnly nullStatus
    (fun _ => .ok ⟨200, "\x7b\"status\":null\x7d"⟩)
    ⟨"Launch soon", "Liftoff", "launch_soon", "ll2:abc-123", "Starlink"⟩ "alice"
  rw [hthrows] at hresult
  cases hresult

end RocketWatcher
