import RocketWatcher.Delivery
import RocketWatcher.Library.PercentEncoding
import RocketWatcher.Pushover

/-!
# HTTP over libcurl

`curl_http.cpp` : the transports of the program, and what the Pushover channel puts on the wire
through them. A form is escaped field by field, so whatever a title or a body contains, the
service reads the four fields the channel posts and no others. The requests of a cycle are those
of its deliveries, in order, at most one for each (`requests_of_cycle`).
-/

open PercentEncoding

namespace RocketWatcher

def kUserAgent : String := "rocket-watcher/0.1 (personal launch notifier)"

/-- The bytes of a `std::string`. -/
def bytes (text : String) : List UInt8 :=
  text.toByteArray.data.toList

/-- What is read of a text through `c_str()` by one who does not know its length. -/
def cBytes (text : List UInt8) : List UInt8 :=
  text.takeWhile (· ≠ 0)

/-- The options a transfer is started with. -/
structure CurlRequest where
  url : List UInt8
  userAgent : String
  timeout : Int
  followLocation : Bool
  postFields : Option (List Char)
  deriving DecidableEq, Repr

/-- What libcurl answers on one handle. A transfer that fails does so with a text. -/
structure Curl where
  easyInit : Bool
  easyEscape : List UInt8 → Int → Option (List Char)
  easyPerform : CurlRequest → Except String HttpResponse

namespace Curl

variable (curl : Curl)

/-- `CurlHandle()`. -/
def openHandle : Except Exn Unit :=
  if curl.easyInit then .ok () else .error (.runtimeError "curl_easy_init failed")

def perform (url : String) (timeout : Int) (postFields : Option (List Char)) :
    Traced CurlRequest Exn HttpResponse := do
  let request : CurlRequest := ⟨cBytes (bytes url), kUserAgent, timeout, true, postFields⟩
  .perform request
  match curl.easyPerform request with
  | .error what => .ofExcept (.error (.runtimeError ("HTTP request failed: " ++ what)))
  | .ok response => return response

/-- The length is passed as an `int`. -/
def urlEncode (text : String) : Except Exn (List Char) :=
  match curl.easyEscape (bytes text) (castInt (bytes text).length) with
  | none => .error (.runtimeError "curl_easy_escape failed")
  | some escaped => .ok escaped

/-- `curlHttpGet`. -/
def httpGet (url : String) (timeout : Int) : Traced CurlRequest Exn String := do
  .ofExcept curl.openHandle
  let response ← curl.perform url timeout none
  if 400 ≤ response.status then
    .ofExcept (.error (.runtimeError ("HTTP " ++ toString response.status)))
  else
    return response.body

/-- One more field of the form. -/
def addField (form : List Char) (field : String × String) : Except Exn (List Char) := do
  let form := if form.isEmpty then form else form ++ ['&']
  return form ++ (← curl.urlEncode field.1) ++ '=' :: (← curl.urlEncode field.2)

/-- `curlHttpPostForm`. -/
def httpPostForm (post : Post) : Traced CurlRequest Exn HttpResponse := do
  .ofExcept curl.openHandle
  let form ← .ofExcept (post.fields.foldlM curl.addField [])
  curl.perform post.url post.timeout (some form)

/-- What `curl_easy_escape` returns, if anything : so many bytes of the text, escaped. It takes
the length of the text if it is given none, and no negative one. -/
def Escapes : Prop :=
  ∀ text length escaped, curl.easyEscape text length = some escaped → 0 ≤ length ∧
    escaped = encode (if length = 0 then cBytes text else text.take length.toNat)

end Curl

/-- `PushoverChannel::send` over `curlHttpPostForm`. -/
def PushoverOptions.sendCurl (options : PushoverOptions) (text : JsonText) (curl : Curl)
    (message : Message) (recipientName : String) : Traced CurlRequest Exn DeliveryResult :=
  let sent := options.send text (fun post => (curl.httpPostForm post).result) message recipientName
  ⟨sent.trace.flatMap fun post => (curl.httpPostForm post).trace, sent.result⟩

/-! ## What is on the wire -/

/-- A text whose length is no other one as an `int`. -/
def FitsInt (text : String) : Prop :=
  (bytes text).length < 2 ^ 32

instance (text : String) : Decidable (FitsInt text) :=
  inferInstanceAs (Decidable (_ < _))

theorem castInt_of_nonneg {n : ℕ} (hn : n < 2 ^ 32) (h : 0 ≤ castInt n) : castInt n = n := by
  rw [castInt, Int.bmod_def] at h ⊢
  split at h <;> omega

section Form

variable {curl : Curl}

theorem urlEncode_eq_ok (hcurl : curl.Escapes) {text : String} (hfits : FitsInt text)
    {escaped : List Char} (h : curl.urlEncode text = .ok escaped) :
    escaped = encode (bytes text) := by
  unfold FitsInt at hfits
  unfold Curl.urlEncode at h
  split at h
  · cases h
  next out hescape =>
  obtain rfl := Except.ok.inj h
  obtain ⟨hpos, hout⟩ := hcurl _ _ _ hescape
  rw [hout, castInt_of_nonneg hfits hpos]
  cases hbytes : bytes text with
  | nil => rfl
  | cons byte rest =>
    rw [if_neg (by simp; omega)]
    simp

/-- The fields as the service reads them. -/
def rawField (field : String × String) : Field :=
  (bytes field.1, bytes field.2)

theorem addField_eq_ok (hcurl : curl.Escapes) {fields : List Field} {field : String × String}
    (hkey : FitsInt field.1) (hvalue : FitsInt field.2) {form : List Char}
    (h : curl.addField (encodeForm fields) field = .ok form) :
    form = encodeForm (fields ++ [rawField field]) := by
  obtain ⟨key, hkeyEq, h⟩ := Except.bind_eq_ok.mp h
  obtain ⟨value, hvalueEq, h⟩ := Except.bind_eq_ok.mp h
  obtain rfl := Except.ok.inj h
  rw [urlEncode_eq_ok hcurl hkey hkeyEq, urlEncode_eq_ok hcurl hvalue hvalueEq, encodeForm_snoc]
  simp only [List.isEmpty_iff, encodeForm_eq_nil, encodeField, rawField, List.append_assoc]
  split
  · next hnone => simp [hnone, encodeForm]
  · rfl

/-- The form the loop builds. -/
theorem foldlM_addField (hcurl : curl.Escapes) {fields : List (String × String)}
    (hfits : ∀ field ∈ fields, FitsInt field.1 ∧ FitsInt field.2) (done : List Field)
    {form : List Char} (h : fields.foldlM curl.addField (encodeForm done) = .ok form) :
    form = encodeForm (done ++ fields.map rawField) := by
  induction fields generalizing done with
  | nil => simpa [eq_comm] using h
  | cons field fields ih =>
    rw [List.foldlM_cons] at h
    obtain ⟨next, hnext, h⟩ := Except.bind_eq_ok.mp h
    obtain ⟨hkey, hvalue⟩ := hfits field List.mem_cons_self
    obtain rfl := addField_eq_ok hcurl hkey hvalue hnext
    simpa using ih (fun f hf => hfits f (List.mem_cons_of_mem _ hf)) _ h

/-- A request that a reader of forms takes for this post. -/
structure CurlRequest.Carries (request : CurlRequest) (post : Post) : Prop where
  url : request.url = cBytes (bytes post.url)
  timeout : request.timeout = post.timeout
  fields : request.postFields.map decodeForm = some (post.fields.map rawField)

/-- The requests of a post : one that carries it, or none when libcurl fails before. -/
theorem httpPostForm_trace (hcurl : curl.Escapes) {post : Post}
    (hfits : ∀ field ∈ post.fields, FitsInt field.1 ∧ FitsInt field.2) :
    (curl.httpPostForm post).trace = [] ∨
      ∃ request : CurlRequest, request.Carries post ∧
        (curl.httpPostForm post).trace = [request] := by
  unfold Curl.httpPostForm
  cases hopen : curl.openHandle with
  | error error => exact .inl rfl
  | ok =>
  cases hform : post.fields.foldlM curl.addField [] with
  | error error => exact .inl rfl
  | ok form =>
    refine .inr ⟨⟨cBytes (bytes post.url), kUserAgent, post.timeout, true, some form⟩,
      ⟨rfl, rfl, ?_⟩, ?_⟩
    · obtain rfl := foldlM_addField hcurl hfits [] hform
      simp only [List.nil_append, Option.map_some, decodeForm_encodeForm]
    · simp only [Traced.ofExcept_ok_bind, Curl.perform]
      cases curl.easyPerform _ <;> rfl

end Form

/-! ## Deliveries -/

/-- The post a delivery stands for. There is none for a recipient without a key. -/
def PushoverOptions.postTo (options : PushoverOptions) (delivery : Message × String) :
    Option Post :=
  match options.userKeys[delivery.2]? with
  | none => none
  | some key => if key = "" then none else some (options.post key delivery.1)

/-- The token and the keys. -/
def PushoverOptions.FitInt (options : PushoverOptions) : Prop :=
  FitsInt options.token ∧
    ∀ name key : String, options.userKeys[name]? = some key → FitsInt key

/-- What deliveries put on the wire, each with a handle of its own. -/
def wire (options : PushoverOptions) (text : JsonText) (curls : ℕ → Curl)
    (deliveries : List (Message × String)) : List CurlRequest :=
  deliveries.zipIdx.flatMap fun sent =>
    (options.sendCurl text (curls sent.2) sent.1.1 sent.1.2).trace

section Deliveries

variable {options : PushoverOptions} {curls : ℕ → Curl}
  {deliveries : List (Message × String)}

theorem send_trace (options : PushoverOptions) (text : JsonText)
    (httpPost : Post → Except Exn HttpResponse) (delivery : Message × String) :
    (options.send text httpPost delivery.1 delivery.2).trace =
      (options.postTo delivery).toList := by
  unfold PushoverOptions.postTo
  cases hkey : options.userKeys[delivery.2]? with
  | none => simp [PushoverOptions.send, hkey, Traced.pure_eq_mk]
  | some key =>
    by_cases hempty : key = ""
    · simp [PushoverOptions.send, hkey, hempty, Traced.pure_eq_mk]
    · simp [PushoverOptions.send_of_key hkey hempty, hempty]

/-- The texts of a post are escaped as they are. -/
theorem fits_of_postTo (hoptions : options.FitInt) {delivery : Message × String}
    (hmessage : FitsInt delivery.1.title ∧ FitsInt delivery.1.body) {post : Post}
    (h : options.postTo delivery = some post) :
    ∀ field ∈ post.fields, FitsInt field.1 ∧ FitsInt field.2 := by
  unfold PushoverOptions.postTo at h
  split at h
  · cases h
  next key hkey =>
  split at h
  · cases h
  obtain rfl := Option.some.inj h
  simp only [PushoverOptions.post, List.forall_mem_cons, List.not_mem_nil, false_imp_iff,
    implies_true, and_true]
  exact ⟨⟨by decide, hoptions.1⟩, ⟨by decide, hoptions.2 _ key hkey⟩, ⟨by decide, hmessage.1⟩,
    by decide, hmessage.2⟩

/-- What is on the wire carries the posts of the deliveries, in order and each at most once. -/
theorem wire_carries (text : JsonText) (hcurls : ∀ n, (curls n).Escapes) (hoptions : options.FitInt)
    (hmessages : ∀ delivery ∈ deliveries, FitsInt delivery.1.title ∧ FitsInt delivery.1.body) :
    ∃ posts, List.Forall₂ CurlRequest.Carries (wire options text curls deliveries) posts ∧
      posts.Sublist (deliveries.filterMap options.postTo) := by
  unfold wire
  generalize 0 = n
  induction deliveries generalizing n with
  | nil => exact ⟨[], .nil, .slnil⟩
  | cons delivery deliveries ih =>
    obtain ⟨posts, hcarries, hsub⟩ :=
      ih (fun d hd => hmessages d (List.mem_cons_of_mem _ hd)) (n + 1)
    have htrace : (options.sendCurl text (curls n) delivery.1 delivery.2).trace =
        (options.postTo delivery).toList.flatMap fun post =>
          ((curls n).httpPostForm post).trace := by
      rw [PushoverOptions.sendCurl, send_trace]
    rw [List.zipIdx_cons, List.flatMap_cons]
    simp only [htrace]
    cases hpost : options.postTo delivery with
    | none =>
      rw [List.filterMap_cons_none hpost]
      exact ⟨posts, hcarries, hsub⟩
    | some post =>
      have hfits := fits_of_postTo hoptions (hmessages delivery List.mem_cons_self) hpost
      rw [List.filterMap_cons_some hpost, Option.toList_some, List.flatMap_singleton]
      rcases httpPostForm_trace (hcurls n) hfits with hnone | ⟨request, hrequest, hone⟩
      · rw [hnone]
        exact ⟨posts, hcarries, hsub.cons _⟩
      · rw [hone]
        exact ⟨post :: posts, .cons hrequest hcarries, hsub.cons_cons _⟩

end Deliveries

/-! ## Cycles -/

/-- The channel of the cycle is Pushover over libcurl, with a handle for each delivery. -/
def CycleEnv.overCurl (env : CycleEnv) (options : PushoverOptions) (text : JsonText)
    (curls : ℕ → Curl) : CycleEnv :=
  { env with
    send := fun n message recipientName =>
      (options.sendCurl text (curls n) message recipientName).result }

/-- The posts of a cycle that notifies every recipient : alerts in decision order, recipients in
config order. -/
def plannedPosts (options : PushoverOptions) (config : Config)
    (messages : List (Alert × Message)) : List Post :=
  ((allSends config messages).filterMap Effect.delivery).filterMap options.postTo

/-- A cycle over libcurl. Nothing is on the wire unless the records of the alerts that the fetched
launches give rise to are stored, and then some of the planned posts are, in their order and none
of them twice. From each request the service reads the fields of its post. -/
theorem requests_of_cycle {env : CycleEnv} {config : Config} {crashAfter : Option ℕ}
    {options : PushoverOptions} {text : JsonText} {curls : ℕ → Curl}
    {stored stored' : List AlertRecord} {effects : List Effect}
    (hcurls : ∀ n, (curls n).Escapes) (hoptions : options.FitInt)
    (hmessages : ∀ message name, .send message name ∈ effects →
      FitsInt message.title ∧ FitsInt message.body)
    (hstep : watcher.step stored ⟨env.overCurl options text curls, config, crashAfter⟩ =
      .ok (effects, stored')) :
    ∃ posts, List.Forall₂ CurlRequest.Carries
        (wire options text curls (effects.filterMap Effect.delivery)) posts ∧
      (posts = [] ∨ ∃ fetch d messages, env.fetch = .ok fetch ∧
        planCycle env config fetch.launches stored = .ok (d, messages) ∧
          stored' = d.updatedRecords ∧ posts.Sublist (plannedPosts options config messages)) := by
  have hfits : ∀ delivery ∈ effects.filterMap Effect.delivery,
      FitsInt delivery.1.title ∧ FitsInt delivery.1.body := by
    rintro ⟨message, name⟩ hmem
    exact hmessages message name (mem_deliveries.mp hmem)
  obtain ⟨posts, hcarries, hsub⟩ := wire_carries text hcurls hoptions hfits
  refine ⟨posts, hcarries, ?_⟩
  rcases cycle_cases hstep with
    ⟨-, hnone⟩ | ⟨fetch, d, messages, rest, hfetch, hplan, hseen, hrest, hstored⟩
  · left
    rw [deliveries_of_no_sends hnone] at hsub
    exact List.sublist_nil.mp hsub
  · right
    refine ⟨fetch, d, messages, hfetch, hplan, hstored, hsub.trans ?_⟩
    rw [← filterMap_delivery_visible, hseen]
    exact (hrest.sublist.filterMap _).filterMap _

/-- Every transfer is answered. -/
def answeringCurl : Curl where
  easyInit := true
  easyEscape text length :=
    if 0 ≤ length then
      some (encode (if length = 0 then cBytes text else text.take length.toNat))
    else none
  easyPerform _ := .ok ⟨200, ""⟩

theorem answeringCurl_escapes : answeringCurl.Escapes := by
  intro text length escaped h
  simp only [answeringCurl] at h
  split at h
  · next hlength => exact ⟨hlength, (Option.some.inj h).symm⟩
  · cases h

/-- The launch of the test suite, sent over libcurl. -/
def curlCall : CycleCall :=
  ⟨(testCall [makeLaunch] kNow).env.overCurl aliceOnly nullStatus fun _ => answeringCurl,
    makeConfig, none⟩

theorem requests_of_cycle_makeLaunch : ∃ effects stored' posts,
    watcher.step [] curlCall = .ok (effects, stored') ∧
      (wire aliceOnly nullStatus (fun _ => answeringCurl)
        (effects.filterMap Effect.delivery)).length = 1 ∧
      List.Forall₂ CurlRequest.Carries (wire aliceOnly nullStatus (fun _ => answeringCurl)
        (effects.filterMap Effect.delivery)) posts ∧
      ∃ d messages, stored' = d.updatedRecords ∧
        planCycle curlCall.env makeConfig [makeLaunch] [] = .ok (d, messages) ∧
        posts.Sublist (plannedPosts aliceOnly makeConfig messages) := by
  obtain ⟨effects, stored', hstep, hfits, hone⟩ : ∃ effects stored',
      watcher.step [] curlCall = .ok (effects, stored') ∧
        (∀ delivery ∈ effects.filterMap Effect.delivery,
          FitsInt delivery.1.title ∧ FitsInt delivery.1.body) ∧
        (wire aliceOnly nullStatus (fun _ => answeringCurl)
          (effects.filterMap Effect.delivery)).length = 1 :=
    ⟨_, _, rfl, by decide, by decide⟩
  have hkeys : aliceOnly.FitInt := by
    refine ⟨by decide, fun name key h => ?_⟩
    rw [aliceOnly, Std.TreeMap.getElem?_insert] at h
    split at h
    · obtain rfl := Option.some.inj h
      decide
    · simp at h
  obtain ⟨posts, hcarries, hposts⟩ := requests_of_cycle (fun _ => answeringCurl_escapes) hkeys
    (fun message name h => hfits _ (mem_deliveries.mpr h)) hstep
  refine ⟨effects, stored', posts, hstep, hone, hcarries, ?_⟩
  rcases hposts with rfl | ⟨fetch, d, messages, hfetch, hplan, hstored, hsub⟩
  · rw [List.forall₂_nil_right_iff.mp hcarries] at hone
    cases hone
  · obtain rfl := Except.ok.inj hfetch
    exact ⟨d, messages, hstored, hplan, hsub⟩

end RocketWatcher
