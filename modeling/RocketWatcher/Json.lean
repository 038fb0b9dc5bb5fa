import RocketWatcher.Domain

/-!
# JSON values

The part of `nlohmann::json` the program uses, with the documented errors of its accessors.
An object is the list of its members. Parsing and dumping texts is left to the library : who
needs them takes them as parameters.
-/

namespace RocketWatcher

/-- A JSON value. A number is an integer or a float. -/
inductive Json where
  | null
  | boolean (value : Bool)
  | integer (value : Int)
  | float (value : Rat)
  | string (value : String)
  | array (elements : List Json)
  | object (members : List (String × Json))

/-- The text side of the library. -/
structure JsonText where
  parse : String → Except Exn Json
  dump : Json → String

namespace Json

def typeName : Json → String
  | null => "null"
  | boolean _ => "boolean"
  | integer _ | float _ => "number"
  | string _ => "string"
  | array _ => "array"
  | object _ => "object"

def isNull : Json → Bool
  | null => true
  | _ => false

def typeError (id : String) (what : String) : Exn :=
  .jsonError ("[json.exception.type_error." ++ id ++ "] " ++ what)

/-- `contains(key)` and the member. -/
def find? (data : Json) (key : String) : Option Json :=
  match data with
  | object members => members.lookup key
  | _ => none

/-- `data.at(key)`. -/
def atKey (data : Json) (key : String) : Except Exn Json :=
  match data with
  | object members =>
    match members.lookup key with
    | some value => .ok value
    | none =>
      .error (.jsonError ("[json.exception.out_of_range.403] key '" ++ key ++ "' not found"))
  | _ => .error (typeError "304" ("cannot use at() with " ++ data.typeName))

/-- `data.value(key, defaultValue)`, where the default is a JSON value. -/
def valueOr (data : Json) (key : String) (defaultValue : Json) : Except Exn Json :=
  match data with
  | object members => .ok ((members.lookup key).getD defaultValue)
  | _ => .error (typeError "306" ("cannot use value() with " ++ data.typeName))

/-- `data.value(key, nullptr)`, if `data` is an object. -/
def member (data : Json) (key : String) : Json :=
  (data.find? key).getD .null

theorem valueOr_null_of_find {data value : Json} {key : String} (h : data.find? key = some value)
    (other : String) : data.valueOr other .null = .ok (data.member other) := by
  cases data with
  | object members => rfl
  | _ => cases h

theorem atKey_of_find {data value : Json} {key : String} (h : data.find? key = some value) :
    data.atKey key = .ok value := by
  cases data with
  | object members =>
    have hlookup : members.lookup key = some value := h
    rw [atKey, hlookup]
  | _ => cases h

/-- `get<std::string>()`. -/
def getString : Json → Except Exn String
  | string value => .ok value
  | data => .error (typeError "302" ("type must be string, but is " ++ data.typeName))

/-- `get<std::vector<std::string>>()`. -/
def getStrings : Json → Except Exn (List String)
  | array elements => elements.mapM getString
  | data => .error (typeError "302" ("type must be array, but is " ++ data.typeName))

/-- `static_cast<int>` of a float rounds towards zero. Out of range the language does not define
it; the common processors answer with the least `int`. -/
def castFloat (value : Rat) : Int :=
  let rounded := if 0 ≤ value then value.floor else -(-value).floor
  if -(2 ^ 31) ≤ rounded ∧ rounded < 2 ^ 31 then rounded else -(2 ^ 31)

/-- `get<int>()`. -/
def getInt : Json → Except Exn Int
  | integer value => .ok (castInt value)
  | float value => .ok (castFloat value)
  | boolean value => .ok (if value then 1 else 0)
  | data => .error (typeError "302" ("type must be number, but is " ++ data.typeName))

/-- `data.value(key, defaultValue)`, where the default is an `int`. -/
def intOr (data : Json) (key : String) (defaultValue : Int) : Except Exn Int :=
  match data with
  | object members =>
    match members.lookup key with
    | some value => value.getInt
    | none => .ok defaultValue
  | _ => .error (typeError "306" ("cannot use value() with " ++ data.typeName))

/-- What a range-based `for` goes over. -/
def elements : Json → List Json
  | null => []
  | array elements => elements
  | object members => members.map Prod.snd
  | data => [data]

/-! ## Reading back what is written -/

@[simp] theorem getString_string (text : String) : (string text).getString = .ok text :=
  rfl

@[simp] theorem elements_array (elements : List Json) : (array elements).elements = elements :=
  rfl

theorem getStrings_array (texts : List String) :
    (array (texts.map string)).getStrings = .ok texts := by
  induction texts with
  | nil => rfl
  | cons text texts ih =>
    rw [getStrings] at ih
    simp [getStrings, ih]

end Json

end RocketWatcher
