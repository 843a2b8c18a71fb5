import Mathlib.Data.List.Basic

/-!
# JSON values

A value as a parser returns it. Numbers are decimal fractions, and the fields of an object keep
their order; a later field of the same name is never reached by `field`.
-/

set_option autoImplicit false

namespace OutpostPi.Lib

inductive Json
  | null
  | bool (value : Bool)
  /-- `mantissa · 10⁻ᵉˣᵖᵒⁿᵉⁿᵗ`. -/
  | number (mantissa : Int) (exponent : Nat)
  | string (text : String)
  | array (items : List Json)
  | object (fields : List (String × Json))

namespace Json

/-- A decimal fraction in plain notation. -/
def numberText (mantissa : Int) (exponent : Nat) : String :=
  if exponent = 0 then toString mantissa
  else
    let digits := (toString mantissa.natAbs).toList
    let padded := List.replicate (exponent + 1 - digits.length) '0' ++ digits
    let whole := padded.length - exponent
    (if mantissa < 0 then "-" else "") ++ String.ofList (padded.take whole) ++ "." ++
      String.ofList (padded.drop whole)

mutual

/-- The text of a decoded value in Dart. A string stands without quotation marks. -/
def text : Json → String
  | .null => "null"
  | .bool value => toString value
  | .number mantissa exponent => numberText mantissa exponent
  | .string content => content
  | .array items => "[" ++ ", ".intercalate (itemTexts items) ++ "]"
  | .object fields => "\x7b" ++ ", ".intercalate (fieldTexts fields) ++ "\x7d"

def itemTexts : List Json → List String
  | [] => []
  | item :: items => item.text :: itemTexts items

def fieldTexts : List (String × Json) → List String
  | [] => []
  | (name, value) :: fields => (name ++ ": " ++ value.text) :: fieldTexts fields

end

/-- The text of a map in Dart. -/
def fieldsText (fields : List (String × Json)) : String := (Json.object fields).text

/-- Replace the value of a field, or append the field. -/
def setIn (name : String) (value : Json) : List (String × Json) → List (String × Json)
  | [] => [(name, value)]
  | (other, old) :: fields =>
    if other = name then (name, value) :: fields else (other, old) :: setIn name value fields

/-- The value of a field, absent in anything but an object. -/
def field (json : Json) (name : String) : Option Json :=
  match json with
  | .object fields => fields.lookup name
  | _ => none

/-- Assign a field. Nothing but an object has fields. -/
def setField (json : Json) (name : String) (value : Json) : Json :=
  match json with
  | .object fields => .object (setIn name value fields)
  | other => other

/-- The field is the given string. -/
def hasString (json : Json) (name text : String) : Bool :=
  match json.field name with
  | some (.string found) => found == text
  | _ => false

theorem lookup_setIn_self (name : String) (value : Json) (fields : List (String × Json)) :
    (setIn name value fields).lookup name = some value := by
  induction fields with
  | nil => simp [setIn]
  | cons entry fields ih =>
    obtain ⟨other, old⟩ := entry
    rw [setIn]
    by_cases same : other = name
    · simp [same]
    · rw [if_neg same, List.lookup_cons]
      have differs : (name == other) = false := by simpa using Ne.symm same
      rw [differs]
      exact ih

variable {name : String}

theorem lookup_setIn_of_ne {name' : String} (distinct : name' ≠ name) (value : Json)
    (fields : List (String × Json)) :
    (setIn name value fields).lookup name' = fields.lookup name' := by
  have skip : ∀ (v : Json) (rest : List (String × Json)),
      ((name, v) :: rest).lookup name' = rest.lookup name' := by
    intro v rest
    have differs : (name' == name) = false := by simpa using distinct
    rw [List.lookup_cons, differs]
  induction fields with
  | nil => exact skip value []
  | cons entry fields ih =>
    obtain ⟨other, old⟩ := entry
    rw [setIn]
    split
    · next same =>
      subst same
      rw [skip, skip]
    · rw [List.lookup_cons, List.lookup_cons, ih]

/-- An assigned field is read back. -/
theorem field_setField_self {fields : List (String × Json)} {value : Json} :
    ((Json.object fields).setField name value).field name = some value :=
  lookup_setIn_self name value fields

/-- Assignment leaves the other fields alone. -/
@[simp] theorem field_setField_of_ne {json : Json} {name' : String} {value : Json}
    (distinct : name' ≠ name) : (json.setField name value).field name' = json.field name' := by
  cases json with
  | object fields => exact lookup_setIn_of_ne distinct value fields
  | _ => rfl

theorem hasString_iff {json : Json} {text : String} :
    json.hasString name text = true ↔ json.field name = some (.string text) := by
  rw [hasString]
  split
  · next found eq => simp [eq]
  · next other =>
    constructor
    · intro impossible
      cases impossible
    · intro eq
      exact absurd eq (other text)

/-- Only an object has a field. -/
theorem object_of_field {json : Json} {value : Json} (found : json.field name = some value) :
    ∃ fields, json = .object fields := by
  cases json with
  | object fields => exact ⟨fields, rfl⟩
  | _ => cases found

end Json

end OutpostPi.Lib
