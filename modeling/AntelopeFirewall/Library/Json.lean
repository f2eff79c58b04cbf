import Mathlib.Data.List.Basic

/-!
# JSON Values

A JSON value as a program sees it after parsing: numbers keep the machine type the parser
chose, an object is a map from names to values. Paths are the deterministic part of a
JSON path query: a named member or every element.

- `Json.Members.get` and `Json.Members.insert` are the map operations,
- `Json.select` collects what a path leads to,
- `Json.strings` keeps the text values of a collection.
-/

namespace Library

/-- A number as parsed: a `u64`, a negative `i64`, or the bits of an `f64`. -/
inductive Number where
  | posInt (n : Nat)
  | negInt (n : Int)
  | float (bits : UInt64)
  deriving DecidableEq, Repr

inductive Json where
  | null
  | bool (b : Bool)
  | number (n : Number)
  | string (text : String)
  | array (elements : List Json)
  | object (members : List (String × Json))
  deriving Repr, Inhabited

namespace Json

/-- The members of an object. A name that occurs twice is read at its first occurrence,
and no operation below adds a second one. -/
abbrev Members := List (String × Json)

namespace Members

/-- The value under a name. -/
def get (name : String) : Members → Option Json
  | [] => none
  | (n, value) :: rest => if n = name then some value else get name rest

/-- Put a value under a name, in place of the one that is there. -/
def insert (name : String) (value : Json) : Members → Members
  | [] => [(name, value)]
  | (n, old) :: rest =>
    if n = name then (name, value) :: rest else (n, old) :: insert name value rest

@[simp] theorem get_insert_self (name : String) (value : Json) (members : Members) :
    (members.insert name value).get name = some value := by
  induction members with
  | nil => simp [insert, get]
  | cons member rest ih =>
    obtain ⟨n, old⟩ := member
    by_cases h : n = name
    · simp [insert, get, h]
    · simp only [insert, h, if_false, get, ih]

end Members

/-! ## Reading a value -/

def asStr : Json → Option String
  | string text => some text
  | _ => none

def asObject : Json → Option Members
  | object members => some members
  | _ => none

/-- The member of a value under a name, if the value is an object that has it. -/
def get (name : String) (value : Json) : Option Json := value.asObject.bind (Members.get name)

theorem asStr_eq_some {value : Json} {text : String} :
    value.asStr = some text ↔ value = string text := by
  cases value <;> simp [asStr]

/-- The text values of a collection, in order. -/
def strings (values : List Json) : List String := values.filterMap asStr

theorem mem_strings {values : List Json} {text : String} :
    text ∈ strings values ↔ string text ∈ values := by
  simp [strings, asStr_eq_some]

/-! ## Paths -/

/-- One step of a path. -/
inductive PathStep where
  | child (name : String)
  | wildcard
  deriving DecidableEq, Repr

/-- What one step leads to. -/
def PathStep.from : PathStep → Json → List Json
  | child name, object members => (Members.get name members).toList
  | wildcard, array elements => elements
  | wildcard, object members => members.map Prod.snd
  | _, _ => []

/-- Every value a path leads to from the root. -/
def select : List PathStep → Json → List Json
  | [], value => [value]
  | step :: path, value => (step.from value).flatMap (select path)

theorem select_cons (step : PathStep) (path : List PathStep) (value : Json) :
    select (step :: path) value = (step.from value).flatMap (select path) := rfl

/-- A path whose first member is there goes on from it. -/
theorem select_child_of_get {name : String} {path : List PathStep} {value next : Json}
    (h : value.get name = some next) :
    select (.child name :: path) value = select path next := by
  cases value <;> simp_all [select_cons, PathStep.from, get, asObject]

end Json

end Library
