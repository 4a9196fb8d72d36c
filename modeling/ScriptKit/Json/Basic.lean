/-! JSON values and the reading of their members. -/
namespace ScriptKit

/-- A JSON value. A number is its mantissa divided by a power of ten. -/
inductive Json
  | null
  | bool (value : Bool)
  | number (mantissa : Int) (places : Nat)
  | string (value : String)
  | array (items : List Json)
  | object (members : List (String × Json))
deriving Repr, Inhabited

namespace Json

def nat (n : Nat) : Json := number (.ofNat n) 0

def orNull (value : Option Json) : Json := value.getD null

def memberIf (name : String) (value : Option Json) : List (String × Json) :=
  (value.map fun v => (name, v)).toList

def string? : Json → Option String
  | string s => some s
  | _ => none

def nat? (limit : Nat) : Json → Option Nat
  | number (.ofNat n) 0 => if n ≤ limit then some n else none
  | _ => none

def array? : Json → Option (List Json)
  | array items => some items
  | _ => none

def object? : Json → Option (List (String × Json))
  | object members => some members
  | _ => none

@[simp] theorem string?_string (s : String) : (string s).string? = some s := rfl

@[simp] theorem array?_array (items : List Json) : (array items).array? = some items := rfl

@[simp] theorem object?_object (members : List (String × Json)) :
    (object members).object? = some members := rfl

theorem nat?_nat {limit n : Nat} (h : n ≤ limit) : (nat n).nat? limit = some n :=
  if_pos h

def get? (members : List (String × Json)) (name : String) : Option Json :=
  (members.find? (·.1 = name)).map (·.2)

@[simp] theorem get?_nil (name : String) : get? [] name = none := rfl

@[simp] theorem get?_cons (name' : String) (v : Json) (ms : List (String × Json)) (name : String) :
    get? ((name', v) :: ms) name = if name' = name then some v else get? ms name := by
  by_cases h : name' = name <;> simp [get?, h]

def required? {α : Type} (members : List (String × Json)) (name : String)
    (decode : Json → Option α) : Option α :=
  (get? members name).bind decode

/-- A member that may be missing or null. Its reader is told where the value stands. -/
def optionalFrom? {α : Type} (members : List (String × Json)) (name : String)
    (decode : (value : Json) → get? members name = some value → Option α) : Option (Option α) :=
  match h : get? members name with
  | none | some null => some none
  | some value => (decode value h).map some

def optional? {α : Type} (members : List (String × Json)) (name : String)
    (decode : Json → Option α) : Option (Option α) :=
  optionalFrom? members name fun value _ => decode value

section Optional

variable {α : Type} {ms : List (String × Json)} {name : String} {decode : Json → Option α}

theorem optional?_of_none (h : get? ms name = none) : optional? ms name decode = some none := by
  unfold optional? optionalFrom?
  split <;> simp_all

theorem optional?_of_null (h : get? ms name = some null) :
    optional? ms name decode = some none := by
  unfold optional? optionalFrom?
  split <;> simp_all

theorem optional?_of_some {v : Json} (h : get? ms name = some v) (hv : v ≠ null) :
    optional? ms name decode = (decode v).map some := by
  unfold optional? optionalFrom?
  split <;> simp_all

end Optional

end Json

end ScriptKit
