set_option autoImplicit false
set_option relaxedAutoImplicit false

/-!
Configuration data as it is exchanged with the outside: the values of JSON, integers told apart from
other numbers, the members of an object in the order in which their names were first given.
-/

namespace Deposit

/-- A JSON value. -/
inductive Json where
  | null
  | bool (b : Bool)
  | int (n : Int)
  | float (x : Float)
  | text (s : String)
  | list (xs : List Json)
  | object (members : List (String × Json))
deriving Inhabited

namespace Json

/-- The members with one of them set: a name already present keeps its place. -/
def insert (name : String) (value : Json) : List (String × Json) → List (String × Json)
  | [] => [(name, value)]
  | m :: ms => if m.1 = name then (name, value) :: ms else m :: insert name value ms

/-- The object in which later members replace earlier ones of the same name. -/
def objectOf (members : List (String × Json)) : List (String × Json) :=
  members.foldl (fun ms m => insert m.1 m.2 ms) []

/-- The member of a given name, if the value is an object that has one. -/
def get? (j : Json) (name : String) : Option Json :=
  match j with
  | .object members => members.lookup name
  | _ => none

def members? : Json → Option (List (String × Json))
  | .object members => some members
  | _ => none

def items? : Json → Option (List Json)
  | .list xs => some xs
  | _ => none

def text? : Json → Option String
  | .text s => some s
  | _ => none

def int? : Json → Option Int
  | .int n => some n
  | _ => none

def isNull : Json → Bool
  | .null => true
  | _ => false

/-- Text, or null when there is none. -/
def ofText? : Option String → Json
  | some s => .text s
  | none => .null

@[simp] theorem map_fst_insert_of_mem {name : String} {value : Json} {ms : List (String × Json)}
    (h : name ∈ ms.map Prod.fst) : (insert name value ms).map Prod.fst = ms.map Prod.fst := by
  induction ms with
  | nil => simp at h
  | cons m ms ih =>
    by_cases hm : m.1 = name
    · simp [insert, hm]
    · have : name ∈ ms.map Prod.fst := by
        simpa [Ne.symm hm] using h
      simp only [insert, hm, if_false, List.map_cons, ih this]

end Json

end Deposit
