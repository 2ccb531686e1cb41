import Deposit.Schema.Scalar

set_option autoImplicit false
set_option relaxedAutoImplicit false

/-!
Checks of records, dictionaries and lists. A field of a record may have two names; the outer one
wins, and is the one that issues speak of unless the inner one was used. What no field takes is
extra.
-/

namespace Deposit.Schema

/-- The members of an object that is to be a record of a given title. -/
def record {α : Type} (title : String) (check : List (String × Json) → Checked α) :
    Json → Checked α
  | .object members => check members
  | _ => .fail (.record title)

/-- A field under two names: the name it was found under and its value. -/
def find? (outer inner : String) (members : List (String × Json)) : Option (String × Json) :=
  match members.lookup outer with
  | some j => some (outer, j)
  | none => (members.lookup inner).map fun j => (inner, j)

def required2 {α : Type} (outer inner : String) (check : Json → Checked α)
    (members : List (String × Json)) : Checked α :=
  match find? outer inner members with
  | some (name, j) => (check j).within (.name name)
  | none => .issues [⟨.missing, [.name outer]⟩]

def defaulted2 {α : Type} (outer inner : String) (check : Json → Checked α) (fallback : α)
    (members : List (String × Json)) : Checked α :=
  match find? outer inner members with
  | some (name, j) => (check j).within (.name name)
  | none => .ok fallback

def required {α : Type} (name : String) (check : Json → Checked α)
    (members : List (String × Json)) : Checked α :=
  required2 name name check members

/-- A field under one name with a value of its own when it is not there. -/
def defaulted {α : Type} (name : String) (check : Json → Checked α) (fallback : α)
    (members : List (String × Json)) : Checked α :=
  defaulted2 name name check fallback members

/-- Whether a member is taken by a field of the given names. -/
def isTaken (members : List (String × Json)) (name : String) (field : String × String) : Bool :=
  name == field.1 || (name == field.2 && (members.lookup field.1).isNone)

def extras (fields : List (String × String)) (members : List (String × Json)) :
    List (String × Json) :=
  members.filter fun m => !fields.any (isTaken members m.1)

def dictionary {α : Type} (check : Json → Checked α) : Json → Checked (List (String × α))
  | .object members =>
    .all (members.map fun m => (fun a => (m.1, a)) <$> (check m.2).within (.name m.1))
  | _ => .fail .dictionary

def list {α : Type} (check : Json → Checked α) : Json → Checked (List α)
  | .list items =>
    .all (items.zipIdx.map fun p => (check p.1).within (.index p.2))
  | _ => .fail .list

end Deposit.Schema
