set_option autoImplicit false
set_option relaxedAutoImplicit false

/-!
Header fields: values under names that are the same in either case. A name may have several values.
-/

namespace Deposit.Http

abbrev Headers := List (String × String)

namespace Headers

def key (name : String) : String :=
  String.ofList (name.toList.map Char.toLower)

def isNamed (name : String) (field : String × String) : Bool :=
  key field.1 = key name

/-- The values under a name as one text, if there are any. -/
def find? (hs : Headers) (name : String) : Option String :=
  match hs.filter (isNamed name) with
  | [] => none
  | fields => some (", ".intercalate (fields.map Prod.snd))

def erase (hs : Headers) (name : String) : Headers :=
  hs.filter fun field => !isNamed name field

/-- The fields with one value under a name, in the place of those it had. -/
def set (hs : Headers) (name value : String) : Headers :=
  hs.erase name ++ [(name, value)]

/-- The fields with others in the place of those of the same names. -/
def update (hs others : Headers) : Headers :=
  (hs.filter fun field => !others.any fun other => isNamed other.1 field) ++ others

end Headers

end Deposit.Http
