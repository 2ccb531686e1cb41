import Deposit.Text.CaseFold.Table

set_option autoImplicit false
set_option relaxedAutoImplicit false

/-!
Full case folding: every character is folded on its own, so the folded form of a text is the
concatenation of the folded forms of its characters.
-/

namespace Deposit.Text.CaseFold

/-- The folded form of one character outside ASCII, read off the tables. -/
def lookup (c : Char) : List Char :=
  match runs.find? (·.covers c.toNat) with
  | some r => [Char.ofNat (Int.toNat (c.toNat + r.shift))]
  | none =>
    match expansions.lookup c.toNat with
    | some ns => ns.map Char.ofNat
    | none => [c]

def ofChar (c : Char) : List Char :=
  if c.toNat < 0x80 then [c.toLower] else lookup c

end Deposit.Text.CaseFold

namespace Deposit.Text

/-- The form in which texts that differ only in case agree. -/
def caseFold (cs : List Char) : List Char :=
  cs.flatMap CaseFold.ofChar

@[simp] theorem caseFold_append (xs ys : List Char) :
    caseFold (xs ++ ys) = caseFold xs ++ caseFold ys := by
  simp [caseFold]

end Deposit.Text
