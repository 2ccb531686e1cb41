set_option autoImplicit false
set_option relaxedAutoImplicit false

/-!
Blank characters, trimming and the ends of lines. A blank is a character that separates words: the
ASCII blanks and separators, the next-line control, and the space characters of Unicode. Trimming
takes the longest blank stretch off either end and nothing else. A line may end in a line feed, in a
carriage return or in both; texts are read with line feeds only.
-/

namespace Deposit.Text

def isBlank (c : Char) : Bool :=
  let n := c.toNat
  (9 ≤ n && n ≤ 13) || (28 ≤ n && n ≤ 32) || n == 0x85 || n == 0xa0 || n == 0x1680 ||
    (0x2000 ≤ n && n ≤ 0x200a) || n == 0x2028 || n == 0x2029 || n == 0x202f || n == 0x205f ||
    n == 0x3000

/-- Whether a character counts as blank around a number, as the separators of ASCII do not. -/
def isBlankAroundDigits (c : Char) : Bool :=
  isBlank c && !(28 ≤ c.toNat && c.toNat < 32)

def dropTail (p : Char → Bool) (cs : List Char) : List Char :=
  (cs.reverse.dropWhile p).reverse

/-- The list without the characters of a class at either end. -/
def stripWhere (p : Char → Bool) (cs : List Char) : List Char :=
  dropTail p (cs.dropWhile p)

def trim (s : String) : String :=
  String.ofList (stripWhere isBlank s.toList)

def unifyLineEnds : List Char → List Char
  | [] => []
  | '\r' :: '\n' :: cs => '\n' :: unifyLineEnds cs
  | '\r' :: cs => '\n' :: unifyLineEnds cs
  | c :: cs => c :: unifyLineEnds cs

theorem unifyLineEnds_of_not_mem {cs : List Char} (h : '\r' ∉ cs) : unifyLineEnds cs = cs := by
  fun_induction unifyLineEnds cs with
  | case1 => rfl
  | case2 cs ih => simp at h
  | case3 cs _ ih => simp at h
  | case4 c cs _ hc ih => simp_all

theorem unifyLineEnds_append {a : List Char} (h : '\r' ∉ a) (b : List Char) :
    unifyLineEnds (a ++ b) = a ++ unifyLineEnds b := by
  induction a with
  | nil => rfl
  | cons c cs ih =>
    have hc : c ≠ '\r' := fun hc => h (hc ▸ List.mem_cons_self)
    rw [List.cons_append, unifyLineEnds, ih fun hcs => h (List.mem_cons_of_mem c hcs)]
    · rfl
    · intro cs hcs
      exact absurd hcs hc
    · exact hc

end Deposit.Text
