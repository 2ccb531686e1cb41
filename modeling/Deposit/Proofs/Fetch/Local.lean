import Deposit.Fetch
import Deposit.Host.Surroundings
import Deposit.Proofs.Text.Utf8
import Mathlib.Data.List.TakeWhile

set_option autoImplicit false
set_option relaxedAutoImplicit false

/-!
Documents that are named by a path or by a reference with the scheme of files. Percent-encoding a
path, percent signs included, leaves nothing in it that a reference is split at, and decoding gives
the path back. Main statement: the reference to an absolute path always names the document of that
path. The path itself does so unless it seems to begin with an authority: tabs and line ends do not
count where a reference is split, so a path may seem to begin with two slashes.
-/

namespace Deposit

namespace Uri

variable {kept : Char → Bool} {cs : List Char}

/-- The text with all characters encoded but those that are kept. -/
def encodeAll (kept : Char → Bool) (cs : List Char) : List Char :=
  cs.flatMap (percentEncode.encodeChar kept)

private theorem percentBytes_cons {c : Char} (hc : c ≠ '%') (cs : List Char) :
    percentBytes (c :: cs) = String.utf8EncodeChar c ++ percentBytes cs := by
  rw [percentBytes]
  simp [hc]

private theorem percentByte_eq (b : UInt8) :
    percentByte b = ['%', (b.toNat / 16).digitChar.toUpper, (b.toNat % 16).digitChar.toUpper] := by
  have hall : ∀ n, n < 256 → Text.digits 16 2 n = [(n / 16).digitChar, (n % 16).digitChar] := by
    decide +kernel
  rw [percentByte, hall _ b.toNat_lt]
  rfl

private theorem hexValue?_toUpper {d : Nat} (h : d < 16) :
    Text.hexValue? d.digitChar.toUpper = some d := by
  have hall : ∀ d, d < 16 → Text.hexValue? d.digitChar.toUpper = some d := by decide
  exact hall d h

private theorem percentBytes_percentByte (b : UInt8) (cs : List Char) :
    percentBytes (percentByte b ++ cs) = b :: percentBytes cs := by
  have hb := b.toNat_lt
  rw [percentByte_eq, List.cons_append, List.cons_append, List.singleton_append, percentBytes,
    hexValue?_toUpper (by omega), hexValue?_toUpper (by omega)]
  dsimp only
  rw [show b.toNat / 16 * 16 + b.toNat % 16 = b.toNat by omega, UInt8.ofNat_toNat]

private theorem percentBytes_flatMap_percentByte (bs : Bytes) (cs : List Char) :
    percentBytes (bs.flatMap percentByte ++ cs) = bs ++ percentBytes cs := by
  induction bs with
  | nil => rfl
  | cons b bs ih =>
    rw [List.flatMap_cons, List.append_assoc, percentBytes_percentByte, ih, List.cons_append]

private theorem percentBytes_encodeAll (hkept : kept '%' = false) (cs : List Char) :
    percentBytes (encodeAll kept cs) = cs.flatMap String.utf8EncodeChar := by
  induction cs with
  | nil => rfl
  | cons c cs ih =>
    rw [encodeAll, List.flatMap_cons, ← encodeAll, List.flatMap_cons, percentEncode.encodeChar]
    split
    · rename_i hc
      have hplain : c ≠ '%' := by
        rintro rfl
        rw [hkept] at hc
        cases hc
      rw [List.singleton_append, percentBytes_cons hplain, ih]
    · rw [percentBytes_flatMap_percentByte, ih]

private theorem percentDecode_encodeAll (hkept : kept '%' = false) (s : String) :
    percentDecode (String.ofList (encodeAll kept s.toList)) = s := by
  rw [percentDecode, String.toList_ofList, percentBytes_encodeAll hkept,
    Text.Utf8.decodeLossy_utf8, String.ofList_toList]

private theorem mem_encodeAll {c : Char} (h : c ∈ encodeAll kept cs) :
    kept c = true ∨ c = '%' ∨ isHexDigit c = true := by
  obtain ⟨d, -, hc⟩ := List.mem_flatMap.1 h
  unfold percentEncode.encodeChar at hc
  split at hc
  · rename_i hd
    rw [List.mem_singleton.1 hc]
    exact Or.inl hd
  · right
    obtain ⟨b, -, hb⟩ := List.mem_flatMap.1 hc
    have hlt := b.toNat_lt
    rw [percentByte_eq, List.mem_cons, List.mem_cons, List.mem_singleton] at hb
    rcases hb with rfl | rfl | rfl
    · exact Or.inl rfl
    · right
      rw [isHexDigit, hexValue?_toUpper (by omega), Option.isSome_some]
    · right
      rw [isHexDigit, hexValue?_toUpper (by omega), Option.isSome_some]

/-- The characters of a path that stay as they are in a reference. -/
def isPathChar (c : Char) : Bool :=
  isUnreserved c || c = '/'

/-- The reference to the file of a path: everything in the path is encoded but the slashes and the
unreserved characters. -/
def fileReference (path : String) : String :=
  fileScheme ++ "://" ++ String.ofList (encodeAll isPathChar path.toList)

example : fileReference "/50% off?/é#;:" = "file:///50%25%20off%3F/%C3%A9%23%3B%3A" := by
  decide +kernel

private theorem not_mem_encodeAll {c : Char} (hpath : isPathChar c = false) (hpercent : c ≠ '%')
    (hhex : isHexDigit c = false) : c ∉ encodeAll isPathChar cs := by
  intro h
  rcases mem_encodeAll h with hkept | rfl | hdigit
  · rw [hpath] at hkept
    cases hkept
  · exact hpercent rfl
  · rw [hhex] at hdigit
    cases hdigit

/-- Whether a character does not count wherever it stands in a reference. -/
def isIgnored (c : Char) : Bool :=
  c = '\t' || c = '\r' || c = '\n'

private theorem significant_eq {c : Char} (h : 0x20 < c.toNat) (cs : List Char) :
    significant (c :: cs) = (c :: cs).filter fun c => !isIgnored c := by
  rw [significant, List.dropWhile_cons_of_neg]
  · rfl
  · rw [decide_eq_true_eq]
    omega

private theorem splitAt_of_not_mem {mark : Char} (h : mark ∉ cs) : splitAt mark cs = (cs, []) := by
  have hplain : ∀ c ∈ cs, (!decide (c = mark)) = true := by
    intro c hc
    rw [Bool.not_eq_true', decide_eq_false_iff_not]
    rintro rfl
    exact h hc
  rw [splitAt, splitBefore]
  simp only
  rw [List.takeWhile_eq_self_iff.2 hplain, List.dropWhile_eq_nil_iff.2 hplain, List.drop_nil]

private theorem filter_encodeAll :
    (encodeAll isPathChar cs).filter (fun c => !isIgnored c) = encodeAll isPathChar cs := by
  rw [List.filter_eq_self]
  intro c hc
  rw [Bool.not_eq_true', isIgnored, Bool.or_eq_false_iff, Bool.or_eq_false_iff,
    decide_eq_false_iff_not, decide_eq_false_iff_not, decide_eq_false_iff_not]
  refine ⟨⟨?_, ?_⟩, ?_⟩ <;> rintro rfl <;>
    exact not_mem_encodeAll (by decide) (by decide) (by decide) hc

private theorem split_fileReference {path : String} (h : path.toList = '/' :: cs) :
    split (fileReference path) = .ok
      { scheme := fileScheme
        authority := ""
        path := String.ofList (encodeAll isPathChar path.toList)
        query := ""
        fragment := "" } := by
  have hencoded : encodeAll isPathChar path.toList = '/' :: encodeAll isPathChar cs := by
    rw [h]
    rfl
  have hlist : (fileReference path).toList =
      "file://".toList ++ encodeAll isPathChar path.toList := by
    rw [fileReference, String.toList_append, String.toList_ofList]
    rfl
  have hsignificant : significant (fileReference path).toList =
      "file://".toList ++ encodeAll isPathChar path.toList := by
    rw [hlist]
    refine (significant_eq (by decide) _).trans ?_
    exact congrArg ("file://".toList ++ ·) filter_encodeAll
  have hscheme : takeScheme ("file://".toList ++ '/' :: encodeAll isPathChar cs) =
      (fileScheme.toList, '/' :: '/' :: '/' :: encodeAll isPathChar cs) := rfl
  have hauthority : takeAuthority ('/' :: '/' :: '/' :: encodeAll isPathChar cs) =
      .ok ([], '/' :: encodeAll isPathChar cs) := rfl
  have hmark : ∀ mark, isPathChar mark = false → mark ≠ '%' → isHexDigit mark = false →
      splitAt mark ('/' :: encodeAll isPathChar cs) = ('/' :: encodeAll isPathChar cs, []) := by
    intro mark hpath hpercent hhex
    rw [← hencoded]
    exact splitAt_of_not_mem (not_mem_encodeAll hpath hpercent hhex)
  rw [split, hsignificant, hencoded, hscheme]
  simp only [hauthority, bind, Except.bind, hmark '#' (by decide) (by decide) (by decide),
    hmark '?' (by decide) (by decide) (by decide)]
  rfl

/-- The authority of what has no scheme. -/
def authorityOf : List Char → List Char
  | '/' :: '/' :: rest => (splitBefore (fun c => c = '/' || c = '?' || c = '#') rest).1
  | _ => []

private theorem takeAuthority_eq (cs : List Char) :
    ∃ rest, takeAuthority cs =
      (checkBrackets (authorityOf cs)).map fun _ => (authorityOf cs, rest) := by
  unfold takeAuthority
  split
  · exact ⟨_, rfl⟩
  · rename_i hcs
    have hnone : authorityOf cs = [] := by
      unfold authorityOf
      split
      · exact absurd rfl (hcs _)
      · rfl
    rw [hnone]
    exact ⟨cs, rfl⟩

/-- The check of what is taken for the authority of a path. Characters that do not count may stand
between the two slashes in front of it. -/
def checkPath (path : List Char) : Except SplitFault Unit := do
  let authority := authorityOf (path.filter fun c => !isIgnored c)
  checkBrackets authority
  checkAuthority authority

private theorem takeScheme_slash (cs : List Char) : takeScheme ('/' :: cs) = ([], '/' :: cs) := by
  have hbefore : splitBefore (· = ':') ('/' :: cs) =
      ('/' :: cs.takeWhile fun c => !decide (c = ':'), cs.dropWhile fun c => !decide (c = ':')) :=
    rfl
  rw [takeScheme, hbefore]
  simp only [List.all_cons, show isSchemeChar '/' = false by decide, Bool.false_and,
    Bool.and_false, Bool.false_eq_true, if_false]

private theorem split_path {path : String} (h : path.toList = '/' :: cs) :
    ∃ parts : Parts, parts.scheme = "" ∧
      split path = (checkPath path.toList).map fun _ => parts := by
  have hsignificant : significant path.toList = path.toList.filter fun c => !isIgnored c := by
    rw [h, significant_eq (by decide)]
  have hscheme : takeScheme (path.toList.filter fun c => !isIgnored c) =
      ([], path.toList.filter fun c => !isIgnored c) := by
    rw [h]
    exact takeScheme_slash (cs.filter fun c => !isIgnored c)
  rw [split, hsignificant, hscheme, checkPath]
  generalize path.toList.filter (fun c => !isIgnored c) = text
  obtain ⟨rest, hauthority⟩ := takeAuthority_eq text
  simp only [hauthority, bind, Except.bind]
  refine ⟨
    { scheme := ""
      authority := String.ofList (authorityOf text)
      path := String.ofList (splitAt '?' (splitAt '#' rest).1).1
      query := String.ofList (splitAt '?' (splitAt '#' rest).1).2
      fragment := String.ofList (splitAt '#' rest).2 }, rfl, ?_⟩
  cases checkBrackets (authorityOf text) with
  | error fault => rfl
  | ok _ =>
    simp only [Except.map]
    cases checkAuthority (authorityOf text) <;> rfl

private theorem exists_of_authorityOf_ne_nil (h : authorityOf cs ≠ []) :
    ∃ rest, cs = '/' :: '/' :: rest := by
  unfold authorityOf at h
  split at h
  · exact ⟨_, rfl⟩
  · exact absurd rfl h

private theorem exists_slash_of_checkPath {fault : SplitFault}
    (hfault : checkPath ('/' :: cs) = .error fault) :
    ∃ gap rest, cs = gap ++ '/' :: rest ∧ ∀ c ∈ gap, isIgnored c = true := by
  have hauthority : authorityOf (('/' :: cs).filter fun c => !isIgnored c) ≠ [] := by
    intro hnil
    rw [checkPath, hnil] at hfault
    cases hfault
  obtain ⟨rest, hrest⟩ := exists_of_authorityOf_ne_nil hauthority
  have hfilter : cs.filter (fun c => !isIgnored c) = '/' :: rest := (List.cons.inj hrest).2
  obtain ⟨gap, after, hcs, hgap, -, -⟩ := List.filter_eq_cons_iff.1 hfilter
  refine ⟨gap, after, hcs, fun c hc => ?_⟩
  have hignored := hgap c hc
  rwa [Bool.not_eq_true', Bool.not_eq_false] at hignored

end Uri

/-- Reads the file at a location: its bytes, or the error about it. -/
def readFile {m : Type → Type} [Host m] (l : Location) : m (Except FetchFault Bytes) := do
  match ← Host.read l with
  | .ok bytes => pure (.ok bytes)
  | .error fault => pure (.error (.content (.file fault)))

private theorem documentFile_fileReference {path : String} {cs : List Char}
    (h : path.toList = '/' :: cs) :
    documentFile (Uri.fileReference path) = .ok (.ofText path) := by
  rw [documentFile, Uri.split_fileReference h]
  show Except.ok (Location.ofText (Uri.percentDecode _)) = _
  rw [Uri.percentDecode_encodeAll (by decide)]

private theorem documentFile_path {path : String} {cs : List Char} (h : path.toList = '/' :: cs) :
    documentFile path = (Uri.checkPath path.toList).map fun _ => .ofText path := by
  obtain ⟨parts, hscheme, hparts⟩ := Uri.split_path h
  have hfile : parts.scheme ≠ fileScheme := by
    rw [hscheme]
    decide
  rw [documentFile, hparts]
  cases Uri.checkPath path.toList with
  | error fault => rfl
  | ok _ => simp only [Except.map, if_neg hfile]

/-- A reference to an absolute path names the document of that path, whatever characters the path
has: the file is read, or the error tells of it, and nothing else happens. The path itself names the
same document on every host, unless it seems to begin with an authority that does not pass the
check. Then nothing is read, and the fetch fails with what the check found; that needs a second
slash, which follows the first one with nothing between them but tabs and line ends. -/
theorem fetchLocal_fileReference {path : String} {cs : List Char} (h : path.toList = '/' :: cs) :
    (∀ {m : Type → Type} [Host m],
      fetchLocal (m := m) (Uri.fileReference path) = readFile (.ofText path)) ∧
    match Uri.checkPath path.toList with
    | .ok () => ∀ {m : Type → Type} [Host m],
        fetchLocal (m := m) path = fetchLocal (Uri.fileReference path)
    | .error fault =>
      (∀ {m : Type → Type} [Host m],
        fetchLocal (m := m) path = pure (.error (.split fault))) ∧
      ∃ gap rest, path.toList = '/' :: (gap ++ '/' :: rest) ∧
        ∀ c ∈ gap, Uri.isIgnored c = true := by
  refine ⟨?_, ?_⟩
  · intro m _
    rw [fetchLocal, documentFile_fileReference h]
    rfl
  · cases hcheck : Uri.checkPath path.toList with
    | ok _ =>
      intro m _
      rw [fetchLocal, fetchLocal, documentFile_fileReference h, documentFile_path h, hcheck]
      rfl
    | error fault =>
      refine ⟨?_, ?_⟩
      · intro m _
        rw [fetchLocal, documentFile_path h, hcheck]
        rfl
      · rw [h] at hcheck
        obtain ⟨gap, rest, hcs, hgap⟩ := Uri.exists_slash_of_checkPath hcheck
        exact ⟨gap, rest, by rw [h, hcs], hgap⟩

/-- A path of percent signs, blanks, marks of the grammar and letters beyond ASCII is the same
document as its reference. -/
theorem fetchLocal_fileReference_of_marks :
    "/50% off?/é#;:".toList = '/' :: "50% off?/é#;:".toList ∧
    ∀ {m : Type → Type} [Host m],
      fetchLocal (m := m) "/50% off?/é#;:" = fetchLocal (Uri.fileReference "/50% off?/é#;:") := by
  have hpath : "/50% off?/é#;:".toList = '/' :: "50% off?/é#;:".toList := rfl
  have hcheck : Uri.checkPath "/50% off?/é#;:".toList = .ok () := by decide +kernel
  obtain ⟨-, hfetch⟩ := fetchLocal_fileReference hpath
  rw [hcheck] at hfetch
  exact ⟨hpath, @hfetch⟩

/-- Surroundings without a file. -/
def bareSurroundings : Surroundings where
  disk := { items := [], workingDirectory := [] }
  temporaryDirectory := ⟨"/", ["tmp"]⟩
  log := []

/-- The path of a bracket in a directory named by a tab: the reference leads to its place, but the
path fails before that, because the bracket is taken for the address of a host. -/
theorem bracket_below_tab_differs :
    ((fetchLocal (Uri.fileReference "/\t/[") : StateM Surroundings _).run bareSurroundings).1 =
      .error (.content (.file (.refused .notFound "/\t/["))) ∧
    ((fetchLocal "/\t/[" : StateM Surroundings _).run bareSurroundings).1 =
      .error (.split .brackets) := by
  decide +kernel

end Deposit
