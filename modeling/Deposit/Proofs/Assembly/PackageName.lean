import Deposit.Proofs.Assembly.Names
import Deposit.Proofs.Assembly.Paths
import Deposit.Proofs.Assembly.Splitting
import Deposit.Proofs.Disk.Fresh
import Deposit.Proofs.Placement.Confinement
import Deposit.Proofs.Text.Separators

set_option autoImplicit false
set_option relaxedAutoImplicit false

/-!
The names of packages. A package is named after the identifier of its submission, of which only
plain characters are kept, or after the last segment of the path of its only file, which is usable
however the file was placed; so the name of every package is that of a file in a directory. The rest
of the name is fixed by the archive and its compression, so what a name consists of can be told from
the identifier, or from the path of the only file.
-/

namespace Deposit

namespace PackagePath

private theorem isName_baseName {path : String} (h : isUsable (baseChars path.toList) = true) :
    Location.IsName (baseName path) := by
  have hne : ∀ s : String, isUsable s.toList = false → baseName path ≠ s := by
    rintro s hs rfl
    rw [baseName, String.toList_ofList, h] at hs
    cases hs
  refine ⟨hne "" (by decide), hne "." (by decide), hne ".." (by decide), ?_⟩
  rw [baseName, String.toList_ofList]
  exact slash_not_mem_baseChars path.toList

end PackagePath

private theorem isNameChar_of_mem_replaceStretches {inside : Bool} {cs : List Char} {c : Char}
    (h : c ∈ replaceStretches inside cs) : isNameChar c = true := by
  induction cs generalizing inside with
  | nil => cases h
  | cons d cs ih =>
    unfold replaceStretches at h
    split at h
    · rename_i hd
      rcases List.mem_cons.1 h with rfl | h
      · exact hd
      · exact ih h
    · split at h
      · exact ih h
      · rcases List.mem_cons.1 h with rfl | h
        · rfl
        · exact ih h

private theorem isNameChar_of_mem_nameOfIdentifier {id : String} {c : Char}
    (h : c ∈ (nameOfIdentifier id).toList) : isNameChar c = true := by
  unfold nameOfIdentifier at h
  dsimp only at h
  split at h
  · have hall : "package".toList.all isNameChar = true := by decide
    exact List.all_eq_true.1 hall c h
  · rw [String.toList_ofList] at h
    exact isNameChar_of_mem_replaceStretches (Text.mem_of_mem_stripWhere h)

theorem isName_append {base extension : String} (hbase : '/' ∉ base.toList)
    (hplain : '/' ∉ extension.toList) (hlong : 2 < extension.toList.length) :
    Location.IsName (base ++ extension) := by
  have hlength : (base ++ extension).toList.length =
      base.toList.length + extension.toList.length := by
    rw [String.toList_append, List.length_append]
  have hne : ∀ s : String, s.toList.length ≤ 2 → base ++ extension ≠ s := by
    rintro s hs rfl
    omega
  refine ⟨hne "" (by decide), hne "." (by decide), hne ".." (by decide), ?_⟩
  rw [String.toList_append, List.mem_append, not_or]
  exact ⟨hbase, hplain⟩

theorem append_ne_temporaryName {extension : String}
    (hlong : ¬ ".tmp".toList <:+ extension.toList) (hshort : ¬ extension.toList <:+ ".tmp".toList)
    (base : String) (n : Nat) : base ++ extension ≠ Disk.temporaryName n := by
  intro h
  have htemporary := Disk.suffix_temporaryName n
  rw [← h, String.toList_append] at htemporary
  rcases List.suffix_or_suffix_of_suffix htemporary
      (List.suffix_append base.toList extension.toList) with hsuffix | hsuffix
  · exact hlong hsuffix
  · exact hshort hsuffix

private theorem extension_cases (archive : ArchiveFormat) (compression : Compression) :
    archive = .none ∧ compression = .none ∨
      '/' ∉ (archive.extension ++ compression.extension).toList ∧
        2 < (archive.extension ++ compression.extension).toList.length ∧
        ¬ ".tmp".toList <:+ (archive.extension ++ compression.extension).toList ∧
        ¬ (archive.extension ++ compression.extension).toList <:+ ".tmp".toList := by
  cases archive <;> cases compression <;> first
    | exact Or.inl ⟨rfl, rfl⟩
    | exact Or.inr (by decide)

private theorem slash_not_mem_packageBaseName (archive : ArchiveFormat) (id : String)
    (resources : List Resource) : '/' ∉ (packageBaseName archive id resources).toList := by
  unfold packageBaseName
  split
  · rw [PackagePath.baseName, String.toList_ofList]
    exact PackagePath.slash_not_mem_baseChars _
  · exact fun h => absurd (isNameChar_of_mem_nameOfIdentifier h) (by decide)

namespace Assembler

variable {a : Assembler} {s : Submission} {placed : List Placed} {before after : Disk}
  {directory : List String} {name : String} {sink : Recorder} {p : PackageStream}

theorem Built.name_eq (h : a.Built s placed before after directory name sink p) :
    p.metadata.name = packageBaseName a.archive s.id p.resources ++
      (a.archive.extension ++ a.compression.extension) := by
  rw [h.metadata_eq, ← String.append_assoc]
  rfl

theorem Built.isName_name (h : a.Built s placed before after directory name sink p)
    (hrefusal : a.refusal? s = none)
    (hplaced : Placement.resolve a.specification.policy s.placements = .ok placed) :
    Location.IsName p.metadata.name := by
  have hslash := slash_not_mem_packageBaseName a.archive s.id p.resources
  rw [h.name_eq]
  rcases extension_cases a.archive a.compression with ⟨harchive, hcompression⟩ |
    ⟨hplain, hlong, -⟩
  · -- the only file of the package gives it its name
    obtain ⟨-, -, hlists, -⟩ := h.paths hplaced
    have hpaths := Composition.packagePath_eq_of_lists hlists
    rw [map_snd_zip_placed hplaced] at hpaths
    obtain ⟨file, files, hfiles⟩ := List.exists_cons_of_ne_nil (files_ne_nil_of_refusal hrefusal)
    cases hresources : p.resources with
    | nil =>
      have hlength := congrArg List.length hpaths
      rw [hresources, List.length_map, List.length_map, length_placed hplaced, hfiles] at hlength
      cases hlength
    | cons r rs =>
      have hmem : r.packagePath ∈ placed.map Placed.path := by
        rw [← hpaths, hresources, hfiles]
        exact List.mem_cons_self
      obtain ⟨place, hplace, hpath⟩ := List.mem_map.1 hmem
      have hnormal := Placement.isNormal_of_resolve hplaced place hplace
      rw [hpath] at hnormal
      have hname := PackagePath.isName_baseName hnormal.isUsable_baseChars
      rw [harchive, hcompression]
      show Location.IsName (PackagePath.baseName r.packagePath ++ "")
      rwa [String.append_empty]
  · exact isName_append hslash hplain hlong

theorem Built.plain_of_temporaryName (h : a.Built s placed before after directory name sink p)
    {n : Nat} (hname : p.metadata.name = Disk.temporaryName n) :
    a.archive = .none ∧ a.compression = .none := by
  rw [h.name_eq] at hname
  rcases extension_cases a.archive a.compression with hplain | ⟨-, -, hlong, hshort⟩
  · exact hplain
  · exact absurd hname (append_ne_temporaryName hlong hshort _ n)

end Assembler

section Stretches

variable {cs : List Char} {c : Char}

/-- The longest stretches of plain characters in a text, in their order. -/
def stretches (cs : List Char) : List (List Char) :=
  (cs.splitOnP fun c => !isNameChar c).filter (· ≠ [])

/-- What survives of an identifier: its stretches of plain characters with underscores between them,
without underscores at either end. -/
def survivors (id : String) : String :=
  String.ofList (Text.stripWhere (· = '_') (['_'].intercalate (stretches id.toList)))

private theorem stretches_cons_of_not (hc : ¬ isNameChar c = true) (cs : List Char) :
    stretches (c :: cs) = stretches cs := by
  rw [stretches, List.splitOnP_cons_eq_if_modifyHead, if_pos (by simpa using hc),
    List.filter_cons_of_neg (by simp)]
  rfl

private theorem stretches_cons_cons {d : Char} (hc : isNameChar c = true) (hd : isNameChar d = true)
    (cs : List Char) : ∃ first rest, stretches (d :: cs) = first :: rest ∧
      stretches (c :: d :: cs) = (c :: first) :: rest := by
  obtain ⟨first, rest, hparts⟩ :=
    List.exists_cons_of_ne_nil (List.splitOnP_ne_nil (fun c => !isNameChar c) cs)
  refine ⟨d :: first, rest.filter (· ≠ []), ?_, ?_⟩
  · rw [stretches, List.splitOnP_cons_eq_if_modifyHead, if_neg (by simpa using hd), hparts,
      List.modifyHead_cons, List.filter_cons_of_pos (by simp)]
  · rw [stretches, List.splitOnP_cons_eq_if_modifyHead, if_neg (by simpa using hc),
      List.splitOnP_cons_eq_if_modifyHead, if_neg (by simpa using hd), hparts,
      List.modifyHead_cons, List.modifyHead_cons, List.filter_cons_of_pos (by simp)]

private theorem stretches_cons_of_head (hc : isNameChar c = true)
    (hcs : ∀ d ∈ cs.head?, ¬ isNameChar d = true) :
    stretches (c :: cs) = [c] :: stretches cs := by
  rw [stretches, List.splitOnP_cons_eq_if_modifyHead, if_neg (by simpa using hc)]
  cases cs with
  | nil => rfl
  | cons d cs =>
    have hd : ¬ isNameChar d = true := hcs d rfl
    rw [List.splitOnP_cons_eq_if_modifyHead, if_pos (by simpa using hd), List.modifyHead_cons,
      List.filter_cons_of_pos (by simp), stretches_cons_of_not hd]
    rfl

private theorem replaceStretches_of_isNameChar (hc : isNameChar c = true) (inside : Bool)
    (cs : List Char) : replaceStretches inside (c :: cs) = c :: replaceStretches false cs := by
  rw [replaceStretches, if_pos hc]

private theorem replaceStretches_true_of_not (hc : ¬ isNameChar c = true) (cs : List Char) :
    replaceStretches true (c :: cs) = replaceStretches true cs := by
  rw [replaceStretches, if_neg hc, if_pos rfl]

private theorem replaceStretches_false_of_not (hc : ¬ isNameChar c = true) (cs : List Char) :
    replaceStretches false (c :: cs) = '_' :: replaceStretches true (c :: cs) := by
  rw [replaceStretches_true_of_not hc, replaceStretches, if_neg hc, if_neg Bool.false_ne_true]

private theorem exists_replaceStretches_true (cs : List Char) :
    ∃ tail, replaceStretches true cs = ['_'].intercalate (stretches cs) ++ tail ∧
      (tail = [] ∨ tail = ['_'] ∧ stretches cs ≠ []) := by
  induction cs with
  | nil => exact ⟨[], rfl, Or.inl rfl⟩
  | cons c cs ih =>
    obtain ⟨tail, hcs, htail⟩ := ih
    by_cases hc : isNameChar c = true
    · rw [replaceStretches_of_isNameChar hc]
      cases cs with
      | nil =>
        rw [stretches_cons_of_head hc (by simp)]
        exact ⟨[], by simp [replaceStretches, stretches, List.intercalate], Or.inl rfl⟩
      | cons d cs =>
        by_cases hd : isNameChar d = true
        · -- the stretch at the beginning grows by one character
          obtain ⟨first, rest, hstretches, hlonger⟩ := stretches_cons_cons hc hd cs
          rw [replaceStretches_of_isNameChar hd] at hcs ⊢
          rw [hlonger, intercalate_cons_first, ← hstretches, hcs]
          exact ⟨tail, rfl, htail.imp_right fun h => ⟨h.1, List.cons_ne_nil _ _⟩⟩
        · have halone : stretches (c :: d :: cs) = [c] :: stretches (d :: cs) := by
            refine stretches_cons_of_head hc fun e he => ?_
            rwa [← Option.some.inj he]
          rw [replaceStretches_false_of_not hd, halone, hcs]
          cases hstretches : stretches (d :: cs) with
          | nil =>
            -- nothing plain follows, so the underscore stands at the end
            rw [hstretches] at htail
            obtain rfl : tail = [] := htail.resolve_right fun h => h.2 rfl
            exact ⟨['_'], rfl, Or.inr ⟨rfl, List.cons_ne_nil _ _⟩⟩
          | cons first rest =>
            rw [List.intercalate_cons_cons]
            exact ⟨tail, rfl, htail.imp_right fun h => ⟨h.1, List.cons_ne_nil _ _⟩⟩
    · rw [replaceStretches_true_of_not hc, stretches_cons_of_not hc]
      exact ⟨tail, hcs, htail⟩

private theorem stripWhere_replaceStretches (cs : List Char) :
    Text.stripWhere (· = '_') (replaceStretches false cs) =
      Text.stripWhere (· = '_') (['_'].intercalate (stretches cs)) := by
  have hunderscore : ∀ c ∈ ['_'], decide (c = '_') = true := by
    intro c hc
    exact decide_eq_true (List.mem_singleton.1 hc)
  have hfront : replaceStretches false cs = replaceStretches true cs ∨
      replaceStretches false cs = ['_'] ++ replaceStretches true cs := by
    cases cs with
    | nil => exact Or.inl rfl
    | cons d cs =>
      by_cases hd : isNameChar d = true
      · left
        rw [replaceStretches_of_isNameChar hd, replaceStretches_of_isNameChar hd]
      · exact Or.inr (replaceStretches_false_of_not hd cs)
  have htrue : Text.stripWhere (· = '_') (replaceStretches false cs) =
      Text.stripWhere (· = '_') (replaceStretches true cs) := by
    rcases hfront with hsame | hmore
    · rw [hsame]
    · rw [hmore, Text.stripWhere_append_of_front hunderscore]
  obtain ⟨tail, hcs, htail⟩ := exists_replaceStretches_true cs
  rw [htrue, hcs]
  apply Text.stripWhere_append_of_back
  rcases htail with rfl | ⟨rfl, -⟩
  · exact nofun
  · exact hunderscore

private theorem nameOfIdentifier_eq (id : String) :
    nameOfIdentifier id = if survivors id = "" then "package" else survivors id := by
  have hempty : survivors id = "" ↔
      Text.stripWhere (· = '_') (['_'].intercalate (stretches id.toList)) = [] := by
    rw [survivors, ← String.toList_inj, String.toList_ofList]
    rfl
  unfold nameOfIdentifier
  dsimp only
  rw [stripWhere_replaceStretches]
  simp only [hempty]
  rfl

private theorem forall_mem_replaceStretches (inside : Bool) (cs : List Char) :
    (∀ c ∈ replaceStretches inside cs, c = '_') ↔ ∀ c ∈ cs, isNameChar c = true → c = '_' := by
  induction cs generalizing inside with
  | nil => exact iff_of_true nofun nofun
  | cons d cs ih =>
    rw [List.forall_mem_cons]
    by_cases hd : isNameChar d = true
    · rw [replaceStretches_of_isNameChar hd, List.forall_mem_cons, ih]
      simp only [hd, forall_const]
    · have hskip : isNameChar d = true → d = '_' := fun h => absurd h hd
      cases inside with
      | false =>
        rw [replaceStretches_false_of_not hd, replaceStretches_true_of_not hd,
          List.forall_mem_cons, ih, and_iff_right rfl, and_iff_right hskip]
      | true => rw [replaceStretches_true_of_not hd, ih, and_iff_right hskip]

private theorem survivors_eq_empty_iff (id : String) :
    survivors id = "" ↔ ∀ c ∈ id.toList, isNameChar c = true → c = '_' := by
  rw [survivors, ← stripWhere_replaceStretches, ← String.toList_inj, String.toList_ofList,
    ← forall_mem_replaceStretches false]
  refine Text.stripWhere_eq_nil_iff.trans ?_
  simp only [decide_eq_true_eq]

end Stretches

private theorem packageBaseName_of_archive {archive : ArchiveFormat} (h : archive ≠ .none)
    (id : String)
    (resources : List Resource) : packageBaseName archive id resources = nameOfIdentifier id := by
  cases archive with
  | none => exact absurd rfl h
  | tar => rfl
  | zip => rfl

private theorem isNameChar_of_mem_extension (archive : ArchiveFormat) (compression : Compression)
    {c : Char} (h : c ∈ (archive.extension ++ compression.extension).toList) :
    isNameChar c = true := by
  have hall : (archive.extension ++ compression.extension).toList.all isNameChar = true := by
    cases archive <;> cases compression <;> decide
  exact List.all_eq_true.1 hall c h

namespace Assembler

variable {a : Assembler} {s : Submission} {p : PackageStream}

private theorem Built.exists_single {placed : List Placed} {before after : Disk}
    {directory : List String}
    {name : String} {sink : Recorder} (h : a.Built s placed before after directory name sink p)
    (hrefusal : a.refusal? s = none)
    (hplaced : Placement.resolve a.specification.policy s.placements = .ok placed)
    (harchive : a.archive = .none) :
    ∃ f q, s.files = [f] ∧ placed = [q] ∧ p.resources.map Resource.packagePath = [q.path] := by
  have hnotar : a.archive = .tar → SizesNonneg s := by
    rw [harchive]
    exact nofun
  obtain ⟨archived, entries, -, -, -, hread, hentries, -⟩ := h.stored hrefusal hplaced hnotar
  obtain ⟨-, -, hlists, -⟩ := h.paths hplaced
  have hpaths := Composition.packagePath_eq_of_lists hlists
  rw [map_snd_zip_placed hplaced] at hpaths
  have hone : p.resources.length = 1 := by
    rw [harchive] at hread
    have hlength := congrArg List.length (Option.some.inj hread)
    have hsame := congrArg List.length hentries
    rw [List.length_map] at hlength
    rw [List.length_map, List.length_map] at hsame
    exact hsame.symm.trans hlength.symm
  have hpos : 0 < s.files.length := List.length_pos_iff.2 (files_ne_nil_of_refusal hrefusal)
  rw [List.take_of_length_le (by omega)] at hpaths
  have hplaces : placed.length = 1 := by
    rw [← hone, ← List.length_map (f := Resource.packagePath), hpaths, List.length_map]
  obtain ⟨q, rfl⟩ := List.length_eq_one_iff.1 hplaces
  obtain ⟨f, hf⟩ := List.length_eq_one_iff.1 ((length_placed hplaced).symm.trans hplaces)
  exact ⟨f, q, hf, rfl, hpaths⟩

/-- The name of a package is that of an item of a directory, so it leads from every location to an
item below it, whatever the identifier of the submission and the names of its files. With an archive
it has only letters, digits, dots, underscores and hyphens in it, and is what survives of the
identifier, or a word that stands for it if nothing survives, with the extensions of the archive and
of the compression behind it; without one, it is the last segment of the path of the only file, with
the extension of the compression. -/
theorem package_name {before after : Surroundings}
    (h : (a.assemble s : StateM Surroundings _).run before = (.ok p, after)) :
    Location.IsName p.metadata.name ∧
    (∀ base : Location, base.child p.metadata.name =
      ⟨base.root, base.parts ++ [p.metadata.name]⟩) ∧
    (a.archive ≠ .none → ∃ base,
      p.metadata.name = base ++ a.archive.extension ++ a.compression.extension ∧
      (∀ c ∈ p.metadata.name.toList, c.isAlphanum = true ∨ c = '.' ∨ c = '_' ∨ c = '-') ∧
      base = (if survivors s.id = "" then "package" else survivors s.id) ∧
      (base = "package" ↔ survivors s.id = "" ∨ survivors s.id = "package") ∧
      (survivors s.id = "" ↔ ∀ c ∈ s.id.toList, isNameChar c = true → c = '_')) ∧
    (a.archive = .none → ∃ f q, s.files = [f] ∧
      Placement.resolve a.specification.policy s.placements = .ok [q] ∧
      p.resources.map Resource.packagePath = [q.path] ∧
      p.metadata.name = PackagePath.baseName q.path ++ a.compression.extension) := by
  obtain ⟨placed, directory, name, sink, hrefusal, hplaced, hbuilt⟩ := built_of_run h
  have hisName := hbuilt.isName_name hrefusal hplaced
  refine ⟨hisName, hisName.child_eq, fun harchive => ?_, fun harchive => ?_⟩
  · have hname : p.metadata.name =
        nameOfIdentifier s.id ++ a.archive.extension ++ a.compression.extension := by
      rw [hbuilt.name_eq, packageBaseName_of_archive harchive, ← String.append_assoc]
    refine ⟨_, hname, fun c hc => ?_, nameOfIdentifier_eq s.id, ?_, survivors_eq_empty_iff s.id⟩
    · have hplain : isNameChar c = true := by
        rw [hname, String.append_assoc, String.toList_append, List.mem_append] at hc
        exact hc.elim isNameChar_of_mem_nameOfIdentifier
          (isNameChar_of_mem_extension a.archive a.compression)
      simpa [isNameChar, or_assoc] using hplain
    · rw [nameOfIdentifier_eq]
      by_cases hempty : survivors s.id = ""
      · simp only [hempty, if_true, true_or]
      · simp only [hempty, if_false, false_or]
  · obtain ⟨f, q, hf, rfl, hpaths⟩ := hbuilt.exists_single hrefusal hplaced harchive
    refine ⟨f, q, hf, hplaced, hpaths, ?_⟩
    obtain ⟨r, hr, hpath⟩ := List.map_eq_singleton_iff.1 hpaths
    rw [hbuilt.name_eq, harchive, hr, ← hpath]
    exact congrArg (PackagePath.baseName r.packagePath ++ ·) String.empty_append

/-- A submission of one sheet, by its identifier. -/
def sheet (id : String) : Submission where
  id := id
  files :=
    [{ name := "sheet.txt", role := .manuscript, opened := .ok { bytes := [1] }, size := some 1 }]
  metadata := []

/-- An identifier that reads as a path upwards gives a package the name of a file. -/
theorem package_name_of_climbing_sheet :
    ∃ p after, (tarAssembler.assemble (sheet "../up\\_ ") : StateM Surroundings _).run emptyDesk =
        (.ok p, after) ∧
      p.metadata.name = ".._up.tar" ∧ Location.IsName p.metadata.name := by
  have hreturns : Surroundings.returns (tarAssembler.assemble (sheet "../up\\_ ")) emptyDesk
      (fun _ => true) = true := by
    decide +kernel
  obtain ⟨p, after, hrun, -⟩ := Surroundings.run_of_returns hreturns
  obtain ⟨hisName, -, harchived, -⟩ := package_name hrun
  obtain ⟨base, hname, -, rfl, -⟩ := harchived (by decide)
  refine ⟨p, after, hrun, hname.trans ?_, hisName⟩
  decide +kernel

/-- All of an identifier may survive and be the word that stands for one of which nothing does. -/
theorem package_name_of_package :
    ∃ p after, (tarAssembler.assemble (sheet "package") : StateM Surroundings _).run emptyDesk =
        (.ok p, after) ∧
      survivors (sheet "package").id = "package" ∧
      p.metadata.name =
        "package" ++ tarAssembler.archive.extension ++ tarAssembler.compression.extension := by
  have hreturns : Surroundings.returns (tarAssembler.assemble (sheet "package")) emptyDesk
      (fun p => decide (p.metadata.name = "package.tar")) = true := by
    decide +kernel
  obtain ⟨p, after, hrun, hname⟩ := Surroundings.run_of_returns hreturns
  refine ⟨p, after, hrun, by decide +kernel, (of_decide_eq_true hname).trans ?_⟩
  decide +kernel

end Assembler

end Deposit
