import Mathlib.Data.List.Basic
import Deposit.Proofs.Text.Separators
import Deposit.Proofs.Text.Utf8
import Deposit.Specification.Registry

set_option autoImplicit false
set_option relaxedAutoImplicit false

/-!
What the generated manifests list. Of the registered specifications two generate a manifest: one
links to every content file, the other has a line for each of them, and both give the paths of the
content files as they are, in their order. A reader that takes the lines apart into fields finds
what was written exactly if no field holds a tab or a newline, for the fields are written as they
are.
-/

namespace Deposit

namespace Xml.Node

mutual

/-- The values of an attribute in a tree, in the order of the document. -/
def valuesIn (space base : String) : Node → List String
  | .element _ _ attributes children =>
    (attributes.filter fun a => a.1.space = space ∧ a.1.base = base).map Prod.snd ++
      valuesInAll space base children
  | .text _ => []
  | .reference _ => []

/-- The values of an attribute in several trees. -/
def valuesInAll (space base : String) : List Node → List String
  | [] => []
  | n :: ns => valuesIn space base n ++ valuesInAll space base ns

end

theorem valuesInAll_eq_flatMap (space base : String) (ns : List Node) :
    valuesInAll space base ns = ns.flatMap (valuesIn space base) := by
  induction ns with
  | nil => rw [valuesInAll, List.flatMap_nil]
  | cons n ns ih => rw [valuesInAll, List.flatMap_cons, ih]

end Xml.Node

namespace Specification

namespace Mets

open Xml.Node (valuesIn valuesInAll valuesInAll_eq_flatMap)

/-- Where the links of a tree lead. -/
def links (n : Xml.Node) : List String :=
  valuesIn linkSpace "href" n

private theorem links_element (base : String) (attributes : List (String × String))
    (children : List Xml.Node) :
    links (element base attributes children) = children.flatMap links := by
  have hplain : (attributes.map fun a => (Xml.Name.plain a.1, a.2)).filter
      (fun a => a.1.space = linkSpace ∧ a.1.base = "href") = [] := by
    rw [List.filter_eq_nil_iff]
    intro a ha
    obtain ⟨b, -, rfl⟩ := List.mem_map.1 ha
    simp [Xml.Name.plain, linkSpace]
  rw [links, element, valuesIn, hplain, List.map_nil, List.nil_append, valuesInAll_eq_flatMap]
  rfl

private theorem links_fieldElement (f : FieldName × String) : links (fieldElement f) = [] := by
  obtain ⟨⟨schema, name, qualifier⟩, text⟩ := f
  cases qualifier <;>
    simp [links, fieldElement, valuesIn, valuesInAll, Xml.Name.plain, linkSpace]

private theorem links_metadataSection (s : Submission) : links (metadataSection s) = [] := by
  have hfields : ((fields s).map fieldElement).flatMap links = [] := by
    rw [List.flatMap_map]
    exact List.flatMap_eq_nil_iff.2 fun f _ => links_fieldElement f
  have hdim : links (.element ⟨"dim", dimSpace, "dim"⟩ [("dim", dimSpace)] []
      ((fields s).map fieldElement)) = [] := by
    rw [links, valuesIn, valuesInAll_eq_flatMap]
    exact hfields
  simp only [metadataSection, links_element, List.flatMap_cons, List.flatMap_nil, hdim,
    List.append_nil]

theorem links_fileElement (r : Resource) (n : Nat) : links (fileElement r n) = [r.packagePath] := by
  rw [fileElement, links_element, List.flatMap_cons, List.flatMap_nil, List.append_nil, links,
    valuesIn]
  simp [valuesInAll, Xml.Name.plain, linkSpace]

private theorem links_divElement (r : Resource) (n : Nat) : links (divElement r n) = [] := by
  rw [divElement, links_element, List.flatMap_cons, List.flatMap_nil, links_element]
  rfl

private theorem links_fileSection (rs : List Resource) :
    links (fileSection rs) = rs.map Resource.packagePath := by
  have hfiles : ((rs.zipIdx 1).map fun p => fileElement p.1 p.2).flatMap links =
      rs.map Resource.packagePath := by
    rw [List.flatMap_map]
    simp only [links_fileElement]
    -- the numbers of the files are dropped
    rw [← List.map_eq_flatMap, ← Function.comp_def, ← List.map_map, List.zipIdx_map_fst]
  simp only [fileSection, links_element, List.flatMap_cons, List.flatMap_nil, List.append_nil,
    hfiles]

private theorem links_structureSection (rs : List Resource) : links (structureSection rs) = [] := by
  have hdivs : ((rs.zipIdx 1).map fun p => divElement p.1 p.2).flatMap links = [] := by
    rw [List.flatMap_map]
    exact List.flatMap_eq_nil_iff.2 fun p _ => links_divElement p.1 p.2
  simp only [structureSection, links_element, List.flatMap_cons, List.flatMap_nil, hdivs,
    List.append_nil]

private theorem links_manifest (s : Submission) (rs : List Resource) :
    links (manifest s rs) = rs.map Resource.packagePath := by
  have hsections : [agent, metadataSection s, fileSection rs, structureSection rs].flatMap links =
      rs.map Resource.packagePath := by
    have hagent : links agent = [] := rfl
    simp only [List.flatMap_cons, List.flatMap_nil, hagent, links_metadataSection,
      links_fileSection, links_structureSection, List.append_nil, List.nil_append]
  rw [links, manifest, valuesIn, valuesInAll_eq_flatMap]
  exact hsections

end Mets

/-- What a generated file records of some paths: a document links to them, a list has a line for
each of them that ends in it, and the metadata of the manuscript say nothing about them. -/
inductive RecordsPaths (paths : List String) : String × Bytes → Prop
  | document (root : Xml.Node) : Mets.links root = paths →
      RecordsPaths paths (Mets.manifestPath, Bytes.ofText (Xml.document root))
  | list (heads : List String) : heads.length = paths.length →
      RecordsPaths paths (Nihms.listPath, Bytes.ofText
        (String.join (List.zipWith (fun head path => head ++ "\t" ++ path ++ "\n") heads paths)))
  | metadata (content : Bytes) : RecordsPaths paths (Nihms.metadataPath, content)

private theorem recordsPaths_fileList (rs : List Resource) :
    RecordsPaths (rs.map Resource.packagePath) (Nihms.listPath, Nihms.fileList rs) := by
  have hlines : rs.map Nihms.line = List.zipWith (fun head path => head ++ "\t" ++ path ++ "\n")
      (rs.map fun r =>
        r.role.elim "supplement" Role.value ++ "\t" ++ PackagePath.baseName r.originalName)
      (rs.map Resource.packagePath) := by
    rw [List.zipWith_map, List.zipWith_self]
    refine List.map_congr_left fun r _ => ?_
    rw [Nihms.line]
    cases r.role <;> rfl
  rw [Nihms.fileList, hlines]
  exact .list _ (by simp)

/-- The files that a registered specification generates record the paths of the files that they are
generated for. -/
theorem recordsPaths_of_registered {spec : Specification} (h : spec ∈ registered) {s : Submission}
    {rs : List Resource} {generated : Generated} (hg : spec.generate s rs = .ok generated) :
    ∀ f ∈ generated.files, RecordsPaths (rs.map Resource.packagePath) f := by
  simp only [registered, List.mem_cons, List.not_mem_nil, or_false] at h
  rcases h with rfl | rfl | rfl
  · obtain rfl := Except.ok.inj hg
    intro f hf
    cases hf
  · simp only [mets, Mets.generate] at hg
    split at hg
    · obtain rfl := Except.ok.inj hg
      intro f hf
      obtain rfl := List.mem_singleton.1 hf
      exact .document _ (Mets.links_manifest s rs)
    · cases hg
  · simp only [nihms, Nihms.generate] at hg
    split at hg
    · cases hg
    · split at hg
      · obtain rfl := Except.ok.inj hg
        intro f hf
        rcases List.mem_pair.1 hf with rfl | rfl
        · exact recordsPaths_fileList rs
        · exact .metadata _
      · cases hg

theorem isText_of_generate_mets {s : Submission} {rs : List Resource} {generated : Generated}
    (hg : Mets.generate s rs = .ok generated) : ∀ r ∈ rs, Xml.isText r.packagePath = true := by
  intro r hr
  unfold Mets.generate at hg
  split at hg
  · rename_i hall
    refine List.all_eq_true.1 hall _ (List.mem_append_right _ (List.mem_flatMap.2 ⟨r, hr, ?_⟩))
    simp
  · cases hg

end Specification

namespace Specification.Nihms

/-- The fields of the lines of a list. What stands behind the last newline is no line. -/
def rows? (bs : Bytes) : Option (List (List String)) :=
  (Text.Utf8.decode bs).toOption.map fun text =>
    (text.toList.splitOn '\n').dropLast.map fun line => (line.splitOn '\t').map String.ofList

/-- A text that can stand in a field of a list. -/
def IsField (s : String) : Prop :=
  '\t' ∉ s.toList ∧ '\n' ∉ s.toList

instance (s : String) : Decidable (IsField s) :=
  inferInstanceAs (Decidable (_ ∧ _))

private theorem isField_of_rows? {bs : Bytes} {rows : List (List String)}
    (h : rows? bs = some rows) :
    ∀ row ∈ rows, ∀ field ∈ row, IsField field := by
  obtain ⟨text, -, rfl⟩ := Option.map_eq_some_iff.1 h
  intro row hrow field hfield
  obtain ⟨line, hline, rfl⟩ := List.mem_map.1 hrow
  obtain ⟨part, hpart, rfl⟩ := List.mem_map.1 hfield
  have hnewline := not_mem_of_mem_splitOn (List.dropLast_subset _ hline)
  rw [IsField, String.toList_ofList]
  exact ⟨not_mem_of_mem_splitOn hpart, fun hmem => hnewline (mem_of_mem_splitOn hpart hmem)⟩

/-- The fields of the line of a file: its role, its label and its path. -/
def row (r : Resource) : List String :=
  [r.role.elim "supplement" Role.value, PackagePath.baseName r.originalName, r.packagePath]

/-- What the line of a file holds before its newline. -/
def lineChars (r : Resource) : List Char :=
  ['\t'].intercalate ((row r).map String.toList)

private theorem toList_line (r : Resource) : (line r).toList = lineChars r ++ ['\n'] := by
  have htab : "\t".toList = ['\t'] := rfl
  have hnewline : "\n".toList = ['\n'] := rfl
  unfold line lineChars row
  cases r.role <;> simp [List.intercalate, List.intersperse, htab, hnewline]

private theorem mem_lineChars {r : Resource} {c : Char} (h : c ∈ lineChars r) :
    c = '\t' ∨ ∃ field ∈ row r, c ∈ field.toList := by
  refine (mem_of_mem_intercalate h).imp_right ?_
  rintro ⟨cs, hcs, hc⟩
  obtain ⟨field, hfield, rfl⟩ := List.mem_map.1 hcs
  exact ⟨field, hfield, hc⟩

private theorem toList_join_line (rs : List Resource) :
    (String.join (rs.map line)).toList =
      (rs.map lineChars).flatMap fun cs => cs ++ ['\n'] := by
  rw [List.flatMap_map]
  simp only [← toList_line]
  induction rs with
  | nil => rfl
  | cons r rs ih => simp [ih]

/-- A reader finds in a list the line of every file with its three fields, in their order, exactly
if none of these fields holds a tab or a newline. -/
theorem rows?_fileList_iff (rs : List Resource) :
    rows? (fileList rs) = some (rs.map row) ↔ ∀ r ∈ rs, ∀ field ∈ row r, IsField field := by
  constructor
  · intro h r hr
    exact isField_of_rows? h (row r) (List.mem_map_of_mem hr)
  · intro h
    have hfields : ∀ r ∈ rs, (lineChars r).splitOn '\t' = (row r).map String.toList := by
      intro r hr
      refine List.splitOn_intercalate '\t' ?_ (by simp [row])
      intro cs hcs
      obtain ⟨field, hfield, rfl⟩ := List.mem_map.1 hcs
      exact (h r hr field hfield).1
    have hlines : ∀ cs ∈ rs.map lineChars, '\n' ∉ cs := by
      intro cs hcs hmem
      obtain ⟨r, hr, rfl⟩ := List.mem_map.1 hcs
      rcases mem_lineChars hmem with htab | ⟨field, hfield, hc⟩
      · exact absurd htab (by decide)
      · exact (h r hr field hfield).2 hc
    have hrows : (rs.map lineChars).map (fun cs => (cs.splitOn '\t').map String.ofList) =
        rs.map row := by
      rw [List.map_map]
      refine List.map_congr_left fun r hr => ?_
      rw [Function.comp_apply, hfields r hr, List.map_map]
      refine (List.map_congr_left fun s _ => ?_).trans (List.map_id _)
      exact String.ofList_toList
    rw [rows?, fileList, Text.Utf8.decode_ofText, Except.toOption, Option.map_some,
      toList_join_line, splitOn_flatMap_append hlines, List.dropLast_concat, hrows]

end Specification.Nihms

end Deposit
