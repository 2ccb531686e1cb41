import Deposit.Proofs.Specification.Generation
import Deposit.Proofs.Xml.Content

set_option autoImplicit false
set_option relaxedAutoImplicit false

/-!
The generated documents as a reader sees them. Whatever the metadata of a submission and the paths
of its package consist of, as long as a document may hold it, the documents are read as the trees
they were made from: every value stands where it was put, and as it was.
-/

namespace Deposit

open Xml (Sound SoundTag isText Scope)
open Xml.Node (elementsAt)

namespace Xml

private theorem isText_append {s t : String} (hs : isText s = true) (ht : isText t = true) :
    isText (s ++ t) = true := by
  rw [isText, String.toList_append, List.all_append]
  exact Bool.and_eq_true_iff.2 ⟨hs, ht⟩

private theorem isText_decimal (n : Nat) : isText (Text.decimal n) = true := by
  have hdigit : ∀ d < 10, isChar d.digitChar = true := by decide
  refine List.all_eq_true.2 fun c hc => ?_
  rw [Text.toList_decimal] at hc
  obtain ⟨d, hd, rfl⟩ := Text.exists_digitChar_of_mem_digits (by decide) hc
  exact hdigit d hd

private theorem isText_decimalInt (n : Int) : isText (Text.decimalInt n) = true := by
  unfold Text.decimalInt
  split
  · exact isText_append (by decide) (isText_decimal _)
  · exact isText_decimal _

end Xml

namespace Specification

namespace Mets

/-- What the manifest declares around its elements. -/
def scope : Scope :=
  [("", metsSpace), ("xlink", linkSpace), ("xsi", schemaSpace)] ++ .outermost

variable {room : Nat}

private theorem sound_element {base : String} {as : List (String × String)}
    {children : List Xml.Node} {names : List String} (hnames : as.map Prod.fst = names)
    (htag : SoundTag scope ⟨"", metsSpace, base⟩ [] (names.map .plain))
    (hvalues : ∀ a ∈ as, isText a.2 = true)
    (hchildren : ∀ c ∈ children, Sound room scope c) :
    Sound (room + 1) scope (element base as children) := by
  have hplain : (as.map fun a => (Xml.Name.plain a.1, a.2)).map Prod.fst = names.map .plain := by
    rw [← hnames, List.map_map, List.map_map]
    rfl
  refine .elements (hplain ▸ htag) ?_ hchildren
  intro a ha
  obtain ⟨b, hb, rfl⟩ := List.mem_map.1 ha
  exact hvalues b hb

private theorem sound_agent : Sound (room + 3) scope agent := by
  refine sound_element rfl (by decide +kernel) (by decide) ?_
  intro c hc
  obtain rfl := List.mem_singleton.1 hc
  refine sound_element rfl (by decide +kernel) (by decide) ?_
  intro c hc
  obtain rfl := List.mem_singleton.1 hc
  exact .text (by decide +kernel) (by decide) (by decide)

/-- The scope inside the metadata, where the fields have a namespace of their own. -/
def fieldScope : Scope :=
  ("dim", dimSpace) :: scope

private theorem sound_fieldElement {f : FieldName × String} (hname : f.1 ∈ fieldNames.map Prod.snd)
    (hvalue : isText f.2 = true) : Sound (room + 1) fieldScope (fieldElement f) := by
  have htexts : ∀ n ∈ fieldNames.map Prod.snd, isText n.schema = true ∧ isText n.element = true ∧
    ∀ q ∈ n.qualifier, isText q = true := by decide
  obtain ⟨hschema, helement, hqualifier⟩ := htexts f.1 hname
  obtain ⟨⟨schema, base, qualifier⟩, text⟩ := f
  cases qualifier with
  | none =>
    have htag : SoundTag fieldScope ⟨"dim", dimSpace, "field"⟩ []
      (["mdschema", "element"].map .plain) := by decide +kernel
    refine .text htag ?_ hvalue
    simpa using ⟨hschema, helement⟩
  | some q =>
    have htag : SoundTag fieldScope ⟨"dim", dimSpace, "field"⟩ []
      (["mdschema", "element", "qualifier"].map .plain) := by decide +kernel
    refine .text htag ?_ hvalue
    simpa using ⟨hschema, helement, hqualifier q rfl⟩

private theorem name_mem_of_mem_fields {s : Submission} {f : FieldName × String}
    (h : f ∈ fields s) :
    f.1 ∈ fieldNames.map Prod.snd := by
  obtain ⟨n, hn, hf⟩ := List.mem_flatMap.1 h
  split at hf
  · obtain ⟨v, -, rfl⟩ := List.mem_map.1 hf
    exact List.mem_map_of_mem hn
  · cases hf

private theorem sound_metadataSection {s : Submission} (h : ∀ f ∈ fields s, isText f.2 = true) :
    Sound (room + 5) scope (metadataSection s) := by
  refine sound_element rfl (by decide +kernel) (by decide) ?_
  intro c hc
  obtain rfl := List.mem_singleton.1 hc
  refine sound_element rfl (by decide +kernel) (by decide) ?_
  intro c hc
  obtain rfl := List.mem_singleton.1 hc
  refine sound_element rfl (by decide +kernel) (by decide) ?_
  intro c hc
  obtain rfl := List.mem_singleton.1 hc
  refine .elements (by decide +kernel) (by decide) ?_
  intro c hc
  obtain ⟨f, hf, rfl⟩ := List.mem_map.1 hc
  exact sound_fieldElement (name_mem_of_mem_fields hf) (h f hf)

private theorem isText_fileId (n : Nat) : isText (fileId n) = true :=
  Xml.isText_append (by decide) (Xml.isText_decimal n)

theorem isText_of_preferredChecksum {r : Resource} {c : String × String}
    (h : preferredChecksum r = some c) : isText c.1 = true := by
  have hnames : ∀ t ∈ checksumTypes, isText t.2 = true := by decide
  obtain ⟨t, ht, hc⟩ := List.exists_of_findSome?_eq_some h
  obtain ⟨digest, -, rfl⟩ := Option.map_eq_some_iff.1 hc
  exact hnames t ht

/-- All that a manifest holds of a file may occur in a document. -/
structure IsWritable (r : Resource) : Prop where
  mediaType : isText r.mediaType = true
  packagePath : isText r.packagePath = true
  checksum : ∀ c ∈ preferredChecksum r, isText c.2 = true

private theorem sound_fileElement {r : Resource} (h : IsWritable r) (n : Nat) :
    Sound (room + 2) scope (fileElement r n) := by
  have hlocation : ∀ c ∈ [Xml.Node.element ⟨"", metsSpace, "FLocat"⟩ []
      [(.plain "LOCTYPE", "URL"), (⟨"xlink", linkSpace, "href"⟩, r.packagePath)] []],
      Sound (room + 1) scope c := by
    intro c hc
    obtain rfl := List.mem_singleton.1 hc
    have htag : SoundTag scope ⟨"", metsSpace, "FLocat"⟩ []
      [.plain "LOCTYPE", ⟨"xlink", linkSpace, "href"⟩] := by decide +kernel
    refine .elements htag ?_ (fun c hc => absurd hc List.not_mem_nil)
    simpa using ⟨by decide, h.packagePath⟩
  unfold fileElement
  cases hchecksum : preferredChecksum r with
  | none =>
    have htag : SoundTag scope ⟨"", metsSpace, "file"⟩ []
      (["ID", "GROUPID", "MIMETYPE", "SIZE"].map .plain) := by decide +kernel
    refine sound_element rfl htag ?_ hlocation
    simpa using ⟨isText_fileId n, h.mediaType, Xml.isText_decimalInt _⟩
  | some c =>
    have htag : SoundTag scope ⟨"", metsSpace, "file"⟩ []
      (["ID", "GROUPID", "MIMETYPE", "SIZE", "CHECKSUMTYPE", "CHECKSUM"].map .plain) := by
      decide +kernel
    refine sound_element rfl htag ?_ hlocation
    simpa using ⟨isText_fileId n, h.mediaType, Xml.isText_decimalInt _,
      isText_of_preferredChecksum hchecksum, h.checksum c hchecksum⟩

private theorem sound_fileSection {rs : List Resource} (h : ∀ r ∈ rs, IsWritable r) :
    Sound (room + 4) scope (fileSection rs) := by
  refine sound_element rfl (by decide +kernel) (by decide) ?_
  intro c hc
  obtain rfl := List.mem_singleton.1 hc
  refine sound_element rfl (by decide +kernel) (by decide) ?_
  intro c hc
  obtain ⟨p, hp, rfl⟩ := List.mem_map.1 hc
  exact sound_fileElement (h p.1 (List.fst_mem_of_mem_zipIdx hp)) p.2

private theorem sound_divElement (r : Resource) (n : Nat) :
    Sound (room + 2) scope (divElement r n) := by
  have hpointer : ∀ c ∈ [element "fptr" [("FILEID", fileId n)] []], Sound (room + 1) scope c := by
    intro c hc
    obtain rfl := List.mem_singleton.1 hc
    have htag : SoundTag scope ⟨"", metsSpace, "fptr"⟩ [] (["FILEID"].map .plain) := by
      decide +kernel
    refine sound_element rfl htag ?_ (fun c hc => absurd hc List.not_mem_nil)
    simpa using isText_fileId n
  have hid : isText (stem ++ "-div-" ++ Text.decimal (n + 1)) = true :=
    Xml.isText_append (by decide) (Xml.isText_decimal _)
  unfold divElement
  cases r.role with
  | none =>
    have htag : SoundTag scope ⟨"", metsSpace, "div"⟩ [] (["ID", "TYPE"].map .plain) := by
      decide +kernel
    refine sound_element rfl htag ?_ hpointer
    simpa using ⟨hid, by decide⟩
  | some role =>
    have hrole : isText role.value = true := by cases role <;> decide
    have htag : SoundTag scope ⟨"", metsSpace, "div"⟩ [] (["ID", "TYPE", "LABEL"].map .plain) := by
      decide +kernel
    refine sound_element rfl htag ?_ hpointer
    simpa using ⟨hid, by decide, hrole⟩

private theorem sound_structureSection (rs : List Resource) :
    Sound (room + 4) scope (structureSection rs) := by
  refine sound_element rfl (by decide +kernel) (by decide) ?_
  intro c hc
  obtain rfl := List.mem_singleton.1 hc
  refine sound_element rfl (by decide +kernel) (by decide) ?_
  intro c hc
  obtain ⟨p, -, rfl⟩ := List.mem_map.1 hc
  exact sound_divElement p.1 p.2

private theorem isWritable_of_mem {s : Submission} {rs : List Resource}
    (h : (foreignTexts s rs).all isText = true) : ∀ r ∈ rs, IsWritable r := by
  intro r hr
  have hmem : ∀ text ∈ [r.mediaType, r.packagePath] ++ ((preferredChecksum r).map Prod.snd).toList,
      isText text = true := by
    intro text ht
    exact List.all_eq_true.1 h text
      (List.mem_append_right _ (List.mem_flatMap.2 ⟨r, hr, ht⟩))
  refine ⟨hmem _ (by simp), hmem _ (by simp), fun c hc => hmem _ ?_⟩
  simp [Option.mem_def.1 hc]

theorem sound_manifest (room : Nat) {s : Submission} {rs : List Resource}
    (h : (foreignTexts s rs).all isText = true) :
    Sound (room + 6) .outermost (manifest s rs) := by
  have hfields : ∀ f ∈ fields s, isText f.2 = true := fun f hf =>
    List.all_eq_true.1 h f.2 (List.mem_append_left _ (List.mem_map_of_mem hf))
  refine .elements (by decide +kernel) (by decide) ?_
  intro c hc
  simp only [List.mem_cons, List.not_mem_nil, or_false] at hc
  rcases hc with rfl | rfl | rfl | rfl
  · exact sound_agent
  · exact sound_metadataSection hfields
  · exact sound_fileSection (isWritable_of_mem h)
  · exact sound_structureSection rs

/-- Where the metadata fields of a manifest stand. -/
def fieldPath : List (String × String) :=
  [(metsSpace, "dmdSec"), (metsSpace, "mdWrap"), (metsSpace, "xmlData"), (dimSpace, "dim"),
   (dimSpace, "field")]

/-- Where the files of a manifest stand. -/
def filePath : List (String × String) :=
  [(metsSpace, "fileSec"), (metsSpace, "fileGrp"), (metsSpace, "file")]

/-- What a manifest says about a file. -/
structure FileRecord where
  id : Option String
  paths : List String
  size : Option String
  mediaType : Option String
  checksumType : Option String
  checksum : Option String
deriving DecidableEq

/-- What an element of the file section says. -/
def FileRecord.ofElement (n : Xml.Node) : FileRecord where
  id := n.attribute? "ID"
  paths := links n
  size := n.attribute? "SIZE"
  mediaType := n.attribute? "MIMETYPE"
  checksumType := n.attribute? "CHECKSUMTYPE"
  checksum := n.attribute? "CHECKSUM"

/-- What is to be said about the file of a given number. -/
def FileRecord.ofResource (r : Resource) (n : Nat) : FileRecord where
  id := some (fileId n)
  paths := [r.packagePath]
  size := some (Text.decimalInt r.sizeBytes)
  mediaType := some r.mediaType
  checksumType := (preferredChecksum r).map Prod.fst
  checksum := (preferredChecksum r).map Prod.snd

/-- What an element says about a field: its name and its text. -/
def fieldOfElement (n : Xml.Node) : Option String × Option String × Option String × String :=
  (n.attribute? "mdschema", n.attribute? "element", n.attribute? "qualifier", n.ownText)

theorem attribute?_onLines (n : Xml.Node) (level : Nat) (base : String) :
    (n.onLines level).attribute? base = n.attribute? base := by
  rw [Xml.Node.attribute?, Xml.Node.attribute?, Xml.Node.attributes_onLines]

private theorem ofElement_fileElement {r : Resource} (h : IsWritable r) (n level : Nat) :
    FileRecord.ofElement ((fileElement r n).onLines level) = .ofResource r n := by
  have hsound : Sound 2 scope (fileElement r n) := sound_fileElement h n
  have hlinks : links ((fileElement r n).onLines level) = [r.packagePath] := by
    rw [links, hsound.valuesIn_onLines]
    exact links_fileElement r n
  unfold FileRecord.ofElement FileRecord.ofResource
  simp only [attribute?_onLines, hlinks]
  unfold fileElement
  cases preferredChecksum r <;> rfl

private theorem fieldOfElement_fieldElement (f : FieldName × String) (level : Nat) :
    fieldOfElement ((fieldElement f).onLines level) =
      (some f.1.schema, some f.1.element, f.1.qualifier, f.2) := by
  obtain ⟨⟨schema, base, qualifier⟩, text⟩ := f
  unfold fieldOfElement
  simp only [attribute?_onLines]
  rw [fieldElement, Xml.Node.ownText_onLines]
  cases qualifier <;> rfl

theorem childElements_map {α : Type} {as : List α} {f : α → Xml.Node} {space base : String}
    (h : ∀ a ∈ as, (f a).isElement space base = true) (name : Xml.Name)
    (declared : List (String × String)) (attributes : List (Xml.Name × String)) :
    (Xml.Node.element name declared attributes (as.map f)).childElements space base = as.map f := by
  refine List.filter_eq_self.2 fun n hn => ?_
  obtain ⟨a, ha, rfl⟩ := List.mem_map.1 hn
  exact h a ha

theorem elementsAt_fieldPath (s : Submission) (rs : List Resource) :
    elementsAt fieldPath (manifest s rs) = (fields s).map fieldElement := by
  have hdim : elementsAt [(metsSpace, "dmdSec"), (metsSpace, "mdWrap"), (metsSpace, "xmlData"),
      (dimSpace, "dim")] (manifest s rs) = [.element ⟨"dim", dimSpace, "dim"⟩ [("dim", dimSpace)] []
        ((fields s).map fieldElement)] := rfl
  refine (Xml.Node.elementsAt_append_singleton hdim (dimSpace, "field")).trans ?_
  exact childElements_map (fun f _ => rfl) _ _ _

theorem elementsAt_filePath (s : Submission) (rs : List Resource) :
    elementsAt filePath (manifest s rs) = (rs.zipIdx 1).map fun p => fileElement p.1 p.2 := by
  have hgroup : elementsAt [(metsSpace, "fileSec"), (metsSpace, "fileGrp")] (manifest s rs) =
      [element "fileGrp" [("ID", stem ++ "-fgrp-1"), ("USE", "CONTENT")]
        ((rs.zipIdx 1).map fun p => fileElement p.1 p.2)] := rfl
  refine (Xml.Node.elementsAt_append_singleton hgroup (metsSpace, "file")).trans ?_
  exact childElements_map (fun p _ => rfl) _ _ _

variable {s : Submission} {rs : List Resource}

theorem read_manifest (h : (foreignTexts s rs).all isText = true) :
    Xml.read (Bytes.ofText (Xml.document (manifest s rs))) = some ((manifest s rs).onLines 0) :=
  Xml.read_document (sound_manifest (Xml.depthLimit + 1 - 6) h)

theorem files_onLines (h : (foreignTexts s rs).all isText = true) :
    (elementsAt filePath ((manifest s rs).onLines 0)).map FileRecord.ofElement =
      (rs.zipIdx 1).map fun p => .ofResource p.1 p.2 := by
  rw [Xml.Node.elementsAt_onLines, elementsAt_filePath, List.map_map, List.map_map]
  refine List.map_congr_left fun p hp => ?_
  exact ofElement_fileElement (isWritable_of_mem h p.1 (List.fst_mem_of_mem_zipIdx hp)) p.2 _

theorem fields_onLines (s : Submission) (rs : List Resource) :
    (elementsAt fieldPath ((manifest s rs).onLines 0)).map fieldOfElement =
      (fields s).map fun f => (some f.1.schema, some f.1.element, f.1.qualifier, f.2) := by
  rw [Xml.Node.elementsAt_onLines, elementsAt_fieldPath, List.map_map, List.map_map]
  exact List.map_congr_left fun f _ => fieldOfElement_fieldElement f _

end Mets

namespace Nihms

variable {room : Nat}

private theorem sound_textElement {name value : String}
    (htag : SoundTag .outermost (.plain name) [] []) (hvalue : isText value = true) :
    Sound (room + 1) .outermost (textElement name value) :=
  .text htag (fun _ ha => absurd ha List.not_mem_nil) hvalue

private theorem sound_of_mem_valueElement {s : Submission} {key name : String}
    (htag : SoundTag .outermost (.plain name) [] [])
    (hvalue : ∀ v ∈ s.value? key, isText v = true) :
    ∀ c ∈ valueElement s key name, Sound (room + 1) .outermost c := by
  intro c hc
  obtain ⟨v, hv, rfl⟩ := List.mem_map.1 hc
  exact sound_textElement htag (hvalue v (Option.mem_toList.1 hv))

private theorem sound_metadataTree (room : Nat) {s : Submission} {title : String}
    (h : (foreignTexts s title).all isText = true) :
    Sound (room + 3) .outermost (metadataTree s title) := by
  have htext : ∀ text ∈ foreignTexts s title, isText text = true := List.all_eq_true.1 h
  have hvalue : ∀ key ∈ ["journal", "issn", "doi"], ∀ v ∈ s.value? key, isText v = true := by
    intro key hkey v hv
    exact htext v (List.mem_cons_of_mem _ (List.mem_flatMap.2 ⟨key, hkey, Option.mem_toList.2 hv⟩))
  have hjournal : ∀ c ∈ valueElement s "journal" "journal-title" ++ valueElement s "issn" "issn",
      Sound (room + 1) .outermost c := by
    intro c hc
    rcases List.mem_append.1 hc with hc | hc
    · exact sound_of_mem_valueElement (by decide +kernel) (hvalue _ (by simp)) c hc
    · exact sound_of_mem_valueElement (by decide +kernel) (hvalue _ (by simp)) c hc
  refine .elements (by decide +kernel) (fun a ha => absurd ha List.not_mem_nil) ?_
  intro c hc
  rcases List.mem_cons.1 hc with rfl | hc
  · exact sound_textElement (by decide +kernel) (htext title List.mem_cons_self)
  rcases List.mem_append.1 hc with hc | hc
  · split at hc
    · cases hc
    · obtain rfl := List.mem_singleton.1 hc
      exact .elements (by decide +kernel) (fun a ha => absurd ha List.not_mem_nil) hjournal
  · exact sound_of_mem_valueElement (by decide +kernel) (hvalue _ (by simp)) c hc

/-- A path of names without a namespace. -/
def plainPath (path : List String) : List (String × String) :=
  path.map fun base => ("", base)

/-- The texts of the elements that a path leads to. -/
def textsAt (path : List String) (n : Xml.Node) : List String :=
  (elementsAt (plainPath path) n).map Xml.Node.ownText

variable {s : Submission} {title : String}

private theorem read_metadataTree (h : (foreignTexts s title).all isText = true) :
    Xml.read (Bytes.ofText (Xml.document (metadataTree s title))) =
      some ((metadataTree s title).onLines 0) :=
  Xml.read_document (sound_metadataTree (Xml.depthLimit + 1 - 3) h)

private theorem textsAt_onLines {path : List String} {n : Xml.Node} {name : String}
    {texts : List String} (h : elementsAt (plainPath path) n = texts.map (textElement name))
    (level : Nat) : textsAt path (n.onLines level) = texts := by
  rw [textsAt, Xml.Node.elementsAt_onLines, h, List.map_map, List.map_map]
  refine (List.map_congr_left fun v _ => ?_).trans (List.map_id texts)
  exact Xml.Node.ownText_onLines _ _ _ v _

private theorem elementsAt_metadataTree (s : Submission) (title : String) :
    elementsAt (plainPath ["title"]) (metadataTree s title) =
      [title].map (textElement "title") ∧
    elementsAt (plainPath ["journal-meta", "journal-title"]) (metadataTree s title) =
      (s.value? "journal").toList.map (textElement "journal-title") ∧
    elementsAt (plainPath ["journal-meta", "issn"]) (metadataTree s title) =
      (s.value? "issn").toList.map (textElement "issn") ∧
    elementsAt (plainPath ["doi"]) (metadataTree s title) =
      (s.value? "doi").toList.map (textElement "doi") := by
  unfold metadataTree valueElement
  cases s.value? "journal" <;> cases s.value? "issn" <;> cases s.value? "doi" <;>
    exact ⟨rfl, rfl, rfl, rfl⟩

end Nihms

/-- Where the metadata values and the paths of the package are texts that a document may hold, the
documents of the registered specifications are generated, and a reader finds in each of them the
tree that it was made from, apart from the blanks between elements: in the manifest every file with
its path, size, type and checksum and every field with its text, and in the metadata of the
manuscript the title and, where they are not empty, the name of the journal, its number and the
identifier, all as they are. -/
theorem documents_read_back {s : Submission} {rs : List Resource} (hrs : ∀ r ∈ rs, r.IsMeasured)
    (h : ¬ HasUnsuitable s (rs.map Resource.packagePath)) :
    (∃ bytes doc,
      Mets.generate s rs = .ok
        { files := [(Mets.manifestPath, bytes)]
          notices := ["Built METS for submission " ++ s.id] } ∧
      Xml.read bytes = some doc ∧
      doc.bare = (Mets.manifest s rs).bare ∧
      (elementsAt Mets.filePath doc).map Mets.FileRecord.ofElement =
        (rs.zipIdx 1).map (fun p => .ofResource p.1 p.2) ∧
      (elementsAt Mets.fieldPath doc).map Mets.fieldOfElement =
        (Mets.fields s).map fun f => (some f.1.schema, some f.1.element, f.1.qualifier, f.2)) ∧
    ∀ title, s.metadata.lookup "title" = some title →
      ∃ bytes doc,
        Nihms.generate s rs = .ok
          { files := [(Nihms.listPath, Nihms.fileList rs), (Nihms.metadataPath, bytes)] } ∧
        Xml.read bytes = some doc ∧
        doc.bare = (Nihms.metadataTree s title).bare ∧
        Nihms.textsAt ["title"] doc = [title] ∧
        Nihms.textsAt ["journal-meta", "journal-title"] doc = (s.value? "journal").toList ∧
        Nihms.textsAt ["journal-meta", "issn"] doc = (s.value? "issn").toList ∧
        Nihms.textsAt ["doi"] doc = (s.value? "doi").toList := by
  constructor
  · have htexts : (Mets.foreignTexts s rs).all isText = true :=
      List.all_eq_true.2 fun text ht => Mets.isText_of_mem_foreignTexts hrs h ht
    refine ⟨_, _, ?_, Mets.read_manifest htexts, ?_, Mets.files_onLines htexts,
      Mets.fields_onLines s rs⟩
    · rw [Mets.generate, if_pos htexts]
    · exact (Mets.sound_manifest 0 htexts).bare_onLines 0
  · intro title htitle
    have htexts : (Nihms.foreignTexts s title).all isText = true :=
      List.all_eq_true.2 fun text ht => Nihms.isText_of_mem_foreignTexts htitle h ht
    obtain ⟨htitles, hjournals, hissns, hdois⟩ := Nihms.elementsAt_metadataTree s title
    refine ⟨_, _, ?_, Nihms.read_metadataTree htexts, ?_, Nihms.textsAt_onLines htitles 0,
      Nihms.textsAt_onLines hjournals 0, Nihms.textsAt_onLines hissns 0,
      Nihms.textsAt_onLines hdois 0⟩
    · simp only [Nihms.generate, htitle]
      rw [if_pos htexts]
    · exact (Nihms.sound_metadataTree 0 htexts).bare_onLines 0

/-- A manuscript with markup, quotation marks and blanks in its metadata. -/
def thornyManuscript : Submission where
  id := "thorny"
  files := []
  metadata := [("title", " </title>&lt;\t\"A\"\r\n"), ("journal", "Q & A"), ("doi", "")]

/-- A file with markup and quotation marks in its path. -/
def thornyFile : Resource where
  originalName := "<a href=\"b\">\n&.txt"
  packagePath := "<a href=\"b\">\n&.txt"
  role := some .manuscript
  sizeBytes := 6
  checksums := []
  mediaType := MediaType.ofPath "<a href=\"b\">\n&.txt"

theorem thorny_read_back :
    (∀ r ∈ [thornyFile], r.IsMeasured) ∧
    ¬ HasUnsuitable thornyManuscript ([thornyFile].map Resource.packagePath) ∧
    (∃ bytes doc,
      (Mets.generate thornyManuscript [thornyFile]).map Generated.files =
        .ok [(Mets.manifestPath, bytes)] ∧
      Xml.read bytes = some doc ∧
      ((elementsAt Mets.filePath doc).map fun n => (Mets.FileRecord.ofElement n).paths) =
        [["<a href=\"b\">\n&.txt"]] ∧
      ((elementsAt Mets.fieldPath doc).map fun n => n.ownText) =
        ["</title>&lt;\t\"A\"", "Q & A"]) ∧
    ∃ bytes doc,
      (Nihms.generate thornyManuscript [thornyFile]).map Generated.files =
        .ok [(Nihms.listPath, Nihms.fileList [thornyFile]), (Nihms.metadataPath, bytes)] ∧
      Xml.read bytes = some doc ∧
      Nihms.textsAt ["title"] doc = [" </title>&lt;\t\"A\"\r\n"] ∧
      Nihms.textsAt ["journal-meta", "journal-title"] doc = ["Q & A"] ∧
      Nihms.textsAt ["doi"] doc = [] := by
  have hrs : ∀ r ∈ [thornyFile], r.IsMeasured := by
    intro r hr
    obtain rfl := List.mem_singleton.1 hr
    exact ⟨rfl, ⟨[], 0⟩, rfl⟩
  have hsuits : ¬ HasUnsuitable thornyManuscript ([thornyFile].map Resource.packagePath) := by
    unfold HasUnsuitable
    decide +kernel
  obtain ⟨⟨bytes, doc, hgenerate, hread, -, hfiles, hfields⟩, hmanuscript⟩ :=
    documents_read_back hrs hsuits
  obtain ⟨bytes', doc', hgenerate', hread', -, htitle, hjournal, -, hdoi⟩ := hmanuscript _ rfl
  refine ⟨hrs, hsuits, ⟨bytes, doc, ?_, hread, ?_, ?_⟩, bytes', doc', ?_, hread', htitle, hjournal,
    hdoi⟩
  · rw [hgenerate]
    rfl
  · have hpaths := congrArg (List.map Mets.FileRecord.paths) hfiles
    rw [List.map_map] at hpaths
    exact hpaths
  · have htexts := congrArg (List.map fun f => f.2.2.2) hfields
    rw [List.map_map] at htexts
    refine htexts.trans ?_
    decide +kernel
  · rw [hgenerate']
    rfl

end Specification

end Deposit
