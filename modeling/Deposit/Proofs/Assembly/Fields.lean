import Deposit.Proofs.Assembly.Manifest
import Deposit.Proofs.Specification.Fields

set_option autoImplicit false
set_option relaxedAutoImplicit false

/-!
The metadata fields of a package with a METS manifest. Whether a value is there is asked before it
is split and trimmed, so what is there may come to nothing as a field. Main statement: a submission
without a title is refused, a package has one field for the title, and its fields all have a text
exactly if no value that becomes a field, and no part of the authors, is made of blanks.
-/

namespace Deposit

open Xml.Node (elementsAt)

namespace Specification.Mets

variable {s : Submission} {doc : Xml.Node}

/-- The field of the title. -/
def titleField : FieldName :=
  ⟨"dc", "title", none⟩

/-- Whether some value that becomes a field, or some part of one, is there but has nothing except
blanks. -/
def HasBlank (s : Submission) : Prop :=
  ∃ key ∈ fieldKeys, ∃ value, s.value? key = some value ∧
    ∃ part ∈ parts key value, ∀ c ∈ part, Text.isBlank c = true

private theorem mem_texts_iff {key text : String} :
    text ∈ texts s key ↔ ∃ value, s.value? key = some value ∧
      ∃ part ∈ parts key value, Text.trim (String.ofList part) = text := by
  unfold texts
  cases s.value? key with
  | none => simp
  | some value =>
    rw [Option.map_some, Option.getD_some, valuesOf_eq, List.mem_map]
    simp

private theorem hasBlank_iff : HasBlank s ↔ "" ∈ (fields s).map Prod.snd := by
  have hflat : (fields s).map Prod.snd = fieldNames.flatMap fun f => texts s f.1 := by
    rw [fields_eq, List.map_flatMap]
    refine List.flatMap_congr fun f _ => ?_
    rw [List.map_map]
    exact List.map_id _
  rw [hflat, List.mem_flatMap, HasBlank, fieldKeys]
  simp only [mem_texts_iff, Text.trim_ofList_eq_empty_iff, List.mem_map, exists_exists_and_eq_and]

instance : Decidable (HasBlank s) :=
  decidable_of_iff _ hasBlank_iff.symm

private theorem HasFields.ownText_ne_empty_iff (h : HasFields s doc) :
    (∀ field ∈ elementsAt fieldPath doc, field.ownText ≠ "") ↔ ¬ HasBlank s := by
  have htexts : (elementsAt fieldPath doc).map Xml.Node.ownText = (fields s).map Prod.snd := by
    have htexts := congrArg (List.map fun f => f.2.2.2) h
    rwa [List.map_map, List.map_map] at htexts
  rw [hasBlank_iff, ← htexts, List.mem_map, not_exists]
  exact forall_congr' fun field => not_and.symm

private theorem HasFields.title_eq (h : HasFields s doc) {title : String}
    (htitle : s.value? "title" = some title) : fieldTexts titleField doc = [Text.trim title] := by
  have hname : ("title", titleField) ∈ fieldNames := by decide
  rw [h.fieldTexts_eq hname, texts, htitle]
  rfl

end Specification.Mets

namespace Assembler

open Specification (Mets.HasFields Mets.HasBlank Mets.fieldPath Mets.fieldTexts Mets.titleField
  Mets.authorField Mets.manifestPath Mets.manifest Mets.foreignTexts)

variable {a : Assembler} {s : Submission} {p : PackageStream} {before after : Surroundings}
  {decompress : Bytes → Option Bytes}

/-- Whether a document is the manifest that a package is delivered with: the package opens to an
archive whose last entry, under the path of the manifest, is read as the document. A tar archive has
this entry at its place, but a reader finds it there only if no negative size misleads it. -/
def Delivers (a : Assembler) (s : Submission) (decompress : Bytes → Option Bytes)
    (p : PackageStream) (after : Surroundings) (doc : Xml.Node) : Prop :=
  ∃ (bytes archived manifest : Bytes) (contents : List (String × Bytes)),
    (p.open : StateM Surroundings _).run after = (.ok (.start bytes), after) ∧
    decompress bytes = some archived ∧
    (a.archive = .tar → ∃ body k, archived = body ++ Bytes.zeros k ∧
      Archive.Tar.Laid (contents ++ [(Mets.manifestPath, manifest)]) body) ∧
    ((a.archive = .tar → SizesNonneg s) → ∃ entries, Archive.read? a.archive archived =
      some (entries ++ [(some Mets.manifestPath, manifest)])) ∧
    Xml.read manifest = some doc

theorem delivers_manifest (hspec : a.specification = Specification.mets)
    (h : (a.assemble s : StateM Surroundings _).run before = (.ok p, after))
    (hdecompress : ∀ bs, decompress (a.compression.encode bs) = some bs) :
    (Mets.foreignTexts s (p.resources.take s.files.length)).all Xml.isText = true ∧
      a.Delivers s decompress p after
        ((Mets.manifest s (p.resources.take s.files.length)).onLines 0) := by
  obtain ⟨placed, directory, name, sink, hrefusal, hplaced, hbuilt⟩ := built_of_run h
  obtain ⟨archived, sources, generated, hdecoded, hopened, hgenerate, -, -, hlaid, hread⟩ :=
    hbuilt.carries hrefusal hplaced hdecompress
  rw [hspec] at hgenerate
  obtain ⟨htexts, hfiles⟩ := Specification.Mets.generate_eq_ok hgenerate
  rw [hfiles] at hlaid hread
  refine ⟨htexts, sink.output, archived, _, _, hbuilt.run_open, hdecoded, hlaid, fun hsizes => ?_,
    Specification.Mets.read_manifest htexts⟩
  have harchive : a.archive ≠ .none := by
    have hfirst := map_fst_zip_opened hplaced hopened
    have hpos : 0 < s.files.length := List.length_pos_iff.2 (files_ne_nil_of_refusal hrefusal)
    refine Archive.ne_none_of_read? (hread hsizes) ?_
    rw [List.length_map, List.length_append, ← List.length_map (f := Prod.fst), hfirst,
      List.length_map, length_placed hplaced, List.length_singleton]
    omega
  have hname : Archive.storedName? a.archive Mets.manifestPath = some Mets.manifestPath :=
    (Archive.storedName?_eq_some_iff harchive).2 (Or.inl (by decide))
  have hentries := hread hsizes
  simp only [List.map_append, List.map_singleton, hname] at hentries
  exact ⟨_, hentries⟩

private theorem delivers_fields (hspec : a.specification = Specification.mets)
    (h : (a.assemble s : StateM Surroundings _).run before = (.ok p, after))
    (hdecompress : ∀ bs, decompress (a.compression.encode bs) = some bs) :
    ∃ doc, a.Delivers s decompress p after doc ∧ Mets.HasFields s doc :=
  ⟨_, (delivers_manifest hspec h hdecompress).2, Specification.Mets.fields_onLines s _⟩

/-- A submission with files but without a title, or with an empty one, is refused with an error that
says so. Every other one that is assembled is delivered with a manifest that has the fields of its
metadata, among them one for the title, which has the trimmed title as its text. Every field has a
text exactly if no value, and no part of the authors, has nothing but blanks: empty values become no
field, but blank ones become a field without a text. -/
theorem fields_in_package (hspec : a.specification = Specification.mets)
    (before : Surroundings) :
    (s.files ≠ [] → s.value? "title" = none →
      (a.assemble s : StateM Surroundings _).run before =
        (.error (.error (.missingMetadata s.id ["title"])), before)) ∧
    ∀ (p : PackageStream) (after : Surroundings) (decompress : Bytes → Option Bytes),
      (a.assemble s : StateM Surroundings _).run before = (.ok p, after) →
      (∀ bs, decompress (a.compression.encode bs) = some bs) →
        ∃ doc title, a.Delivers s decompress p after doc ∧ Mets.HasFields s doc ∧
          s.value? "title" = some title ∧
          Mets.fieldTexts Mets.titleField doc = [Text.trim title] ∧
          ((∀ field ∈ elementsAt Mets.fieldPath doc, field.ownText ≠ "") ↔ ¬ Mets.HasBlank s) := by
  constructor
  · intro hfiles htitle
    have hmissing : a.missing s = ["title"] := by
      rw [missing, hspec, show Specification.mets.required = ["title"] from rfl,
        List.filter_singleton, htitle]
      rfl
    have hrefusal : a.refusal? s = some (.missingMetadata s.id ["title"]) := by
      rw [refusal?, if_neg (by simpa using hfiles), hmissing]
    rw [assemble_of_refusal hrefusal]
    rfl
  · intro p after decompress h hdecompress
    obtain ⟨doc, hdelivers, hfields⟩ := delivers_fields hspec h hdecompress
    obtain ⟨placed, directory, name, sink, hrefusal, -⟩ := built_of_run h
    have hrequired : "title" ∈ a.specification.required := by
      rw [hspec]
      exact List.mem_singleton.2 rfl
    obtain ⟨title, htitle⟩ :=
      Option.ne_none_iff_exists'.1 (value?_ne_none_of_refusal hrefusal "title" hrequired)
    exact ⟨doc, title, hdelivers, hfields, htitle, hfields.title_eq htitle,
      hfields.ownText_ne_empty_iff⟩

theorem fields_of_thesis :
    (∃ p after doc,
      (thesisAssembler.assemble thesis : StateM Surroundings _).run emptyDesk = (.ok p, after) ∧
      thesisAssembler.Delivers thesis Codec.Gzip.decode p after doc ∧
      Mets.fieldTexts Mets.titleField doc = ["A <thesis>"] ∧
      ∀ field ∈ elementsAt Mets.fieldPath doc, field.ownText ≠ "") ∧
    (thesisAssembler.assemble { thesis with metadata := [("title", "")] } :
      StateM Surroundings _).run emptyDesk =
        (.error (.error (.missingMetadata "thesis" ["title"])), emptyDesk) := by
  constructor
  · obtain ⟨p, after, hrun⟩ := assemble_thesis
    obtain ⟨doc, title, hdelivers, -, htitle, hfield, htexts⟩ :=
      (fields_in_package rfl emptyDesk).2 p after Codec.Gzip.decode hrun Codec.Gzip.decode_encode
    obtain rfl : "A <thesis>" = title := Option.some.inj htitle
    have htrimmed : Text.trim "A <thesis>" = "A <thesis>" := by decide +kernel
    exact ⟨p, after, doc, hrun, hdelivers, hfield.trans (congrArg (fun text => [text]) htrimmed),
      htexts.2 (by decide +kernel)⟩
  · exact (fields_in_package rfl emptyDesk).1 (List.cons_ne_nil _ _) (by decide)

/-- The thesis with a title of nothing but a blank, and with a semicolon too many behind its
author. -/
def blankThesis : Submission :=
  { thesis with metadata := [("title", " "), ("authors", "A; ")] }

/-- Blanks are delivered as fields without a text: the title is not found missing, and what stands
behind the last semicolon is taken for an author. -/
theorem blankThesis_has_empty_fields :
    SizesNonneg blankThesis ∧ ∃ p after doc,
      (thesisAssembler.assemble blankThesis : StateM Surroundings _).run emptyDesk =
        (.ok p, after) ∧
      thesisAssembler.Delivers blankThesis Codec.Gzip.decode p after doc ∧
      Mets.fieldTexts Mets.titleField doc = [""] ∧
      Mets.fieldTexts Mets.authorField doc = ["A", ""] := by
  have hsuits : ¬ Specification.HasUnsuitable blankThesis
      (thesisWritten.resources.map Resource.packagePath) := by
    unfold Specification.HasUnsuitable
    decide +kernel
  obtain ⟨p, after, hrun⟩ := assemble_retitled (by decide +kernel) hsuits (by decide +kernel)
  obtain ⟨doc, hdelivers, hfields⟩ := delivers_fields rfl hrun Codec.Gzip.decode_encode
  have hauthors : ("authors", Mets.authorField) ∈ Specification.Mets.fieldNames := by decide
  have htexts : Specification.Mets.texts blankThesis "authors" = ["A", ""] := by decide +kernel
  have htitle : Text.trim " " = "" := by decide
  refine ⟨by decide, p, after, doc, hrun, hdelivers, ?_, ?_⟩
  · exact (hfields.title_eq (by decide)).trans (congrArg (fun text => [text]) htitle)
  · exact (hfields.fieldTexts_eq hauthors).trans htexts

end Assembler

end Deposit
