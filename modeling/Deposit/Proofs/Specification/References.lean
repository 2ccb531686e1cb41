import Mathlib.Data.List.Nodup
import Deposit.Proofs.Specification.ReadBack
import Deposit.Proofs.Text.Folding

set_option autoImplicit false
set_option relaxedAutoImplicit false

/-!
The references inside a METS manifest. Every element that can be referred to has an identifier of
its own, made of a kind and a number; the files are numbered in their order, and the logical
structure refers to them by these numbers.
-/

namespace Deposit.Specification.Mets

open Xml.Node (elementsAt valuesIn valuesInAll valuesInAll_eq_flatMap)

/-- The kinds of numbered identifiers. -/
def idKinds : List String :=
  ["-dmd-", "-fgrp-", "-file-", "-struct-", "-div-"]

/-- The identifier of a kind with a number. -/
def numberedId (id : String × Nat) : String :=
  stem ++ id.1 ++ Text.decimal id.2

private theorem numberedId_inj {a b : String × Nat} (ha : a.1 ∈ idKinds) (hb : b.1 ∈ idKinds)
    (h : numberedId a = numberedId b) : a = b := by
  have hkinds : ∀ k ∈ idKinds, ∀ l ∈ idKinds, k.toList.take 3 = l.toList.take 3 → k = l := by
    decide
  have hlong : ∀ k ∈ idKinds, 3 ≤ k.toList.length := by decide
  have hchars := congrArg String.toList h
  simp only [numberedId, String.toList_append, List.append_assoc] at hchars
  have hbehind := List.append_cancel_left hchars
  have hkind : a.1 = b.1 := by
    refine hkinds _ ha _ hb ?_
    have htake := congrArg (List.take 3) hbehind
    rwa [List.take_append_of_le_length (hlong _ ha),
      List.take_append_of_le_length (hlong _ hb)] at htake
  rw [hkind] at hbehind
  have hnumber : a.2 = b.2 := by
    have hdigits := List.append_cancel_left hbehind
    rw [Text.decimal, Text.decimal, String.toList_ofList, String.toList_ofList] at hdigits
    exact Text.toDigits_injective hdigits
  exact Prod.ext hkind hnumber

/-- The identifiers in a tree. -/
def ids (n : Xml.Node) : List String :=
  valuesIn "" "ID" n

private theorem ids_element (base : String) (as : List (String × String))
    (children : List Xml.Node) :
    ids (element base as children) =
      (as.filter fun a => a.1 = "ID").map Prod.snd ++ children.flatMap ids := by
  have hown : ((as.map fun a => (Xml.Name.plain a.1, a.2)).filter
      fun a => a.1.space = "" ∧ a.1.base = "ID").map Prod.snd =
        (as.filter fun a => a.1 = "ID").map Prod.snd := by
    rw [List.filter_map, List.map_map]
    simp [Xml.Name.plain, Function.comp_def]
  rw [ids, element, valuesIn, hown, valuesInAll_eq_flatMap]
  rfl

private theorem ids_fieldElement (f : FieldName × String) : ids (fieldElement f) = [] := by
  obtain ⟨⟨schema, name, qualifier⟩, text⟩ := f
  cases qualifier <;> simp [ids, fieldElement, valuesIn, valuesInAll, Xml.Name.plain]

private theorem ids_metadataSection (s : Submission) :
    ids (metadataSection s) = [stem ++ "-dmd-1"] := by
  have hfields : ((fields s).map fieldElement).flatMap ids = [] := by
    rw [List.flatMap_map]
    exact List.flatMap_eq_nil_iff.2 fun f _ => ids_fieldElement f
  have hdim : ids (.element ⟨"dim", dimSpace, "dim"⟩ [("dim", dimSpace)] []
      ((fields s).map fieldElement)) = [] := by
    rw [ids, valuesIn, valuesInAll_eq_flatMap]
    exact hfields
  simp [metadataSection, ids_element, hdim]

private theorem ids_fileElement (r : Resource) (n : Nat) : ids (fileElement r n) = [fileId n] := by
  rw [fileElement, ids_element]
  cases preferredChecksum r <;> simp [ids, valuesIn, valuesInAll, Xml.Name.plain]

private theorem ids_divElement (r : Resource) (n : Nat) :
    ids (divElement r n) = [stem ++ "-div-" ++ Text.decimal (n + 1)] := by
  rw [divElement, ids_element]
  cases r.role <;> simp [ids_element]

private theorem map_zipIdx_snd {α β : Type} (as : List α) (f : Nat → β) :
    (as.zipIdx 1).map (fun p => f p.2) = (List.range' 1 as.length).map f := by
  rw [← List.zipIdx_map_snd 1 as, List.map_map]
  rfl

private theorem ids_fileSection (rs : List Resource) :
    ids (fileSection rs) =
      (stem ++ "-fgrp-1") :: (List.range' 1 rs.length).map fileId := by
  have hfiles : ((rs.zipIdx 1).map fun p => fileElement p.1 p.2).flatMap ids =
      (List.range' 1 rs.length).map fileId := by
    rw [List.flatMap_map]
    simp only [ids_fileElement]
    rw [← List.map_eq_flatMap]
    exact map_zipIdx_snd rs fileId
  simp [fileSection, ids_element, hfiles]

private theorem ids_structureSection (rs : List Resource) :
    ids (structureSection rs) = (stem ++ "-struct-1") :: (stem ++ "-div-1") ::
      (List.range' 1 rs.length).map fun n => stem ++ "-div-" ++ Text.decimal (n + 1) := by
  have hdivs : ((rs.zipIdx 1).map fun p => divElement p.1 p.2).flatMap ids =
      (List.range' 1 rs.length).map fun n => stem ++ "-div-" ++ Text.decimal (n + 1) := by
    rw [List.flatMap_map]
    simp only [ids_divElement]
    rw [← List.map_eq_flatMap]
    exact map_zipIdx_snd rs fun n => stem ++ "-div-" ++ Text.decimal (n + 1)
  simp [structureSection, ids_element, hdivs]

/-- How many parts of each kind a manifest for so many files has. -/
def partCounts (n : Nat) : List (String × Nat) :=
  [("-dmd-", 1), ("-fgrp-", 1), ("-file-", n), ("-struct-", 1), ("-div-", n + 1)]

/-- The identifiers of the parts of a kind, numbered from one. -/
def partIds (k : String × Nat) : List (String × Nat) :=
  (List.range' 1 k.2).map fun i => (k.1, i)

private theorem ids_manifest (s : Submission) (rs : List Resource) :
    ids (manifest s rs) =
      stem :: ((partCounts rs.length).flatMap partIds).map numberedId := by
  have hown : ids (manifest s rs) =
      stem :: [agent, metadataSection s, fileSection rs, structureSection rs].flatMap ids := by
    rw [ids, manifest, valuesIn, valuesInAll_eq_flatMap]
    rfl
  have hagent : ids agent = [] := rfl
  have hdmd : (partIds ("-dmd-", 1)).map numberedId = [stem ++ "-dmd-1"] := by decide
  have hgroup : (partIds ("-fgrp-", 1)).map numberedId = [stem ++ "-fgrp-1"] := by decide
  have hstruct : (partIds ("-struct-", 1)).map numberedId = [stem ++ "-struct-1"] := by decide
  have hfiles : (partIds ("-file-", rs.length)).map numberedId =
      (List.range' 1 rs.length).map fileId := by
    rw [partIds, List.map_map]
    rfl
  have hdivs : (partIds ("-div-", rs.length + 1)).map numberedId = (stem ++ "-div-1") ::
      (List.range' 1 rs.length).map fun n => stem ++ "-div-" ++ Text.decimal (n + 1) := by
    rw [partIds, List.range'_succ, ← List.map_add_range', List.map_cons, List.map_cons,
      List.map_map, List.map_map]
    have hfirst : numberedId ("-div-", 1) = stem ++ "-div-1" := by decide
    refine congrArg₂ List.cons hfirst (List.map_congr_left fun i _ => ?_)
    rw [Nat.add_comm i 1]
    rfl
  rw [hown, partCounts]
  simp only [List.flatMap_cons, List.flatMap_nil, List.map_append, hagent, hdmd, hgroup,
    hfiles, hstruct, hdivs, ids_metadataSection, ids_fileSection, ids_structureSection,
    List.append_nil, List.nil_append, List.cons_append]

private theorem kind_of_mem_partIds {n : Nat} {id : String × Nat}
    (h : id ∈ (partCounts n).flatMap partIds) : id.1 ∈ idKinds := by
  obtain ⟨k, hk, hid⟩ := List.mem_flatMap.1 h
  obtain ⟨i, -, rfl⟩ := List.mem_map.1 hid
  exact List.mem_map_of_mem (f := Prod.fst) hk

private theorem nodup_partIds (n : Nat) : ((partCounts n).flatMap partIds).Nodup := by
  have hkinds : idKinds.Pairwise (· ≠ ·) := by decide
  refine List.nodup_flatMap.2 ⟨?_, ?_⟩
  · intro k _
    have hnumbers : (List.range' 1 k.2).Nodup := List.nodup_range'
    exact hnumbers.map fun i j h => (Prod.mk.inj h).2
  · -- parts of different kinds have no identifier in common
    refine (List.pairwise_map.1 (show ((partCounts n).map Prod.fst).Pairwise (· ≠ ·) from
      hkinds)).imp fun {k l} hkl id hk hl => ?_
    obtain ⟨i, -, rfl⟩ := List.mem_map.1 hk
    obtain ⟨j, -, hj⟩ := List.mem_map.1 hl
    exact hkl (Prod.mk.inj hj).1.symm

theorem nodup_ids_manifest (s : Submission) (rs : List Resource) :
    (ids (manifest s rs)).Nodup := by
  rw [ids_manifest, List.nodup_cons]
  constructor
  · -- an identifier with a kind is longer
    intro hmem
    obtain ⟨id, hid, heq⟩ := List.mem_map.1 hmem
    have hlong : ∀ k ∈ idKinds, 0 < k.toList.length := by decide
    have hkind := hlong id.1 (kind_of_mem_partIds hid)
    have hlength := congrArg (fun s => s.toList.length) heq
    simp only [numberedId, String.toList_append, List.length_append] at hlength
    omega
  · exact (nodup_partIds rs.length).map_on fun a ha b hb h =>
      numberedId_inj (kind_of_mem_partIds ha) (kind_of_mem_partIds hb) h

/-- Where the logical structure refers to the files. -/
def pointerPath : List (String × String) :=
  [(metsSpace, "structMap"), (metsSpace, "div"), (metsSpace, "div"), (metsSpace, "fptr")]

private theorem elementsAt_pointerPath (s : Submission) (rs : List Resource) :
    elementsAt pointerPath (manifest s rs) =
      (List.range' 1 rs.length).map fun n => element "fptr" [("FILEID", fileId n)] [] := by
  have hgroup : elementsAt [(metsSpace, "structMap"), (metsSpace, "div")] (manifest s rs) =
      [element "div" [("ID", stem ++ "-div-1"), ("DMDID", stem ++ "-dmd-1"),
        ("TYPE", "SWORD Object")] ((rs.zipIdx 1).map fun p => divElement p.1 p.2)] := rfl
  have hdivs : elementsAt [(metsSpace, "structMap"), (metsSpace, "div"), (metsSpace, "div")]
      (manifest s rs) = (rs.zipIdx 1).map fun p => divElement p.1 p.2 := by
    refine (Xml.Node.elementsAt_append_singleton hgroup (metsSpace, "div")).trans ?_
    exact childElements_map (fun p _ => rfl) _ _ _
  have hpointer : ∀ (r : Resource) (n : Nat),
      elementsAt [(metsSpace, "fptr")] (divElement r n) =
        [element "fptr" [("FILEID", fileId n)] []] := fun r n => rfl
  refine (Xml.Node.elementsAt_append [(metsSpace, "structMap"), (metsSpace, "div"),
    (metsSpace, "div")] [(metsSpace, "fptr")] _).trans ?_
  rw [hdivs, List.flatMap_map]
  simp only [hpointer]
  rw [← List.map_eq_flatMap]
  exact map_zipIdx_snd rs fun n => element "fptr" [("FILEID", fileId n)] []

theorem pointers_onLines (s : Submission) (rs : List Resource) :
    (elementsAt pointerPath ((manifest s rs).onLines 0)).map (·.attribute? "FILEID") =
      (elementsAt filePath ((manifest s rs).onLines 0)).map (·.attribute? "ID") := by
  have hfiles : ((rs.zipIdx 1).map fun p => (fileElement p.1 p.2).attribute? "ID") =
      (List.range' 1 rs.length).map fun n => some (fileId n) :=
    map_zipIdx_snd rs fun n => some (fileId n)
  rw [Xml.Node.elementsAt_onLines, Xml.Node.elementsAt_onLines, elementsAt_pointerPath,
    elementsAt_filePath]
  simp only [List.map_map, Function.comp_def, attribute?_onLines]
  rw [hfiles]
  rfl

theorem metadata_onLines (s : Submission) (rs : List Resource) :
    (elementsAt [(metsSpace, "dmdSec")] ((manifest s rs).onLines 0)).map (·.attribute? "ID") =
      [some (stem ++ "-dmd-1")] ∧
    (elementsAt [(metsSpace, "structMap"), (metsSpace, "div")]
        ((manifest s rs).onLines 0)).map (·.attribute? "DMDID") = [some (stem ++ "-dmd-1")] := by
  rw [Xml.Node.elementsAt_onLines, Xml.Node.elementsAt_onLines, List.map_map, List.map_map]
  simp only [Function.comp_def, attribute?_onLines]
  exact ⟨rfl, rfl⟩

end Deposit.Specification.Mets
