import Deposit.Specification.Basic
import Deposit.Text.Blank
import Deposit.Xml.Printer

set_option autoImplicit false
set_option relaxedAutoImplicit false

/-!
Packaging with a METS manifest. The manifest carries the metadata of the submission as fields of the
DIM schema, lists every content file at its place in the package, and ties the two together in a
logical structure.
-/

namespace Deposit.Specification.Mets

def metsSpace : String := "http://www.loc.gov/METS/"

def dimSpace : String := "http://www.dspace.org/xmlns/dspace/dim"

def linkSpace : String := "http://www.w3.org/1999/xlink"

def schemaSpace : String := "http://www.w3.org/2001/XMLSchema-instance"

def manifestPath : String := "mets.xml"

def stem : String := "sword-mets"

/-- A schema field: its schema, its element and, for some, a qualifier. -/
structure FieldName where
  schema : String
  element : String
  qualifier : Option String
deriving DecidableEq, Repr

/-- The metadata keys that become fields, and the fields they become. -/
def fieldNames : List (String × FieldName) :=
  [("title", ⟨"dc", "title", none⟩),
   ("abstract", ⟨"dc", "description", some "abstract"⟩),
   ("authors", ⟨"dc", "contributor", some "author"⟩),
   ("journal", ⟨"dc", "relation", some "ispartof"⟩),
   ("publisher", ⟨"dc", "publisher", none⟩),
   ("doi", ⟨"dc", "identifier", some "doi"⟩),
   ("date", ⟨"dc", "date", some "issued"⟩),
   ("embargo", ⟨"dc", "date", some "embargo"⟩)]

/-- The checksums that METS has a name for, the preferred one first. -/
def checksumTypes : List (String × String) :=
  [("md5", "MD5"), ("sha256", "SHA-256"), ("sha512", "SHA-512"), ("sha1", "SHA-1")]

/-- The values that a metadata value holds: authors stand between semicolons. -/
def valuesOf (key value : String) : List String :=
  let parts :=
    if key = "authors" then (value.toList.splitOn ';').map String.ofList else [value]
  parts.map Text.trim

def fields (s : Submission) : List (FieldName × String) :=
  fieldNames.flatMap fun f =>
    match s.value? f.1 with
    | some value => (valuesOf f.1 value).map fun v => (f.2, v)
    | none => []

/-- The preferred checksum of a file, under the name METS has for it. -/
def preferredChecksum (r : Resource) : Option (String × String) :=
  checksumTypes.findSome? fun t => (r.checksums.lookup t.1).map fun digest => (t.2, digest)

def element (base : String) (attributes : List (String × String)) (children : List Xml.Node) :
    Xml.Node :=
  .element ⟨"", metsSpace, base⟩ [] (attributes.map fun a => (.plain a.1, a.2)) children

def agent : Xml.Node :=
  element "metsHdr" []
    [element "agent" [("ROLE", "CUSTODIAN"), ("TYPE", "ORGANIZATION")]
      [element "name" [] [.text "deposit-services"]]]

def fieldElement (f : FieldName × String) : Xml.Node :=
  let qualifier := match f.1.qualifier with
    | some q => [("qualifier", q)]
    | none => []
  .element ⟨"dim", dimSpace, "field"⟩ []
    (([("mdschema", f.1.schema), ("element", f.1.element)] ++ qualifier).map fun a =>
      (.plain a.1, a.2))
    [.text f.2]

def metadataSection (s : Submission) : Xml.Node :=
  let dim := Xml.Node.element ⟨"dim", dimSpace, "dim"⟩ [("dim", dimSpace)] []
    ((fields s).map fieldElement)
  element "dmdSec" [("ID", stem ++ "-dmd-1"), ("GROUPID", stem ++ "-dmd-1_group-1")]
    [element "mdWrap"
      [("LABEL", "DIM Metadata"), ("MDTYPE", "OTHER"), ("OTHERMDTYPE", "DIM"),
       ("MIMETYPE", "text/xml")]
      [element "xmlData" [] [dim]]]

def fileId (n : Nat) : String :=
  stem ++ "-file-" ++ Text.decimal n

def fileElement (r : Resource) (n : Nat) : Xml.Node :=
  let checksum := match preferredChecksum r with
    | some c => [("CHECKSUMTYPE", c.1), ("CHECKSUM", c.2)]
    | none => []
  element "file"
    ([("ID", fileId n), ("GROUPID", fileId n), ("MIMETYPE", r.mediaType),
      ("SIZE", Text.decimalInt r.sizeBytes)] ++ checksum)
    [.element ⟨"", metsSpace, "FLocat"⟩ []
      [(.plain "LOCTYPE", "URL"), (⟨"xlink", linkSpace, "href"⟩, r.packagePath)] []]

def fileSection (rs : List Resource) : Xml.Node :=
  element "fileSec" []
    [element "fileGrp" [("ID", stem ++ "-fgrp-1"), ("USE", "CONTENT")]
      ((rs.zipIdx 1).map fun p => fileElement p.1 p.2)]

def divElement (r : Resource) (n : Nat) : Xml.Node :=
  let label := match r.role with
    | some role => [("LABEL", role.value)]
    | none => []
  element "div" ([("ID", stem ++ "-div-" ++ Text.decimal (n + 1)), ("TYPE", "File")] ++ label)
    [element "fptr" [("FILEID", fileId n)] []]

def structureSection (rs : List Resource) : Xml.Node :=
  element "structMap" [("ID", stem ++ "-struct-1"), ("LABEL", "structure"), ("TYPE", "LOGICAL")]
    [element "div"
      [("ID", stem ++ "-div-1"), ("DMDID", stem ++ "-dmd-1"), ("TYPE", "SWORD Object")]
      ((rs.zipIdx 1).map fun p => divElement p.1 p.2)]

def manifest (s : Submission) (rs : List Resource) : Xml.Node :=
  .element ⟨"", metsSpace, "mets"⟩ [("", metsSpace), ("xlink", linkSpace), ("xsi", schemaSpace)]
    [(⟨"xsi", schemaSpace, "schemaLocation"⟩,
      metsSpace ++ " http://www.loc.gov/standards/mets/mets.xsd"),
     (.plain "ID", stem), (.plain "OBJID", stem), (.plain "LABEL", "DSpace SWORD Item"),
     (.plain "PROFILE", "DSpace METS SIP Profile 1.0")]
    [agent, metadataSection s, fileSection rs, structureSection rs]

def foreignTexts (s : Submission) (rs : List Resource) : List String :=
  (fields s).map Prod.snd ++ rs.flatMap fun r =>
    [r.mediaType, r.packagePath] ++ ((preferredChecksum r).map Prod.snd).toList

/-- The manifest as a file, if every text in it may occur in a document. -/
def generate (s : Submission) (rs : List Resource) : Except Fault Generated :=
  if (foreignTexts s rs).all Xml.isText then
    .ok
      { files := [(manifestPath, Bytes.ofText (Xml.document (manifest s rs)))]
        notices := ["Built METS for submission " ++ s.id] }
  else .error .unsuitableText

end Deposit.Specification.Mets

namespace Deposit.Specification

/-- Content files under their own names, beside a METS manifest. -/
def mets : Specification where
  title := "DSpaceMETSSpecification"
  identifier := "http://purl.org/net/sword/package/METSDSpaceSIP"
  policy := { reserved := [Mets.manifestPath], place := fun name _ => name }
  required := ["title"]
  archive := .zip
  compression := .none
  generate := Mets.generate

end Deposit.Specification
