import Deposit.Specification.Basic
import Deposit.Specification.Mets
import Deposit.Xml.Printer

set_option autoImplicit false
set_option relaxedAutoImplicit false

/-!
The packaging specifications known by their identifiers. One of them is for bulk submission: content
files stand at the root of the package under the last segments of their names, beside a list with
one line for each of them and a document with the metadata of the manuscript. The plainest packages
the content files under their names, in a zip archive, and nothing else.
-/

namespace Deposit.Specification.Nihms

def listPath : String := "manifest.txt"

def metadataPath : String := "bulk_meta.xml"

/-- The last segment of a name, or the whole name if it ends in a separator. -/
def place (name : String) : String :=
  let base := PackagePath.baseChars (name.toList.map PackagePath.slash)
  if base = [] then name else String.ofList base

/-- The line of a file: its role, its label and its path, with tabs between them. -/
def line (r : Resource) : String :=
  let kind := match r.role with
    | some role => role.value
    | none => "supplement"
  kind ++ "\t" ++ PackagePath.baseName r.originalName ++ "\t" ++ r.packagePath ++ "\n"

def fileList (rs : List Resource) : Bytes :=
  Bytes.ofText (String.join (rs.map line))

def textElement (name value : String) : Xml.Node :=
  .element (.plain name) [] [] [.text value]

/-- An element with a metadata value, if there is one. -/
def valueElement (s : Submission) (key name : String) : List Xml.Node :=
  (s.value? key).toList.map (textElement name)

/-- The metadata document as a tree, for a title. -/
def metadataTree (s : Submission) (title : String) : Xml.Node :=
  let journal := valueElement s "journal" "journal-title" ++ valueElement s "issn" "issn"
  let journalMeta :=
    if journal.isEmpty then [] else [.element (.plain "journal-meta") [] [] journal]
  .element (.plain "nihms-submit") [] []
    (textElement "title" title :: (journalMeta ++ valueElement s "doi" "doi"))

def foreignTexts (s : Submission) (title : String) : List String :=
  title :: ["journal", "issn", "doi"].flatMap fun key => (s.value? key).toList

def generate (s : Submission) (rs : List Resource) : Except Fault Generated :=
  match s.metadata.lookup "title" with
  | none => .error (.missingKey "title")
  | some title =>
    if (foreignTexts s title).all Xml.isText then
      .ok
        { files :=
            [(listPath, fileList rs),
             (metadataPath, Bytes.ofText (Xml.document (metadataTree s title)))] }
    else .error .unsuitableText

end Deposit.Specification.Nihms

namespace Deposit.Specification

/-- Content files by their last segments, beside a list and a metadata document. -/
def nihms : Specification where
  title := "NihmsNativeSpecification"
  identifier := "nihms-native-2017-07"
  policy :=
    { reserved := [Nihms.listPath, Nihms.metadataPath]
      place := fun name _ => Nihms.place name }
  required := ["title"]
  archive := .tar
  compression := .gzip
  generate := Nihms.generate

def simpleZip : Specification where
  title := "SimpleZipSpecification"
  identifier := "http://purl.org/net/sword/package/SimpleZip"
  policy := { reserved := [], place := fun name _ => name }
  required := []
  archive := .zip
  compression := .none
  generate := fun _ _ => .ok { files := [] }

def registered : List Specification :=
  [simpleZip, mets, nihms]

def ofIdentifier? (identifier : String) : Option Specification :=
  registered.find? fun s => s.identifier == identifier

end Deposit.Specification
