import Deposit.Proofs.Assembly.Fields
import Deposit.Proofs.Assembly.Splitting
import Deposit.Proofs.Package.MediaType
import Deposit.Proofs.Placement.Confinement
import Deposit.Proofs.Placement.Order

set_option autoImplicit false
set_option relaxedAutoImplicit false

/-!
The types recorded for the files of a package. A type is guessed from the path that a file got, and
a METS manifest repeats it. Main statement: that is the type guessed for the path proposed, whether
the file was moved or numbered, unless a number hides the type behind a compression or the proposed
path begins like a URI.
-/

namespace Deposit

namespace MediaType

open PackagePath (splitSegment splitExtension baseChars dirChars)
open Placement (Route numbered roleDirectory)

variable {role : Role} {cs : List Char}

/-- A path ends in an extension that tells of a compression only. -/
def IsPacked (cs : List Char) : Prop :=
  compressions.contains (String.ofList (splitExtension cs).2) = true

instance (cs : List Char) : Decidable (IsPacked cs) :=
  inferInstanceAs (Decidable (_ = true))

private theorem isPacked_congr {xs ys : List Char} (h : baseChars xs = baseChars ys) :
    IsPacked xs ↔ IsPacked ys := by
  rw [IsPacked, IsPacked, splitExtension, splitExtension, h]

private theorem dot_not_mem_number (n : Nat) : '.' ∉ '-' :: Nat.toDigits 10 n := by
  rw [List.mem_cons, not_or]
  refine ⟨by decide, fun hdot => ?_⟩
  exact absurd (Text.isDigit_of_mem_digits hdot) (by decide)

private theorem baseChars_numbered (cs : List Char) (n : Nat) :
    baseChars (numbered cs n) = (splitSegment (baseChars cs)).1 ++ '-' :: Nat.toDigits 10 n ++
      (splitSegment (baseChars cs)).2 := by
  obtain ⟨hstem, hextension⟩ := PackagePath.slash_not_mem_splitSegment
    (PackagePath.slash_not_mem_baseChars cs)
  have hplain : '/' ∉ (splitSegment (baseChars cs)).1 ++ '-' :: Nat.toDigits 10 n ++
      (splitSegment (baseChars cs)).2 := by
    rw [List.mem_append, List.mem_append, List.mem_cons]
    rintro ((hmem | hdash | hdigit) | hmem)
    · exact hstem hmem
    · cases hdash
    · exact Placement.slash_not_mem_toDigits n hdigit
    · exact hextension hmem
  have hnumbered : numbered cs n = dirChars cs ++ ((splitSegment (baseChars cs)).1 ++
      '-' :: Nat.toDigits 10 n ++ (splitSegment (baseChars cs)).2) := by
    simp only [numbered, splitExtension, List.append_assoc, List.cons_append]
  rw [hnumbered, PackagePath.baseChars_dirChars_append cs hplain]

private theorem lookup_types_number (s : List Char) (n : Nat) :
    types.lookup (smallText (splitSegment (s ++ '-' :: Nat.toDigits 10 n)).2) = none := by
  have htypes : ∀ e ∈ types, '-' ∉ e.1.toList := by decide +kernel
  rw [PackagePath.splitSegment_append_plain s (dot_not_mem_number n)]
  split
  · exact lookup_types_nil
  · exact lookup_smallText_eq_none htypes rfl (List.mem_append_right _ List.mem_cons_self)

private theorem ofExtension?_numbered (cs : List Char) (n : Nat) :
    ofExtension? (numbered cs n) = if IsPacked cs then none else ofExtension? cs := by
  have hnumbered := PackagePath.splitSegment_insert_plain (baseChars cs) (dot_not_mem_number n)
  rw [ofExtension?_eq, baseChars_numbered, hnumbered]
  dsimp only
  split
  · rename_i hpacked
    exact (ofExtensions?_of_compression hpacked).trans (lookup_types_number _ n)
  · rename_i hplain
    rw [ofExtension?_eq]
    exact ofExtensions?_of_not_compression hplain _ _

private theorem ofExtension?_path (route : Route) :
    ofExtension? (route.path role cs) =
      if route.isCounted = true ∧ IsPacked cs then none else ofExtension? cs := by
  have hbase (k : Nat) (isFlat : Bool) :
      baseChars (Route.moving role cs k isFlat) = baseChars cs := by
    rw [Route.moving, PackagePath.baseChars_append_slash]
    cases isFlat
    · rfl
    · exact PackagePath.baseChars_of_slash_not_mem (PackagePath.slash_not_mem_baseChars cs)
  cases route with
  | kept => simp only [Route.path, Route.isCounted, Bool.false_eq_true, false_and, if_false]
  | moved k isFlat =>
    simp only [Route.path, Route.isCounted, Bool.false_eq_true, false_and, if_false,
      ofExtension?_congr (hbase k isFlat)]
  | counted k isFlat n =>
    simp only [Route.path, Route.isCounted, true_and, ofExtension?_numbered,
      isPacked_congr (hbase k isFlat), ofExtension?_congr (hbase k isFlat)]

private theorem splitScheme_roleDirectory (role : Role) (k : Nat) (cs : List Char) :
    splitScheme (roleDirectory role k ++ '/' :: cs) = none := by
  have hpass : ∀ c ∈ roleDirectory role k, (decide (c ≠ '/') && decide (c ≠ ':')) = true := by
    intro c hc
    rw [Bool.and_eq_true, decide_eq_true_iff, decide_eq_true_iff]
    refine ⟨fun hslash => Placement.slash_not_mem_roleDirectory role k (hslash ▸ hc), ?_⟩
    rintro rfl
    rcases Placement.isRouteChar_of_mem_roleDirectory hc with h | h | h | ⟨r, h⟩
    · cases h
    · cases h
    · cases h
    · revert h
      cases r <;> decide
  have htake : (roleDirectory role k ++ '/' :: cs).takeWhile
      (fun c => decide (c ≠ '/') && decide (c ≠ ':')) = roleDirectory role k := by
    rw [List.takeWhile_append_of_pos hpass]
    exact List.append_nil _
  unfold splitScheme
  dsimp only
  rw [htake, List.drop_left]
  split
  · rename_i hcolon
    cases hcolon
  · rfl

private theorem guess?_path {path : String} {route : Route} (h : path.toList = route.path role cs)
    (hmoved : route ≠ .kept) : guess? path = ofExtension? (route.path role cs) := by
  have hbelow : ∃ k below, route.path role cs = roleDirectory role k ++ '/' :: below := by
    cases route with
    | kept => exact absurd rfl hmoved
    | moved k isFlat => exact ⟨k, _, rfl⟩
    | counted k isFlat n => exact ⟨k, _, Placement.numbered_append_slash _ _ n⟩
  obtain ⟨k, below, hbelow⟩ := hbelow
  have hscheme : splitScheme path.toList = none := by
    rw [h, hbelow, splitScheme_roleDirectory]
  rw [guess?, hscheme, h]

private theorem ofPath_path {path proposed : String} {route : Route}
    (h : path.toList = route.path role proposed.toList) (hmoved : route ≠ .kept) :
    ofPath path =
      if route.isCounted = true ∧ IsPacked proposed.toList then unknownMediaType
      else (ofExtension? proposed.toList).getD unknownMediaType := by
  rw [ofPath, guess?_path h hmoved, ofExtension?_path]
  split
  · rfl
  · rfl

end MediaType

namespace Composition

variable {plan : PackagingPlan} {c d : Composition} {submission : String}

/-- Every file is described with the type of its path. -/
def Tells (c : Composition) : Prop :=
  ∀ r ∈ c.resources, r.mediaType = MediaType.ofPath r.packagePath

private theorem Tells.concat (h : c.Tells) {r : Resource} (hd : d.resources = c.resources ++ [r])
    (hr : r.mediaType = MediaType.ofPath r.packagePath) : d.Tells := by
  intro other hother
  rw [hd, List.mem_append, List.mem_singleton] at hother
  rcases hother with hother | rfl
  · exact h other hother
  · exact hr

private theorem Wrote.tells {items : List (ContentFile × String)}
    (h : Wrote plan submission c items d) (hc : c.Tells) : d.Tells := by
  induction h with
  | nil c => exact hc
  | cons first _ ih =>
    obtain ⟨source, -, -, -, hresources⟩ := addContent_eq_none first
    exact ih (hc.concat hresources rfl)

private theorem tells_addAllGenerated {files : List (String × Bytes)} (hc : c.Tells)
    (h : addAllGenerated plan submission c files = (d, none)) : d.Tells := by
  induction files generalizing c with
  | nil =>
    obtain rfl : c = d := congrArg Prod.fst h
    exact hc
  | cons file files ih =>
    unfold addAllGenerated at h
    split at h
    · cases h
    · rename_i e heq
      obtain ⟨-, -, hresources⟩ := addGenerated_eq_none heq
      exact ih (hc.concat hresources rfl) h

end Composition

namespace Assembler

open MediaType (IsPacked IsUriLike ofExtension?)
open Placement (Route)
open Specification (Mets.FileRecord Mets.filePath)
open Xml.Node (elementsAt)

variable {a : Assembler} {s : Submission} {p : PackageStream}

private theorem Built.tells {placed : List Placed} {before after : Disk} {directory : List String}
    {name : String} {sink : Recorder} (h : a.Built s placed before after directory name sink p)
    (hplaced : Placement.resolve a.specification.policy s.placements = .ok placed) :
    ∀ r ∈ p.resources, r.mediaType = MediaType.ofPath r.packagePath := by
  obtain ⟨c, d, generated, hwrote, -, hall, -, -, -, hresources, -⟩ := h.parts hplaced
  have hstart : (Composition.start a.plan).Tells := fun r hr => nomatch hr
  have hcontents : ({ c with notices := c.notices ++ generated.notices } : Composition).Tells :=
    hwrote.tells hstart
  have htells := Composition.tells_addAllGenerated hcontents hall
  rwa [Composition.Tells, hresources] at htells

/-- What is recorded as the type of a file that has come by a route to its path. It is the type of
that path, and the type of the path proposed for the file as well, but for two kinds of moved files:
behind a number the type of what is compressed is not known, and of a path that begins like a URI
only the extension counts. -/
structure Declares (r : Resource) (q : Placed) (route : Route) : Prop where
  path : r.mediaType = MediaType.ofPath q.path
  proposed : (route = .kept ∨ ¬ IsUriLike q.proposed.toList) →
    ¬ (route.isCounted = true ∧ IsPacked q.proposed.toList) →
    r.mediaType = MediaType.ofPath q.proposed
  extension : route ≠ .kept → ¬ (route.isCounted = true ∧ IsPacked q.proposed.toList) →
    r.mediaType = (ofExtension? q.proposed.toList).getD unknownMediaType
  hidden : route.isCounted = true → IsPacked q.proposed.toList → r.mediaType = unknownMediaType

private theorem declares_of_route {r : Resource} {q : Placed} {role : Role} {route : Route}
    (hr : r.mediaType = MediaType.ofPath q.path)
    (hroute : q.path.toList = route.path role q.proposed.toList)
    (hkept : route = .kept ↔ q.path = q.proposed) : Declares r q route := by
  have hextension (hmoved : route ≠ .kept)
      (hplain : ¬ (route.isCounted = true ∧ IsPacked q.proposed.toList)) :
      r.mediaType = (ofExtension? q.proposed.toList).getD unknownMediaType := by
    rw [hr, MediaType.ofPath_path hroute hmoved, if_neg hplain]
  refine ⟨hr, fun hsame hplain => ?_, hextension, fun hcounted hpacked => ?_⟩
  · by_cases hmoved : route = .kept
    · rw [hr, hkept.1 hmoved]
    · have hguess := MediaType.guess?_of_not_isUriLike (hsame.resolve_left hmoved)
      rw [hextension hmoved hplain, MediaType.ofPath, hguess]
  · have hmoved : route ≠ .kept := by
      rintro rfl
      cases hcounted
    rw [hr, MediaType.ofPath_path hroute hmoved, if_pos ⟨hcounted, hpacked⟩]

/-- Every content file has come by a route from the normal form of what the specification proposes
for it, and its type is recorded accordingly; and in the METS manifest that a package is delivered
with, there is one file for each content file, with its path and its recorded type. -/
theorem recorded_types {before after : Surroundings}
    (h : (a.assemble s : StateM Surroundings _).run before = (.ok p, after)) :
    ∃ placed : List Placed,
      Placement.resolve a.specification.policy s.placements = .ok placed ∧
      placed.map Placed.name = s.files.map ContentFile.name ∧
      (∀ (k : Nat) (q : Placed), placed[k]? = some q → ∃ f r route,
        s.files[k]? = some f ∧ p.resources[k]? = some r ∧ r.packagePath = q.path ∧
        PackagePath.normalize? (a.specification.policy.place f.name f.role) = some q.proposed ∧
        q.path.toList = route.path f.role q.proposed.toList ∧
        (route = .kept ↔ q.path = q.proposed) ∧ Declares r q route) ∧
      ∀ decompress : Bytes → Option Bytes, a.specification = Specification.mets →
        (∀ bs, decompress (a.compression.encode bs) = some bs) →
        ∃ doc, a.Delivers s decompress p after doc ∧
          (elementsAt Mets.filePath doc).map
              (fun n => let f := Mets.FileRecord.ofElement n; (f.paths, f.mediaType)) =
            (p.resources.take s.files.length).map fun r => ([r.packagePath], some r.mediaType) := by
  obtain ⟨placed, directory, name, sink, hrefusal, hplaced, hbuilt⟩ := built_of_run h
  have hnames := Placement.map_name_of_resolve hplaced
  refine ⟨placed, hplaced, ?names, ?types, ?manifest⟩
  case names =>
    rw [hnames, Submission.placements, List.map_map]
    rfl
  case types =>
    intro k q hq
    obtain ⟨role, hfile, hnormal, route, hroute, hkept⟩ :=
      Placement.exists_route_of_resolve hplaced hq
    rw [Submission.placements, List.getElem?_map, Option.map_eq_some_iff] at hfile
    obtain ⟨f, hf, hplacement⟩ := hfile
    obtain ⟨hname, rfl⟩ := Prod.mk.inj hplacement
    obtain ⟨r, hr, hlisted⟩ := hbuilt.exists_listed hplaced hf hq
    have htype := hbuilt.tells hplaced r (List.mem_of_getElem? hr)
    rw [hlisted.path_eq] at htype
    rw [← hname] at hnormal
    exact ⟨f, r, route, hf, hr, hlisted.path_eq, hnormal, hroute, hkept,
      declares_of_route htype hroute hkept⟩
  case manifest =>
    intro decompress hspec hdecompress
    obtain ⟨htexts, hdelivers⟩ := delivers_manifest hspec h hdecompress
    refine ⟨_, hdelivers, ?_⟩
    have hrecords := congrArg (List.map fun f : Mets.FileRecord => (f.paths, f.mediaType))
      (Specification.Mets.files_onLines htexts)
    rw [List.map_map, List.map_map] at hrecords
    refine hrecords.trans ?_
    conv_rhs => rw [← List.zipIdx_map_fst 1 (p.resources.take s.files.length), List.map_map]
    rfl

/-- The thesis goes by the name of the manifest. It is moved, and both the package and the manifest
have it as the XML document that it was before. -/
theorem recorded_types_thesis :
    ∃ p after doc,
      (thesisAssembler.assemble thesis : StateM Surroundings _).run emptyDesk = (.ok p, after) ∧
      thesisAssembler.Delivers thesis Codec.Gzip.decode p after doc ∧
      (elementsAt Mets.filePath doc).map
          (fun n => let f := Mets.FileRecord.ofElement n; (f.paths, f.mediaType)) =
        [(["manuscript/mets.xml"], some "text/xml")] := by
  obtain ⟨p, after, hrun⟩ := assemble_thesis
  obtain ⟨placed, hresolved, -, htypes, hmanifest⟩ := recorded_types hrun
  obtain rfl := Except.ok.inj (hresolved.symm.trans admits_thesis.placed_eq)
  obtain ⟨f, r, route, -, hr, hpath, -, -, -, hdeclares⟩ := htypes 0 _ rfl
  obtain ⟨doc, hdelivers, hdoc⟩ := hmanifest Codec.Gzip.decode rfl Codec.Gzip.decode_encode
  have hplain : ¬ IsUriLike "mets.xml".toList := by
    rintro ⟨scheme, rest, hscheme, -⟩
    have hnone : MediaType.splitScheme "mets.xml".toList = none := by decide +kernel
    cases hnone.symm.trans hscheme
  have hunpacked : ¬ IsPacked "mets.xml".toList := by decide +kernel
  have htype : r.mediaType = "text/xml" := by
    rw [hdeclares.proposed (Or.inr hplain) fun hcounted => hunpacked hcounted.2]
    decide +kernel
  have hlisted : p.resources.take 1 = [r] := by
    rw [List.take_one, List.head?_eq_getElem?, hr]
    rfl
  refine ⟨p, after, doc, hrun, hdelivers, hdoc.trans ?_⟩
  rw [show thesis.files.length = 1 from rfl, hlisted, List.map_singleton, hpath, htype]

def lookalikes : Submission where
  id := "lookalikes"
  files :=
    ["a.tar.gz", "manuscript/a.tar.gz", "A.tar.gz", "data:text/html,x", "DATA:text/html,x",
        "x:.txt", "X:.txt"].map fun name =>
      { name, role := .manuscript, opened := .ok { bytes := [1] }, size := some 1 }
  metadata := []

/-- A number is taken for a part of the extension before that of the compression, and below the
directory of a role nothing is read as a scheme, so the type that the proposed path tells is not the
one recorded. -/
theorem lookalikes_change_types :
    tarAssembler.specification ∈ Specification.registered ∧
    ∃ p after placed,
      (tarAssembler.assemble lookalikes : StateM Surroundings _).run emptyDesk = (.ok p, after) ∧
      Placement.resolve tarAssembler.specification.policy lookalikes.placements = .ok placed ∧
      (placed.filter Placed.isRemediated).map (fun q =>
          (q.proposed, MediaType.ofPath q.proposed, q.path)) =
        [("A.tar.gz", "application/x-tar", "manuscript/A.tar-1.gz"),
          ("DATA:text/html,x", "text/html", "manuscript/DATA:text/html,x"),
          ("X:.txt", "application/octet-stream", "manuscript/X:.txt")] ∧
      [2, 4, 6].map (fun k => p.resources[k]?.map fun r => (r.packagePath, r.mediaType)) =
        [some ("manuscript/A.tar-1.gz", "application/octet-stream"),
          some ("manuscript/DATA:text/html,x", "application/octet-stream"),
          some ("manuscript/X:.txt", "text/plain")] := by
  refine ⟨by simp [tarAssembler, Specification.registered], ?_⟩
  have hplaced : Placement.resolve tarAssembler.specification.policy lookalikes.placements =
      .ok [⟨"a.tar.gz", "a.tar.gz", "a.tar.gz"⟩,
        ⟨"manuscript/a.tar.gz", "manuscript/a.tar.gz", "manuscript/a.tar.gz"⟩,
        ⟨"A.tar.gz", "A.tar.gz", "manuscript/A.tar-1.gz"⟩,
        ⟨"data:text/html,x", "data:text/html,x", "data:text/html,x"⟩,
        ⟨"DATA:text/html,x", "DATA:text/html,x", "manuscript/DATA:text/html,x"⟩,
        ⟨"x:.txt", "x:.txt", "x:.txt"⟩, ⟨"X:.txt", "X:.txt", "manuscript/X:.txt"⟩] := by
    decide +kernel
  have hreturns : Surroundings.returns (tarAssembler.assemble lookalikes) emptyDesk (fun p =>
      decide ([2, 4, 6].map (fun k => p.resources[k]?.map fun r => (r.packagePath, r.mediaType)) =
        [some ("manuscript/A.tar-1.gz", "application/octet-stream"),
          some ("manuscript/DATA:text/html,x", "application/octet-stream"),
          some ("manuscript/X:.txt", "text/plain")])) = true := by
    decide +kernel
  obtain ⟨p, after, hrun, htypes⟩ := Surroundings.run_of_returns hreturns
  exact ⟨p, after, _, hrun, hplaced, by decide +kernel, of_decide_eq_true htypes⟩

end Assembler

end Deposit
