import Deposit.CommandLine.Run
import Deposit.Proofs.Assembly.Contents
import Deposit.Proofs.CommandLine.Delivery
import Deposit.Proofs.Host.Surroundings
import Deposit.Proofs.Submission.Manifest
import Deposit.Proofs.Text.Utf8
import Deposit.Xml.Reader

set_option autoImplicit false
set_option relaxedAutoImplicit false

/-!
The command that assembles, from its arguments to the files it leaves. When it ends well, the
submission that its directory holds has been packaged: the package and its description are in the
directory for packages, both are true of what was read, and no other file has changed.
-/

namespace Deposit

/-- A submission as a directory holds it: a manifest, and what the places of its entries hold. -/
structure Manifest.Offers (manifest : Manifest) (d : Disk) (directory : Location) (s : Submission)
    (contents : List Bytes) : Prop where
  held : ∃ text, d.HoldsText (directory.child CommandLine.manifestName) text ∧
    Manifest.ofText text = .ok manifest
  id_eq : s.id = manifest.id
  metadata_eq : s.metadata = manifest.metadata
  files : List.Forall₂ (fun e file => e.Yields d directory file) manifest.files s.files
  read : manifest.files.map (fun e => d.read (e.place directory)) = contents.map Except.ok

namespace CommandLine

private theorem AssembleArguments.assembler_eq_ok {a : AssembleArguments} {assembler : Assembler}
    (h : a.assembler = .ok assembler) :
    assembler.specification ∈ Specification.registered ∧
      assembler.options = { archive := a.archive, compression := a.compression } := by
  unfold AssembleArguments.assembler Specification.ofIdentifier? at h
  split at h
  · cases h
  · rename_i spec hspec
    unfold Assembler.create Assembler.createOn at h
    split at h
    · cases h
    · split at h
      · cases h
      · obtain rfl := Except.ok.inj h
        exact ⟨List.mem_of_find?_eq_some hspec, rfl⟩

/-- A submission is read from the manifest in its directory, or there is a message; nothing
changes. -/
theorem run_readSubmission (directory : Location) (before : Surroundings) :
    (∃ message, (readSubmission directory : StateM Surroundings _).run before =
      (.error message, before)) ∨
    ∃ text manifest files, before.disk.HoldsText (directory.child manifestName) text ∧
      Manifest.ofText text = .ok manifest ∧
      List.Forall₂ (fun e file => e.Yields before.disk directory file) manifest.files files ∧
      (readSubmission directory : StateM Surroundings _).run before =
        (.ok ⟨manifest.id, files, manifest.metadata⟩, before) := by
  unfold readSubmission
  rw [Surroundings.run_bind_of_run (Surroundings.run_readText _ before)]
  cases htext : before.disk.textAt (directory.child manifestName) with
  | error fault => exact Or.inl ⟨_, rfl⟩
  | ok text =>
    dsimp only
    cases hmanifest : Manifest.ofText text with
    | issues is => exact Or.inl ⟨_, rfl⟩
    | ok manifest =>
      dsimp only
      rcases manifest.run_submission directory before with ⟨fault, hrun⟩ | ⟨files, hrun, hfiles⟩
      · rw [Surroundings.run_bind_of_run hrun]
        exact Or.inl ⟨_, rfl⟩
      · rw [Surroundings.run_bind_of_run hrun]
        exact Or.inr ⟨text, manifest, files, Disk.holdsText_of_textAt htext, hmanifest, hfiles, rfl⟩

private theorem renamingNotices_eq {p : PackageStream} {n : Nat}
    (hcontent : ∀ r ∈ p.resources.take n, r.role.isSome = true)
    (hadded : ∀ r ∈ p.resources.drop n, r.role = none) :
    renamingNotices p =
      ((p.resources.take n).filter fun r => r.originalName ≠ r.packagePath).map fun r =>
        "  Renamed: " ++ r.originalName ++ " -> " ++ r.packagePath := by
  have hnone : (p.resources.drop n).filter (fun r => r.role.isSome && r.isRemediated) = [] := by
    rw [List.filter_eq_nil_iff]
    intro r hr
    simp [hadded r hr]
  have hall : (p.resources.take n).filter (fun r => r.role.isSome && r.isRemediated) =
      (p.resources.take n).filter fun r => r.originalName ≠ r.packagePath :=
    List.filter_congr fun r hr => by
      simp [hcontent r hr, Resource.isRemediated, bne, beq_eq_decide]
  rw [renamingNotices]
  conv_lhs => rw [← List.take_append_drop n p.resources]
  rw [List.filter_append, hnone, List.append_nil, hall]

private theorem filter_warning_of_level {level : Level} (hlevel : level ≠ .warning)
    (texts : List String) : (texts.map (Notice.mk level)).filter (·.level = .warning) = [] := by
  rw [List.filter_eq_nil_iff]
  intro n hn
  obtain ⟨text, -, rfl⟩ := List.mem_map.1 hn
  exact fun h => hlevel (of_decide_eq_true h)

private theorem warnings_deliveryNotices (p : PackageStream) (output : Location) :
    (deliveryNotices p output).reverse.filter (·.level = .warning) =
      (renamingNotices p).map (Notice.mk .warning) := by
  have hrenaming : ((renamingNotices p).map (Notice.mk .warning)).filter (·.level = .warning) =
      (renamingNotices p).map (Notice.mk .warning) := by
    rw [List.filter_eq_self]
    intro n hn
    obtain ⟨text, -, rfl⟩ := List.mem_map.1 hn
    rfl
  have hremoval : ([⟨.debug, "Removed package file " ++ p.place.text⟩] : List Notice).filter
      (·.level = .warning) = [] := rfl
  rw [deliveryNotices, List.reverse_cons, List.reverse_append, List.reverse_reverse,
    List.reverse_reverse, List.filter_append, List.filter_append, hremoval, hrenaming,
    filter_warning_of_level (by decide), List.nil_append, List.append_nil]

private theorem warnings_of_packages {assembler : Assembler} {s : Submission} {p : PackageStream}
    {bytes : Bytes} {contents : List Bytes} {generated : Generated}
    (hpackages : assembler.Packages s p bytes contents generated) {noticed : List Notice}
    (hquiet : ∀ x ∈ noticed, x.level ≠ .warning) (output : Location) :
    (deliveryNotices p output ++ noticed).reverse.filter (·.level = .warning) =
      ((p.resources.take s.files.length).filter fun r =>
        r.originalName ≠ r.packagePath).map fun r =>
          ⟨.warning, "  Renamed: " ++ r.originalName ++ " -> " ++ r.packagePath⟩ := by
  have hroles : ∀ r ∈ p.resources.take s.files.length, r.role.isSome = true :=
    ((List.forall₂_and_left _ _).1
      (hpackages.content.imp fun r file h => ⟨by rw [h.2]; rfl, h⟩)).1
  have hnoticed : noticed.reverse.filter (·.level = .warning) = [] := by
    rw [List.filter_eq_nil_iff]
    exact fun x hx h => hquiet x (List.mem_reverse.1 hx) (of_decide_eq_true h)
  rw [List.reverse_append, List.filter_append, hnoticed, List.nil_append,
    warnings_deliveryNotices, renamingNotices_eq hroles fun r hr => (hpackages.added.2 r hr).1,
    List.map_map]
  rfl

/-- What is left when a submission has been packaged and the package delivered to a directory. -/
structure Delivers (assembler : Assembler) (manifest : Manifest) (directory : Location)
    (s : Submission) (contents : List Bytes) (before after : Surroundings) (folder : List String)
    (p : PackageStream) (bytes : Bytes) : Prop where
  /-- The package holds the content files in the order of the manifest, and what was generated. -/
  packages : ∃ generated, assembler.Packages s p bytes contents generated
  entries : List.Forall₂
    (fun r e => r.originalName = e.contentName directory ∧ r.role = some e.role)
    (p.resources.take manifest.files.length) manifest.files
  /-- The metadata are those of the bytes that were delivered. -/
  describes : p.metadata.sizeBytes = bytes.length ∧
    assembler.library.Describes assembler.options.algorithms p.metadata.checksums bytes
  /-- Both files are there. A temporary file can have been given the name of the package only if the
  package is a file as it is. -/
  receives : ∃ place n, assembler.HasTemporaryDirectory before place ∧
    before.disk.Receives after.disk folder (place ++ [Disk.temporaryName n]) p bytes
      (Bytes.ofText (packageRecord manifest.id p).pretty) ∧
    (p.metadata.name = Disk.temporaryName n →
      assembler.archive = .none ∧ assembler.compression = .none)
  /-- The description is read back as it was written. -/
  record : p.HasReadableSizes →
    ∃ text, Text.Utf8.decode (Bytes.ofText (packageRecord manifest.id p).pretty) = .ok text ∧
      Json.read text.toList = .ok (packageRecord manifest.id p)
  /-- Exactly the content files that are not placed at their names are warned of. -/
  warnings : ∃ notices, after.log = notices ++ before.log ∧
    notices.reverse.filter (·.level = .warning) =
      ((p.resources.take manifest.files.length).filter fun r =>
        r.originalName ≠ r.packagePath).map fun r =>
          ⟨.warning, "  Renamed: " ++ r.originalName ++ " -> " ++ r.packagePath⟩

variable {assembler : Assembler} {manifest : Manifest} {directory output : Location}
  {files : List ContentFile} {before later after : Surroundings} {folder : List String}
  {p : PackageStream}

private theorem delivers_of_run (hspec : assembler.specification ∈ Specification.registered)
    (hyields : List.Forall₂ (fun e file => e.Yields before.disk directory file)
      manifest.files files)
    (hassemble : (assembler.assemble ⟨manifest.id, files, manifest.metadata⟩ :
      StateM Surroundings _).run before = (.ok p, later))
    (houtput : before.disk.locate output = .ok folder)
    (hdeliver : (deliver manifest.id p output : StateM Surroundings _).run later =
      (.ok (), after)) :
    ∃ contents bytes,
      manifest.files.map (fun e => before.disk.read (e.place directory)) =
        contents.map Except.ok ∧
      Delivers assembler manifest directory ⟨manifest.id, files, manifest.metadata⟩ contents
        before after folder p bytes := by
  obtain ⟨placed, place, n, sink, noticed, hrefusal, hplaced, htemporary, hbuilt, hlog, hquiet⟩ :=
    Assembler.run_assemble_eq_ok hassemble
  have hname := hbuilt.isName_name hrefusal hplaced
  have hnamed : ∀ f ∈ files, f.name ≠ "" := fun f hf =>
    Specification.name_ne_empty_of_registered hspec hplaced (f.name, f.role)
      (List.mem_map_of_mem hf)
  obtain ⟨sources, generated, hopened, hpackages⟩ :=
    hbuilt.packages hrefusal hplaced hnamed (Manifest.nonneg_of_yields hyields)
  have hdescribes := hbuilt.describes hplaced
  have hcount : manifest.files.length = files.length := hyields.length_eq
  -- the temporary file stands where nothing stood, and has another name than the description
  have hfresh := hbuilt.fresh
  have hsame : later.disk.SameDirectories before.disk := by
    rw [hbuilt.disk_eq]
    exact Disk.sameDirectories_set (by rw [hfresh.absent]; simp)
  have hfile : later.disk.item? (place ++ [Disk.temporaryName n]) = some (.file sink.output) := by
    rw [hbuilt.disk_eq, Disk.item?_set_self _ (by simp)]
  have hsidecar : folder ++ [p.sidecarName] ≠ place ++ [Disk.temporaryName n] := fun h =>
    sidecarName_ne_temporaryName p n (List.singleton_inj.1 (List.append_inj' h rfl).2)
  obtain ⟨hdisk, hdelivery⟩ := run_deliver_eq_ok hbuilt.isOpen
    (hsame.locate_iff.2 hfresh.locate_eq) hfile (hsame.forbids_eq ▸ hfresh.changeable)
    (hsame.locate_iff.2 houtput) hname hsidecar hdeliver
  refine ⟨sources.map Source.bytes, sink.output, Manifest.map_read_of_yields hyields hopened,
    ⟨generated, hpackages⟩, ?_, hdescribes,
    ⟨place, n, htemporary, ?_, hbuilt.plain_of_temporaryName⟩, fun hsizes => ?_,
    deliveryNotices p output ++ noticed, ?_, ?_⟩
  · rw [hcount]
    exact Manifest.forall₂_of_yields hyields hpackages.content
  · rw [hdisk, hbuilt.disk_eq]
    exact Disk.receives_of_erase hfresh.absent hsidecar _ _
  · refine ⟨_, Text.Utf8.decode_ofText _,
      read_packageRecord hsizes hdescribes.2.nodup_names (fun r hr => ?_) _⟩
    exact ((List.forall₂_and_left _ _).1
      (hpackages.described.imp fun r content h => ⟨h.2.nodup_names, h⟩)).1 r hr
  · rw [hdelivery, hlog, List.append_assoc]
  · rw [hcount]
    exact warnings_of_packages hpackages hquiet output

private theorem delivers_of_assembleFrom {a : AssembleArguments}
    (houtput : before.disk.locate a.output = .ok folder)
    (h : (assembleFrom a directory : StateM Surroundings _).run before = (.ok (), after)) :
    ∃ manifest s contents assembler p bytes,
      manifest.Offers before.disk directory s contents ∧ a.assembler = .ok assembler ∧
      Delivers assembler manifest directory s contents before after folder p bytes := by
  unfold assembleFrom at h
  rcases run_readSubmission directory before with
    ⟨message, hread⟩ | ⟨text, manifest, files, htext, hmanifest, hyields, hread⟩
  · rw [Surroundings.run_bind_of_run hread] at h
    cases congrArg Prod.fst h
  · rw [Surroundings.run_bind_of_run hread] at h
    dsimp only at h
    cases hassembler : a.assembler with
    | error e =>
      rw [hassembler] at h
      cases congrArg Prod.fst h
    | ok assembler =>
      rw [hassembler] at h
      dsimp only at h
      obtain ⟨⟨result, later⟩, hassemble⟩ : ∃ x,
          (assembler.assemble ⟨manifest.id, files, manifest.metadata⟩ :
            StateM Surroundings _).run before = x := ⟨_, rfl⟩
      rw [Surroundings.run_bind_of_run hassemble] at h
      cases result with
      | error failure => cases congrArg Prod.fst h
      | ok p =>
        obtain ⟨contents, bytes, hcontents, hdelivers⟩ := delivers_of_run
          (AssembleArguments.assembler_eq_ok hassembler).1 hyields hassemble houtput h
        exact ⟨manifest, _, contents, assembler, p, bytes,
          ⟨⟨text, htext, hmanifest⟩, rfl, rfl, hyields, hcontents⟩, rfl, hdelivers⟩

/-- What stops the command before it assembles: a submission whose name no path can have, a manifest
with a name that is too long or in a directory that may not be entered, or a directory for packages
that cannot be made. -/
inductive AssembleArguments.Stops (a : AssembleArguments) (d : Disk) : FileFault → Prop
  | submission {fault : FileFault} (hdirectory : d.resolve a.submission = .error fault) :
      Stops a d fault
  | manifest {fault : FileFault} {directory : Location}
      (hdirectory : d.resolve a.submission = .ok directory)
      (hmanifest : d.holds (directory.child manifestName) = .error fault) : Stops a d fault
  | output {fault : FileFault} {directory : Location} {prepared : Disk}
      (hdirectory : d.resolve a.submission = .ok directory)
      (hmanifest : d.holds (directory.child manifestName) = .ok true)
      (houtput : d.makeDirectories a.output = (.error fault, prepared)) : Stops a d fault

private theorem AssembleArguments.not_stops {a : AssembleArguments} {d : Disk}
    {directory : Location} {isThere : Bool} (hdirectory : d.resolve a.submission = .ok directory)
    (hmanifest : d.holds (directory.child manifestName) = .ok isThere)
    (houtput : isThere = true → ∃ prepared, d.makeDirectories a.output = (.ok (), prepared))
    (fault : FileFault) : ¬ a.Stops d fault := by
  rintro (hunnamed | ⟨hnamed, hlong⟩ | ⟨hnamed, hthere, htaken⟩)
  · rw [hdirectory] at hunnamed
    cases hunnamed
  · obtain rfl := Except.ok.inj (hdirectory.symm.trans hnamed)
    rw [hmanifest] at hlong
    cases hlong
  · obtain rfl := Except.ok.inj (hdirectory.symm.trans hnamed)
    obtain ⟨prepared, hprepared⟩ := houtput (Except.ok.inj (hmanifest.symm.trans hthere))
    cases hprepared.symm.trans htaken

/-- The command is stopped by a fault, and then nothing but directories for packages has been made,
or it does not find a manifest, or it has made the directory for packages and goes on with
assembling. -/
theorem AssembleArguments.run_cases (a : AssembleArguments) (before : Surroundings) :
    (∃ fault prepared, a.Stops before.disk fault ∧ before.disk.AddsDirectories prepared ∧
      (a.run : StateM Surroundings _).run before =
        (.fault fault, { before with disk := prepared })) ∨
    (∀ fault, ¬ a.Stops before.disk fault) ∧
      ((∃ text, (a.run : StateM Surroundings _).run before =
          (.failed, { before with log := ⟨.error, text⟩ :: before.log })) ∨
        ∃ prepared, before.disk.makeDirectories a.output = (.ok (), prepared) ∧
          (a.run : StateM Surroundings _).run before =
            ((assembleFrom a (a.submission.resolve before.disk.workingDirectory) :
              StateM Surroundings _) >>= fun result =>
                outcomeOf "Failed to assemble package" (result.map fun _ => "")).run
                  { before with disk := prepared }) := by
  have hresolve : (Host.resolve a.submission : StateM Surroundings _).run before =
      (before.disk.resolve a.submission, before) := rfl
  have hholds : ∀ l, (Host.holds l : StateM Surroundings _).run before =
      (before.disk.holds l, before) := fun _ => rfl
  unfold AssembleArguments.run
  rw [Surroundings.run_bind_of_run hresolve]
  cases hdirectory : before.disk.resolve a.submission with
  | error fault => exact Or.inl ⟨fault, _, .submission hdirectory, .refl _, rfl⟩
  | ok directory =>
    dsimp only
    rw [Surroundings.run_bind_of_run (hholds _)]
    cases hmanifest : before.disk.holds (directory.child manifestName) with
    | error fault => exact Or.inl ⟨fault, _, .manifest hdirectory hmanifest, .refl _, rfl⟩
    | ok isThere =>
      cases isThere with
      | false =>
        exact Or.inr ⟨not_stops hdirectory hmanifest nofun, Or.inl ⟨_, rfl⟩⟩
      | true =>
        dsimp only
        obtain ⟨⟨made, prepared⟩, hprepared⟩ :
            ∃ x, before.disk.makeDirectories a.output = x := ⟨_, rfl⟩
        rw [Surroundings.run_bind_of_run (Surroundings.run_makeDirectories hprepared)]
        cases made with
        | error fault =>
          have hadds := before.disk.addsDirectories_makeDirectories a.output
          rw [hprepared] at hadds
          exact Or.inl ⟨fault, prepared, .output hdirectory hmanifest hprepared, hadds, rfl⟩
        | ok u =>
          rw [Disk.resolve_eq_ok hdirectory]
          exact Or.inr ⟨not_stops hdirectory hmanifest fun _ => ⟨prepared, hprepared⟩,
            Or.inr ⟨prepared, hprepared, rfl⟩⟩

private theorem assembleFrom_of_exitStatus {a : AssembleArguments} {outcome : Outcome}
    (h : (a.run : StateM Surroundings _).run before = (outcome, after))
    (hdone : outcome.exitStatus = 0) :
    ∃ prepared, before.disk.makeDirectories a.output = (.ok (), prepared) ∧
      (assembleFrom a (a.submission.resolve before.disk.workingDirectory) :
        StateM Surroundings _).run { before with disk := prepared } = (.ok (), after) := by
  rcases a.run_cases before with
    ⟨fault, _, -, -, hrun⟩ | ⟨-, ⟨text, hrun⟩ | ⟨prepared, hprepared, hrun⟩⟩
  · obtain rfl := congrArg Prod.fst (hrun.symm.trans h)
    cases hdone
  · obtain rfl := congrArg Prod.fst (hrun.symm.trans h)
    cases hdone
  · obtain ⟨⟨result, later⟩, hassemble⟩ : ∃ x,
        (assembleFrom a (a.submission.resolve before.disk.workingDirectory) :
          StateM Surroundings _).run { before with disk := prepared } = x := ⟨_, rfl⟩
    rw [hrun, Surroundings.run_bind_of_run hassemble] at h
    cases result with
    | error message =>
      cases h
      cases hdone
    | ok u =>
      cases h
      exact ⟨prepared, hprepared, hassemble⟩

/-- The command that assembles and ends well has made the directory for packages, packaged the
submission that its directory holds, and delivered the package; no other file has changed. -/
theorem run_assembles {decoder : Xml.Decoder} {arguments : List String} {isVerbose : Bool}
    {a : AssembleArguments}
    (hinvocation : Invocation.ofArguments arguments = .assemble isVerbose a) {outcome : Outcome}
    (h : (run decoder arguments : StateM Surroundings _).run before = (outcome, after))
    (hdone : outcome.exitStatus = 0) :
    ∃ prepared folder manifest s contents assembler p bytes,
      before.disk.makeDirectories a.output = (.ok (), prepared) ∧
      before.disk.AddsDirectories prepared ∧
      prepared.locate a.output = .ok folder ∧ prepared.item? folder = some .directory ∧
      manifest.Offers prepared (a.submission.resolve before.disk.workingDirectory) s contents ∧
      a.assembler = .ok assembler ∧
      assembler.options = { archive := a.archive, compression := a.compression } ∧
      Delivers assembler manifest (a.submission.resolve before.disk.workingDirectory) s contents
        { before with disk := prepared } after folder p bytes := by
  unfold run at h
  rw [hinvocation] at h
  obtain ⟨prepared, hprepared, hassemble⟩ := assembleFrom_of_exitStatus h hdone
  have hadds := before.disk.addsDirectories_makeDirectories a.output
  rw [hprepared] at hadds
  obtain ⟨folder, hfolder, hdirectory⟩ := Disk.makeDirectories_eq_ok hprepared
  obtain ⟨manifest, s, contents, assembler, p, bytes, hoffers, hassembler, hdelivers⟩ :=
    delivers_of_assembleFrom hfolder hassemble
  exact ⟨prepared, folder, manifest, s, contents, assembler, p, bytes, hprepared, hadds, hfolder,
    hdirectory, hoffers, hassembler, (AssembleArguments.assembler_eq_ok hassembler).2, hdelivers⟩

/-- A directory with a submission of two content files whose names differ in case only, so that the
second one is placed elsewhere. -/
def twinsDesk : Surroundings where
  disk :=
    { items := [(["in"], .directory), (["in", "n"], .file [1]), (["in", "m"], .file [2]),
        (["in", "submission.json"], .file (Bytes.ofText ("\x7b\"id\": \"i\", \"files\": " ++
          "[\x7b\"name\": \"n\"\x7d, \x7b\"name\": \"N\", \"path\": \"m\"\x7d]\x7d")))]
      workingDirectory := [] }
  temporaryDirectory := ⟨"/", []⟩
  log := []

def twinsArguments : List String :=
  ["assemble", "--submission", "in", "--output", "out"]

theorem run_assembles_twins :
    ((run Xml.decoder twinsArguments : StateM Surroundings _).run twinsDesk).1.exitStatus = 0 ∧
      ∃ prepared folder manifest s contents assembler p bytes,
        manifest.Offers prepared ⟨"/", ["in"]⟩ s contents ∧
        Delivers assembler manifest ⟨"/", ["in"]⟩ s contents
          { twinsDesk with disk := prepared }
          ((run Xml.decoder twinsArguments : StateM Surroundings _).run twinsDesk).2
          folder p bytes := by
  have hinvocation : Invocation.ofArguments twinsArguments =
      .assemble false ⟨⟨"", ["in"]⟩, ordinarySpecification, none, none, ⟨"", ["out"]⟩⟩ := rfl
  have hdone :
      ((run Xml.decoder twinsArguments : StateM Surroundings _).run twinsDesk).1.exitStatus =
        0 := by
    decide +kernel
  obtain ⟨⟨outcome, after⟩, hrun⟩ : ∃ x,
      (run Xml.decoder twinsArguments : StateM Surroundings _).run twinsDesk = x := ⟨_, rfl⟩
  rw [hrun] at hdone ⊢
  obtain ⟨prepared, folder, manifest, s, contents, assembler, p, bytes, -, -, -, -, hoffers, -, -,
    hdelivers⟩ := run_assembles hinvocation hrun hdone
  exact ⟨hdone, prepared, folder, manifest, s, contents, assembler, p, bytes, hoffers, hdelivers⟩

end CommandLine

end Deposit
