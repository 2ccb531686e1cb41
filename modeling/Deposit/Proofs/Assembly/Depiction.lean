import Deposit.Proofs.Archive.Tar.Taking
import Deposit.Proofs.Assembly.Names

set_option autoImplicit false
set_option relaxedAutoImplicit false

/-!
What a package holds and records of its content files, whatever sizes are declared of them. An entry
is only taken without a fault when its source has been read to the end, so that the description of a
content file is one of all its bytes, and all its bytes lie in the archive.
-/

namespace Deposit

namespace Composition

variable {plan : PackagingPlan} {submission : String} {c d : Composition}
  {items : List (ContentFile × String)} {entries : List (String × Bytes)}

private theorem Wrote.depicts (h : Wrote plan submission c items d)
    (hc : c.pipeline.writer.Bears entries) :
    ∃ (sources : List Source) (rs : List Resource),
      items.map (·.1.opened) = sources.map .ok ∧
      d.pipeline.writer.Bears (entries ++ (items.map Prod.snd).zip (sources.map Source.bytes)) ∧
      d.resources = c.resources ++ rs ∧
      List.Forall₂ (Depicts (Digest.Describes plan.algorithms)) rs
        ((items.map Prod.snd).zip (sources.map Source.bytes)) := by
  induction h generalizing entries with
  | nil c => exact ⟨[], [], rfl, by simpa using hc, (List.append_nil _).symm, .nil⟩
  | @cons c d e file path rest first others ih =>
    obtain ⟨source, hopened, hfault, hwriter, hresources⟩ := addContent_eq_none first
    obtain ⟨hbears, htook⟩ := hc.add (Reader.took_start plan.algorithms source) hfault
    rw [← hwriter] at hbears
    obtain ⟨sources, rs, hsources, hrest, hrs, hdepicts⟩ := ih hbears
    rw [hresources, List.append_assoc, List.singleton_append] at hrs
    rw [List.append_assoc, List.singleton_append] at hrest
    refine ⟨source :: sources, _, by simp [hopened, hsources], hrest, hrs,
      .cons ⟨rfl, ?_, ?_⟩ hdepicts⟩
    · exact congrArg Int.ofNat htook.count_eq
    · exact htook.describes

private theorem bears_addAllGenerated {files : List (String × Bytes)}
    (hc : c.pipeline.writer.Bears entries)
    (h : addAllGenerated plan submission c files = (d, none)) :
    d.pipeline.writer.Bears (entries ++ files) := by
  induction files generalizing c entries with
  | nil =>
    obtain rfl : c = d := congrArg Prod.fst h
    rwa [List.append_nil]
  | cons file files ih =>
    unfold addAllGenerated at h
    split at h
    · cases h
    · rename_i e heq
      obtain ⟨hfault, hwriter, -⟩ := addGenerated_eq_none heq
      have hbears := (hc.add (Reader.took_start plan.algorithms (Source.ofBytes file.2)) hfault).1
      rw [← hwriter] at hbears
      have hrest := ih hbears h
      rwa [List.append_assoc, List.singleton_append] at hrest

theorem addAllGenerated_of_tar (hdigests : plan.digestFault? = none) (h : c.Follows plan)
    (htar : plan.archive = .tar)
    (submission : String) {path : String} {content : Bytes} (hnew : path ∉ c.paths)
    (hshort : (Archive.Tar.records path content.length).length < Archive.Tar.sizeLimit) :
    ∃ d, addAllGenerated plan submission c [(path, content)] = (d, none) ∧ d.Follows plan := by
  have hfault : (c.pipeline.add path (.start plan.algorithms (Source.ofBytes content).open)
      (some content.length)).fault = none := by
    have hformat := h.format_eq
    have hisOpen := h.isOpen
    show (c.pipeline.writer.add path (.start plan.algorithms (Source.ofBytes content).open)
      (some content.length)).fault = none
    cases hwriter : c.pipeline.writer with
    | tar w =>
      rw [hwriter] at hisOpen
      exact Archive.Tar.Writer.fault_addDeclared_of_served hisOpen
        (Reader.took_start plan.algorithms (Source.ofBytes content)) rfl
        (fun _ asked _ => Nat.le_refl asked) hshort
    | raw w =>
      rw [hwriter, htar] at hformat
      cases hformat
    | zip w =>
      rw [hwriter, htar] at hformat
      cases hformat
  obtain ⟨d, hadd, -⟩ := addGenerated_of_not_mem hdigests submission hnew hfault
  have hall : addAllGenerated plan submission c [(path, content)] = (d, none) := by
    simp only [addAllGenerated, hadd]
  have hfollows : (addAllGenerated plan submission c [(path, content)]).1.Follows plan :=
    h.addAllGenerated _
  rw [hall] at hfollows
  exact ⟨d, hall, hfollows⟩

end Composition

namespace Assembler

variable {a : Assembler} {s : Submission} {placed : List Placed} {before after : Disk}
  {directory : List String} {name : String} {sink : Recorder} {p : PackageStream}

theorem map_fst_zip_opened {sources : List Source}
    (hplaced : Placement.resolve a.specification.policy s.placements = .ok placed)
    (hopened : s.files.map ContentFile.opened = sources.map Except.ok) :
    ((placed.map Placed.path).zip (sources.map Source.bytes)).map Prod.fst =
      placed.map Placed.path := by
  have hlength : placed.length = sources.length := by
    rw [length_placed hplaced, ← List.length_map (f := ContentFile.opened), hopened,
      List.length_map]
  exact List.map_fst_zip (by simp [hlength])

/-- The content files of a package stand first in it, at the places found for them, and each is
described by all bytes of its source, whatever size is declared of it. In a tar archive these bytes
lie behind the headers with these places; and a reader finds them in the archive of any format,
unless it is a tar archive and a negative size is declared. -/
theorem Built.carries (h : a.Built s placed before after directory name sink p)
    (hrefusal : a.refusal? s = none)
    (hplaced : Placement.resolve a.specification.policy s.placements = .ok placed)
    {decompress : Bytes → Option Bytes}
    (hdecompress : ∀ bs, decompress (a.compression.encode bs) = some bs) :
    ∃ (archived : Bytes) (sources : List Source) (generated : Generated),
      decompress sink.output = some archived ∧
      s.files.map ContentFile.opened = sources.map Except.ok ∧
      a.specification.generate s (p.resources.take s.files.length) = .ok generated ∧
      p.resources.map Resource.packagePath =
        placed.map Placed.path ++ generated.files.map Prod.fst ∧
      List.Forall₂ (Composition.Depicts (a.library.Describes a.options.algorithms))
        (p.resources.take s.files.length)
        ((placed.map Placed.path).zip (sources.map Source.bytes)) ∧
      (a.archive = .tar → ∃ body k, archived = body ++ Bytes.zeros k ∧
        Archive.Tar.Laid
          ((placed.map Placed.path).zip (sources.map Source.bytes) ++ generated.files) body) ∧
      ((a.archive = .tar → SizesNonneg s) → Archive.read? a.archive archived =
        some (((placed.map Placed.path).zip (sources.map Source.bytes) ++ generated.files).map
          fun e => (Archive.storedName? a.archive e.1, e.2))) := by
  obtain ⟨c, d, generated, hwrote, hgenerate, hall, htake, hlists, -, hresources, hsink⟩ :=
    h.parts hplaced
  have hstart := hwrote.follows (Composition.follows_start a.plan)
  have hfollows : (Composition.addAllGenerated a.plan s.id
      { c with notices := c.notices ++ generated.notices } generated.files).1.Follows a.plan :=
    (hstart.noted _).addAllGenerated generated.files
  rw [hall] at hfollows
  have hempty : (Composition.start a.plan).pipeline.writer.Bears [] := by
    rw [Composition.writer_start]
    exact Archive.Writer.bears_start a.plan.archive
  obtain ⟨sources, rs, hopened, hbears, hrs, hdepicts⟩ := hwrote.depicts hempty
  obtain rfl : c.resources = rs := hrs
  rw [List.nil_append, map_snd_zip_placed hplaced] at hbears
  rw [map_snd_zip_placed hplaced] at hdepicts
  replace hdepicts := a.depicts_of_supported hdepicts
  have hsources : s.files.map ContentFile.opened = sources.map Except.ok := by
    have hfiles := congrArg (List.map ContentFile.opened) (map_fst_zip_placed hplaced)
    rw [List.map_map] at hfiles
    exact hfiles.symm.trans hopened
  have hpaths : p.resources.map Resource.packagePath =
      placed.map Placed.path ++ generated.files.map Prod.fst := by
    rw [← hresources, Composition.map_packagePath_addAllGenerated hall,
      ← map_snd_zip_placed hplaced, ← Composition.packagePath_eq_of_lists hlists]
  obtain ⟨hout, -⟩ := hfollows.sound.close
  rw [hsink, hfollows.compression_eq] at hout
  have hdecoded : decompress sink.output = some d.pipeline.writer.close.written := by
    rw [hout]
    exact hdecompress _
  rw [htake] at hdepicts hgenerate
  refine ⟨_, sources, generated, hdecoded, hsources, hgenerate, hpaths, hdepicts, fun htar => ?_,
    fun hsizes => ?_⟩
  · have hbears' : ({ c with notices := c.notices ++ generated.notices } :
        Composition).pipeline.writer.Bears
          ((placed.map Placed.path).zip (sources.map Source.bytes)) := hbears
    exact (Composition.bears_addAllGenerated hbears' hall).laid_close hfollows.isOpen
      (hfollows.format_eq.trans htar)
  · -- what is found under declared sizes that are true is the same archive
    obtain ⟨archived, entries, sources', generated', hout', hread, hlisted, hopened', htaken,
      hgenerate', hdrop⟩ := h.stored hrefusal hplaced hsizes
    obtain rfl : archived = d.pipeline.writer.close.written := by
      rw [hout', hdecompress] at hdecoded
      exact Option.some.inj hdecoded
    obtain rfl : sources' = sources :=
      List.map_injective_iff.2 (fun _ _ => Except.ok.inj) (hopened'.symm.trans hsources)
    obtain rfl : generated' = generated := Except.ok.inj (hgenerate'.symm.trans hgenerate)
    have hnames : (entries.take s.files.length).map Prod.fst = placed.map Placed.path := by
      rw [List.map_take, hlisted, hpaths]
      exact List.take_left' (by simp [length_placed hplaced])
    rw [hread, ← hdrop, ← List.zip_of_prod hnames htaken, List.take_append_drop]

end Assembler

end Deposit
