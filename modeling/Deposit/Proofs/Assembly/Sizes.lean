import Deposit.Proofs.Archive.Sizes
import Deposit.Proofs.Assembly.Depiction
import Deposit.Proofs.Assembly.Splitting

set_option autoImplicit false
set_option relaxedAutoImplicit false

/-!
Declared sizes in a submission. No archive takes a content file of another size than was declared of
it, and each takes all files of the right sizes if it has fields for them; so whether a submission
is refused for its sizes does not depend on the archive. This is said of sizes that are not
negative: a tar archive copies the remainder of a negative one, and where a file is just as long as
that, it is taken, under a header whose size is not its own.
-/

namespace Deposit

/-- A content file that can be opened, with a source that fails at no read and serves every read in
full. -/
def ContentFile.IsSteady (f : ContentFile) : Prop :=
  ∃ source, f.opened = .ok source ∧ source.FaultFree ∧ source.ServesFull

/-- A content file of its declared size, if it has one. -/
def ContentFile.IsRight (f : ContentFile) : Prop :=
  ∀ source, f.opened = .ok source → ∀ n, f.size = some n → n = source.bytes.length

theorem Source.ServesFull.servesPieces {s : Source} (h : s.ServesFull) : s.ServesPieces :=
  fun offset asked _ => (h offset asked).ge

theorem Archive.Writer.Holds.isReady {w : Archive.Writer} {entries : List (String × Bytes)}
    (h : w.Holds entries) (hfirst : w.format = .none → entries = []) : w.IsReady := by
  cases w with
  | raw w =>
    obtain rfl := hfirst rfl
    exact And.left h
  | tar w => exact Archive.Tar.Writer.Holds.isOpen h
  | zip w => exact Archive.Zip.Writer.Holds.isOpen h

namespace Composition

variable {plan : PackagingPlan} {submission : String} {c d : Composition}
  {items : List (ContentFile × String)}

private theorem Wrote.isRight (h : Wrote plan submission c items d)
    (hnonneg : ∀ i ∈ items, ∀ n, i.1.size = some n → 0 ≤ n) : ∀ i ∈ items, i.1.IsRight := by
  induction h with
  | nil c => simp
  | @cons c d e file path rest first others ih =>
    rw [List.forall_mem_cons] at hnonneg ⊢
    refine ⟨?_, ih hnonneg.2⟩
    intro source hopened
    obtain ⟨other, hother, hfault, -⟩ := addContent_eq_none first
    obtain rfl : source = other := Except.ok.inj (hopened.symm.trans hother)
    exact Archive.Writer.right_of_add (Reader.took_start plan.algorithms source) hnonneg.1 hfault

/-- What is asked of a content file and its path for an archive to take it. -/
structure IsTakable (plan : PackagingPlan) (i : ContentFile × String) : Prop where
  steady : i.1.IsSteady
  nonneg : ∀ n, i.1.size = some n → 0 ≤ n
  right : i.1.IsRight
  expressible : ∀ source, i.1.opened = .ok source →
    Archive.Expressible plan.archive i.2 source.bytes

theorem IsTakable.addContent (hdigests : plan.digestFault? = none) {file : ContentFile}
    {path : String}
    (h : IsTakable plan (file, path)) (hc : c.Follows plan) (hready : c.pipeline.writer.IsReady)
    (submission : String) :
    ∃ d, Composition.addContent plan submission c file path file.opened = (d, none) := by
  obtain ⟨source, hopened, hfree, hserves⟩ := h.steady
  have hexpressible := h.expressible source hopened
  rw [← hc.format_eq] at hexpressible
  have hfault := (Archive.Writer.fault_add_eq_none_iff hready
    (Reader.took_start plan.algorithms source) hfree hserves.servesPieces h.nonneg).2
    ⟨h.right source hopened, hexpressible⟩
  rcases addContent_cases hdigests submission c file path with hwritten | ⟨fault, hraises⟩
  · exact hwritten
  · cases hraises with
    | opening herror => cases hopened.symm.trans herror
    | @adding other _ hother hadd =>
      obtain rfl : source = other := Except.ok.inj (hopened.symm.trans hother)
      cases hfault.symm.trans hadd

private theorem wrote_of_isTakable (hdigests : plan.digestFault? = none) (hc : c.Follows plan)
    (hready : c.pipeline.writer.IsReady)
    (hsingle : plan.archive = .none → items.length ≤ 1) (h : ∀ i ∈ items, IsTakable plan i)
    (submission : String) : ∃ d, Wrote plan submission c items d := by
  induction items generalizing c with
  | nil => exact ⟨c, .nil c⟩
  | cons item items ih =>
    obtain ⟨file, path⟩ := item
    obtain ⟨d, first⟩ := IsTakable.addContent hdigests (h _ List.mem_cons_self) hc hready submission
    have hd : (Composition.addContent plan submission c file path file.opened).1.Follows plan :=
      hc.addContent file path file.opened
    rw [first] at hd
    by_cases harchive : plan.archive = .none
    · -- without an archive, this file is the only one
      have hlength := hsingle harchive
      rw [List.length_cons] at hlength
      obtain rfl : items = [] := List.length_eq_zero_iff.1 (by omega)
      exact ⟨d, .cons first (.nil d)⟩
    · have hnext : d.pipeline.writer.IsReady := hd.isOpen.isReady (by rwa [hd.format_eq])
      obtain ⟨e, others⟩ := ih hd hnext (fun hnone => absurd hnone harchive)
        fun i hi => h i (List.mem_cons_of_mem _ hi)
      exact ⟨e, .cons first others⟩

end Composition

namespace Assembler

variable {a : Assembler} {s : Submission} {placed : List Placed} {before : Surroundings}
  {c : Composition}

/-- When all content files have been written and nothing is generated, there is a package, if its
archive is not too long to be ended. -/
theorem Admits.run_assemble_of_wrote (h : a.Admits s placed before)
    (hwrote : Composition.Wrote a.plan s.id (.start a.plan)
      (s.files.zip (placed.map Placed.path)) c)
    {notices : List String}
    (hgenerate : a.specification.generate s c.resources = .ok { files := [], notices })
    (hfits : c.pipeline.writer.Fits) :
    ∃ p after, (a.assemble s : StateM Surroundings _).run before = (.ok p, after) := by
  have hadd : Composition.addSupplement a.plan s c =
      ({ c with notices := c.notices ++ notices }, none) := by
    have hplan : a.plan.specification.generate s c.resources = .ok { files := [], notices } :=
      hgenerate
    rw [Composition.addSupplement, hplan]
    rfl
  have hcompose := run_compose_of_wrote hwrote
  rw [hadd] at hcompose
  have houtcome : (({ c with notices := c.notices ++ notices } : Composition).conclude s.id
      none).outcome = .ok c.resources := by
    unfold Composition.conclude
    have hfollows : c.Follows a.plan := hwrote.follows (Composition.follows_start a.plan)
    simp only [hfits.closeFault?_eq_none hfollows.isOpen]
  obtain ⟨place, path, -, hrun⟩ := h.run_assemble hcompose
  rw [houtcome] at hrun
  exact ⟨_, _, hrun⟩

private theorem Admits.run_assemble_of_wrong (h : a.Admits s placed before)
    (hnonneg : SizesNonneg s) (hwrong : ∃ f ∈ s.files, ¬ f.IsRight) :
    ∃ failure after, (a.assemble s : StateM Surroundings _).run before =
      (.error failure, after) := by
  obtain ⟨f, hf, hwrong⟩ := hwrong
  rw [← map_fst_zip_placed h.placed_eq] at hf
  obtain ⟨item, hitem, rfl⟩ := List.mem_map.1 hf
  have hsizes : ∀ i ∈ s.files.zip (placed.map Placed.path), ∀ n, i.1.size = some n → 0 ≤ n := by
    intro i hi
    exact hnonneg i.1 (List.of_mem_zip hi).1
  rcases Composition.wrote_or_raises h.digests s.id (.start a.plan)
      (s.files.zip (placed.map Placed.path)) with
    ⟨c, hwrote⟩ | ⟨earlier, file, path, later, c, fault, hsplit, hwrote, hraises⟩
  · exact absurd (hwrote.isRight hsizes item hitem) hwrong
  · have hfirst : a.FirstFault s placed c earlier file path later fault :=
      ⟨hsplit, hwrote, hraises⟩
    obtain ⟨failure, after, hrun, -⟩ := hfirst.run_assemble h.toStarts
    exact ⟨failure, after, hrun a.specification.generate⟩

/-- Declared sizes are enforced alike by every archive. An entry whose source fails at no read and
serves every read in full is taken, without an archive as the first one, exactly if the size that is
declared of it, if one is, is its own, and if the format has fields for it: all have, unless its
path or its content is immense. Then all its bytes have been read and counted, and it is held with
them. So, whatever the archive, no submission with a size that is not negative and wrong is
assembled, and one with right sizes is written. -/
theorem assemble_enforces_sizes :
    (∀ (w : Archive.Writer) (entries : List (String × Bytes))
        (algorithms : List Digest.Algorithm) (path : String) (source : Source)
        (size : Option Int),
      w.Holds entries → (w.format = .none → entries = []) → source.FaultFree →
      source.ServesFull → (∀ n, size = some n → 0 ≤ n) →
      ((w.add path (.start algorithms source.open) size).fault = none ↔
        (∀ n, size = some n → n = source.bytes.length) ∧
          Archive.Expressible w.format path source.bytes) ∧
      ((w.add path (.start algorithms source.open) size).fault = none →
        (w.add path (.start algorithms source.open) size).reader.count = source.bytes.length ∧
        (w.add path (.start algorithms source.open) size).reader.stream.rest = [] ∧
        (w.add path (.start algorithms source.open) size).writer.Holds
          (entries ++ [(path, source.bytes)]))) ∧
    (∀ (format : ArchiveFormat) (path : String) (content : Bytes),
      (Bytes.ofText path).length ≤ 65535 → content.length < 2 ^ 63 →
      Archive.Expressible format path content) ∧
    ∀ (a : Assembler) (s : Submission) (placed : List Placed) (before : Surroundings),
      a.Admits s placed before → SizesNonneg s →
      ((∃ f ∈ s.files, ¬ f.IsRight) →
        ∃ failure after, (a.assemble s : StateM Surroundings _).run before =
          (.error failure, after)) ∧
      ((∀ f ∈ s.files, f.IsSteady ∧ f.IsRight) →
        (∀ i ∈ s.files.zip (placed.map Placed.path), ∀ source, i.1.opened = .ok source →
          Archive.Expressible a.archive i.2 source.bytes) →
        (a.archive = .none → s.files.length ≤ 1) →
        ∃ c, Composition.Wrote a.plan s.id (.start a.plan)
            (s.files.zip (placed.map Placed.path)) c ∧
          ∀ notices, a.specification.generate s c.resources = .ok { files := [], notices } →
            c.pipeline.writer.Fits →
            ∃ p after, (a.assemble s : StateM Surroundings _).run before = (.ok p, after)) := by
  refine ⟨?entry, fun format _ _ => Archive.expressible_of_le format, ?submission⟩
  case entry =>
    intro w entries algorithms path source size hholds hfirst hfree hserves hnonneg
    have htook := Reader.took_start algorithms source
    refine ⟨Archive.Writer.fault_add_eq_none_iff (hholds.isReady hfirst) htook hfree
      hserves.servesPieces hnonneg, fun hfault => ?_⟩
    obtain ⟨hnext, hall⟩ := hholds.add htook hnonneg hfault
    have hrest := hall.append_rest
    rw [List.append_right_eq_self] at hrest
    exact ⟨hall.count_eq, hrest, hnext⟩
  case submission =>
    intro a s placed before hadmits hnonneg
    refine ⟨hadmits.run_assemble_of_wrong hnonneg, fun hgood hexpressible hsingle => ?_⟩
    have htakable : ∀ i ∈ s.files.zip (placed.map Placed.path),
        Composition.IsTakable a.plan i := by
      intro i hi
      have hf := (List.of_mem_zip hi).1
      exact ⟨(hgood i.1 hf).1, hnonneg i.1 hf, (hgood i.1 hf).2, hexpressible i hi⟩
    have hlength : a.plan.archive = .none →
        (s.files.zip (placed.map Placed.path)).length ≤ 1 := by
      intro hnone
      rw [List.length_zip]
      exact (Nat.min_le_left _ _).trans (hsingle hnone)
    have hready : (Composition.start a.plan).pipeline.writer.IsReady := by
      rw [Composition.writer_start]
      exact Archive.Writer.isReady_start a.archive
    obtain ⟨c, hwrote⟩ := Composition.wrote_of_isTakable hadmits.digests
      (Composition.follows_start a.plan) hready hlength htakable s.id
    exact ⟨c, hwrote, fun notices hgenerate => hadmits.run_assemble_of_wrote hwrote hgenerate⟩

/-- A submission of one file of six bytes, with a declared size or none. -/
def declaredSubmission (size : Option Int) : Submission where
  id := "sub-1"
  files :=
    [{ name := "a.txt"
       role := .manuscript
       opened := .ok (.ofBytes (Bytes.ofText "abcdef"))
       size }]
  metadata := []

private theorem admits_declaredSubmission (size : Option Int) :
    tarAssembler.Admits (declaredSubmission size) (pagePlaces ["a.txt"]) emptyDesk := by
  have hplacements : (declaredSubmission size).placements = [("a.txt", .manuscript)] := rfl
  have hplaced : Placement.resolve tarAssembler.specification.policy
      (declaredSubmission size).placements = .ok (pagePlaces ["a.txt"]) := by
    rw [hplacements]
    decide +kernel
  exact ⟨⟨rfl, hplaced, _, _, rfl⟩, rfl⟩

theorem assemble_enforces_six :
    (∀ format, ((Archive.Writer.start format).add "a.txt"
        (.start [] (Source.ofBytes (Bytes.ofText "abcdef")).open) (some 6)).fault = none ∧
      ((Archive.Writer.start format).add "a.txt"
        (.start [] (Source.ofBytes (Bytes.ofText "abcdef")).open) none).fault = none ∧
      ((Archive.Writer.start format).add "a.txt"
        (.start [] (Source.ofBytes (Bytes.ofText "abcdef")).open) (some 5)).fault ≠ none ∧
      ((Archive.Writer.start format).add "a.txt"
        (.start [] (Source.ofBytes (Bytes.ofText "abcdef")).open) (some 7)).fault ≠ none) ∧
    (∃ failure after, (tarAssembler.assemble (declaredSubmission (some 7)) :
        StateM Surroundings _).run emptyDesk = (.error failure, after)) ∧
    ∃ p after, (tarAssembler.assemble (declaredSubmission (some 6)) :
      StateM Surroundings _).run emptyDesk = (.ok p, after) := by
  obtain ⟨hentry, hexpressible, hsubmission⟩ := assemble_enforces_sizes
  have hfields (format : ArchiveFormat) :
      Archive.Expressible format "a.txt" (Bytes.ofText "abcdef") :=
    hexpressible format _ _ (by decide) (by decide)
  refine ⟨fun format => ?_, ?_, ?_⟩
  · have htaken (size : Option Int) (hnonneg : ∀ n, size = some n → 0 ≤ n) :=
      (hentry (.start format) [] [] "a.txt" (.ofBytes (Bytes.ofText "abcdef")) size
        (Archive.Writer.holds_start format) (fun _ => rfl) rfl (fun _ _ => rfl) hnonneg).1
    rw [Archive.Writer.format_start] at htaken
    refine ⟨(htaken (some 6) ?_).2 ⟨?_, hfields format⟩, (htaken none ?_).2 ⟨?_, hfields format⟩,
      fun hfault => ?_, fun hfault => ?_⟩
    · rintro n ⟨⟩
      decide
    · rintro n ⟨⟩
      decide
    · rintro n ⟨⟩
    · rintro n ⟨⟩
    · exact absurd (((htaken (some 5) (by rintro n ⟨⟩; decide)).1 hfault).1 5 rfl) (by decide)
    · exact absurd (((htaken (some 7) (by rintro n ⟨⟩; decide)).1 hfault).1 7 rfl) (by decide)
  · obtain ⟨hwrong, -⟩ :=
      hsubmission _ _ _ _ (admits_declaredSubmission (some 7)) (by decide)
    refine hwrong ⟨_, List.mem_singleton.2 rfl, fun hright => ?_⟩
    exact absurd (hright _ rfl 7 rfl) (by decide)
  · obtain ⟨-, hgood⟩ := hsubmission _ _ _ _ (admits_declaredSubmission (some 6)) (by decide)
    have hsteady : ∀ f ∈ (declaredSubmission (some 6)).files, f.IsSteady ∧ f.IsRight := by
      intro f hf
      obtain rfl := List.mem_singleton.1 hf
      refine ⟨⟨_, rfl, rfl, fun _ _ => rfl⟩, ?_⟩
      rintro source ⟨⟩ n ⟨⟩
      decide
    have hexpressible : ∀ i ∈ (declaredSubmission (some 6)).files.zip
        ((pagePlaces ["a.txt"]).map Placed.path), ∀ source, i.1.opened = .ok source →
          Archive.Expressible tarAssembler.archive i.2 source.bytes := by
      intro i hi source hopened
      obtain rfl := List.mem_singleton.1 hi
      cases hopened
      exact hfields .tar
    obtain ⟨c, hwrote, hreturns⟩ := hgood hsteady hexpressible (by rintro ⟨⟩)
    exact hreturns [] rfl ((hwrote.follows (Composition.follows_start _)).fits (by decide))

/-- A name of one letter, a number of times. -/
def nameOfLength (n : Nat) : String :=
  String.ofList (List.replicate n 'a')

private theorem length_ofText_nameOfLength (n : Nat) :
    (Bytes.ofText (nameOfLength n)).length = n := by
  have hascii : ∀ c ∈ List.replicate n 'a', c.toNat < 128 := by
    intro c hc
    rw [List.eq_of_mem_replicate hc]
    decide
  rw [nameOfLength, Bytes.ofText_eq_ofChars hascii, Bytes.length_ofChars, List.length_replicate]

private theorem cutName_nameOfLength (n : Nat) :
    Archive.Zip.cutName (nameOfLength n) = nameOfLength n := by
  refine Archive.ofList_takeWhile_eq_self_iff.2 fun hzero => ?_
  rw [nameOfLength, String.toList_ofList] at hzero
  exact absurd (List.eq_of_mem_replicate hzero) (by decide)

private theorem length_nameOfLength (n : Nat) : (nameOfLength n).length = n := by
  rw [nameOfLength, String.length_ofList, List.length_replicate]

private theorem not_expressible_zip {n : Nat} (h : 65535 < n) (content : Bytes) :
    ¬ Archive.Expressible .zip (nameOfLength n) content := by
  intro hfits
  have hname := Archive.Zip.Fits.name_le hfits
  rw [cutName_nameOfLength, length_ofText_nameOfLength] at hname
  omega

private theorem not_expressible_zip_of_content {content : Bytes}
    (h : Archive.Zip.wideLimit ≤ content.length)
    (path : String) : ¬ Archive.Expressible .zip path content := by
  intro hfits
  have hpacked := Archive.Zip.Fits.packed_lt hfits
  have hlength := Codec.Deflate.length_lt_encode content
  omega

private theorem not_expressible_tar {n : Nat} (h : Archive.Tar.sizeLimit ≤ n) (content : Bytes) :
    ¬ Archive.Expressible .tar (nameOfLength n) content := by
  have hneeds : Archive.Tar.needsPathRecord (nameOfLength n) = true := by
    have hlong : 100 < (nameOfLength n).length := by
      rw [length_nameOfLength]
      rw [Archive.Tar.sizeLimit] at h
      omega
    rw [Archive.Tar.needsPathRecord, decide_eq_true hlong, Bool.or_true]
  have hrecord : n ≤ (Archive.Tar.record "path" (nameOfLength n)).length := by
    have hname := length_ofText_nameOfLength n
    simp only [Archive.Tar.record, Bytes.ofText_append, List.length_append, hname]
    omega
  intro hshort
  have hrecords : (Archive.Tar.records (nameOfLength n) content.length).length <
      Archive.Tar.sizeLimit := hshort
  rw [Archive.Tar.records, if_pos hneeds, List.length_append] at hrecords
  omega

private theorem start_takes_iff (format : ArchiveFormat) (path : String) (content : Bytes) :
    ((Archive.Writer.start format).add path (.start [] (Source.ofBytes content).open)
      (some content.length)).fault = none ↔ Archive.Expressible format path content := by
  have hown : ∀ n : Int, some (content.length : Int) = some n → n = content.length :=
    fun n hn => (Option.some.inj hn).symm
  refine (Archive.Writer.fault_add_eq_none_iff (Archive.Writer.isReady_start format)
    (Reader.took_start [] (Source.ofBytes content)) rfl (fun _ _ _ => Nat.le_refl _)
    fun n hn => hown n hn ▸ Int.natCast_nonneg _).trans ?_
  rw [Archive.Writer.format_start]
  exact and_iff_right hown

/-- What a format has no fields for is refused, though the size that is declared is the right one: a
name of more than 65535 bytes or a content of 64-bit length in a zip archive, a name of gibibytes in
a tar archive. -/
theorem immense_refused :
    ((Archive.Writer.start .zip).add (nameOfLength 65536)
      (.start [] (Source.ofBytes [0]).open) (some ([0] : Bytes).length)).fault ≠ none ∧
    ((Archive.Writer.start .tar).add (nameOfLength 65536)
      (.start [] (Source.ofBytes [0]).open) (some ([0] : Bytes).length)).fault = none ∧
    ((Archive.Writer.start .none).add (nameOfLength 65536)
      (.start [] (Source.ofBytes [0]).open) (some ([0] : Bytes).length)).fault = none ∧
    ((Archive.Writer.start .tar).add (nameOfLength Archive.Tar.sizeLimit)
      (.start [] (Source.ofBytes [0]).open) (some ([0] : Bytes).length)).fault ≠ none ∧
    ((Archive.Writer.start .zip).add "zeros"
      (.start [] (Source.ofBytes (Bytes.zeros Archive.Zip.wideLimit)).open)
      (some (Bytes.zeros Archive.Zip.wideLimit).length)).fault ≠ none := by
  have hfits : Archive.Tar.Fits ⟨nameOfLength 65536, .ofBytes [0], none⟩ := by
    refine Archive.Tar.fits_of_le ?_ (by decide)
    rw [length_nameOfLength]
    omega
  have hlong : Archive.Zip.wideLimit ≤ (Bytes.zeros Archive.Zip.wideLimit).length :=
    (Bytes.length_zeros _).ge
  refine ⟨fun hzip => ?_, (start_takes_iff .tar _ _).2 hfits, (start_takes_iff .none _ _).2 trivial,
    fun htar => ?_, fun hzip => ?_⟩
  · exact not_expressible_zip (by omega) _ ((start_takes_iff .zip _ _).1 hzip)
  · exact not_expressible_tar (Nat.le_refl _) _ ((start_takes_iff .tar _ _).1 htar)
  · exact not_expressible_zip_of_content hlong _ ((start_takes_iff .zip _ _).1 hzip)

end Assembler

namespace Archive.Tar.Writer

variable {w : Writer} {r : Reader} {algorithms : List Digest.Algorithm} {content : Bytes}
  {path : String}

private theorem addDeclared_of_neg {n : Int} (hneg : n < 0) (hopen : w.closed = false)
    (hr : r.Took algorithms content []) (hfree : r.stream.source.FaultFree)
    (hserves : r.stream.source.ServesPieces)
    (hshort : (records path n).length < sizeLimit) :
    ((w.addDeclared path r n).fault = none ↔ (content.length : Int) = n % copySize) ∧
      ((w.addDeclared path r n).fault = none →
        ∃ k, (w.addDeclared path r n).writer.output.toList =
          w.output.toList ++ (header path n ++ content ++ Bytes.zeros k)) := by
  have hlength := copyLength_of_neg hneg
  refine ⟨(fault_addDeclared_eq_none_iff hopen hr hfree hserves).trans ⟨?_, ?_⟩, ?_⟩
  · rintro ⟨heq, -⟩
    rw [heq, hlength]
  · intro heq
    exact ⟨by omega, hshort⟩
  · intro hf
    obtain ⟨k, -, houtput, -⟩ := addDeclared_eq_none hr hf
    exact ⟨k, houtput⟩

end Archive.Tar.Writer

namespace Composition

variable {plan : PackagingPlan} {submission : String} {c d : Composition}
  {items : List (ContentFile × String)}

private theorem Wrote.of_neg (h : Wrote plan submission c items d) (hc : c.Follows plan) :
    ∀ i ∈ items, ∀ n, i.1.size = some n → n < 0 →
      plan.archive = .tar ∧
        ∃ source, i.1.opened = .ok source ∧
          (source.bytes.length : Int) = n % Archive.Tar.copySize := by
  induction h with
  | nil c => simp
  | @cons c d e file path rest first others ih =>
    have hd : (addContent plan submission c file path file.opened).1.Follows plan :=
      hc.addContent file path file.opened
    rw [first] at hd
    rw [List.forall_mem_cons]
    refine ⟨fun n hn hneg => ?_, ih hd⟩
    obtain ⟨source, hopened, hfault, -⟩ := addContent_eq_none first
    dsimp only at hn
    rw [hn] at hfault
    obtain ⟨htar, hlength⟩ := Archive.Writer.format_eq_tar_of_add hneg
      (Reader.took_start plan.algorithms source) hfault
    exact ⟨hc.format_eq.symm.trans htar, source, hopened, hlength⟩

end Composition

namespace Assembler

/-- A negative size that is declared of an entry is refused by every archive, and fails the
assembly, but for one case: a tar archive takes the entry if its content is as long as the remainder
that the size leaves when it is divided by the length of a piece of the copy. What then stands
behind the header is as long as that, whereas the size in the header is the negative one. In every
other package the sizes lead a reader to all contents. -/
theorem assemble_refuses_negative_sizes (n : Int) (hneg : n < 0) :
    (∀ (w : Archive.Writer) (algorithms : List Digest.Algorithm) (path : String) (source : Source),
      (w.add path (.start algorithms source.open) (some n)).fault = none →
      w.format = .tar ∧ (source.bytes.length : Int) = n % Archive.Tar.copySize) ∧
    (∀ (w : Archive.Tar.Writer) (algorithms : List Digest.Algorithm) (path : String)
        (source : Source), w.closed = false → source.FaultFree → source.ServesPieces →
      (Archive.Tar.records path n).length < Archive.Tar.sizeLimit →
      ((w.add path (.start algorithms source.open) (some n)).fault = none ↔
        (source.bytes.length : Int) = n % Archive.Tar.copySize) ∧
      ((w.add path (.start algorithms source.open) (some n)).fault = none →
        ∃ k, (w.add path (.start algorithms source.open) (some n)).writer.output.toList =
          w.output.toList ++ (Archive.Tar.header path n ++ source.bytes ++ Bytes.zeros k))) ∧
    ∀ (a : Assembler) (s : Submission) (before after : Surroundings) (p : PackageStream),
      (a.assemble s : StateM Surroundings _).run before = (.ok p, after) →
      (∀ f ∈ s.files, f.size = some n →
        a.archive = .tar ∧
          ∃ source, f.opened = .ok source ∧
            (source.bytes.length : Int) = n % Archive.Tar.copySize) ∧
      ∀ decompress : Bytes → Option Bytes,
        (∀ bs, decompress (a.compression.encode bs) = some bs) →
        (a.archive = .tar → SizesNonneg s) →
        ∃ (bytes archived : Bytes) (placed : List Placed) (sources : List Source)
            (generated : Generated),
          (p.open : StateM Surroundings _).run after = (.ok (.start bytes), after) ∧
          decompress bytes = some archived ∧
          s.files.map ContentFile.opened = sources.map Except.ok ∧
          Archive.read? a.archive archived =
            some (((placed.map Placed.path).zip (sources.map Source.bytes) ++
              generated.files).map fun e => (Archive.storedName? a.archive e.1, e.2)) := by
  refine ⟨?entry, ?tar, ?submission⟩
  case entry =>
    intro w algorithms path source hfault
    exact Archive.Writer.format_eq_tar_of_add hneg (Reader.took_start algorithms source) hfault
  case tar =>
    intro w algorithms path source hopen hfree hserves hshort
    exact Archive.Tar.Writer.addDeclared_of_neg hneg hopen (Reader.took_start algorithms source)
      hfree hserves hshort
  case submission =>
    intro a s before after p hrun
    obtain ⟨placed, directory, name, sink, hrefusal, hplaced, hbuilt⟩ := built_of_run hrun
    refine ⟨fun f hf hn => ?_, fun decompress hdecompress hsizes => ?_⟩
    · obtain ⟨c, d, hwrote, -⟩ := hbuilt.composed
      rw [← map_fst_zip_placed hplaced] at hf
      obtain ⟨item, hitem, rfl⟩ := List.mem_map.1 hf
      exact hwrote.of_neg (Composition.follows_start a.plan) item hitem n hn hneg
    · obtain ⟨archived, sources, generated, harchived, hopened, -, -, -, -, hread⟩ :=
        hbuilt.carries hrefusal hplaced hdecompress
      exact ⟨sink.output, archived, placed, sources, generated, hbuilt.run_open, harchived,
        hopened, hread hsizes⟩

/-- A submission of one empty file of which a size is declared. -/
def emptySubmission (size : Int) : Submission where
  id := "sub-1"
  files :=
    [{ name := "a.txt"
       role := .manuscript
       opened := .ok (.ofBytes [])
       size := some size }]
  metadata := []

/-- A negative multiple of the length of a piece leaves no remainder, so an empty file is taken. -/
theorem emptySubmission_taken :
    ∃ p after, (tarAssembler.assemble (emptySubmission (-16384)) :
      StateM Surroundings _).run emptyDesk = (.ok p, after) := by
  have hreturns : Surroundings.returns (tarAssembler.assemble (emptySubmission (-16384))) emptyDesk
      (fun _ => true) = true := by
    decide +kernel
  obtain ⟨p, after, hrun, -⟩ := Surroundings.run_of_returns hreturns
  exact ⟨p, after, hrun⟩

/-- The same file under another negative size, and what the archive is left with under the first. -/
theorem emptySubmission_refused :
    (∀ p after, (tarAssembler.assemble (emptySubmission (-1)) :
      StateM Surroundings _).run emptyDesk ≠ (.ok p, after)) ∧
    (∀ format, format ≠ .tar → ((Archive.Writer.start format).add "a.txt"
      (.start [] (Source.ofBytes []).open) (some (-16384))).fault ≠ none) ∧
    ∃ k, (Archive.Tar.Writer.empty.add "a.txt" (.start [] (Source.ofBytes []).open)
        (some (-16384))).writer.output.toList =
      Archive.Tar.header "a.txt" (-16384) ++ Bytes.zeros k := by
  obtain ⟨-, -, hsubmission⟩ := assemble_refuses_negative_sizes (-1) (by decide)
  obtain ⟨hentry, htar, -⟩ := assemble_refuses_negative_sizes (-16384) (by decide)
  refine ⟨fun p after hrun => ?_, fun format hformat hfault => ?_, ?_⟩
  · obtain ⟨-, source, hopened, hlength⟩ :=
      (hsubmission _ _ _ _ _ hrun).1 _ (List.mem_singleton.2 rfl) rfl
    cases hopened
    exact absurd hlength (by decide)
  · have hstart := (hentry _ _ _ _ hfault).1
    rw [Archive.Writer.format_start] at hstart
    exact hformat hstart
  · have hshort : (Archive.Tar.records "a.txt" (-16384)).length < Archive.Tar.sizeLimit := by
      decide +kernel
    obtain ⟨htaken, hlaid⟩ := htar .empty [] "a.txt" (.ofBytes []) rfl rfl
      (fun _ _ _ => Nat.le_refl _) hshort
    obtain ⟨k, hk⟩ := hlaid (htaken.2 (by decide))
    refine ⟨k, ?_⟩
    rw [hk]
    show [] ++ (Archive.Tar.header "a.txt" (-16384) ++ [] ++ Bytes.zeros k) = _
    rw [List.nil_append, List.append_nil]

end Assembler

end Deposit
