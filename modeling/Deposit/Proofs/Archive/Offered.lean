import Deposit.Proofs.Archive.Splitting

set_option autoImplicit false
set_option relaxedAutoImplicit false

/-!
Many entries handed to an archive one after the other. An entry is fair if its source fails at no
read and serves every read in full, and a size that is declared of it is its own. What has left an
archive after some of the entries stays as it is while the others are added. Without an archive, the
first entry settles what is written, whether or not it is taken: however many entries are offered,
the output is what has been read of the first one.
-/

namespace Deposit.Archive

/-- An entry as it is handed to an archive, with the size that is declared of it, if one is. -/
structure Offered where
  path : String
  source : Source
  size : Option Int

namespace Offered

/-- The path and the content of an entry. -/
def entry (e : Offered) : String × Bytes :=
  (e.path, e.source.bytes)

/-- A reader over the source of an entry. -/
def reader (e : Offered) (algorithms : List Digest.Algorithm) : Reader :=
  .start algorithms e.source.open

structure IsFair (e : Offered) : Prop where
  faultFree : e.source.FaultFree
  servesFull : e.source.ServesFull
  size_eq : ∀ n, e.size = some n → n = e.source.bytes.length

theorem IsFair.servesPieces {e : Offered} (h : e.IsFair) : e.source.ServesPieces :=
  fun offset asked _ => (h.servesFull offset asked).ge

theorem IsFair.nonneg {e : Offered} (h : e.IsFair) : ∀ n, e.size = some n → 0 ≤ n := by
  intro n hn
  rw [h.size_eq n hn]
  exact Int.natCast_nonneg _

end Offered

/-- Adds entries one after the other, up to the first that is not taken. -/
def Writer.addAll (w : Writer) (algorithms : List Digest.Algorithm) :
    List Offered → Writer × Option Fault
  | [] => (w, none)
  | e :: entries =>
    let added := w.add e.path (e.reader algorithms) e.size
    match added.fault with
    | some fault => (added.writer, some fault)
    | none => added.writer.addAll algorithms entries

namespace Writer

private theorem written_prefix_addAll (w : Writer) (algorithms : List Digest.Algorithm)
    (offered : List Offered) : w.written <+: (w.addAll algorithms offered).1.written := by
  induction offered generalizing w with
  | nil => exact List.prefix_rfl
  | cons e offered ih =>
    have hfirst : w.written <+: (w.add e.path (e.reader algorithms) e.size).writer.written :=
      w.written_prefix_add e.path (e.reader algorithms) e.size
    unfold addAll
    dsimp only
    split
    · exact hfirst
    · exact hfirst.trans (ih _)

theorem written_addAll_take (w : Writer) (algorithms : List Digest.Algorithm)
    (offered : List Offered) (k : Nat) :
    (w.addAll algorithms (offered.take k)).1.written <+:
      (w.addAll algorithms offered).1.written := by
  induction offered generalizing w k with
  | nil =>
    simp only [List.take_nil]
    exact List.prefix_rfl
  | cons e offered ih =>
    cases k with
    | zero => exact w.written_prefix_addAll algorithms (e :: offered)
    | succ k =>
      rw [List.take_succ_cons]
      unfold addAll
      dsimp only
      split
      · exact List.prefix_rfl
      · exact ih _ k

end Writer

end Deposit.Archive

namespace Deposit.Archive.Raw.Writer

variable {w : Writer} {algorithms : List Digest.Algorithm}

/-- Offers entries one after the other, whether or not those before were taken. -/
def addEach (w : Writer) (algorithms : List Digest.Algorithm) : List Offered → List (Added Writer)
  | [] => []
  | e :: entries =>
    let added := w.add e.path (e.reader algorithms) e.size
    added :: added.writer.addEach algorithms entries

/-- How an entry is refused after another one. -/
def refusal (w : Writer) (algorithms : List Digest.Algorithm) (first : String) (e : Offered) :
    Added Writer :=
  ⟨w, e.reader algorithms, some (.archive (.singleFile e.path first))⟩

private theorem add_empty (e : Offered) (algorithms : List Digest.Algorithm) :
    ((empty.add e.path (e.reader algorithms) e.size).writer.path = some e.path) ∧
      (empty.add e.path (e.reader algorithms) e.size).writer.output.toList ++
        (empty.add e.path (e.reader algorithms) e.size).reader.stream.rest = e.source.bytes := by
  refine ⟨rfl, ?_⟩
  have hcopied := copyAll_append_rest #[] (e.reader algorithms)
  rw [List.nil_append] at hcopied
  exact hcopied

private theorem add_of_path {first : String} (h : w.path = some first) (e : Offered) :
    w.add e.path (e.reader algorithms) e.size = w.refusal algorithms first e := by
  unfold add
  rw [h]
  rfl

private theorem addEach_of_path {first : String} (h : w.path = some first)
    (entries : List Offered) :
    w.addEach algorithms entries = entries.map (w.refusal algorithms first) := by
  induction entries with
  | nil => rfl
  | cons e entries ih =>
    rw [addEach, add_of_path h, List.map_cons]
    exact congrArg (w.refusal algorithms first e :: ·) ih

private theorem rest_add_empty {e : Offered} (h : e.source.FaultFree)
    (algorithms : List Digest.Algorithm) :
    (empty.add e.path (e.reader algorithms) e.size).reader.stream.rest = [] := by
  have hfree : (e.reader algorithms).stream.source.FaultFree := h
  obtain ⟨hcopied, -⟩ := copyAll_of_faultFree #[] hfree
  obtain ⟨-, htook⟩ := copyAll_spec (Reader.took_start algorithms e.source) #[] hcopied
  have hall := htook.append_rest
  rw [List.append_right_eq_self] at hall
  exact hall

/-- However many entries are offered to a package without an archive, the first of them is written
as far as it can be read, to the end if its source fails at no read, and every other one is refused
with a fault of values that names it and the first. No refused entry is read, and what is written
stays what it is. -/
theorem addEach_empty (algorithms : List Digest.Algorithm) (e : Offered) (later : List Offered) :
    ∃ first : Added Writer,
      empty.addEach algorithms (e :: later) =
        first :: later.map (fun f => ⟨first.writer, f.reader algorithms,
          some (.archive (.singleFile f.path e.path))⟩) ∧
      first.writer.output.toList ++ first.reader.stream.rest = e.source.bytes ∧
      (e.source.FaultFree → first.writer.output.toList = e.source.bytes) := by
  obtain ⟨hpath, hwritten⟩ := add_empty e algorithms
  refine ⟨empty.add e.path (e.reader algorithms) e.size, ?_, hwritten, ?_⟩
  · exact congrArg (empty.add e.path (e.reader algorithms) e.size :: ·)
      (addEach_of_path hpath later)
  · intro hfree
    rw [rest_add_empty hfree, List.append_nil] at hwritten
    exact hwritten

end Deposit.Archive.Raw.Writer
