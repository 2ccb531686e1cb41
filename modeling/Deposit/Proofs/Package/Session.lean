import Deposit.Proofs.Assembly.Package
import Deposit.Proofs.Disk.Directories
import Deposit.Proofs.Package.Stream

set_option autoImplicit false
set_option relaxedAutoImplicit false

/-!
A package in use. Whatever is done with it, in whatever order, its file is there with all its bytes
until the package is first closed, and gone from then on; every reader has delivered a beginning of
these bytes and holds the rest.
-/

namespace Deposit

/-- What may be done with a package. Readers are told apart by the order in which they were
opened. -/
inductive PackageOperation where
  | open
  | read (reader : Nat) (asked : Int)
  | closeReader (reader : Nat)
  | writeTo (destination : Location)
  | resource (name : String)
  | close
  | leave

inductive PackageAnswer where
  | reader (number : Nat)
  | bytes (piece : Bytes)
  | place (l : Location)
  | resource (r : Resource)
  | done
  | fault (f : StreamFault)
  | absent

/-- An operation with its answer. -/
abbrev PackageEvent := PackageOperation × PackageAnswer

/-- A package and the readers opened so far. -/
structure PackageSession where
  package : PackageStream
  readers : List PackageReader

/-- Whether the operation closes the package: leaving its context does so too. -/
def PackageOperation.isClosing : PackageOperation → Bool
  | close => true
  | leave => true
  | _ => false

namespace PackageSession

section

variable {m : Type → Type} [Host m]

def perform (s : PackageSession) : PackageOperation → m (PackageSession × PackageAnswer)
  | .open => do
    match ← s.package.open with
    | .ok r => pure ({ s with readers := s.readers ++ [r] }, .reader s.readers.length)
    | .error f => pure (s, .fault f)
  | .read n asked =>
    match s.readers[n]? with
    | none => pure (s, .absent)
    | some r =>
      match r.read asked with
      | .ok (piece, r) => pure ({ s with readers := s.readers.set n r }, .bytes piece)
      | .error f => pure (s, .fault f)
  | .closeReader n =>
    match s.readers[n]? with
    | none => pure (s, .absent)
    | some r => pure ({ s with readers := s.readers.set n r.close }, .done)
  | .writeTo l => do
    match ← s.package.writeTo l with
    | .ok l => pure (s, .place l)
    | .error f => pure (s, .fault f)
  | .resource name =>
    match s.package.resource name with
    | .ok r => pure (s, .resource r)
    | .error f => pure (s, .fault f)
  | .close | .leave => do
    let package ← s.package.close
    pure ({ s with package }, .done)

/-- Performs operations one after the other and keeps their answers. -/
def run (s : PackageSession) : List PackageOperation → m (PackageSession × List PackageEvent)
  | [] => pure (s, [])
  | operation :: operations => do
    let (next, answer) ← s.perform operation
    let (last, events) ← next.run operations
    pure (last, (operation, answer) :: events)

end

/-- What a reader has delivered so far. -/
def delivered (n : Nat) (events : List PackageEvent) : Bytes :=
  events.flatMap fun
    | (.read k _, .bytes piece) => if k = n then piece else []
    | _ => []

/-- How an operation on a package goes, whose bytes are in a file of its own until it is closed. -/
inductive Performs (bytes : Bytes) (key : List String) (s : PackageSession)
    (before : Surroundings) :
    PackageOperation → PackageSession → PackageAnswer → Surroundings → Prop where
  /-- A new reader stands before all bytes. -/
  | opened (hopen : s.package.closed = false) :
      Performs bytes key s before .open { s with readers := s.readers ++ [.start bytes] }
        (.reader s.readers.length) before
  /-- A file holds exactly the bytes, whatever it held before, and no other file changes. -/
  | written {l : Location} {disk : Disk} (hopen : s.package.closed = false)
      (hwrite : before.disk.write l bytes = .ok disk) (hread : disk.read l = .ok bytes)
      (hothers : ∀ k, before.disk.locate l ≠ .ok k → disk.item? k = before.disk.item? k) :
      Performs bytes key s before (.writeTo l) s (.place l) { before with disk }
  /-- No file can be written there. -/
  | unwritten {l : Location} {fault : FileFault} (hopen : s.package.closed = false)
      (hwrite : before.disk.write l bytes = .error fault) :
      Performs bytes key s before (.writeTo l) s (.fault (.file fault)) before
  /-- The file is removed, and nothing else. -/
  | closed {operation : PackageOperation} {log : List Notice}
      (hoperation : operation.isClosing = true) (hopen : s.package.closed = false) :
      Performs bytes key s before operation { s with package := { s.package with closed := true } }
        .done { before with disk := before.disk.erase key, log }
  | openedLate (hclosed : s.package.closed = true) :
      Performs bytes key s before .open s (.fault (.closed s.package.metadata.name)) before
  | writtenLate (l : Location) (hclosed : s.package.closed = true) :
      Performs bytes key s before (.writeTo l) s (.fault (.closed s.package.metadata.name)) before
  | closedAgain {operation : PackageOperation} (hoperation : operation.isClosing = true)
      (hclosed : s.package.closed = true) :
      Performs bytes key s before operation s .done before
  | looked {name : String} {r : Resource} (hfound : s.package.resource name = .ok r) :
      Performs bytes key s before (.resource name) s (.resource r) before
  | unknown {name : String} (hnone : ∀ r ∈ s.package.resources, r.originalName ≠ name) :
      Performs bytes key s before (.resource name) s (.fault (.unknownResource name)) before
  /-- An open reader delivers the next bytes, as many as are asked for while it has them. -/
  | read {n wanted : Nat} {asked : Int} {r next : PackageReader}
      (hr : s.readers[n]? = some r) (hopen : r.closed = false)
      (hwanted : wanted = r.stream.rest.length ∧ asked = -1 ∨ (wanted : Int) = asked)
      (hnext : next.closed = false ∧ next.stream.rest = r.stream.rest.drop wanted) :
      Performs bytes key s before (.read n asked) { s with readers := s.readers.set n next }
        (.bytes (r.stream.rest.take wanted)) before
  | unread {n : Nat} {asked : Int} {r : PackageReader} {fault : StreamFault}
      (hr : s.readers[n]? = some r) (hrefused : r.closed = true ∨ asked < -1) :
      Performs bytes key s before (.read n asked) s (.fault fault) before
  | closedReader {n : Nat} {r : PackageReader} (hr : s.readers[n]? = some r) :
      Performs bytes key s before (.closeReader n)
        { s with readers := s.readers.set n r.close } .done before
  | absent {n : Nat} {operation : PackageOperation} (hnone : s.readers[n]? = none)
      (hoperation : operation = .closeReader n ∨ ∃ asked, operation = .read n asked) :
      Performs bytes key s before operation s .absent before

private theorem delivered_append (n : Nat) (events more : List PackageEvent) :
    delivered n (events ++ more) = delivered n events ++ delivered n more :=
  List.flatMap_append ..

private theorem delivered_read (n k : Nat) (asked : Int) (piece : Bytes) :
    delivered n [(.read k asked, .bytes piece)] = if k = n then piece else [] := by
  simp [delivered]

/-- Every reader has delivered a beginning of the bytes and holds the rest. -/
structure Delivers (bytes : Bytes) (events : List PackageEvent) (readers : List PackageReader) :
    Prop where
  source_eq : ∀ r ∈ readers, r.stream.source = Source.ofBytes bytes
  append_rest : ∀ n r, readers[n]? = some r → delivered n events ++ r.stream.rest = bytes
  none_delivered : ∀ n, readers.length ≤ n → delivered n events = []

namespace Delivers

variable {bytes : Bytes} {events : List PackageEvent} {readers : List PackageReader}
  {event : PackageEvent}

private theorem idle (h : Delivers bytes events readers) (hnone : ∀ n, delivered n [event] = []) :
    Delivers bytes (events ++ [event]) readers where
  source_eq := h.source_eq
  append_rest n r hr := by rw [delivered_append, hnone, List.append_nil, h.append_rest n r hr]
  none_delivered n hn := by rw [delivered_append, hnone, List.append_nil, h.none_delivered n hn]

theorem opened (h : Delivers bytes events readers) (hnone : ∀ n, delivered n [event] = []) :
    Delivers bytes (events ++ [event]) (readers ++ [.start bytes]) where
  source_eq := by
    intro r hr
    rcases List.mem_append.1 hr with hr | hr
    · exact h.source_eq r hr
    · rw [List.mem_singleton.1 hr]
      rfl
  append_rest n r hr := by
    rw [delivered_append, hnone, List.append_nil]
    rcases Nat.lt_or_ge n readers.length with hn | hn
    · rw [List.getElem?_append_left hn] at hr
      exact h.append_rest n r hr
    · rw [List.getElem?_append_right hn, List.getElem?_singleton] at hr
      split at hr
      · obtain rfl := Option.some.inj hr
        rw [h.none_delivered n hn]
        rfl
      · cases hr
  none_delivered n hn := by
    rw [delivered_append, hnone, List.append_nil]
    exact h.none_delivered n (Nat.le_trans (by simp) hn)

theorem set (h : Delivers bytes events readers) {n : Nat} {r next : PackageReader} {piece : Bytes}
    (hr : readers[n]? = some r) (hsource : next.stream.source = r.stream.source)
    (hrest : piece ++ next.stream.rest = r.stream.rest)
    (hpiece : ∀ k, delivered k [event] = if n = k then piece else []) :
    Delivers bytes (events ++ [event]) (readers.set n next) where
  source_eq := by
    intro other hother
    rcases List.mem_or_eq_of_mem_set hother with hother | rfl
    · exact h.source_eq other hother
    · rw [hsource]
      exact h.source_eq r (List.mem_of_getElem? hr)
  append_rest k other hother := by
    rw [delivered_append, hpiece]
    by_cases hk : n = k
    · subst hk
      rw [List.getElem?_set_self (List.getElem?_eq_some_iff.1 hr).1] at hother
      obtain rfl := Option.some.inj hother
      rw [if_pos rfl, List.append_assoc, hrest, h.append_rest n r hr]
    · rw [List.getElem?_set_ne hk] at hother
      rw [if_neg hk, List.append_nil, h.append_rest k other hother]
  none_delivered k hk := by
    rw [List.length_set] at hk
    have hn : n < readers.length := (List.getElem?_eq_some_iff.1 hr).1
    rw [delivered_append, hpiece, if_neg (by omega), List.append_nil, h.none_delivered k hk]

end Delivers

private theorem read_of_open {bytes : Bytes} {r : PackageReader} {asked : Int}
    (hopen : r.closed = false)
    (hsource : r.stream.source = Source.ofBytes bytes) (hasked : -1 ≤ asked) :
    ∃ wanted next, (wanted = r.stream.rest.length ∧ asked = -1 ∨ (wanted : Int) = asked) ∧
      r.read asked = .ok (r.stream.rest.take wanted, next) ∧ next.closed = false ∧
      next.stream.source = r.stream.source ∧
      next.stream.rest = r.stream.rest.drop wanted := by
  obtain ⟨wanted, hwanted⟩ :
      ∃ wanted, wanted = if asked = -1 then r.stream.rest.length else asked.toNat := ⟨_, rfl⟩
  have hserved : r.stream.source.served r.stream.position wanted = wanted := by
    rw [hsource]
    show min wanted (max 1 wanted) = wanted
    omega
  have hfault : r.stream.fault? = none := by
    rw [Stream.fault?, hsource]
    rfl
  have hclosed : ¬ r.closed = true := by simp [hopen]
  refine ⟨wanted, ⟨⟨r.stream.source, r.stream.rest.drop wanted,
    r.stream.position + (r.stream.rest.take wanted).length⟩, r.closed⟩, ?_, ?_, hopen, rfl, rfl⟩
  · split at hwanted <;> omega
  · unfold PackageReader.read Stream.read
    rw [if_neg hclosed, if_neg (by omega), ← hwanted]
    have hdrop : r.stream.rest.drop (r.stream.rest.take wanted).length =
        r.stream.rest.drop wanted := by
      rw [List.length_take]
      rcases Nat.le_total wanted r.stream.rest.length with hle | hle
      · rw [Nat.min_eq_left hle]
      · rw [Nat.min_eq_right hle, List.drop_length, List.drop_of_length_le hle]
    simp only [hfault, hserved, hdrop]

/-- A package that is closed or not, and whose file is there, and may be taken away, until it is. -/
structure Owns (p : PackageStream) (bytes : Bytes) (key : List String) (start : Disk)
    (closed : Bool) (package : PackageStream) (d : Disk) : Prop where
  package_eq : package = { p with closed }
  item_eq : d.item? key = if closed then none else some (.file bytes)
  directories : d.SameDirectories start
  changeable : ¬ start.forbids .change key.dropLast

namespace Owns

variable {p package : PackageStream} {bytes : Bytes} {key : List String} {start d e : Disk}
  {closed : Bool}

theorem closed_eq (h : Owns p bytes key start closed package d) : package.closed = closed := by
  rw [h.package_eq]

theorem locate_eq (h : Owns p bytes key start closed package d)
    (hlocate : start.locate p.place = .ok key) : d.locate package.place = .ok key := by
  rw [h.package_eq]
  exact h.directories.locate_iff.2 hlocate

theorem write (h : Owns p bytes key start closed package d) {l : Location} {content : Bytes}
    (hclear : start.locate l ≠ .ok key) (hwrite : d.write l content = .ok e) :
    Owns p bytes key start closed package e := by
  obtain ⟨k, hk, hitem, rfl⟩ := Disk.write_eq_ok hwrite
  have hne : key ≠ k := fun heq => hclear (h.directories.locate_of_locate (heq ▸ hk))
  refine ⟨h.package_eq, ?_, (Disk.sameDirectories_set hitem).trans h.directories, h.changeable⟩
  rw [Disk.item?_set_of_ne d hne, h.item_eq]

theorem close (h : Owns p bytes key start false package d) :
    Owns p bytes key start true { package with closed := true } (d.erase key) := by
  have hitem : d.item? key ≠ some .directory := by
    rw [h.item_eq]
    exact fun hfile => by cases hfile
  refine ⟨by rw [h.package_eq], ?_, (Disk.sameDirectories_erase hitem).trans h.directories,
    h.changeable⟩
  exact Disk.item?_erase_self d (Disk.ne_nil_of_item?_ne_directory hitem)

end Owns

/-- A package that has been in use for some events. -/
structure Keeps (p : PackageStream) (bytes : Bytes) (key : List String) (start : Disk)
    (events : List PackageEvent) (s : PackageSession) (d : Disk) : Prop where
  owns : Owns p bytes key start (events.any fun e => e.1.isClosing) s.package d
  delivers : Delivers bytes events s.readers

variable {p : PackageStream} {bytes : Bytes} {key : List String} {start d : Disk}
  {events : List PackageEvent} {s : PackageSession}

private theorem any_append_singleton (event : PackageEvent) :
    ((events ++ [event]).any fun e => e.1.isClosing) =
      ((events.any fun e => e.1.isClosing) || event.1.isClosing) := by
  rw [List.any_append, List.any_cons, List.any_nil, Bool.or_false]

namespace Keeps

private theorem idle (h : Keeps p bytes key start events s d) (event : PackageEvent)
    (hclosing : event.1.isClosing = true → s.package.closed = true)
    (hnone : ∀ n, delivered n [event] = []) :
    Keeps p bytes key start (events ++ [event]) s d := by
  refine ⟨?_, h.delivers.idle hnone⟩
  have hany : ((events ++ [event]).any fun e => e.1.isClosing) =
      events.any fun e => e.1.isClosing := by
    rw [any_append_singleton]
    cases hevent : event.1.isClosing with
    | false => exact Bool.or_false _
    | true => rw [← h.owns.closed_eq, hclosing hevent]; rfl
  rw [hany]
  exact h.owns

private theorem withReaders (h : Keeps p bytes key start events s d) {event : PackageEvent}
    {readers : List PackageReader} (hevent : event.1.isClosing = false)
    (hreaders : Delivers bytes (events ++ [event]) readers) :
    Keeps p bytes key start (events ++ [event]) { s with readers } d := by
  refine ⟨?_, hreaders⟩
  rw [any_append_singleton, hevent, Bool.or_false]
  exact h.owns

end Keeps

variable {before : Surroundings}

/-- What performing an operation comes to: it goes as it should, and the package is kept. -/
def Continues (p : PackageStream) (bytes : Bytes) (key : List String) (start : Disk)
    (events : List PackageEvent) (s : PackageSession) (before : Surroundings)
    (operation : PackageOperation) : Prop :=
  ∃ next answer after,
    (s.perform operation : StateM Surroundings _).run before = ((next, answer), after) ∧
    Performs bytes key s before operation next answer after ∧
    Keeps p bytes key start (events ++ [(operation, answer)]) next after.disk

namespace Keeps

private theorem perform_open (h : Keeps p bytes key start events s before.disk)
    (hlocate : start.locate p.place = .ok key) :
    Continues p bytes key start events s before .open := by
  cases hclosed : s.package.closed with
  | false =>
    have hitem := h.owns.item_eq
    rw [← h.owns.closed_eq, hclosed] at hitem
    have hread := Disk.read_of_item? (h.owns.locate_eq hlocate) hitem
    refine ⟨_, _, before, ?_, .opened hclosed, h.withReaders rfl (h.delivers.opened fun _ => rfl)⟩
    unfold perform
    rw [Surroundings.run_bind_of_run (PackageStream.run_open_of_read hclosed hread)]
    rfl
  | true =>
    refine ⟨_, _, before, ?_, .openedLate hclosed, h.idle _ (fun _ => hclosed) fun _ => rfl⟩
    unfold perform
    rw [Surroundings.run_bind_of_run (PackageStream.run_open_of_closed hclosed)]
    rfl

private theorem perform_writeTo (h : Keeps p bytes key start events s before.disk)
    (hlocate : start.locate p.place = .ok key) {l : Location} (hclear : start.locate l ≠ .ok key) :
    Continues p bytes key start events s before (.writeTo l) := by
  cases hclosed : s.package.closed with
  | false =>
    have hitem := h.owns.item_eq
    rw [← h.owns.closed_eq, hclosed] at hitem
    have hread := Disk.read_of_item? (h.owns.locate_eq hlocate) hitem
    have hrun := PackageStream.run_writeTo_of_read hclosed hread l
    cases hwrite : before.disk.write l bytes with
    | ok disk =>
      rw [hwrite] at hrun
      obtain ⟨k, hk, hdirectory, rfl⟩ := Disk.write_eq_ok hwrite
      have hback : (before.disk.set k (.file bytes)).read l = .ok bytes :=
        Disk.read_of_item? ((Disk.sameDirectories_set hdirectory).locate_iff.2 hk)
          (Disk.item?_set_self _ (Disk.ne_nil_of_item?_ne_directory hdirectory) _)
      have hothers (other : List String) (hother : before.disk.locate l ≠ .ok other) :
          (before.disk.set k (.file bytes)).item? other = before.disk.item? other := by
        refine Disk.item?_set_of_ne _ ?_ _
        rintro rfl
        exact hother hk
      refine ⟨s, .place l, _, ?_, .written hclosed hwrite hback hothers, ?_⟩
      · unfold perform
        rw [Surroundings.run_bind_of_run hrun]
        rfl
      · have hidle := h.idle (.writeTo l, .place l) (fun hclosing => by cases hclosing)
          fun _ => rfl
        exact ⟨hidle.owns.write hclear hwrite, hidle.delivers⟩
    | error fault =>
      rw [hwrite] at hrun
      refine ⟨s, .fault (.file fault), before, ?_, .unwritten hclosed hwrite,
        h.idle _ (fun hclosing => by cases hclosing) fun _ => rfl⟩
      unfold perform
      rw [Surroundings.run_bind_of_run hrun]
      rfl
  | true =>
    refine ⟨_, _, before, ?_, .writtenLate l hclosed, h.idle _ (fun _ => hclosed) fun _ => rfl⟩
    unfold perform
    rw [Surroundings.run_bind_of_run (PackageStream.run_writeTo_of_closed hclosed l)]
    rfl

private theorem perform_read (h : Keeps p bytes key start events s before.disk) (n : Nat)
    (asked : Int) :
    Continues p bytes key start events s before (.read n asked) := by
  cases hr : s.readers[n]? with
  | none =>
    refine ⟨s, .absent, before, ?_, .absent hr (.inr ⟨asked, rfl⟩),
      h.idle _ (fun hclosing => by cases hclosing) fun _ => rfl⟩
    simp only [perform, hr]
    rfl
  | some r =>
    have hsource := h.delivers.source_eq r (List.mem_of_getElem? hr)
    by_cases hrefused : r.closed = true ∨ asked < -1
    · obtain ⟨fault, hfault⟩ : ∃ fault, r.read asked = .error fault := by
        unfold PackageReader.read
        by_cases hclosed : r.closed = true
        · rw [if_pos hclosed]
          exact ⟨_, rfl⟩
        · rw [if_neg hclosed, if_pos (hrefused.resolve_left hclosed)]
          exact ⟨_, rfl⟩
      refine ⟨s, .fault fault, before, ?_, .unread hr hrefused,
        h.idle _ (fun hclosing => by cases hclosing) fun _ => rfl⟩
      simp only [perform, hr, hfault]
      rfl
    · rw [not_or, Int.not_lt] at hrefused
      have hopen : r.closed = false := Bool.eq_false_iff.2 hrefused.1
      obtain ⟨wanted, next, hwanted, hread, hnext, hsame, hrest⟩ :=
        read_of_open hopen hsource hrefused.2
      refine ⟨_, _, before, ?_, .read hr hopen hwanted ⟨hnext, hrest⟩,
        h.withReaders rfl (h.delivers.set hr hsame ?_ fun k => delivered_read k n asked _)⟩
      · simp only [perform, hr, hread]
        rfl
      · rw [hrest, List.take_append_drop]

private theorem perform_closeReader (h : Keeps p bytes key start events s before.disk) (n : Nat) :
    Continues p bytes key start events s before (.closeReader n) := by
  cases hr : s.readers[n]? with
  | none =>
    refine ⟨s, .absent, before, ?_, .absent hr (.inl rfl),
      h.idle _ (fun hclosing => by cases hclosing) fun _ => rfl⟩
    simp only [perform, hr]
    rfl
  | some r =>
    have hrest : [] ++ r.close.stream.rest = r.stream.rest := rfl
    refine ⟨_, .done, before, ?_, .closedReader hr,
      h.withReaders rfl (h.delivers.set hr rfl hrest fun k => ?_)⟩
    · simp only [perform, hr]
      rfl
    · rw [ite_self]
      rfl

private theorem perform_resource (h : Keeps p bytes key start events s before.disk)
    (name : String) :
    Continues p bytes key start events s before (.resource name) := by
  cases hfound : s.package.resource name with
  | ok r =>
    refine ⟨s, .resource r, before, ?_, .looked hfound,
      h.idle _ (fun hclosing => by cases hclosing) fun _ => rfl⟩
    simp only [perform, hfound]
    rfl
  | error fault =>
    unfold PackageStream.resource at hfound
    split at hfound
    · cases hfound
    · rename_i hnone
      obtain rfl := Except.error.inj hfound
      refine ⟨s, .fault (.unknownResource name), before, ?_, .unknown fun r hr hname => ?_,
        h.idle _ (fun hclosing => by cases hclosing) fun _ => rfl⟩
      · simp only [perform, PackageStream.resource, hnone]
        rfl
      · exact List.find?_eq_none.1 hnone r hr (beq_iff_eq.2 hname)

private theorem perform_closing (h : Keeps p bytes key start events s before.disk)
    (hlocate : start.locate p.place = .ok key) {operation : PackageOperation}
    (hoperation : operation.isClosing = true) :
    Continues p bytes key start events s before operation := by
  have hperform : (s.perform operation : StateM Surroundings _) = (do
      let package ← s.package.close
      pure ({ s with package }, .done)) := by
    cases operation <;> first | rfl | cases hoperation
  have hnone (n : Nat) : delivered n [(operation, .done)] = [] := by
    cases operation <;> rfl
  cases hclosed : s.package.closed with
  | false =>
    have howns := h.owns
    rw [← h.owns.closed_eq, hclosed] at howns
    have hremove := Disk.remove_of_item? (howns.locate_eq hlocate) howns.item_eq
      (howns.directories.forbids_eq ▸ howns.changeable)
    refine ⟨{ s with package := { s.package with closed := true } }, .done,
      { before with
        disk := before.disk.erase key
        log := ⟨.debug, "Removed package file " ++ s.package.place.text⟩ :: before.log },
      ?_, .closed hoperation hclosed, ?_, h.delivers.idle hnone⟩
    · rw [hperform,
        Surroundings.run_bind_of_run (PackageStream.run_close_of_remove hclosed hremove)]
      rfl
    · rw [any_append_singleton, hoperation, Bool.or_true]
      exact howns.close
  | true =>
    refine ⟨s, .done, before, ?_, .closedAgain hoperation hclosed,
      h.idle _ (fun _ => hclosed) hnone⟩
    rw [hperform, Surroundings.run_bind_of_run (PackageStream.run_close_of_closed hclosed)]
    rfl

private theorem perform (h : Keeps p bytes key start events s before.disk)
    (hlocate : start.locate p.place = .ok key) (operation : PackageOperation)
    (hclear : ∀ l, operation = .writeTo l → start.locate l ≠ .ok key) :
    Continues p bytes key start events s before operation := by
  cases operation with
  | «open» => exact h.perform_open hlocate
  | read n asked => exact h.perform_read n asked
  | closeReader n => exact h.perform_closeReader n
  | writeTo l => exact h.perform_writeTo hlocate (hclear l rfl)
  | resource name => exact h.perform_resource name
  | close => exact h.perform_closing hlocate rfl
  | leave => exact h.perform_closing hlocate rfl

theorem run (h : Keeps p bytes key start events s before.disk)
    (hlocate : start.locate p.place = .ok key) (operations : List PackageOperation)
    (hclear : ∀ l, .writeTo l ∈ operations → start.locate l ≠ .ok key) :
    ∃ last more after,
      (s.run operations : StateM Surroundings _).run before = ((last, more), after) ∧
      more.map Prod.fst = operations ∧
      Keeps p bytes key start (events ++ more) last after.disk := by
  induction operations generalizing events s before with
  | nil => exact ⟨s, [], before, rfl, rfl, by rwa [List.append_nil]⟩
  | cons operation operations ih =>
    obtain ⟨next, answer, middle, hperform, -, hkeeps⟩ := h.perform hlocate operation fun l hl =>
      hclear l (hl ▸ List.mem_cons_self)
    obtain ⟨last, more, after, hrun, hmore, hlast⟩ := ih hkeeps fun l hl =>
      hclear l (List.mem_cons_of_mem _ hl)
    refine ⟨last, (operation, answer) :: more, after, ?_, by rw [List.map_cons, hmore], ?_⟩
    · unfold PackageSession.run
      rw [Surroundings.run_bind_of_run hperform]
      dsimp only
      rw [Surroundings.run_bind_of_run hrun]
      rfl
    · rwa [List.append_assoc, List.singleton_append] at hlast

end Keeps

/-- However an assembled package has been used, as long as nothing was written over its file: that
file holds the bytes that the metadata describe until the package is first closed, and is gone from
then on; metadata and resources are what they were; every reader has delivered a beginning of the
bytes; and the next operation goes as it should. -/
theorem perform_assembled {a : Assembler} {submission : Submission} {before after : Surroundings}
    {p : PackageStream}
    (h : (a.assemble submission : StateM Surroundings _).run before = (.ok p, after))
    (earlier : List PackageOperation) (operation : PackageOperation)
    (hclear : ∀ l, .writeTo l ∈ earlier ++ [operation] →
      after.disk.locate l ≠ after.disk.locate p.place) :
    ∃ (bytes : Bytes) (key : List String) (session next : PackageSession)
        (events : List PackageEvent) (answer : PackageAnswer) (middle last : Surroundings),
      after.disk.locate p.place = .ok key ∧
      p.metadata.sizeBytes = bytes.length ∧
      a.library.Describes a.options.algorithms p.metadata.checksums bytes ∧
      (run ⟨p, []⟩ earlier : StateM Surroundings _).run after = ((session, events), middle) ∧
      events.map Prod.fst = earlier ∧
      session.package = { p with closed := earlier.any PackageOperation.isClosing } ∧
      middle.disk.item? key =
        (if earlier.any PackageOperation.isClosing then none else some (.file bytes)) ∧
      (∀ n r, session.readers[n]? = some r → delivered n events ++ r.stream.rest = bytes) ∧
      (session.perform operation : StateM Surroundings _).run middle = ((next, answer), last) ∧
      Performs bytes key session middle operation next answer last := by
  obtain ⟨placed, directory, name, sink, -, hplaced, hbuilt⟩ := Assembler.built_of_run h
  obtain ⟨hsize, hdigests⟩ := hbuilt.describes hplaced
  have hlocate := hbuilt.locate_place
  have hitem : after.disk.item? (directory ++ [name]) = some (.file sink.output) := by
    rw [hbuilt.disk_eq]
    exact Disk.item?_set_self _ (Disk.ne_nil_of_item?_eq_none hbuilt.fresh.absent) _
  rw [hlocate] at hclear
  have hstart : Keeps p sink.output (directory ++ [name]) after.disk [] ⟨p, []⟩ after.disk := by
    refine ⟨⟨?_, hitem, .refl _, ?_⟩, ⟨by simp, by simp, fun _ _ => rfl⟩⟩
    swap
    · rw [hbuilt.disk_eq]
      exact hbuilt.fresh.changeable
    show p = { p with closed := false }
    rw [← hbuilt.isOpen]
  obtain ⟨session, events, middle, hrun, hevents, hkeeps⟩ := hstart.run hlocate earlier fun l hl =>
    hclear l (List.mem_append_left _ hl)
  rw [List.nil_append] at hkeeps
  obtain ⟨next, answer, last, hperform, hgoes, -⟩ := hkeeps.perform hlocate operation fun l hl =>
    hclear l (List.mem_append_right _ (List.mem_singleton.2 hl.symm))
  have hany : (events.any fun e => e.1.isClosing) = earlier.any PackageOperation.isClosing := by
    rw [← hevents, List.any_map]
    rfl
  have howns := hkeeps.owns
  rw [hany] at howns
  exact ⟨sink.output, directory ++ [name], session, next, events, answer, middle, last, hlocate,
    hsize, hdigests, hrun, hevents, howns.package_eq, howns.item_eq, hkeeps.delivers.append_rest,
    hperform, hgoes⟩

/-- A reader that is read in part before the package is closed and to its end afterwards, a copy,
and an attempt to open the package again. -/
theorem perform_assembled_letter :
    ∃ (p : PackageStream) (after : Surroundings) (bytes : Bytes) (session : PackageSession)
        (events : List PackageEvent) (middle : Surroundings),
      (Assembler.letterAssembler.assemble Assembler.letter : StateM Surroundings _).run
        Assembler.emptyDesk = (.ok p, after) ∧
      (run ⟨p, []⟩ [.open, .read 0 3, .writeTo ⟨"/", ["copy"]⟩, .leave, .read 0 (-1), .close] :
        StateM Surroundings _).run after = ((session, events), middle) ∧
      (∀ r, session.readers[0]? = some r → delivered 0 events ++ r.stream.rest = bytes) ∧
      (session.perform .open : StateM Surroundings _).run middle =
        ((session, .fault (.closed p.metadata.name)), middle) := by
  have hreturns : Surroundings.returns (Assembler.letterAssembler.assemble Assembler.letter)
      Assembler.emptyDesk (fun p => p.place = ⟨"/", ["package-00000000.tmp"]⟩) = true := by
    decide +kernel
  obtain ⟨p, after, hrun, hplace⟩ := Surroundings.run_of_returns hreturns
  have hcopy : after.disk.locate ⟨"/", ["copy"]⟩ ≠ after.disk.locate p.place := by
    intro heq
    obtain ⟨_, _, _, _, -, -, hbuilt⟩ := Assembler.built_of_run hrun
    rw [hbuilt.locate_place] at heq
    have hown := hbuilt.locate_place
    rw [of_decide_eq_true hplace] at hown
    have hroot : after.disk.locate ⟨"/", []⟩ = .ok [] := rfl
    have hnamed {name : String} {key : List String} (hname : Location.IsName name)
        (hkey : after.disk.locate ⟨"/", [name]⟩ = .ok key) : key = [name] :=
      Disk.locate_child hname hroot (by rw [hname.child_eq]; exact hkey)
    have hone := hnamed ⟨by decide, by decide, by decide, by decide⟩ heq
    have hother := hnamed ⟨by decide, by decide, by decide, by decide⟩ hown
    exact absurd (hone.symm.trans hother) (by decide)
  obtain ⟨bytes, key, session, next, events, answer, middle, last, -, -, -, hsession, -, hpackage,
    -, hreaders, hperform, hgoes⟩ := perform_assembled hrun
      [.open, .read 0 3, .writeTo ⟨"/", ["copy"]⟩, .leave, .read 0 (-1), .close] .open (by
        intro l hl
        simp only [List.cons_append, List.nil_append, List.mem_cons, PackageOperation.writeTo.injEq,
          reduceCtorEq, false_or, or_false, List.not_mem_nil] at hl
        rw [hl]
        exact hcopy)
  refine ⟨p, after, bytes, session, events, middle, hrun, hsession, hreaders 0, ?_⟩
  have hclosed : session.package.closed = true := by rw [hpackage]; rfl
  have hname : session.package.metadata.name = p.metadata.name := by rw [hpackage]
  cases hgoes with
  | opened hopen => cases hopen.symm.trans hclosed
  | openedLate => rwa [hname] at hperform
  | closed hoperation => cases hoperation
  | closedAgain hoperation => cases hoperation
  | absent _ hoperation => rcases hoperation with hoperation | ⟨_, hoperation⟩ <;> cases hoperation

end PackageSession

end Deposit
