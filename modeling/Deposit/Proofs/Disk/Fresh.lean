import Deposit.Disk.Basic
import Deposit.Proofs.Text.Digits

set_option autoImplicit false
set_option relaxedAutoImplicit false

/-!
Names of items in a directory, and a file at a place where nothing stood before. A name is a
location of one segment, so it leads from a directory to the item of that name and nowhere else. A
new file can be written, read and removed by the same location, because the directories on the way
to it are not touched; when it is removed, the file system is what it was before.
-/

namespace Deposit.Location

/-- A text that names an item of a directory. -/
structure IsName (s : String) : Prop where
  ne_empty : s ≠ ""
  ne_here : s ≠ "."
  ne_up : s ≠ ".."
  plain : '/' ∉ s.toList

private theorem IsName.ofText_eq {s : String} (h : IsName s) : ofText s = ⟨"", [s]⟩ := by
  have hsplit : s.toList.splitOn '/' = [s.toList] := List.splitOn_eq_singleton h.plain
  have hroot : rootOf s.toList = "" := by
    unfold rootOf
    cases hs : s.toList with
    | nil => rfl
    | cons c cs =>
      have hc : c ≠ '/' := fun hc => h.plain (by rw [hs, hc]; exact List.mem_cons_self)
      rw [List.takeWhile_cons_of_neg (by simpa using hc)]
  have hempty : s.toList ≠ [] := fun hs => h.ne_empty (String.toList_inj.1 hs)
  have hhere : s.toList ≠ ['.'] := fun hs => h.ne_here (String.toList_inj.1 hs)
  rw [ofText, hroot, hsplit, List.filter_cons_of_pos (by simp [hempty, hhere])]
  simp

theorem IsName.child_eq {s : String} (h : IsName s) (base : Location) :
    base.child s = ⟨base.root, base.parts ++ [s]⟩ := by
  rw [child, h.ofText_eq]
  rfl

end Deposit.Location

namespace Deposit.Disk

variable {d e : Disk} {key : List String}

theorem item?_set_self (d : Disk) (hk : key ≠ []) (item : DiskItem) :
    (d.set key item).item? key = some item := by
  rw [item?, if_neg hk, set, List.lookup_cons_self]

theorem item?_erase_of_ne (d : Disk) {other : List String} (hne : other ≠ key) :
    (d.erase key).item? other = d.item? other := by
  have hlookup : (d.items.filter (·.1 ≠ key)).lookup other = d.items.lookup other := by
    induction d.items with
    | nil => rfl
    | cons i items ih =>
      by_cases hi : i.1 = key
      · have hio : other ≠ i.1 := fun h => hne (h.trans hi)
        rw [List.filter_cons_of_neg (by simpa using hi), ih, List.lookup_cons,
          beq_false_of_ne hio]
      · rw [List.filter_cons_of_pos (by simpa using hi), List.lookup_cons, List.lookup_cons, ih]
  rw [item?, item?, erase, hlookup]

theorem item?_erase_self (d : Disk) (hk : key ≠ []) : (d.erase key).item? key = none := by
  rw [item?, if_neg hk, erase, List.lookup_eq_none_iff]
  intro i hi
  have hne : i.1 ≠ key := of_decide_eq_true (List.mem_filter.1 hi).2
  simpa using Ne.symm hne

theorem item?_set_of_ne (d : Disk) {other : List String} (hne : other ≠ key) (item : DiskItem) :
    (d.set key item).item? other = d.item? other := by
  rw [← item?_erase_of_ne d hne, item?, item?, set, List.lookup_cons, beq_false_of_ne hne]
  rfl

theorem ne_nil_of_item?_eq_none (h : d.item? key = none) : key ≠ [] := by
  rintro rfl
  simp [item?] at h

private theorem filter_eq_self_of_item?_eq_none (h : d.item? key = none) :
    d.items.filter (·.1 ≠ key) = d.items := by
  rw [item?, if_neg (ne_nil_of_item?_eq_none h), List.lookup_eq_none_iff] at h
  rw [List.filter_eq_self]
  intro i hi
  have hne := h i hi
  refine decide_eq_true fun he => ?_
  simp [he] at hne

@[simp] theorem workingDirectory_set (d : Disk) (key : List String) (item : DiskItem) :
    (d.set key item).workingDirectory = d.workingDirectory := rfl

@[simp] theorem forbids_set (d : Disk) (key : List String) (item : DiskItem) :
    (d.set key item).forbids = d.forbids := rfl

private theorem set_set (d : Disk) (key : List String) (first second : DiskItem) :
    (d.set key first).set key second = d.set key second := by
  simp [set, List.filter_filter]

private theorem erase_set (h : d.item? key = none) (item : DiskItem) :
    (d.set key item).erase key = d := by
  simp only [set, erase]
  rw [List.filter_cons_of_neg (by simp), List.filter_filter]
  have hself := filter_eq_self_of_item?_eq_none h
  simp only [Bool.and_self]
  rw [hself]

theorem step_eq_ok_iff {start next : List String} {p : String} :
    d.step start p = .ok next ↔
      d.item? start = some .directory ∧ ¬ d.forbids .enter start ∧ ¬ isLongName p ∧
        next = if p = ".." then start.dropLast else start ++ [p] := by
  unfold step
  cases d.item? start with
  | none => simp
  | some item =>
    cases item with
    | file bytes => simp
    | directory =>
      dsimp only
      by_cases hentered : d.forbids .enter start = true
      · simp [hentered]
      · by_cases hlong : isLongName p = true
        · simp [hentered, hlong]
        · rw [if_neg hentered, if_neg hlong, Except.ok.injEq]
          simp [hentered, hlong, eq_comm]

private theorem step_set (h : d.item? key = none) (item : DiskItem) {start next : List String}
    {p : String} (hs : d.step start p = .ok next) : (d.set key item).step start p = .ok next := by
  obtain ⟨hdirectory, hentered, hshort, hnext⟩ := step_eq_ok_iff.1 hs
  have hne : start ≠ key := by
    rintro rfl
    cases hdirectory.symm.trans h
  exact step_eq_ok_iff.2 ⟨(item?_set_of_ne d hne item).trans hdirectory, hentered, hshort, hnext⟩

theorem walk_mono (hstep : ∀ {start next p}, d.step start p = .ok next → e.step start p = .ok next)
    {start stop : List String} {ps : List String} (hw : d.walk start ps = .ok stop) :
    e.walk start ps = .ok stop := by
  induction ps generalizing start with
  | nil => exact hw
  | cons p ps ih =>
    rw [walk, List.foldlM_cons] at hw ⊢
    cases hs : d.step start p with
    | error cause =>
      rw [hs] at hw
      cases hw
    | ok next =>
      rw [hs] at hw
      rw [hstep hs]
      exact ih hw

theorem resolve_eq_ok {l place : Location} (h : d.resolve l = .ok place) :
    place = l.resolve d.workingDirectory := by
  unfold resolve at h
  split at h
  · cases h
  · exact (Except.ok.inj h).symm

theorem locate_eq_ok {l : Location} (h : d.locate l = .ok key) :
    '\x00' ∉ l.text.toList ∧ ¬ 4096 ≤ l.text.utf8ByteSize ∧
      d.walk (if l.isAbsolute then [] else d.workingDirectory) l.parts = .ok key := by
  unfold locate at h
  split at h
  · simp at h
  · rename_i hnul
    split at h
    · simp at h
    · rename_i hlong
      split at h
      · rename_i k hw
        simp only [Except.ok.injEq] at h
        exact ⟨hnul, hlong, by rw [hw, h]⟩
      · simp at h

theorem locate_child {base : Location} {name : String} {directory : List String}
    (hn : Location.IsName name) (hbase : d.locate base = .ok directory)
    (h : d.locate (base.child name) = .ok key) : key = directory ++ [name] := by
  obtain ⟨-, -, hdirectory⟩ := locate_eq_ok hbase
  obtain ⟨-, -, hw⟩ := locate_eq_ok h
  rw [hn.child_eq base] at hw
  have hdirectory' : List.foldlM d.step
      (if Location.isAbsolute ⟨base.root, base.parts ++ [name]⟩ then [] else d.workingDirectory)
      base.parts = .ok directory := hdirectory
  rw [walk, List.foldlM_append, hdirectory'] at hw
  obtain ⟨-, -, -, hnext⟩ := step_eq_ok_iff.1 ((bind_pure _).symm.trans hw)
  rw [hnext, if_neg hn.ne_up]

/-- A new location whose directory is there and may be changed, and at which nothing stands. -/
structure Fresh (d : Disk) (l : Location) (key : List String) : Prop where
  locate_eq : d.locate l = .ok key
  absent : d.item? key = none
  changeable : ¬ d.forbids .change key.dropLast

namespace Fresh

variable {l : Location}

theorem locate_set (h : d.Fresh l key) (item : DiskItem) : (d.set key item).locate l = .ok key := by
  obtain ⟨hnul, hlong, hw⟩ := locate_eq_ok h.locate_eq
  have hset := walk_mono (step_set h.absent item) hw
  simp [locate, hnul, hlong, hset]

private theorem find_set (h : d.Fresh l key) (item : DiskItem) :
    (d.set key item).find l = .ok (key, item) := by
  rw [find, h.locate_set]
  simp only [bind, Except.bind, item?_set_self d (ne_nil_of_item?_eq_none h.absent)]
  rfl

theorem write_set (h : d.Fresh l key) (old bytes : Bytes) :
    (d.set key (.file old)).write l bytes = .ok (d.set key (.file bytes)) := by
  rw [write, h.locate_set]
  simp only [bind, Except.bind, item?_set_self d (ne_nil_of_item?_eq_none h.absent)]
  exact congrArg Except.ok (set_set d key _ _)

theorem read_set (h : d.Fresh l key) (bytes : Bytes) :
    (d.set key (.file bytes)).read l = .ok bytes := by
  rw [read, h.find_set]
  rfl

theorem remove_set (h : d.Fresh l key) (bytes : Bytes) :
    (d.set key (.file bytes)).remove l = .ok d := by
  rw [remove, h.find_set]
  dsimp only
  rw [forbids_set, if_neg h.changeable, erase_set h.absent]

theorem items_set (h : d.Fresh l key) (item : DiskItem) :
    (d.set key item).items = (key, item) :: d.items := by
  rw [set, filter_eq_self_of_item?_eq_none h.absent]

end Fresh

theorem create_eq_ok {l : Location} {item : DiskItem} (h : d.create l item = .ok e) :
    ∃ key, d.Fresh l key ∧ e = d.set key item := by
  unfold create at h
  cases hl : d.locate l with
  | error fault => simp [hl, bind, Except.bind] at h
  | ok key =>
    simp only [hl, bind, Except.bind] at h
    cases hi : d.item? key with
    | some i => simp [hi] at h
    | none =>
      simp only [hi] at h
      split at h
      · cases h
      · rename_i hchangeable
        exact ⟨key, ⟨hl, hi, hchangeable⟩, (Except.ok.inj h).symm⟩

theorem find_eq_ok {l : Location} {item : DiskItem} (h : d.find l = .ok (key, item)) :
    d.locate l = .ok key ∧ d.item? key = some item := by
  unfold find at h
  cases hl : d.locate l with
  | error fault => simp [hl, bind, Except.bind] at h
  | ok k =>
    simp only [hl, bind, Except.bind] at h
    cases hi : d.item? k with
    | none => simp [hi, throw, throwThe, MonadExceptOf.throw] at h
    | some i =>
      simp only [hi, pure, Except.pure, Except.ok.injEq, Prod.mk.injEq] at h
      obtain ⟨rfl, rfl⟩ := h
      exact ⟨rfl, hi⟩

private theorem toList_temporaryName (n : Nat) :
    (temporaryName n).toList =
      "package-".toList ++ (Text.digits 10 8 n ++ ".tmp".toList) := by
  simp [temporaryName]

private theorem separator_not_mem_temporaryName (n : Nat) : '/' ∉ (temporaryName n).toList := by
  rw [toList_temporaryName, List.mem_append, List.mem_append]
  rintro (h | h | h)
  · exact absurd h (by decide)
  · have := Text.toNat_of_mem_digits (by decide) (by decide) h
    exact absurd this (by decide)
  · exact absurd h (by decide)

private theorem isName_temporaryName (n : Nat) : Location.IsName (temporaryName n) := by
  have hne : ∀ s : String, s.toList.head? ≠ some 'p' → temporaryName n ≠ s := by
    rintro s hs rfl
    rw [toList_temporaryName] at hs
    exact hs rfl
  exact ⟨hne "" (by decide), hne "." (by decide), hne ".." (by decide),
    separator_not_mem_temporaryName n⟩

theorem suffix_temporaryName (n : Nat) : ".tmp".toList <:+ (temporaryName n).toList := by
  rw [toList_temporaryName, ← List.append_assoc]
  exact List.suffix_append _ _

private theorem exists_freshName (d : Disk) (directory : List String) (fuel n : Nat) :
    ∃ k, d.freshName directory fuel n = temporaryName k := by
  induction fuel generalizing n with
  | zero => exact ⟨n, rfl⟩
  | succ fuel ih =>
    unfold freshName
    split
    · exact ⟨n, rfl⟩
    · exact ih (n + 1)

/-- A temporary file is created in the directory it is wanted in, where nothing of its name
stood. -/
theorem createTemporary_eq_ok {directory l : Location}
    (h : d.createTemporary directory = .ok (l, e)) :
    ∃ key n, d.find (Location.resolve d.workingDirectory directory) = .ok (key, .directory) ∧
      d.Fresh l (key ++ [temporaryName n]) ∧
      e = d.set (key ++ [temporaryName n]) (.file []) := by
  unfold createTemporary at h
  simp only at h
  split at h
  · simp at h
  · simp at h
  · rename_i key hfind
    split at h
    · simp at h
    · rename_i d' hcreate
      simp only [Except.ok.injEq, Prod.mk.injEq] at h
      obtain ⟨rfl, rfl⟩ := h
      obtain ⟨found, hfresh, hset⟩ := create_eq_ok hcreate
      obtain ⟨n, hname⟩ := exists_freshName d key d.items.length 0
      rw [hname] at hfresh ⊢
      obtain rfl := locate_child (isName_temporaryName n) (find_eq_ok hfind).1 hfresh.locate_eq
      exact ⟨key, n, hfind, hfresh, hset⟩

end Deposit.Disk
