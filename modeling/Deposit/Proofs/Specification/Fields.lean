import Deposit.Proofs.Specification.ReadBack

set_option autoImplicit false
set_option relaxedAutoImplicit false

/-!
The metadata fields of a METS manifest. Each of eight metadata keys has a field name of its own, and
the texts under a name are the parts of the value of its key, trimmed. Main statement: from the
fields of canonical metadata the values under the eight keys are found again, and nothing else of
the metadata has an influence on the manifest.
-/

namespace Deposit

namespace Text

private theorem trim_ofList_cons {c : Char} (hc : isBlank c = true) (cs : List Char) :
    trim (String.ofList (c :: cs)) = trim (String.ofList cs) := by
  rw [trim, trim, String.toList_ofList, String.toList_ofList, stripWhere, stripWhere,
    List.dropWhile_cons_of_pos hc]

theorem trim_ofList_eq_empty_iff {cs : List Char} :
    trim (String.ofList cs) = "" ↔ ∀ c ∈ cs, isBlank c = true := by
  rw [← stripWhere_eq_nil_iff, trim, String.toList_ofList, ← String.toList_inj,
    String.toList_ofList]
  rfl

end Text

section Entries

variable {entries others : List (String × String)} {key value : String}

private theorem lookup_eq_some_iff_mem (hkeys : (entries.map Prod.fst).Nodup) :
    entries.lookup key = some value ↔ (key, value) ∈ entries := by
  refine ⟨mem_of_lookup_eq_some, fun hmem => ?_⟩
  induction entries with
  | nil => cases hmem
  | cons entry entries ih =>
    rw [List.map_cons, List.nodup_cons] at hkeys
    rcases List.mem_cons.1 hmem with rfl | hmem
    · exact List.lookup_cons_self
    · have hother : (key == entry.1) = false := by
        rw [beq_eq_false_iff_ne]
        rintro rfl
        exact hkeys.1 (List.mem_map.2 ⟨_, hmem, rfl⟩)
      rw [List.lookup_cons, hother]
      exact ih hkeys.2 hmem

private theorem lookup_eq_of_perm (hkeys : (entries.map Prod.fst).Nodup)
    (hperm : entries.Perm others) :
    entries.lookup key = others.lookup key := by
  have hothers : (others.map Prod.fst).Nodup := (hperm.map Prod.fst).nodup_iff.1 hkeys
  apply Option.ext
  intro value
  rw [lookup_eq_some_iff_mem hkeys, lookup_eq_some_iff_mem hothers, hperm.mem_iff]

private theorem lookup_filter {p : String → Bool} (hkey : p key = true)
    (entries : List (String × String)) :
    (entries.filter fun e => p e.1).lookup key = entries.lookup key := by
  induction entries with
  | nil => rfl
  | cons entry entries ih =>
    rw [List.filter_cons, List.lookup_cons]
    by_cases hsame : key = entry.1
    · rw [if_pos (hsame ▸ hkey), List.lookup_cons, beq_iff_eq.2 hsame]
    · have hother : (key == entry.1) = false := beq_eq_false_iff_ne.2 hsame
      rw [hother]
      split
      · rw [List.lookup_cons, hother]
        exact ih
      · exact ih

end Entries

private theorem Submission.value?_eq_of_perm {s t : Submission} {p : String → Bool}
    (hkeys : (s.metadata.map Prod.fst).Nodup)
    (hperm : (s.metadata.filter fun e => p e.1).Perm (t.metadata.filter fun e => p e.1))
    {key : String} (hkey : p key = true) : s.value? key = t.value? key := by
  have hnodup : ((s.metadata.filter fun e => p e.1).map Prod.fst).Nodup :=
    hkeys.sublist (List.filter_sublist.map Prod.fst)
  have hlookup : s.metadata.lookup key = t.metadata.lookup key := by
    rw [← lookup_filter hkey s.metadata, lookup_eq_of_perm hnodup hperm, lookup_filter hkey]
  rw [value?, value?, hlookup]

namespace Specification.Mets

open Xml.Node (elementsAt)

variable {s t : Submission} {key value : String} {names : List String}

/-- The metadata keys that become fields. -/
def fieldKeys : List String :=
  fieldNames.map Prod.fst

/-- The parts of a value that become fields of their own: what authors have between semicolons, and
any other value as a whole. -/
def parts (key value : String) : List (List Char) :=
  if key = "authors" then value.toList.splitOn ';' else [value.toList]

theorem valuesOf_eq (key value : String) :
    valuesOf key value = (parts key value).map fun part => Text.trim (String.ofList part) := by
  unfold valuesOf parts
  split
  · rw [List.map_map]
    rfl
  · rw [List.map_singleton, List.map_singleton, String.ofList_toList]

/-- The texts of the fields that are made of the value of a key. -/
def texts (s : Submission) (key : String) : List String :=
  ((s.value? key).map (valuesOf key)).getD []

theorem fields_eq (s : Submission) :
    fields s = fieldNames.flatMap fun f => (texts s f.1).map fun text => (f.2, text) := by
  unfold fields texts
  congr
  funext f
  cases s.value? f.1 <;> rfl

private theorem map_snd_filter_fields {f : String × FieldName} (hf : f ∈ fieldNames) :
    ((fields s).filter (·.1 = f.2)).map Prod.snd = texts s f.1 := by
  have hnames : (fieldNames.map Prod.snd).Nodup := by decide
  rw [fields_eq]
  generalize fieldNames = names at hf hnames
  induction names with
  | nil => cases hf
  | cons g names ih =>
    rw [List.map_cons, List.nodup_cons] at hnames
    obtain ⟨hnew, hrest⟩ := hnames
    have hown : ((texts s g.1).map fun text => (g.2, text)).filter (·.1 = f.2) =
        if g.2 = f.2 then (texts s g.1).map fun text => (g.2, text) else [] := by
      split
      · rename_i hsame
        simp [hsame]
      · rename_i hother
        simp [hother]
    rw [List.flatMap_cons, List.filter_append, List.map_append, hown]
    rcases List.mem_cons.1 hf with rfl | hf
    · have hothers : (names.flatMap fun g => (texts s g.1).map fun text => (g.2, text)).filter
          (·.1 = f.2) = [] := by
        rw [List.filter_eq_nil_iff]
        intro x hx hname
        obtain ⟨h, hh, hx⟩ := List.mem_flatMap.1 hx
        obtain ⟨text, -, rfl⟩ := List.mem_map.1 hx
        exact hnew (of_decide_eq_true hname ▸ List.mem_map_of_mem hh)
      rw [if_pos rfl, hothers, List.map_nil, List.append_nil, List.map_map]
      exact List.map_id _
    · have hother : g.2 ≠ f.2 := fun hsame => hnew (hsame ▸ List.mem_map_of_mem hf)
      rw [if_neg hother, List.map_nil, List.nil_append]
      exact ih hf hrest

private theorem fields_eq_iff :
    fields s = fields t ↔ ∀ key ∈ fieldKeys, texts s key = texts t key := by
  constructor
  · intro h key hkey
    obtain ⟨f, hf, rfl⟩ := List.mem_map.1 hkey
    rw [← map_snd_filter_fields hf, h, map_snd_filter_fields hf]
  · intro h
    rw [fields_eq, fields_eq]
    refine List.flatMap_congr fun f hf => ?_
    rw [h f.1 (List.mem_map_of_mem hf)]

/-- A name that can stand among others: trimmed, not empty and without a semicolon. -/
structure IsAuthorName (name : String) : Prop where
  trimmed : Text.trim name = name
  ne_empty : name ≠ ""
  plain : ';' ∉ name.toList

/-- Names as one value. -/
def joined (names : List String) : String :=
  "; ".intercalate names

/-- Metadata as they are meant to be given: values are trimmed, and authors are joined names. -/
structure IsCanonical (s : Submission) : Prop where
  trimmed : ∀ key ∈ fieldKeys, ∀ value, s.value? key = some value → Text.trim value = value
  authors : ∀ value, s.value? "authors" = some value →
    ∃ names, names ≠ [] ∧ (∀ name ∈ names, IsAuthorName name) ∧ value = joined names

private theorem valuesOf_joined (hne : names ≠ []) (hnames : ∀ name ∈ names, IsAuthorName name) :
    valuesOf "authors" (joined names) = names := by
  obtain ⟨first, rest, rfl⟩ := List.exists_cons_of_ne_nil hne
  have hblank : Text.isBlank ' ' = true := by decide
  have hseparator : "; ".toList = [';', ' '] := by decide
  have hplain : ∀ part ∈ first.toList :: (rest.map String.toList).map (' ' :: ·), ';' ∉ part := by
    intro part hpart
    rw [List.map_map, List.mem_cons, List.mem_map] at hpart
    rcases hpart with rfl | ⟨name, hname, rfl⟩
    · exact (hnames first List.mem_cons_self).plain
    · rw [Function.comp_apply, List.mem_cons, not_or]
      exact ⟨by decide, (hnames name (List.mem_cons_of_mem _ hname)).plain⟩
  have hparts : parts "authors" (joined (first :: rest)) =
      first.toList :: (rest.map String.toList).map (' ' :: ·) := by
    rw [parts, if_pos rfl, joined, String.toList_intercalate, hseparator, List.map_cons,
      intercalate_pair, List.splitOn_intercalate ';' hplain (List.cons_ne_nil _ _)]
  rw [valuesOf_eq, hparts, List.map_cons, String.ofList_toList,
    (hnames first List.mem_cons_self).trimmed, List.map_map, List.map_map]
  congr
  refine (List.map_congr_left fun name hname => ?_).trans (List.map_id rest)
  rw [Function.comp_apply, Function.comp_apply, Text.trim_ofList_cons hblank, String.ofList_toList]
  exact (hnames name (List.mem_cons_of_mem _ hname)).trimmed

/-- The value that texts come from. -/
def restored (texts : List String) : Option String :=
  if texts = [] then none else some (joined texts)

private theorem IsCanonical.value?_eq (h : IsCanonical s) (hkey : key ∈ fieldKeys) :
    s.value? key = restored (texts s key) := by
  unfold texts
  cases hvalue : s.value? key with
  | none => rfl
  | some value =>
    rw [Option.map_some, Option.getD_some]
    by_cases hauthors : key = "authors"
    · subst hauthors
      obtain ⟨names, hne, hnames, rfl⟩ := h.authors value hvalue
      rw [valuesOf_joined hne hnames, restored, if_neg hne]
    · have htexts : valuesOf key value = [value] := by
        rw [valuesOf_eq, parts, if_neg hauthors, List.map_singleton, String.ofList_toList,
          h.trimmed key hkey value hvalue]
      rw [htexts, restored, if_neg (List.cons_ne_nil _ _)]
      rfl

private theorem fieldElement_injective : Function.Injective fieldElement := by
  rintro ⟨⟨schema, base, qualifier⟩, text⟩ ⟨⟨schema', base', qualifier'⟩, text'⟩ h
  cases qualifier <;> cases qualifier' <;> simp_all [fieldElement]

/-- The texts of the fields of a name, in the order of the document. -/
def fieldTexts (name : FieldName) (doc : Xml.Node) : List String :=
  (((elementsAt fieldPath doc).map fieldOfElement).filter fun f =>
    f.1 = some name.schema ∧ f.2.1 = some name.element ∧ f.2.2.1 = name.qualifier).map
      fun f => f.2.2.2

/-- Whether a document has the fields of the metadata of a submission. -/
def HasFields (s : Submission) (doc : Xml.Node) : Prop :=
  (elementsAt fieldPath doc).map fieldOfElement =
    (fields s).map fun f => (some f.1.schema, some f.1.element, f.1.qualifier, f.2)

private theorem hasFields_manifest (s : Submission) (rs : List Resource) :
    HasFields s (manifest s rs) := by
  rw [HasFields, elementsAt_fieldPath, List.map_map]
  refine List.map_congr_left fun f _ => ?_
  obtain ⟨⟨schema, base, qualifier⟩, text⟩ := f
  have htext : (fieldElement (⟨schema, base, qualifier⟩, text)).ownText = text := by
    simp [fieldElement, Xml.Node.ownText, Xml.Node.children, String.join]
  rw [Function.comp_apply, fieldOfElement, htext]
  cases qualifier <;> rfl

theorem HasFields.fieldTexts_eq {doc : Xml.Node} (h : HasFields s doc) {f : String × FieldName}
    (hf : f ∈ fieldNames) : fieldTexts f.2 doc = texts s f.1 := by
  have hname : ∀ g : FieldName × String, decide (g.1 = f.2) =
      decide (some g.1.schema = some f.2.schema ∧ some g.1.element = some f.2.element ∧
        g.1.qualifier = f.2.qualifier) := by
    intro g
    obtain ⟨⟨schema, base, qualifier⟩, text⟩ := g
    obtain ⟨key, ⟨schema', base', qualifier'⟩⟩ := f
    simp
  rw [fieldTexts, h, ← map_snd_filter_fields hf, List.filter_map, List.map_map]
  simp only [hname]
  rfl

private theorem generate_congr (h : fields s = fields t) (rs : List Resource) :
    (generate s rs).map Generated.files = (generate t rs).map Generated.files := by
  have htexts : foreignTexts s rs = foreignTexts t rs := by
    rw [foreignTexts, foreignTexts, h]
  have hmanifest : manifest s rs = manifest t rs := by
    rw [manifest, manifest, metadataSection, metadataSection, h]
  rw [generate, generate, htexts, hmanifest]
  split <;> rfl

/-- The field of the names of authors. -/
def authorField : FieldName :=
  ⟨"dc", "contributor", some "author"⟩

/-- The fields in the manifests of two submissions with canonical metadata are the same exactly if
the submissions agree on the values under the eight keys, where an empty value counts as none. The
names of authors, joined in one value, stand in fields of their own, in their order. Manifests are
made of nothing else of the metadata: they are the same whenever the values under the eight keys
are, and so neither other keys nor the order of keys have an influence on them. -/
theorem fields_of_canonical :
    (∀ s t : Submission, IsCanonical s → IsCanonical t → ∀ rs us : List Resource,
      elementsAt fieldPath (manifest s rs) = elementsAt fieldPath (manifest t us) ↔
        ∀ key ∈ fieldKeys, s.value? key = t.value? key) ∧
    (∀ (s : Submission) (names : List String), names ≠ [] →
      (∀ name ∈ names, IsAuthorName name) → s.value? "authors" = some (joined names) →
        ∀ rs, fieldTexts authorField (manifest s rs) = names) ∧
    (∀ (s t : Submission) (rs : List Resource),
      (∀ key ∈ fieldKeys, s.value? key = t.value? key) →
        (generate s rs).map Generated.files = (generate t rs).map Generated.files) ∧
    ∀ (s t : Submission) (rs : List Resource), (s.metadata.map Prod.fst).Nodup →
      (s.metadata.filter (·.1 ∈ fieldKeys)).Perm (t.metadata.filter (·.1 ∈ fieldKeys)) →
        (generate s rs).map Generated.files = (generate t rs).map Generated.files := by
  have hagree : ∀ s t : Submission, (∀ key ∈ fieldKeys, s.value? key = t.value? key) →
      fields s = fields t := by
    intro s t h
    refine fields_eq_iff.2 fun key hkey => ?_
    rw [texts, texts, h key hkey]
  refine ⟨?faithful, ?authors, fun s t rs h => generate_congr (hagree s t h) rs, ?order⟩
  case faithful =>
    intro s t hs ht rs us
    rw [elementsAt_fieldPath, elementsAt_fieldPath, fieldElement_injective.list_map.eq_iff]
    refine ⟨fun h key hkey => ?_, hagree s t⟩
    rw [hs.value?_eq hkey, ht.value?_eq hkey, fields_eq_iff.1 h key hkey]
  case authors =>
    intro s names hne hnames hvalue rs
    have hfield : ("authors", authorField) ∈ fieldNames := by decide
    rw [(hasFields_manifest s rs).fieldTexts_eq hfield, texts, hvalue, Option.map_some,
      Option.getD_some, valuesOf_joined hne hnames]
  case order =>
    intro s t rs hkeys hperm
    refine generate_congr (hagree s t fun key hkey => ?_) rs
    exact Submission.value?_eq_of_perm (p := (· ∈ fieldKeys)) hkeys hperm (decide_eq_true hkey)

/-- A study by two authors. -/
def study : Submission where
  id := "study"
  files := []
  metadata := [("title", "On \"A; B\""), ("authors", "Jane Doe; John Smith"), ("doi", ""),
    ("funder", " none ")]

/-- The study with its metadata in another order and without its funder. -/
def reorderedStudy : Submission where
  id := "reordered"
  files := []
  metadata := [("doi", ""), ("authors", "Jane Doe; John Smith"), ("title", "On \"A; B\"")]

/-- The study without what has no value. -/
def briefStudy : Submission where
  id := "brief"
  files := []
  metadata := [("authors", "Jane Doe; John Smith"), ("title", "On \"A; B\"")]

/-- The study with the names of its authors in another order. -/
def recreditedStudy : Submission where
  id := "recredited"
  files := []
  metadata := [("title", "On \"A; B\""), ("authors", "John Smith; Jane Doe")]

private theorem isCanonical_of_authors {first second : String}
    (htrimmed : ∀ key ∈ fieldKeys, ∀ value ∈ s.value? key, Text.trim value = value)
    (hfirst : IsAuthorName first) (hsecond : IsAuthorName second)
    (hauthors : s.value? "authors" = some (joined [first, second])) : IsCanonical s := by
  refine ⟨htrimmed, fun value hvalue => ⟨[first, second], List.cons_ne_nil _ _, ?_, ?_⟩⟩
  · rw [List.forall_mem_cons, List.forall_mem_singleton]
    exact ⟨hfirst, hsecond⟩
  · exact Option.some.inj (hvalue.symm.trans hauthors)

theorem fields_of_study :
    elementsAt fieldPath (manifest study []) = elementsAt fieldPath (manifest reorderedStudy []) ∧
    elementsAt fieldPath (manifest study []) ≠ elementsAt fieldPath (manifest recreditedStudy []) ∧
    fieldTexts authorField (manifest study []) = ["Jane Doe", "John Smith"] ∧
    (generate study []).map Generated.files = (generate briefStudy []).map Generated.files ∧
    (generate study []).map Generated.files = (generate reorderedStudy []).map Generated.files := by
  have hjane : IsAuthorName "Jane Doe" := ⟨by decide, by decide, by decide⟩
  have hjohn : IsAuthorName "John Smith" := ⟨by decide, by decide, by decide⟩
  have hstudy : IsCanonical study :=
    isCanonical_of_authors (by decide +kernel) hjane hjohn (by decide)
  have hreordered : IsCanonical reorderedStudy :=
    isCanonical_of_authors (by decide +kernel) hjane hjohn (by decide)
  have hrecredited : IsCanonical recreditedStudy :=
    isCanonical_of_authors (by decide +kernel) hjohn hjane (by decide)
  obtain ⟨hfaithful, hauthors, hvalues, horder⟩ := fields_of_canonical
  refine ⟨(hfaithful _ _ hstudy hreordered [] []).2 (by decide), fun hsame => ?_, ?_,
    hvalues study briefStudy [] (by decide), ?_⟩
  · have hvalue := (hfaithful _ _ hstudy hrecredited [] []).1 hsame "authors" (by decide)
    exact absurd hvalue (by decide)
  · refine hauthors study ["Jane Doe", "John Smith"] (List.cons_ne_nil _ _) ?_ (by decide) []
    rw [List.forall_mem_cons, List.forall_mem_singleton]
    exact ⟨hjane, hjohn⟩
  · exact horder study reorderedStudy [] (by decide) (by decide +kernel)

end Specification.Mets

end Deposit
