import Mathlib.Data.List.Basic
import Deposit.Digest.Tally
import Deposit.Proofs.Package.Segments
import Deposit.Proofs.Text.Digits
import Deposit.Proofs.Text.Separators
import Deposit.Specification.Registry

set_option autoImplicit false
set_option relaxedAutoImplicit false

/-!
When the registered specifications can generate their files. What they write into a document comes
from the metadata of the submission and from the paths of the package; everything else in it is text
whatever it is made from. So they fail only on a metadata value or a path with a character that no
document may hold.
-/

namespace Deposit

namespace Xml

private theorem isText_of_subset {s t : String} (hs : isText s = true)
    (h : ∀ c ∈ t.toList, c ∈ s.toList) : isText t = true :=
  List.all_eq_true.2 fun c hc => List.all_eq_true.1 hs c (h c hc)

end Xml

namespace Text

private theorem mem_of_mem_trim {s : String} {c : Char} (h : c ∈ (trim s).toList) :
    c ∈ s.toList := by
  rw [trim, String.toList_ofList] at h
  exact mem_of_mem_stripWhere h

end Text

private theorem Bytes.isText_toHex (bs : Bytes) : Xml.isText (toHex bs) = true := by
  have hdigit : ∀ d < 16, Xml.isChar d.digitChar = true := by decide
  refine List.all_eq_true.2 fun c hc => ?_
  rw [toHex, String.toList_ofList] at hc
  obtain ⟨b, -, hb⟩ := List.mem_flatMap.1 hc
  obtain ⟨d, hd, rfl⟩ := Text.exists_digitChar_of_mem_digits (by decide) hb
  exact hdigit d hd

theorem mem_of_lookup_eq_some {entries : List (String × String)} {key value : String}
    (h : entries.lookup key = some value) : (key, value) ∈ entries := by
  induction entries with
  | nil => cases h
  | cons entry entries ih =>
    rw [List.lookup_cons] at h
    split at h
    · rename_i hkey
      obtain rfl := Option.some.inj h
      rw [beq_iff_eq.1 hkey]
      exact List.mem_cons_self
    · exact List.mem_cons_of_mem _ (ih h)

private theorem Submission.mem_of_value? {s : Submission} {key value : String}
    (h : s.value? key = some value) : value ∈ s.metadata.map Prod.snd := by
  unfold value? at h
  split at h
  · rename_i v hv
    split at h
    · cases h
    · obtain rfl := Option.some.inj h
      exact List.mem_map_of_mem (mem_of_lookup_eq_some hv)
  · cases h

namespace MediaType

private theorem isText_ofExtension? {cs : List Char} {t : String} (h : ofExtension? cs = some t) :
    Xml.isText t = true := by
  have htypes : types.all (fun e => Xml.isText e.2) = true := by decide +kernel
  unfold ofExtension? at h
  generalize types = table at h htypes
  exact List.all_eq_true.1 htypes _ (mem_of_lookup_eq_some h)

private theorem isText_ofData? {cs : List Char} {t : String} (hcs : ∀ c ∈ cs, Xml.isChar c = true)
    (h : ofData? cs = some t) : Xml.isText t = true := by
  unfold ofData? at h
  split at h
  · simp only [Option.some.injEq] at h
    split at h
    · subst h
      decide
    · subst h
      refine List.all_eq_true.2 fun c hc => hcs c ?_
      rw [String.toList_ofList] at hc
      exact (List.takeWhile_sublist _).mem ((List.takeWhile_sublist _).mem hc)
  · cases h

private theorem mem_of_splitScheme {cs scheme rest : List Char} {c : Char}
    (h : splitScheme cs = some (scheme, rest)) (hc : c ∈ rest) : c ∈ cs := by
  unfold splitScheme at h
  dsimp only at h
  split at h
  · rename_i following hdrop
    split at h
    · cases h
    · obtain ⟨-, rfl⟩ := Prod.mk.inj (Option.some.inj h)
      have hmem : c ∈ ':' :: following := List.mem_cons_of_mem _ hc
      rw [← hdrop] at hmem
      exact List.mem_of_mem_drop hmem
  · cases h

private theorem isText_ofPath {path : String} (h : Xml.isText path = true) :
    Xml.isText (ofPath path) = true := by
  have hguess : ∀ t, guess? path = some t → Xml.isText t = true := by
    intro t ht
    unfold guess? at ht
    split at ht
    · rename_i scheme rest hsplit
      split at ht
      · refine isText_ofData? (fun c hc => List.all_eq_true.1 h c ?_) ht
        exact mem_of_splitScheme hsplit hc
      · exact isText_ofExtension? ht
    · exact isText_ofExtension? ht
  unfold ofPath
  cases hp : guess? path with
  | none =>
    show Xml.isText unknownMediaType = true
    decide
  | some t => exact hguess t hp

end MediaType

/-- A description whose media type is told from its path and whose checksums were tallied. -/
structure Resource.IsMeasured (r : Resource) : Prop where
  mediaType_eq : r.mediaType = MediaType.ofPath r.packagePath
  tallied : ∃ tally : Digest.Tally, r.checksums = tally.digests

theorem Resource.IsMeasured.isText_of_preferredChecksum {r : Resource} (h : r.IsMeasured)
    {c : String × String} (hc : Specification.Mets.preferredChecksum r = some c) :
    Xml.isText c.2 = true := by
  obtain ⟨tally, htally⟩ := h.tallied
  obtain ⟨t, -, ht⟩ := List.exists_of_findSome?_eq_some hc
  obtain ⟨digest, hdigest, rfl⟩ := Option.map_eq_some_iff.1 ht
  have hmem := mem_of_lookup_eq_some hdigest
  rw [htally] at hmem
  obtain ⟨running, -, hrunning⟩ := List.mem_map.1 hmem
  rw [← congrArg Prod.snd hrunning]
  exact Bytes.isText_toHex _

namespace Specification

/-- A metadata value or a path of the package that no document may hold. -/
def HasUnsuitable (s : Submission) (paths : List String) : Prop :=
  ∃ text ∈ s.metadata.map Prod.snd ++ paths, Xml.isText text = false

private theorem isText_of_not_hasUnsuitable {s : Submission} {paths : List String} {text : String}
    (h : ¬ HasUnsuitable s paths) (ht : text ∈ s.metadata.map Prod.snd ++ paths) :
    Xml.isText text = true := by
  by_contra hbad
  exact h ⟨text, ht, Bool.not_eq_true _ ▸ hbad⟩

namespace Mets

private theorem isText_valuesOf {key value text : String} (hvalue : Xml.isText value = true)
    (h : text ∈ valuesOf key value) : Xml.isText text = true := by
  unfold valuesOf at h
  obtain ⟨part, hpart, rfl⟩ := List.mem_map.1 h
  refine Xml.isText_of_subset hvalue fun c hc => ?_
  have hc := Text.mem_of_mem_trim hc
  split at hpart
  · obtain ⟨cs, hcs, rfl⟩ := List.mem_map.1 hpart
    rw [String.toList_ofList] at hc
    exact mem_of_mem_splitOn hcs hc
  · obtain rfl := List.mem_singleton.1 hpart
    exact hc

theorem isText_of_mem_foreignTexts {s : Submission} {rs : List Resource}
    (hrs : ∀ r ∈ rs, r.IsMeasured) (h : ¬ HasUnsuitable s (rs.map Resource.packagePath))
    {text : String} (ht : text ∈ foreignTexts s rs) : Xml.isText text = true := by
  rcases List.mem_append.1 ht with hvalues | hresource
  · obtain ⟨field, hfield, rfl⟩ := List.mem_map.1 hvalues
    obtain ⟨f, -, hf⟩ := List.mem_flatMap.1 hfield
    split at hf
    · rename_i value hvalue
      obtain ⟨v, hv, rfl⟩ := List.mem_map.1 hf
      exact isText_valuesOf (isText_of_not_hasUnsuitable h
        (List.mem_append_left _ (Submission.mem_of_value? hvalue))) hv
    · cases hf
  · obtain ⟨r, hr, htext⟩ := List.mem_flatMap.1 hresource
    have hpath : Xml.isText r.packagePath = true :=
      isText_of_not_hasUnsuitable h (List.mem_append_right _ (List.mem_map_of_mem hr))
    rcases List.mem_append.1 htext with hplain | hchecksum
    · rcases List.mem_pair.1 hplain with rfl | rfl
      · rw [(hrs r hr).mediaType_eq]
        exact MediaType.isText_ofPath hpath
      · exact hpath
    · obtain ⟨c, hc, rfl⟩ : ∃ c, preferredChecksum r = some c ∧ c.2 = text := by
        simpa using hchecksum
      exact (hrs r hr).isText_of_preferredChecksum hc

end Mets

namespace Nihms

theorem isText_of_mem_foreignTexts {s : Submission} {paths : List String} {title text : String}
    (htitle : s.metadata.lookup "title" = some title) (h : ¬ HasUnsuitable s paths)
    (ht : text ∈ foreignTexts s title) : Xml.isText text = true := by
  refine isText_of_not_hasUnsuitable h (List.mem_append_left _ ?_)
  rcases List.mem_cons.1 ht with rfl | hvalue
  · exact List.mem_map_of_mem (mem_of_lookup_eq_some htitle)
  · obtain ⟨key, -, hkey⟩ := List.mem_flatMap.1 hvalue
    exact Submission.mem_of_value? (Option.mem_toList.1 hkey)

end Nihms

/-- Where the required metadata are there, a registered specification fails to generate its files
only on a text that no document may hold, and that is a metadata value or a path of the package. -/
theorem generate_eq_error_of_registered {spec : Specification} (h : spec ∈ registered)
    {s : Submission} {rs : List Resource} {fault : Fault}
    (hrequired : ∀ key ∈ spec.required, s.value? key ≠ none) (hrs : ∀ r ∈ rs, r.IsMeasured)
    (hg : spec.generate s rs = .error fault) :
    fault = .unsuitableText ∧ HasUnsuitable s (rs.map Resource.packagePath) := by
  simp only [registered, List.mem_cons, List.not_mem_nil, or_false] at h
  rcases h with rfl | rfl | rfl
  · cases hg
  · simp only [mets, Mets.generate] at hg
    split at hg
    · cases hg
    · rename_i hall
      refine ⟨(Except.error.inj hg).symm, ?_⟩
      by_contra hsuits
      exact hall (List.all_eq_true.2 fun text ht => Mets.isText_of_mem_foreignTexts hrs hsuits ht)
  · simp only [nihms, Nihms.generate] at hg
    split at hg
    · rename_i hnone
      exact absurd (by rw [Submission.value?, hnone]) (hrequired "title" List.mem_cons_self)
    · rename_i title htitle
      split at hg
      · cases hg
      · rename_i hall
        refine ⟨(Except.error.inj hg).symm, ?_⟩
        by_contra hsuits
        exact hall (List.all_eq_true.2 fun text ht =>
          Nihms.isText_of_mem_foreignTexts htitle hsuits ht)

end Specification

end Deposit
