import Mathlib.Data.List.Basic
import Deposit.Proofs.Xml.Markup

set_option autoImplicit false
set_option relaxedAutoImplicit false

/-!
Elements as a reader puts them together. A tag is sound in a scope when its names can be read and
are resolved to what they stand for; then a reader makes of it the element that it was written for.
-/

namespace Deposit.Xml

/-- A tag that is read as it was meant: its names are readable, distinct and resolved by the
declarations around it and its own. -/
structure SoundTag (scope : Scope) (name : Name) (declared : List (String × String))
    (names : List Name) : Prop where
  name_readable : IsReadable name.written
  readable : ∀ n ∈ declared.map (fun d => declarationName d.1) ++ names.map Name.written,
    IsReadable n
  distinct : areDistinct (declared.map (fun d => declarationName d.1) ++ names.map Name.written) =
    true
  declares : ∀ d ∈ declared, declaredShort? (declarationName d.1) = some d.1 ∧
    isDeclarable d.1 d.2 = true ∧ isText d.2 = true
  resolves : Scope.element? (declared ++ scope) name.written = some name
  attributes : ∀ n ∈ names, declaredShort? n.written = none ∧
    Scope.attribute? (declared ++ scope) n.written = some n ∧ n ≠ identityName
  separate : areDistinct (names.map fun n => (n.space, n.base)) = true

instance (scope : Scope) (name : Name) (declared : List (String × String)) (names : List Name) :
    Decidable (SoundTag scope name declared names) :=
  decidable_of_iff
    (IsReadable name.written ∧
      (∀ n ∈ declared.map (fun d => declarationName d.1) ++ names.map Name.written, IsReadable n) ∧
      areDistinct (declared.map (fun d => declarationName d.1) ++ names.map Name.written) = true ∧
      (∀ d ∈ declared, declaredShort? (declarationName d.1) = some d.1 ∧
        isDeclarable d.1 d.2 = true ∧ isText d.2 = true) ∧
      Scope.element? (declared ++ scope) name.written = some name ∧
      (∀ n ∈ names, declaredShort? n.written = none ∧
        Scope.attribute? (declared ++ scope) n.written = some n ∧ n ≠ identityName) ∧
      areDistinct (names.map fun n => (n.space, n.base)) = true)
    ⟨fun ⟨h₁, h₂, h₃, h₄, h₅, h₆, h₇⟩ => ⟨h₁, h₂, h₃, h₄, h₅, h₆, h₇⟩,
      fun ⟨h₁, h₂, h₃, h₄, h₅, h₆, h₇⟩ => ⟨h₁, h₂, h₃, h₄, h₅, h₆, h₇⟩⟩

variable {scope : Scope} {name : Name} {declared : List (String × String)}
  {attributes : List (Name × String)}

private theorem given_fst (declared : List (String × String)) (attributes : List (Name × String)) :
    (given declared attributes).map Prod.fst =
      declared.map (fun d => declarationName d.1) ++
        (attributes.map Prod.fst).map Name.written := by
  simp [given, Function.comp_def]

theorem SoundTag.readable_given (h : SoundTag scope name declared (attributes.map Prod.fst)) :
    ∀ a ∈ given declared attributes, IsReadable a.1 := by
  intro a ha
  have hmem := List.mem_map_of_mem (f := Prod.fst) ha
  rw [given_fst] at hmem
  exact h.readable _ hmem

private theorem mapM_map_eq_some {α β γ : Type} {f : β → Option γ} {g : α → β} {k : α → γ}
    {as : List α} (h : ∀ a ∈ as, f (g a) = some (k a)) : (as.map g).mapM f = some (as.map k) := by
  induction as with
  | nil => rfl
  | cons a as ih =>
    rw [List.map_cons, List.mapM_cons, h a List.mem_cons_self,
      ih fun b hb => h b (List.mem_cons_of_mem a hb)]
    rfl

private theorem allAttributes_written (isStandalone : Bool) (written : List Char)
    {as : List (List Char × String)} (h : areDistinct (as.map Prod.fst) = true) :
    allAttributes (.empty isStandalone) written (as.map escaped) = some as := by
  have hnames : (as.map escaped).map Prod.fst = as.map Prod.fst := by
    rw [List.map_map]
    rfl
  have hvalues : (as.map escaped).mapM (valueOf (.empty isStandalone) written) = some as := by
    rw [mapM_map_eq_some (k := id), List.map_id]
    intro a _
    rw [valueOf, escaped, attributeValue_escaped]
    simp [Doctype.rule?, Doctype.empty]
  rw [allAttributes, hnames, h, hvalues]
  simp [Doctype.defaults, Doctype.empty]

private theorem SoundTag.declarations_given
    (h : SoundTag scope name declared (attributes.map Prod.fst)) :
    declarations (given declared attributes) = some declared := by
  have hown : (declared.map fun d => (declarationName d.1, d.2)).filterMap
      (fun a => (declaredShort? a.1).map fun short => (short, a.2)) = declared := by
    rw [List.filterMap_map]
    refine (List.filterMap_congr fun d hd => ?_).trans List.filterMap_some
    simp [(h.declares d hd).1]
  have hothers : (attributes.map fun a => (a.1.written, a.2)).filterMap
      (fun a => (declaredShort? a.1).map fun short => (short, a.2)) = [] := by
    rw [List.filterMap_eq_nil_iff]
    intro a ha
    obtain ⟨b, hb, rfl⟩ := List.mem_map.1 ha
    simp [(h.attributes b.1 (List.mem_map_of_mem hb)).1]
  have hdeclarable : declared.all (fun d => isDeclarable d.1 d.2) = true :=
    List.all_eq_true.2 fun d hd => (h.declares d hd).2.1
  rw [declarations, given, List.filterMap_append, hown, hothers, List.append_nil]
  exact if_pos hdeclarable

theorem SoundTag.ofTag (h : SoundTag scope name declared (attributes.map Prod.fst))
    (isStandalone : Bool) :
    Frame.ofTag (.empty isStandalone) scope name.written ((given declared attributes).map escaped) =
      some ⟨name.written, name, declared, attributes, declared ++ scope, []⟩ := by
  have hothers : (given declared attributes).filter (fun a => (declaredShort? a.1).isNone) =
      attributes.map fun a => (a.1.written, a.2) := by
    rw [given, List.filter_append, List.filter_eq_nil_iff.2, List.nil_append,
      List.filter_eq_self.2]
    · intro a ha
      obtain ⟨b, hb, rfl⟩ := List.mem_map.1 ha
      rw [(h.attributes b.1 (List.mem_map_of_mem hb)).1]
      rfl
    · intro a ha
      obtain ⟨b, hb, rfl⟩ := List.mem_map.1 ha
      rw [(h.declares b hb).1]
      exact Bool.false_ne_true
  have hresolved : (attributes.map fun a => (a.1.written, a.2)).mapM (fun a =>
      (Scope.attribute? (declared ++ scope) a.1).map fun name => (name, a.2)) =
        some attributes := by
    rw [mapM_map_eq_some (k := id), List.map_id]
    intro a ha
    rw [(h.attributes a.1 (List.mem_map_of_mem ha)).2.1]
    rfl
  have hseparate : areDistinct (attributes.map fun a => (a.1.space, a.1.base)) = true := by
    have := h.separate
    rwa [List.map_map] at this
  have hidentity : hasSoundIdentity attributes = true := by
    refine List.all_eq_true.2 fun a ha => ?_
    have hne := (h.attributes a.1 (List.mem_map_of_mem ha)).2.2
    simp [hne]
  rw [Frame.ofTag, allAttributes_written _ _ (given_fst declared attributes ▸ h.distinct)]
  simp only [Option.bind_eq_bind, Option.bind_some]
  rw [h.declarations_given]
  simp only [Option.bind_some]
  rw [h.resolves, hothers]
  simp only [Option.bind_some]
  rw [hresolved]
  simp [hseparate, hidentity]

end Deposit.Xml
