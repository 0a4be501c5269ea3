import Mathlib
import NativeBuild.Generated

/-!
# The symbols of embedded files

The symbol of an embedded file has the project's id, an underscore and the name of the file, and
underscores for the full stops in them.  So a full stop is not told from an underscore, nor an
underscore of an id or a name from the one between them; but nothing else is confused.

Main definitions:

- `flat`: a text with underscores for its full stops.
- `Asset`: a file that is embedded for a project.
- `Asset.Confusable`: how different assets come to have one symbol.
- `Asset.label`: the label of an asset for a mark.
- `Unambiguous`: different assets have different symbols.

Main results:

- Theorem `Asset.symbol_eq_iff`: which assets have the same symbol.
- Theorem `Asset.label_inj`: which assets have the same label.
- Theorem `unambiguous_iff`: when the symbols of assets are unambiguous.
- Theorem `Unambiguous.eq_of_mem_labels`: then a label is one of one asset only.
-/

namespace NativeBuild

/-! ## Symbols -/

/-- The characters of a text, an underscore for every full stop. -/
def flat (text : String) : List Char :=
  text.toList.map fun c => if c = '.' then '_' else c

/-- A text without full stops stays as it is. -/
theorem flat_of_not_mem {text : String} (h : '.' ∉ text.toList) : flat text = text.toList := by
  rw [flat]
  conv_rhs => rw [← List.map_id text.toList]
  refine List.map_congr_left fun c hc => ?_
  rw [if_neg (ne_of_mem_of_not_mem hc h), id]

/-- A file that is embedded for a project. -/
structure Asset where
  project : String
  file : String
deriving DecidableEq, Repr

namespace Asset

variable {a b : Asset}

/-- The symbol under which the file is embedded. -/
def symbol (a : Asset) : String :=
  assetSymbol a.project a.file

/-- A symbol is spelled with the flat id and the flat name of the file. -/
theorem toList_symbol (a : Asset) :
    a.symbol.toList = '_' :: '_' :: (flat a.project ++ '_' :: flat a.file) := by
  simp [symbol, assetSymbol, flat]

/-- Assets that are not told apart by their symbols: ids and names differ at most by full stops and
underscores, or one id goes on, after an underscore, with what the other's file starts with. -/
inductive Confusable (a b : Asset) : Prop where
  | alike (project : flat a.project = flat b.project) (file : flat a.file = flat b.file)
  | longer (middle : List Char) (project : flat a.project = flat b.project ++ '_' :: middle)
      (file : flat b.file = middle ++ '_' :: flat a.file)
  | shorter (middle : List Char) (project : flat b.project = flat a.project ++ '_' :: middle)
      (file : flat a.file = middle ++ '_' :: flat b.file)

/-- Assets have the same symbol when they are confusable, and only then. -/
theorem symbol_eq_iff : a.symbol = b.symbol ↔ a.Confusable b := by
  rw [← String.toList_inj, toList_symbol, toList_symbol, List.cons.injEq, List.cons.injEq,
    and_iff_right rfl, and_iff_right rfl]
  constructor
  · intro h
    rcases List.append_eq_append_iff.1 h with ⟨middle, hproject, hfile⟩ | ⟨middle, hproject, hfile⟩
    · cases middle with
      | nil => exact .alike (by simpa using hproject.symm) (List.cons.inj hfile).2
      | cons c middle =>
          obtain ⟨rfl, hrest⟩ := List.cons.inj hfile
          exact .shorter middle hproject hrest
    · cases middle with
      | nil => exact .alike (by simpa using hproject) (List.cons.inj hfile).2.symm
      | cons c middle =>
          obtain ⟨rfl, hrest⟩ := List.cons.inj hfile
          exact .longer middle hproject hrest
  · rintro (⟨hproject, hfile⟩ | ⟨middle, hproject, hfile⟩ | ⟨middle, hproject, hfile⟩) <;>
      simp [hproject, hfile]

/-- Nothing is confused among assets whose projects have ids without full stops and underscores,
and whose file names, in one project, differ by more than full stops and underscores. -/
theorem not_confusable_of_plain {assets : List Asset}
    (hids : ∀ a ∈ assets, '.' ∉ a.project.toList ∧ '_' ∉ a.project.toList)
    (hfiles : ∀ a ∈ assets, ∀ b ∈ assets, a.project = b.project → flat a.file = flat b.file →
      a.file = b.file) :
    ∀ a ∈ assets, ∀ b ∈ assets, a ≠ b → ¬ a.Confusable b := by
  rintro a ha b hb hne (⟨hproject, hfile⟩ | ⟨middle, hproject, -⟩ | ⟨middle, hproject, -⟩)
  · rw [flat_of_not_mem (hids a ha).1, flat_of_not_mem (hids b hb).1, String.toList_inj] at hproject
    have hname := hfiles a ha b hb hproject hfile
    cases a
    cases b
    exact hne (by simp_all)
  · rw [flat_of_not_mem (hids a ha).1] at hproject
    exact (hids a ha).2 (by simp [hproject])
  · rw [flat_of_not_mem (hids b hb).1] at hproject
    exact (hids b hb).2 (by simp [hproject])

/-! ## Labels -/

/-- What a label of an asset marks. -/
inductive Mark where
  | start
  | finish
  | size
deriving DecidableEq, Repr

/-- The end of a label. -/
def Mark.suffix : Mark → String
  | .start => "_start"
  | .finish => "_end"
  | .size => "_size"

/-- The label of an asset for a mark. -/
def label (a : Asset) (mark : Mark) : String :=
  a.symbol ++ mark.suffix

/-- The labels of an asset. -/
def labels (a : Asset) : List String :=
  [a.label .start, a.label .finish, a.label .size]

/-- The labels of an asset are its symbol with each of the marks. -/
theorem mem_labels {label : String} : label ∈ a.labels ↔ ∃ mark, label = a.label mark := by
  constructor
  · intro h
    simp only [labels, List.mem_cons, List.not_mem_nil, or_false] at h
    rcases h with h | h | h
    · exact ⟨.start, h⟩
    · exact ⟨.finish, h⟩
    · exact ⟨.size, h⟩
  · rintro ⟨mark, rfl⟩
    cases mark <;> simp [labels]

/-- Texts that end with marks are the same when the marks are, and what stands before them. -/
theorem Mark.append_suffix_inj {text rest : String} {mark other : Mark}
    (h : text ++ mark.suffix = rest ++ other.suffix) : text = rest ∧ mark = other := by
  -- The last character tells the mark.
  have hlast : ∀ (text : String) (mark : Mark),
      (text ++ mark.suffix).toList.getLast? = mark.suffix.toList.getLast? := by
    intro text mark
    rw [String.toList_append, List.getLast?_append_of_ne_nil]
    cases mark <;> decide
  have hends : mark.suffix.toList.getLast? = other.suffix.toList.getLast? := by
    rw [← hlast text mark, h, hlast rest other]
  have hmark : mark = other := by
    cases mark <;> cases other <;> first | rfl | exact absurd hends (by decide)
  subst hmark
  exact ⟨(String.append_left_inj _).1 h, rfl⟩

/-- Labels are the same when symbols and marks are. -/
theorem label_inj {mark other : Mark} :
    a.label mark = b.label other ↔ a.symbol = b.symbol ∧ mark = other := by
  constructor
  · exact Mark.append_suffix_inj
  · rintro ⟨hsymbol, rfl⟩
    rw [label, label, hsymbol]

/-- The labels of one asset are different. -/
theorem nodup_labels (a : Asset) : a.labels.Nodup := by
  have hmarks : [Mark.start, Mark.finish, Mark.size].Nodup := by decide
  exact hmarks.map fun mark other h => (label_inj.1 h).2

/-- A label of an asset is none of the labels at the ends of a generated source: it has one more
underscore. -/
theorem label_ne (a : Asset) (mark other : Mark) : a.label mark ≠ "__assets" ++ other.suffix := by
  intro h
  obtain ⟨hsymbol, -⟩ := Mark.append_suffix_inj h
  have hassets : "__assets".toList = '_' :: '_' :: ['a', 's', 's', 'e', 't', 's'] := by decide
  rw [← String.toList_inj, toList_symbol, hassets] at hsymbol
  have hmem : '_' ∈ ['a', 's', 's', 'e', 't', 's'] := by
    rw [← (List.cons.inj (List.cons.inj hsymbol).2).2]
    simp
  exact absurd hmem (by decide)

end Asset

/-! ## Unambiguous symbols -/

/-- Different assets have different symbols. -/
def Unambiguous (assets : List Asset) : Prop :=
  ∀ a ∈ assets, ∀ b ∈ assets, a ≠ b → a.symbol ≠ b.symbol

/-- Symbols are unambiguous when no different assets are confusable. -/
theorem unambiguous_iff {assets : List Asset} :
    Unambiguous assets ↔ ∀ a ∈ assets, ∀ b ∈ assets, a ≠ b → ¬ a.Confusable b := by
  simp only [Unambiguous, ne_eq, Asset.symbol_eq_iff]

/-- Where symbols are unambiguous, a label is one of one asset only. -/
theorem Unambiguous.eq_of_mem_labels {assets : List Asset} (h : Unambiguous assets) {a b : Asset}
    (ha : a ∈ assets) (hb : b ∈ assets) {label : String} (hfirst : label ∈ a.labels)
    (hsecond : label ∈ b.labels) : a = b := by
  obtain ⟨mark, rfl⟩ := Asset.mem_labels.1 hfirst
  obtain ⟨other, heq⟩ := Asset.mem_labels.1 hsecond
  by_contra hne
  exact h a ha b hb hne (Asset.label_inj.1 heq).1

end NativeBuild
