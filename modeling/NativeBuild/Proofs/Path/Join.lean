import NativeBuild.Path.Component

/-!
# Entries of a directory

What joining a directory with the name of an entry does to components: it adds one at the
end.  The text of the directory does not matter; it may be empty, end in slashes, or be
the root.

Main results:

- Theorem `pieces_append_slash`: a slash cuts a path into pieces on either side.
- Theorem `components_child`: the components of an entry.
-/

namespace NativeBuild

namespace Path

/-! ## Pieces around a slash -/

/-- A slash cuts a path into pieces on either side. -/
theorem pieces_append_slash (front back : List UInt8) :
    pieces (front ++ slash :: back) = pieces front ++ pieces back := by
  induction front with
  | nil => simp [pieces]
  | cons b rest ih =>
      by_cases hb : b = slash
      · simp [pieces, hb, ih]
      · simp only [List.cons_append, pieces, if_neg hb, ih]
        cases hrest : pieces rest with
        | nil => exact absurd hrest (pieces_ne_nil rest)
        | cons piece others => rfl

/-- A name without slashes is one piece. -/
theorem pieces_of_not_mem {name : FileName} (h : slash ∉ name) : pieces name = [name] := by
  induction name with
  | nil => rfl
  | cons b rest ih =>
      rw [List.mem_cons, not_or] at h
      rw [pieces, if_neg (Ne.symm h.1), ih h.2]

/-- Only the empty path has no piece but an empty one. -/
theorem pieces_eq_singleton_nil {bytes : List UInt8} (h : pieces bytes = [[]]) : bytes = [] := by
  rw [← joinPieces_pieces bytes, h]
  rfl

/-! ## Components of pieces -/

/-- The components of a path, by its pieces. -/
theorem components_of_pieces {p : Path} {piece : FileName} {rest : List FileName}
    (h : pieces p.bytes = piece :: rest) :
    p.components =
      if piece = [] then if rest = [] then [] else .root :: rest.filterMap component?
      else if piece = [dot] then .current :: rest.filterMap component?
      else (piece :: rest).filterMap component? := by
  unfold components parts
  rw [h]
  by_cases hempty : piece = []
  · by_cases hlast : rest = []
    · simp [hempty, hlast, Anchor.components]
    · simp [hempty, hlast, Anchor.components]
  · by_cases hdot : piece = [dot]
    · simp [hdot, Anchor.components]
    · simp [hempty, hdot, Anchor.components]

@[simp] theorem component?_nil : component? [] = none := rfl

/-- A piece alone has the component that it stands for. -/
theorem filterMap_component?_singleton (name : FileName) :
    [name].filterMap component? = (component? name).toList := by
  cases h : component? name <;> simp [h]

/-- One more piece at the end adds its component, except to the empty path. -/
theorem components_of_pieces_append {p q : Path} {name : FileName}
    (h : pieces q.bytes = pieces p.bytes ++ [name]) (hp : p.bytes ≠ []) :
    q.components = p.components ++ (component? name).toList := by
  cases hpieces : pieces p.bytes with
  | nil => exact absurd hpieces (pieces_ne_nil p.bytes)
  | cons piece rest =>
      rw [hpieces, List.cons_append] at h
      rw [components_of_pieces h, components_of_pieces hpieces]
      by_cases hempty : piece = []
      · have hrest : rest ≠ [] := by
          rintro rfl
          exact hp (pieces_eq_singleton_nil (hempty ▸ hpieces))
        simp [hempty, hrest, List.filterMap_append, filterMap_component?_singleton]
      · by_cases hdot : piece = [dot]
        · simp [hdot, List.filterMap_append, filterMap_component?_singleton]
        · rw [if_neg hempty, if_neg hempty, if_neg hdot, if_neg hdot, ← List.cons_append,
            List.filterMap_append, filterMap_component?_singleton]

/-- A slash at the end of a path adds no component. -/
theorem components_append_slash {bytes : List UInt8} (h : bytes ≠ []) :
    (⟨bytes ++ [slash]⟩ : Path).components = (⟨bytes⟩ : Path).components := by
  have hpieces : pieces (bytes ++ [slash]) = pieces bytes ++ [[]] :=
    pieces_append_slash bytes []
  have happend := components_of_pieces_append (p := ⟨bytes⟩) (q := ⟨bytes ++ [slash]⟩) hpieces h
  simpa using happend

/-! ## Entries -/

/-- A name after a slash adds its component; the root is such a directory as well. -/
theorem components_append_slash_name (bytes : List UInt8) {name : FileName}
    (hslash : slash ∉ name) :
    (⟨bytes ++ slash :: name⟩ : Path).components =
      (⟨bytes ++ [slash]⟩ : Path).components ++ (component? name).toList := by
  have hpieces : pieces (bytes ++ slash :: name) = pieces bytes ++ [name] := by
    rw [pieces_append_slash, pieces_of_not_mem hslash]
  by_cases hbytes : bytes = []
  · subst hbytes
    have hname : pieces (slash :: name) = [] :: [name] := hpieces
    have hroot : pieces [slash] = [] :: [[]] := rfl
    rw [List.nil_append, List.nil_append, components_of_pieces hname, components_of_pieces hroot]
    simp [← filterMap_component?_singleton]
  · rw [components_append_slash hbytes]
    exact components_of_pieces_append hpieces hbytes

/-- A name without slashes is not rooted. -/
theorem isRooted_name {name : FileName} (hslash : slash ∉ name) :
    (⟨name⟩ : Path).isRooted = false := by
  cases name with
  | nil => rfl
  | cons b rest =>
      have hb : b ≠ slash := fun heq => hslash (by simp [heq])
      simp [isRooted, hb]

/-- An entry of a directory has the components of the directory and one more: its name, which
is neither trivial nor a step up and has no slash in it. -/
theorem components_child (p : Path) {name : FileName} (hslash : slash ∉ name)
    (htrivial : isTrivial name = false) (hup : name ≠ [dot, dot]) :
    (p.child name).components = p.components ++ [.name name] := by
  have hcomponent : component? name = some (.name name) := by simp [component?, htrivial, hup]
  obtain ⟨hempty, hdot⟩ : name ≠ [] ∧ name ≠ [dot] := by simpa [isTrivial] using htrivial
  have hafter : ∀ bytes : List UInt8, (⟨bytes ++ slash :: name⟩ : Path).components =
      (⟨bytes ++ [slash]⟩ : Path).components ++ [.name name] := by
    intro bytes
    simpa [hcomponent] using components_append_slash_name bytes hslash
  rw [child, join, isRooted_name hslash, if_neg (by simp)]
  rcases List.eq_nil_or_concat p.bytes with hnil | ⟨front, last, hfront⟩
  · -- Seen from the empty path, an entry is its name alone.
    obtain rfl : p = ⟨[]⟩ := by rw [← hnil]
    simp only [decide_true, Bool.true_or, if_true, List.nil_append]
    rw [components_of_pieces (p := ⟨name⟩) (pieces_of_not_mem hslash), if_neg hempty, if_neg hdot]
    simp [hcomponent, components, parts, pieces, Anchor.components]
  · obtain rfl : p = ⟨front.concat last⟩ := by rw [← hfront]
    rw [List.concat_eq_append]
    by_cases hlast : last = slash
    · subst hlast
      simpa using hafter front
    · have hne : front ++ [last] ≠ [] := by simp
      rw [if_neg (by simp [hlast]), hafter, components_append_slash hne]

end Path

end NativeBuild
