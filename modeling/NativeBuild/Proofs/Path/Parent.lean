import Mathlib.Data.List.Induction
import NativeBuild.Proofs.Path.Join

/-!
# Steps of a path

What a path leads through is read off its components: where it starts and which pieces count.
The directory above a path has its components up to the last; the text that was written for
them is kept, without what names nothing at its end.

Main definitions:

- `Component.piece?`: the piece that a component stands for, if it is a step.

Main results:

- Theorem `filter_pieces`: the pieces that name something are those of the components.
- Theorem `isRooted_iff`: so is where a path starts.
- Theorem `parent?_child`: the directory above an entry is that of the entry.
- Theorem `exists_parent?_withSuffix`: a path with a suffix has a directory above it.
-/

namespace NativeBuild

/-- The piece that a component stands for, if it is a step. -/
def Component.piece? : Component → Option FileName
  | .root => none
  | .current => none
  | .parent => some [dot, dot]
  | .name bytes => some bytes

namespace Path

/-! ## Pieces and components -/

/-- A piece that names something is the piece of its component. -/
theorem bind_component?_piece? (piece : FileName) :
    (component? piece).bind Component.piece? =
      if isTrivial piece = true then none else some piece := by
  unfold component?
  by_cases htrivial : isTrivial piece = true
  · simp [htrivial]
  · rw [if_neg htrivial, if_neg htrivial]
    by_cases hup : piece = [dot, dot]
    · simp [hup, Component.piece?]
    · simp [hup, Component.piece?]

/-- The pieces that name something are those of their components. -/
theorem filterMap_piece? (body : List FileName) :
    (body.filterMap component?).filterMap Component.piece? =
      body.filter fun piece => !isTrivial piece := by
  rw [List.filterMap_filterMap]
  induction body with
  | nil => rfl
  | cons piece rest ih =>
      rw [List.filterMap_cons, bind_component?_piece?]
      by_cases htrivial : isTrivial piece = true
      · simpa [htrivial] using ih
      · simpa [htrivial] using ih

/-- The pieces of a path that name something are those of its components. -/
theorem filter_pieces (p : Path) :
    ((pieces p.bytes).filter fun piece => !isTrivial piece) =
      p.components.filterMap Component.piece? := by
  cases hpieces : pieces p.bytes with
  | nil => exact absurd hpieces (pieces_ne_nil p.bytes)
  | cons piece rest =>
      rw [components_of_pieces hpieces, ← filterMap_piece?]
      by_cases hempty : piece = []
      · subst hempty
        by_cases hrest : rest = []
        · simp [hrest]
        · rw [if_pos rfl, if_neg hrest]
          rfl
      · rw [if_neg hempty]
        by_cases hdot : piece = [dot]
        · subst hdot
          rfl
        · rw [if_neg hdot]

/-- No piece stands for the root. -/
theorem root_not_mem_filterMap (body : List FileName) :
    Component.root ∉ body.filterMap component? := by
  intro hmem
  obtain ⟨piece, -, hpiece⟩ := List.mem_filterMap.1 hmem
  unfold component? at hpiece
  split at hpiece
  · cases hpiece
  · split at hpiece <;> cases hpiece

/-- A path is rooted when its first component is the root. -/
theorem isRooted_iff (p : Path) : p.isRooted = true ↔ p.components.head? = some .root := by
  obtain ⟨bytes⟩ := p
  cases bytes with
  | nil => simp [isRooted, components_of_pieces (p := ⟨[]⟩) rfl]
  | cons b rest =>
      by_cases hb : b = slash
      · subst hb
        have hpieces : pieces (slash :: rest) = [] :: pieces rest := by simp [pieces]
        rw [components_of_pieces (p := ⟨slash :: rest⟩) hpieces, if_pos rfl,
          if_neg (pieces_ne_nil rest)]
        simp [isRooted]
      · obtain ⟨piece, others, hpieces⟩ : ∃ piece others,
            pieces (b :: rest) = (b :: piece) :: others := by
          cases hrest : pieces rest with
          | nil => exact absurd hrest (pieces_ne_nil rest)
          | cons piece others => exact ⟨piece, others, by simp [pieces, hb, hrest]⟩
        have hroot := root_not_mem_filterMap ((b :: piece) :: others)
        rw [components_of_pieces (p := ⟨b :: rest⟩) hpieces, if_neg (by simp)]
        constructor
        · intro hrooted
          simp [isRooted, hb] at hrooted
        · intro hhead
          split at hhead
          · cases hhead
          · exact absurd (List.mem_of_head? hhead) hroot

/-! ## Pieces joined -/

/-- No piece has a slash in it. -/
theorem slash_not_mem_of_mem_pieces {bytes : List UInt8} {piece : FileName}
    (h : piece ∈ pieces bytes) : slash ∉ piece := by
  induction bytes generalizing piece with
  | nil =>
      rw [pieces, List.mem_singleton] at h
      simp [h]
  | cons b rest ih =>
      simp only [pieces] at h
      split at h
      · rcases List.mem_cons.1 h with rfl | h
        · simp
        · exact ih h
      · next hb =>
          split at h
          · next hnone => exact absurd hnone (pieces_ne_nil rest)
          · next first others hfirst =>
              rw [hfirst] at ih
              rcases List.mem_cons.1 h with rfl | h
              · have hslash := ih List.mem_cons_self
                simp [Ne.symm hb, hslash]
              · exact ih (List.mem_cons_of_mem _ h)

/-- Pieces are recovered from the path that they are joined to. -/
theorem pieces_joinPieces {body : List FileName} (hbody : body ≠ [])
    (hslash : ∀ piece ∈ body, slash ∉ piece) : pieces (joinPieces body) = body := by
  induction body with
  | nil => exact absurd rfl hbody
  | cons piece rest ih =>
      cases rest with
      | nil => exact pieces_of_not_mem (hslash piece List.mem_cons_self)
      | cons next others =>
          rw [joinPieces, pieces_append_slash, pieces_of_not_mem (hslash piece List.mem_cons_self),
            ih (by simp) fun other hother => hslash other (List.mem_cons_of_mem _ hother)]
          rfl

/-! ## Directories above -/

/-- The pieces of a path after its anchor have no slashes, and where there is no anchor the
first of them names something. -/
theorem parts_sound (p : Path) :
    (∀ piece ∈ p.parts.2, slash ∉ piece) ∧
      (p.parts.1 = .none → ∀ piece, p.parts.2.head? = some piece → isTrivial piece = false) := by
  have hslash : ∀ piece ∈ pieces p.bytes, slash ∉ piece := fun _ => slash_not_mem_of_mem_pieces
  unfold parts
  cases hpieces : pieces p.bytes with
  | nil => simp
  | cons piece rest =>
      rw [hpieces] at hslash
      have hrest : ∀ other ∈ rest, slash ∉ other :=
        fun other hother => hslash other (List.mem_cons_of_mem _ hother)
      by_cases hempty : piece = []
      · by_cases hlast : rest = []
        · simp [hempty, hlast]
        · simpa [hempty, hlast] using hrest
      · by_cases hdot : piece = [dot]
        · simpa [hdot] using hrest
        · simp only [if_neg hempty, if_neg hdot]
          refine ⟨hslash, fun _ other hother => ?_⟩
          cases hother
          simp [isTrivial, hempty, hdot]

/-- The components of a path put together from its parts. -/
theorem components_ofParts {anchor : Anchor} {body : List FileName}
    (hslash : ∀ piece ∈ body, slash ∉ piece)
    (hfirst : anchor = .none → ∀ piece, body.head? = some piece → isTrivial piece = false) :
    (ofParts anchor body).components = anchor.components ++ body.filterMap component? := by
  cases anchor with
  | root =>
      have hpieces : pieces (slash :: joinPieces body) = [] :: pieces (joinPieces body) := by
        simp [pieces]
      rw [ofParts, components_of_pieces hpieces, if_pos rfl, if_neg (pieces_ne_nil _)]
      by_cases hbody : body = []
      · simp [hbody, joinPieces, pieces, Anchor.components]
      · rw [pieces_joinPieces hbody hslash]
        rfl
  | current =>
      have hpieces : pieces (joinPieces ([dot] :: body)) = [dot] :: body := by
        refine pieces_joinPieces (by simp) fun piece hpiece => ?_
        rcases List.mem_cons.1 hpiece with rfl | hpiece
        · decide
        · exact hslash piece hpiece
      rw [ofParts, components_of_pieces hpieces]
      rfl
  | none =>
      cases body with
      | nil => rfl
      | cons piece rest =>
          have htrivial := hfirst rfl piece rfl
          obtain ⟨hempty, hdot⟩ : piece ≠ [] ∧ piece ≠ [dot] := by simpa [isTrivial] using htrivial
          rw [ofParts, components_of_pieces (pieces_joinPieces (by simp) hslash), if_neg hempty,
            if_neg hdot]
          rfl

/-- Trivial pieces at the end stand for no component. -/
theorem filterMap_trimEnd (body : List FileName) :
    (trimEnd body).filterMap component? = body.filterMap component? := by
  induction body using List.reverseRecOn with
  | nil => rfl
  | append_singleton rest piece ih =>
      by_cases htrivial : isTrivial piece = true
      · have htrim : trimEnd (rest ++ [piece]) = trimEnd rest := by simp [trimEnd, htrivial]
        rw [htrim, ih]
        simp [component?, htrivial]
      · have htrim : trimEnd (rest ++ [piece]) = rest ++ [piece] := by simp [trimEnd, htrivial]
        rw [htrim]

/-- What is trimmed at its end starts as before. -/
theorem prefix_trimEnd (body : List FileName) : trimEnd body <+: body := by
  rw [trimEnd, ← List.reverse_suffix, List.reverse_reverse]
  exact List.dropWhile_suffix _

/-- The directory above a path that ends in a name has the components before it. -/
theorem parent?_of_parts {p : Path} {before : List FileName} {piece : FileName}
    (hparts : p.parts.2 = before ++ [piece]) (htrivial : isTrivial piece = false) :
    ∃ q, p.parent? = some q ∧ p.components = q.components ++ (component? piece).toList := by
  refine ⟨ofParts p.parts.1 (trimEnd before), ?_, ?_⟩
  · simp [parent?, ancestors, hparts, above, htrivial, trimEnd]
  · obtain ⟨hslash, hfirst⟩ := p.parts_sound
    have hle : trimEnd before <+: p.parts.2 :=
      (prefix_trimEnd before).trans (hparts ▸ List.prefix_append before [piece])
    have hcomponents : (ofParts p.parts.1 (trimEnd before)).components =
        p.parts.1.components ++ (trimEnd before).filterMap component? := by
      refine components_ofParts (fun other hother => hslash other (hle.subset hother)) ?_
      intro hanchor other hother
      obtain ⟨rest, hrest⟩ := hle
      refine hfirst hanchor other ?_
      rw [← hrest, List.head?_append, hother, Option.some_or]
    rw [hcomponents, filterMap_trimEnd, components, hparts, List.filterMap_append,
      filterMap_component?_singleton, List.append_assoc]

/-- The last piece of an entry is its name. -/
theorem pieces_child (p : Path) {name : FileName} (hslash : slash ∉ name) :
    ∃ front, pieces (p.child name).bytes = front ++ [name] := by
  have hname := pieces_of_not_mem hslash
  rw [child, join, isRooted_name hslash, if_neg (by simp)]
  rcases List.eq_nil_or_concat p.bytes with hnil | ⟨front, last, hfront⟩
  · exact ⟨[], by simp [hnil, hname]⟩
  · by_cases hlast : last = slash
    · refine ⟨pieces front, ?_⟩
      rw [hfront, List.concat_eq_append, hlast]
      simp [pieces_append_slash, hname]
    · refine ⟨pieces p.bytes, ?_⟩
      rw [if_neg (by simp [hfront, hlast]), pieces_append_slash, hname]

/-- The last piece of a path, when it names something, is the last of its parts. -/
theorem parts_of_pieces {p : Path} {front : List FileName} {name : FileName}
    (hpieces : pieces p.bytes = front ++ [name]) (htrivial : isTrivial name = false) :
    ∃ before, p.parts.2 = before ++ [name] := by
  obtain ⟨hempty, hdot⟩ : name ≠ [] ∧ name ≠ [dot] := by simpa [isTrivial] using htrivial
  unfold parts
  rw [hpieces]
  cases front with
  | nil => exact ⟨[], by simp [hempty, hdot]⟩
  | cons first rest =>
      rw [List.cons_append]
      by_cases hfirst : first = []
      · exact ⟨rest, by simp [hfirst]⟩
      · by_cases hcurrent : first = [dot]
        · exact ⟨rest, by simp [hcurrent]⟩
        · exact ⟨first :: rest, by simp [hfirst, hcurrent]⟩

/-- The directory above an entry is that of the entry. -/
theorem parent?_child (p : Path) {name : FileName} (hslash : slash ∉ name)
    (htrivial : isTrivial name = false) (hup : name ≠ [dot, dot]) :
    ∃ q, (p.child name).parent? = some q ∧ q.components = p.components := by
  obtain ⟨front, hpieces⟩ := p.pieces_child hslash
  obtain ⟨before, hbefore⟩ := parts_of_pieces hpieces htrivial
  obtain ⟨q, hq, hcomponents⟩ := parent?_of_parts hbefore htrivial
  have hcomponent : component? name = some (.name name) := by simp [component?, htrivial, hup]
  rw [p.components_child hslash htrivial hup, hcomponent] at hcomponents
  exact ⟨q, hq, (List.append_inj' hcomponents rfl).1.symm⟩

/-- Bytes without a slash lengthen the last piece. -/
theorem pieces_append_of_not_mem (bytes : List UInt8) {suffix : List UInt8}
    (hslash : slash ∉ suffix) :
    ∃ front piece, pieces bytes = front ++ [piece] ∧
      pieces (bytes ++ suffix) = front ++ [piece ++ suffix] := by
  induction bytes with
  | nil => exact ⟨[], [], rfl, by simp [pieces_of_not_mem hslash]⟩
  | cons b rest ih =>
      obtain ⟨front, piece, hrest, hpieces⟩ := ih
      rw [List.cons_append, pieces, pieces, hrest, hpieces]
      by_cases hb : b = slash
      · exact ⟨[] :: front, piece, by simp [hb]⟩
      · cases front with
        | nil => exact ⟨[], b :: piece, by simp [hb]⟩
        | cons first others => exact ⟨(b :: first) :: others, piece, by simp [hb]⟩

/-- A path with a suffix of two bytes or more has a directory above it. -/
theorem exists_parent?_withSuffix (p : Path) {suffix : String}
    (hslash : slash ∉ Text.utf8 suffix) (hlength : 1 < (Text.utf8 suffix).length) :
    ∃ q, (p.withSuffix suffix).parent? = some q := by
  obtain ⟨front, piece, -, hpieces⟩ := pieces_append_of_not_mem p.bytes hslash
  have htrivial : isTrivial (piece ++ Text.utf8 suffix) = false := by
    have hlong : 1 < (piece ++ Text.utf8 suffix).length := by
      rw [List.length_append]
      omega
    rw [isTrivial, Bool.or_eq_false_iff, beq_eq_false_iff_ne, beq_eq_false_iff_ne]
    constructor
    · intro heq
      simp [heq] at hlong
    · intro heq
      simp [heq] at hlong
  obtain ⟨before, hbefore⟩ := parts_of_pieces (p := p.withSuffix suffix) hpieces htrivial
  obtain ⟨q, hq, -⟩ := parent?_of_parts hbefore htrivial
  exact ⟨q, hq⟩

end Path

end NativeBuild
