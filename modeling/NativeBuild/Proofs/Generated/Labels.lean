import NativeBuild.Proofs.Generated.Symbols

/-!
# The labels of generated texts

Which labels a generated source defines, and which a generated header declares, is read off the
text, line by line: in a source a line starts with a label and a colon, in a header a declaration
ends with a label and a semicolon.  Ids and names of files stand in the texts as they are, so one
with a colon, a semicolon or a line break in it may define or declare anything.  Where symbols are
spelled with characters of labels, and paths stay on their lines, the labels are those of the
embedded files.

Main definitions:

- `LabelAlphabet`: the characters of labels, as a tool takes them that reads the texts.
- `LabelAlphabet.definedLabels` and `LabelAlphabet.declaredLabels`: the labels of a text.
- `Project.Legible`: a file whose symbol and path do not break the texts.
- `GeneratedLine`: a line of a generated text, and what it should say.

Main results:

- Theorems `Project.assetSourceText_eq` and `Project.assetHeaderText_eq`: the generated texts, line
  by line.
- Theorem `filterMap_linesOf_join`: what is read off a text is read off its lines.
- Theorems `definedLabels_assetSourceText` and `declaredLabels_assetHeaderText`: the labels of the
  generated texts.
-/

namespace NativeBuild

/-! ## Reading labels -/

/-- The characters of labels, for a tool that reads the generated texts.  What ends a label there
is none of them, and what the marks are spelled with is. -/
structure LabelAlphabet where
  /-- The character may be part of a label. -/
  has : Char → Bool
  ends : ∀ c ∈ [':', ';', '\n'], has c = false
  marks : ∀ mark : Asset.Mark, ∀ c ∈ ("__assets" ++ mark.suffix).toList, has c = true

/-- The words in front of the type in a declaration. -/
def externWords : String :=
  "extern const "

/-- The lines of a text. -/
def linesOf (text : String) : List (List Char) :=
  text.toList.splitOn '\n'

/-- A text is cut at each line break. -/
theorem linesOf_append (first rest : String) :
    linesOf (first ++ "\n" ++ rest) = linesOf first ++ linesOf rest := by
  have htext : (first ++ "\n" ++ rest).toList = first.toList ++ '\n' :: rest.toList := by
    simp
  rw [linesOf, htext, List.splitOn_append_cons_self, linesOf, linesOf]

/-- A text without line breaks is one line. -/
theorem linesOf_of_not_mem {text : String} (h : '\n' ∉ text.toList) :
    linesOf text = [text.toList] := by
  refine List.splitOnP_eq_singleton fun c hc => ?_
  exact beq_false_of_ne (ne_of_mem_of_not_mem hc h)

namespace LabelAlphabet

/-- All characters but those that end a label. -/
def widest : LabelAlphabet where
  has c := c != ':' && c != ';' && c != '\n'
  ends := by simp
  marks := by
    intro mark
    cases mark <;> simp [Asset.Mark.suffix]

variable (A : LabelAlphabet)

/-- The text is spelled with characters of labels. -/
def Spells (text : String) : Prop :=
  ∀ c ∈ text.toList, A.has c = true

instance (text : String) : Decidable (A.Spells text) :=
  decidable_of_iff (text.toList.all A.has = true) List.all_eq_true

/-- The label that a text starts with, if the given character comes right after it. -/
def labelBefore? (stop : Char) (text : List Char) : Option String :=
  if (text.dropWhile A.has).head? = some stop then some (String.ofList (text.takeWhile A.has))
  else none

/-- The label that a line of a source defines: a colon comes after it. -/
def defined? (line : List Char) : Option String :=
  A.labelBefore? ':' line

/-- The label that a line of a header declares: it stands after the type, and a semicolon comes
after it. -/
def declared? (line : List Char) : Option String :=
  if externWords.toList.isPrefixOf line then
    A.labelBefore? ';' ((line.drop externWords.toList.length).dropWhile (· ≠ ' ')).tail
  else none

/-- The labels that a source defines, in order. -/
def definedLabels (text : String) : List String :=
  (linesOf text).filterMap A.defined?

/-- The labels that a header declares, in order. -/
def declaredLabels (text : String) : List String :=
  (linesOf text).filterMap A.declared?

variable {A} {label text : String} {stop : Char}

/-- A label is read up to the character that ends it. -/
theorem labelBefore?_of_spells (hlabel : A.Spells label) (hstop : A.has stop = false)
    (rest : List Char) : A.labelBefore? stop (label.toList ++ stop :: rest) = some label := by
  have hcut : (stop :: rest).dropWhile A.has = stop :: rest := by
    rw [List.dropWhile_cons_of_neg (by simp [hstop])]
  have hnone : (stop :: rest).takeWhile A.has = [] := by
    rw [List.takeWhile_cons_of_neg (by simp [hstop])]
  rw [labelBefore?, List.dropWhile_append_of_pos hlabel, List.takeWhile_append_of_pos hlabel,
    hcut, hnone, if_pos List.head?_cons, List.append_nil, String.ofList_toList]

/-- Where the character that ends labels does not occur, no label is read. -/
theorem labelBefore?_of_not_mem {line : List Char} (h : stop ∉ line) :
    A.labelBefore? stop line = none := by
  refine if_neg fun hhead => h ?_
  exact (List.dropWhile_sublist A.has).subset (List.mem_of_mem_head? hhead)

/-- What ends labels does not occur in what is spelled with characters of labels. -/
theorem Spells.not_mem (h : A.Spells text) {c : Char} (hc : c ∈ [':', ';', '\n']) :
    c ∉ text.toList := by
  intro hmem
  have hhas := h c hmem
  rw [A.ends c hc] at hhas
  cases hhas

/-- A label is spelled with characters of labels when the symbol is. -/
theorem spells_label {asset : Asset} (h : A.Spells asset.symbol) (mark : Asset.Mark) :
    A.Spells (asset.label mark) := by
  intro c hc
  rw [Asset.label, String.toList_append, List.mem_append] at hc
  rcases hc with hc | hc
  · exact h c hc
  · exact A.marks mark c (by simp [hc])

end LabelAlphabet

/-! ## Lines -/

/-- A line of a generated text. -/
inductive GeneratedLine where
  /-- A line that neither defines nor declares a label. -/
  | plain (text : String)
  /-- A label is visible to other units. -/
  | exports (label : String)
  /-- A label stands for what the line holds. -/
  | defines (label held : String)
  /-- A label that some unit defines is known under a type. -/
  | declares (type label : String)
deriving DecidableEq, Repr

namespace GeneratedLine

/-- What stands on a line. -/
def body : GeneratedLine → String
  | plain text => text
  | exports label => "global " ++ label
  | defines label held => label ++ ":" ++ held
  | declares type label => externWords ++ type ++ " " ++ label ++ ";"

/-- The text of lines, each with its end. -/
def join (lines : List GeneratedLine) : String :=
  String.join (lines.map fun line => line.body ++ "\n")

/-- The label that a line should define. -/
def defined? : GeneratedLine → Option String
  | defines label _ => some label
  | _ => none

/-- The label that a line should declare. -/
def declared? : GeneratedLine → Option String
  | declares _ label => some label
  | _ => none

/-- Nothing on a line breaks it: its label is spelled with characters of labels, and the rest holds
no line break and nothing that could be read as a label. -/
def Legible (A : LabelAlphabet) : GeneratedLine → Prop
  | plain text => '\n' ∉ text.toList ∧ ':' ∉ text.toList ∧
      externWords.toList.isPrefixOf text.toList = false
  | exports label => A.Spells label
  | defines label held => A.Spells label ∧ '\n' ∉ held.toList
  | declares type label => (type = "char" ∨ type = "int") ∧ A.Spells label

variable {A : LabelAlphabet} {line : GeneratedLine} {lines : List GeneratedLine}

/-- The text of no lines is empty. -/
theorem join_nil : join [] = "" := rfl

/-- Lines are written one after another. -/
theorem join_cons (line : GeneratedLine) (rest : List GeneratedLine) :
    join (line :: rest) = line.body ++ "\n" ++ join rest := by
  rw [join, List.map_cons, String.join_cons, join]

/-- The text of lines is that of the first of them and that of the others. -/
theorem join_append (lines more : List GeneratedLine) :
    join (lines ++ more) = join lines ++ join more := by
  rw [join, List.map_append, String.join_append, join, join]

/-- The text of lines that belong to items is that of the lines of each item. -/
theorem join_flatMap {α : Type} (items : List α) (lines : α → List GeneratedLine) :
    join (items.flatMap lines) = String.join (items.map fun item => join (lines item)) := by
  induction items with
  | nil => rfl
  | cons item rest ih =>
      rw [List.flatMap_cons, join_append, ih, List.map_cons, String.join_cons]

/-- A line that nothing breaks is one line. -/
theorem Legible.newline_not_mem (h : line.Legible A) : '\n' ∉ line.body.toList := by
  cases line with
  | plain text => exact h.1
  | exports label =>
      have hlabel := LabelAlphabet.Spells.not_mem h (c := '\n') (by simp)
      simp [body, hlabel]
  | defines label held =>
      have hlabel := h.1.not_mem (c := '\n') (by simp)
      simp [body, hlabel, h.2]
  | declares type label =>
      have hlabel := h.2.not_mem (c := '\n') (by simp)
      rcases h.1 with rfl | rfl <;> simp [body, externWords, hlabel]

/-- The label that a line should define is read off it. -/
theorem Legible.defined?_body (h : line.Legible A) :
    A.defined? line.body.toList = line.defined? := by
  cases line with
  | plain text => exact LabelAlphabet.labelBefore?_of_not_mem h.2.1
  | exports label =>
      have hlabel := LabelAlphabet.Spells.not_mem h (c := ':') (by simp)
      exact LabelAlphabet.labelBefore?_of_not_mem (by simp [body, hlabel])
  | defines label held =>
      have hbody : (body (defines label held)).toList = label.toList ++ ':' :: held.toList := by
        simp [body]
      rw [hbody]
      exact LabelAlphabet.labelBefore?_of_spells h.1 (A.ends ':' (by simp)) _
  | declares type label =>
      have hlabel := h.2.not_mem (c := ':') (by simp)
      rcases h.1 with rfl | rfl <;>
        exact LabelAlphabet.labelBefore?_of_not_mem (by simp [body, externWords, hlabel])

/-- The label that a line should declare is read off it, if it defines none. -/
theorem Legible.declared?_body (h : line.Legible A) (hline : line.defined? = none) :
    A.declared? line.body.toList = line.declared? := by
  cases line with
  | plain text => exact if_neg (by simp [body, h.2.2])
  | exports label =>
      have hextern : externWords.toList = 'e' :: "xtern const ".toList := by decide
      have hglobal : "global ".toList = 'g' :: "lobal ".toList := by decide
      refine if_neg ?_
      rw [body, String.toList_append, hextern, hglobal, List.cons_append, List.isPrefixOf_cons_cons]
      simp
  | defines label held => cases hline
  | declares type label =>
      have hbody : (body (declares type label)).toList =
          externWords.toList ++ (type.toList ++ ' ' :: (label.toList ++ [';'])) := by
        simp [body]
      have htype : ∀ c ∈ type.toList, decide (c ≠ ' ') = true := by
        rcases h.1 with rfl | rfl <;> simp
      have hprefix : externWords.toList.isPrefixOf
          (externWords.toList ++ (type.toList ++ ' ' :: (label.toList ++ [';']))) = true :=
        List.isPrefixOf_iff_prefix.2 (List.prefix_append _ _)
      rw [hbody, LabelAlphabet.declared?, if_pos hprefix, List.drop_left,
        List.dropWhile_append_of_pos htype, List.dropWhile_cons_of_neg (by simp), List.tail_cons]
      exact LabelAlphabet.labelBefore?_of_spells h.2 (A.ends ';' (by simp)) _

/-- What is read off the lines of the text of lines is read off each of them in turn. -/
theorem filterMap_linesOf_join {read : List Char → Option String} (hnil : read [] = none)
    (lines : List GeneratedLine) :
    (linesOf (join lines)).filterMap read =
      lines.flatMap fun line => (linesOf line.body).filterMap read := by
  induction lines with
  | nil =>
      rw [join_nil, linesOf_of_not_mem (by simp), List.flatMap_nil]
      exact List.filterMap_cons_none hnil
  | cons line rest ih =>
      rw [join_cons, linesOf_append, List.filterMap_append, ih, List.flatMap_cons]

/-- Of lines that hold no line break, what is read off the text is what each should tell. -/
theorem filterMap_linesOf_join_of_single {read : List Char → Option String}
    {told : GeneratedLine → Option String} (hnil : read [] = none)
    (h : ∀ line ∈ lines, '\n' ∉ line.body.toList ∧ read line.body.toList = told line) :
    (linesOf (join lines)).filterMap read = lines.filterMap told := by
  rw [filterMap_linesOf_join hnil, List.filterMap_eq_flatMap_toList]
  refine List.flatMap_congr fun line hline => ?_
  obtain ⟨hsingle, hread⟩ := h line hline
  rw [linesOf_of_not_mem hsingle, List.filterMap_eq_flatMap_toList, List.flatMap_singleton, hread]

/-- Of lines that nothing breaks, the text defines what the lines should. -/
theorem definedLabels_join_of_legible (h : ∀ line ∈ lines, line.Legible A) :
    A.definedLabels (join lines) = lines.filterMap defined? :=
  filterMap_linesOf_join_of_single rfl fun line hline =>
    ⟨(h line hline).newline_not_mem, (h line hline).defined?_body⟩

/-- Of lines that nothing breaks and that define no label, the text declares what the lines
should. -/
theorem declaredLabels_join_of_legible
    (h : ∀ line ∈ lines, line.Legible A ∧ line.defined? = none) :
    A.declaredLabels (join lines) = lines.filterMap declared? :=
  filterMap_linesOf_join_of_single rfl fun line hline =>
    ⟨(h line hline).1.newline_not_mem, (h line hline).1.declared?_body (h line hline).2⟩

end GeneratedLine

/-! ## Generated texts -/

open GeneratedLine

namespace Project

/-- The lines that define the labels of one embedded file. -/
def definitionLines (p : Project) (file : String) : List GeneratedLine :=
  let asset : Asset := ⟨p.id, file⟩
  [plain "", exports (asset.label .start), exports (asset.label .finish),
    exports (asset.label .size), plain "",
    defines (asset.label .start)
      ("   incbin \"" ++ (p.assetDir.joinText file).display ++ "\""),
    defines (asset.label .finish) "",
    defines (asset.label .size) ("    dd $-" ++ asset.label .start)]

/-- The lines of the source that embeds the files. -/
def assetSourceLines (p : Project) (files : List String) : List GeneratedLine :=
  [plain "bits 32", plain "section .rodata", plain (";; " ++ generatedRemark),
    exports "__assets_start", defines "__assets_start" ""] ++
    files.flatMap p.definitionLines ++ [exports "__assets_end", defines "__assets_end" ""]

/-- The lines that declare the labels of one embedded file. -/
def declarationLines (p : Project) (file : String) : List GeneratedLine :=
  let asset : Asset := ⟨p.id, file⟩
  [plain "", declares "char" (asset.label .start), declares "char" (asset.label .finish),
    declares "int" (asset.label .size)]

/-- The lines of the header that declares the embedded files. -/
def assetHeaderLines (p : Project) (files : List String) : List GeneratedLine :=
  [plain "#pragma once", plain ("// " ++ generatedRemark)] ++ files.flatMap p.declarationLines

/-- The definitions of one embedded file, line by line. -/
theorem assetDefinitions_eq (p : Project) (file : String) :
    p.assetDefinitions file = join (p.definitionLines file) := by
  -- Each literal of the text is cut where a mark, a colon or a line ends.
  have hmarks : "_start\n" = "_start" ++ "\n" ∧ "_end\n" = "_end" ++ "\n" ∧
      "_size\n" = "_size" ++ "\n" := by decide
  have hstart : "_start:   incbin \"" = "_start" ++ (":" ++ "   incbin \"") := by decide
  have hpath : "\"\n" = "\"" ++ "\n" := by decide
  have hfinish : "_end:\n" = "_end" ++ (":" ++ "\n") := by decide
  have hsize : "_size:    dd $-" = "_size" ++ (":" ++ "    dd $-") := by decide
  simp only [assetDefinitions, toString, hmarks, hstart, hpath, hfinish, hsize]
  simp only [definitionLines, join_cons, join_nil, body, Asset.label, Asset.symbol,
    Asset.Mark.suffix, String.append_assoc, String.append_empty, String.empty_append]

/-- The declarations of one embedded file, line by line. -/
theorem assetDeclarations_eq (p : Project) (file : String) :
    p.assetDeclarations file = join (p.declarationLines file) := by
  have hmarks : "_start;\n" = "_start" ++ (";" ++ "\n") ∧ "_end;\n" = "_end" ++ (";" ++ "\n") ∧
      "_size;\n" = "_size" ++ (";" ++ "\n") := by decide
  simp only [assetDeclarations, toString, hmarks]
  simp only [declarationLines, join_cons, join_nil, body, Asset.label, Asset.symbol,
    Asset.Mark.suffix, String.append_assoc, String.append_empty]
  rfl

/-- The source that embeds the files, line by line. -/
theorem assetSourceText_eq (p : Project) (files : List String) :
    p.assetSourceText files = join (p.assetSourceLines files) := by
  rw [assetSourceLines, join_append, join_append, join_flatMap, ← funext p.assetDefinitions_eq]
  unfold assetSourceText
  simp only [toString, join_cons, join_nil, body, String.append_assoc, String.append_empty]
  rfl

/-- The header that declares the embedded files, line by line. -/
theorem assetHeaderText_eq (p : Project) (files : List String) :
    p.assetHeaderText files = join (p.assetHeaderLines files) := by
  rw [assetHeaderLines, join_append, join_flatMap, ← funext p.assetDeclarations_eq]
  unfold assetHeaderText
  simp only [toString, join_cons, join_nil, body, String.append_assoc, String.append_empty]
  rfl

/-! ## Labels of the generated texts -/

/-- A file does not break the texts that are generated for a project: its symbol is spelled with
characters of labels, and its path stays on one line. -/
structure Legible (A : LabelAlphabet) (p : Project) (file : String) : Prop where
  symbol : A.Spells (Asset.mk p.id file).symbol
  path : '\n' ∉ (p.assetDir.joinText file).display.toList

variable {A : LabelAlphabet} {p : Project} {file : String} {files : List String}

/-- Nothing breaks the lines that define the labels of such a file. -/
theorem Legible.definitionLines (h : p.Legible A file) :
    ∀ line ∈ p.definitionLines file, line.Legible A := by
  have hlabel := LabelAlphabet.spells_label h.symbol
  have hempty : (plain "").Legible A := ⟨by decide, by decide, by decide⟩
  have hpath : '\n' ∉ ("   incbin \"" ++ (p.assetDir.joinText file).display ++ "\"").toList := by
    simp [h.path]
  have hsize : '\n' ∉ ("    dd $-" ++ (Asset.mk p.id file).label .start).toList := by
    simp [(hlabel .start).not_mem (c := '\n') (by simp)]
  simp only [Project.definitionLines, List.forall_mem_cons]
  exact ⟨hempty, hlabel .start, hlabel .finish, hlabel .size, hempty, ⟨hlabel .start, hpath⟩,
    ⟨hlabel .finish, List.not_mem_nil⟩, ⟨hlabel .size, hsize⟩, List.forall_mem_nil _⟩

/-- Nothing breaks the lines that declare the labels of such a file, and they define none. -/
theorem Legible.declarationLines (h : p.Legible A file) :
    ∀ line ∈ p.declarationLines file, line.Legible A ∧ line.defined? = none := by
  have hlabel := LabelAlphabet.spells_label h.symbol
  have hempty : (plain "").Legible A := ⟨by decide, by decide, by decide⟩
  simp only [Project.declarationLines, List.forall_mem_cons]
  exact ⟨⟨hempty, rfl⟩, ⟨⟨.inl rfl, hlabel .start⟩, rfl⟩, ⟨⟨.inl rfl, hlabel .finish⟩, rfl⟩,
    ⟨⟨.inr rfl, hlabel .size⟩, rfl⟩, List.forall_mem_nil _⟩

/-- Nothing breaks the lines of a source that embeds such files. -/
theorem legible_assetSourceLines (h : ∀ file ∈ files, p.Legible A file) :
    ∀ line ∈ p.assetSourceLines files, line.Legible A := by
  have hends : ∀ mark : Asset.Mark, A.Spells ("__assets" ++ mark.suffix) := A.marks
  have hfiles : ∀ line ∈ files.flatMap p.definitionLines, line.Legible A := by
    intro line hline
    obtain ⟨file, hfile, hmem⟩ := List.mem_flatMap.1 hline
    exact (h file hfile).definitionLines line hmem
  simp only [assetSourceLines, List.forall_mem_append, List.forall_mem_cons]
  refine ⟨⟨⟨?_, ?_, ?_, hends .start, ⟨hends .start, List.not_mem_nil⟩, List.forall_mem_nil _⟩,
    hfiles⟩, hends .finish, ⟨hends .finish, List.not_mem_nil⟩, List.forall_mem_nil _⟩
  all_goals exact ⟨by decide, by decide, by decide⟩

/-- Nothing breaks the lines of a header that declares such files, and they define no label. -/
theorem legible_assetHeaderLines (h : ∀ file ∈ files, p.Legible A file) :
    ∀ line ∈ p.assetHeaderLines files, line.Legible A ∧ line.defined? = none := by
  have hfiles : ∀ line ∈ files.flatMap p.declarationLines,
      line.Legible A ∧ line.defined? = none := by
    intro line hline
    obtain ⟨file, hfile, hmem⟩ := List.mem_flatMap.1 hline
    exact (h file hfile).declarationLines line hmem
  simp only [assetHeaderLines, List.forall_mem_append, List.forall_mem_cons]
  refine ⟨⟨⟨?_, rfl⟩, ⟨?_, rfl⟩, List.forall_mem_nil _⟩, hfiles⟩
  all_goals exact ⟨by decide, by decide, by decide⟩

/-- A generated source defines the labels of the embedded files, between two of its own. -/
theorem definedLabels_assetSourceText (h : ∀ file ∈ files, p.Legible A file) :
    A.definedLabels (p.assetSourceText files) =
      "__assets_start" :: files.flatMap (fun file => (Asset.mk p.id file).labels) ++
        ["__assets_end"] := by
  have hfile : ∀ file,
      (p.definitionLines file).filterMap defined? = (Asset.mk p.id file).labels := fun _ => rfl
  rw [assetSourceText_eq, definedLabels_join_of_legible (legible_assetSourceLines h),
    assetSourceLines, List.filterMap_append, List.filterMap_append, List.filterMap_flatMap,
    funext hfile]
  rfl

/-- A generated header declares the labels of the embedded files. -/
theorem declaredLabels_assetHeaderText (h : ∀ file ∈ files, p.Legible A file) :
    A.declaredLabels (p.assetHeaderText files) =
      files.flatMap fun file => (Asset.mk p.id file).labels := by
  have hfile : ∀ file,
      (p.declarationLines file).filterMap declared? = (Asset.mk p.id file).labels := fun _ => rfl
  rw [assetHeaderText_eq, declaredLabels_join_of_legible (legible_assetHeaderLines h),
    assetHeaderLines, List.filterMap_append, List.filterMap_flatMap, funext hfile]
  rfl

end Project

end NativeBuild
