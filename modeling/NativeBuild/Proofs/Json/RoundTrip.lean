import Mathlib.Tactic.SplitIfs
import NativeBuild.Json.Reader

/-!
# Reading what was written

A value that is written over several lines is read back as it was, if it holds no number and no
string or key that no text stands for.  The reader is given fuel for what it enters and skips the
blanks of the lines, so the statement about a part of the text is: with at least as much fuel as
the part is long, the reader takes the part off the front and leaves what follows it.

Main definitions:

- `Spells`: a written form of a character.
- `Value.Plain`: a value without numbers, whose strings and keys are all texts.
- `Value.ReadsBack`: a value whose written form is taken off the front of a text.

Main results:

- Theorem `string?_escaped`: a text between quotes is read back.
- Theorem `Plain.readsBack`: the written form of a plain value is taken off the front.
- Theorem `read_pretty`: a plain value is read back.
-/

namespace NativeBuild.Json

open Value

/-! ## Blanks -/

/-- A text that starts with no blank is left as it is. -/
theorem skipBlanks_cons {c : Char} (hc : isBlank c = false) (cs : List Char) :
    skipBlanks (c :: cs) = c :: cs := by
  simp [skipBlanks, hc]

/-- The characters at the start of a new line. -/
def newLine (depth : Nat) : List Char :=
  '\n' :: (indent depth).toList

/-- The start of a new line is blank. -/
theorem skipBlanks_newLine (depth : Nat) (cs : List Char) :
    skipBlanks (newLine depth ++ cs) = skipBlanks cs := by
  refine List.dropWhile_append_of_pos fun c hc => ?_
  rw [newLine, List.mem_cons, indent, String.toList_ofList, List.mem_replicate] at hc
  rcases hc with rfl | ⟨-, rfl⟩ <;> rfl

/-- The readers start with what follows the blanks. -/
theorem value?_of_skipBlanks {cs cs' : List Char} (h : skipBlanks cs = skipBlanks cs')
    (fuel : Nat) : value? fuel cs = value? fuel cs' := by
  cases fuel with
  | zero => rfl
  | succ fuel => rw [value?, value?, h]

/-- Items are read from what follows the blanks. -/
theorem items?_of_skipBlanks {cs cs' : List Char} (h : skipBlanks cs = skipBlanks cs')
    (fuel : Nat) : items? fuel cs = items? fuel cs' := by
  cases fuel with
  | zero => rfl
  | succ fuel => rw [items?, items?, value?_of_skipBlanks h]

/-- Entries are read from what follows the blanks. -/
theorem fields?_of_skipBlanks {cs cs' : List Char} (h : skipBlanks cs = skipBlanks cs')
    (fuel : Nat) : fields? fuel cs = fields? fuel cs' := by
  cases fuel with
  | zero => rfl
  | succ fuel => rw [fields?, fields?, h]

/-! ## Strings -/

/-- The written form is read as one part of a string, and the part stands for the character. -/
def Spells (written : List Char) (c : Char) : Prop :=
  ∃ part,
    (∀ cs, stringParts? (written ++ cs) =
      (stringParts? cs).map fun read => (part :: read.1, read.2)) ∧
    ∀ parts, textOfParts? (part :: parts) = (textOfParts? parts).map (c :: ·)

/-- A character may be written as an escape by a letter. -/
theorem spells_letter {letter c : Char} (hletter : letter ≠ 'u') (hc : escaped? letter = some c) :
    Spells ['\\', letter] c := by
  refine ⟨.char c, fun cs => ?_, fun _ => rfl⟩
  rw [List.cons_append, List.cons_append, List.nil_append, stringParts?]
  · rw [hc]
    cases stringParts? cs <;> rfl
  · simp [hletter]

/-- The number of a control character is read back from its four digits. -/
theorem hexNumber?_control : ∀ n < 0x20,
    Text.hexNumber? ['0', '0', hexDigit (n / 16), hexDigit (n % 16)] = some n := by
  decide

/-- A control character may be written by its number. -/
theorem spells_control {c : Char} (hc : c.toNat < 0x20) :
    Spells ['\\', 'u', '0', '0', hexDigit (c.toNat / 16), hexDigit (c.toNat % 16)] c := by
  refine ⟨.unit c.toNat, fun cs => ?_, fun parts => ?_⟩
  · simp only [List.cons_append, List.nil_append, stringParts?, hexNumber?_control _ hc]
    cases stringParts? cs <;> rfl
  · rw [textOfParts?.eq_def (.unit c.toNat :: parts)]
    dsimp only
    rw [if_neg (by omega), if_neg (by omega), Char.ofNat_toNat]

/-- Other characters are written as they are. -/
theorem spells_itself {c : Char} (hquote : c ≠ '"') (hslash : c ≠ '\\') (hc : ¬ c.toNat < 0x20) :
    Spells [c] c := by
  refine ⟨.char c, fun cs => ?_, fun _ => rfl⟩
  rw [List.singleton_append, stringParts?]
  · rw [if_neg (by simp [hc, hslash])]
    cases stringParts? cs <;> rfl
  all_goals simp [hquote, hslash]

/-- Every character is read back from its written form. -/
theorem spells_escapeChar (c : Char) : Spells (escapeChar c) c := by
  unfold escapeChar
  split_ifs with hquote hslash hline hreturn htab hback hfeed hcontrol
  · subst hquote
    exact spells_letter (by decide) rfl
  · subst hslash
    exact spells_letter (by decide) rfl
  · subst hline
    exact spells_letter (by decide) rfl
  · subst hreturn
    exact spells_letter (by decide) rfl
  · subst htab
    exact spells_letter (by decide) rfl
  · subst hback
    exact spells_letter (by decide) rfl
  · subst hfeed
    exact spells_letter (by decide) rfl
  · exact spells_control hcontrol
  · exact spells_itself hquote hslash hcontrol

/-- The parts of a written text are read up to the quote after it, and stand for the text. -/
theorem stringParts?_escaped (text rest : List Char) :
    ∃ parts, stringParts? (text.flatMap escapeChar ++ '"' :: rest) = some (parts, rest) ∧
      textOfParts? parts = some text := by
  induction text with
  | nil => exact ⟨[], rfl, rfl⟩
  | cons c text ih =>
      obtain ⟨parts, hparts, htext⟩ := ih
      obtain ⟨part, hpart, hc⟩ := spells_escapeChar c
      refine ⟨part :: parts, ?_, ?_⟩
      · rw [List.flatMap_cons, List.append_assoc, hpart, hparts]
        rfl
      · rw [hc, htext]
        rfl

/-- The text between the quotes is read back. -/
theorem string?_escaped (text : String) (rest : List Char) :
    string? (text.toList.flatMap escapeChar ++ '"' :: rest) = some (some text, rest) := by
  obtain ⟨parts, hparts, htext⟩ := stringParts?_escaped text.toList rest
  simp only [string?, hparts, Option.map_some, htext, String.ofList_toList]

/-! ## Values -/

/-- A value without numbers, whose strings and keys are all texts. -/
inductive Value.Plain : Value → Prop
  | null : Plain .null
  | bool (b : Bool) : Plain (.bool b)
  | string (text : String) : Plain (.string text)
  | array {items : List Value} (hitems : ∀ item ∈ items, Plain item) : Plain (.array items)
  | object {fields : List (Option String × Value)} (hkeys : ∀ field ∈ fields, field.1.isSome)
      (hvalues : ∀ field ∈ fields, Plain field.2) : Plain (.object fields)

/-- An array of texts is plain. -/
theorem Value.plain_strings (texts : List String) : (strings texts).Plain := by
  refine .array fun item hitem => ?_
  obtain ⟨text, -, rfl⟩ := List.mem_map.1 hitem
  exact .string text

/-- A record of plain values is plain. -/
theorem Value.plain_record {fields : List (String × Value)}
    (hvalues : ∀ field ∈ fields, field.2.Plain) : (record fields).Plain := by
  refine .object (fun entry hentry => ?_) fun entry hentry => ?_
  · obtain ⟨field, -, rfl⟩ := List.mem_map.1 hentry
    rfl
  · obtain ⟨field, hfield, rfl⟩ := List.mem_map.1 hentry
    exact hvalues field hfield

/-- The characters of the value over several lines. -/
def Value.written (depth : Nat) (value : Value) : List Char :=
  (value.prettyAt depth).toList

/-- The characters of the items of an array after its first. -/
def writtenItems (depth : Nat) (items : List Value) : List Char :=
  (prettyItems depth items).toList

/-- The characters of an entry of an object. -/
def writtenField (depth : Nat) (field : Option String × Value) : List Char :=
  (quote (field.1.getD "\uFFFD")).toList ++ ':' :: ' ' :: field.2.written depth

/-- The characters of the entries of an object after its first. -/
def writtenFields (depth : Nat) (fields : List (Option String × Value)) : List Char :=
  (prettyFields depth fields).toList

section Written

variable (depth : Nat) (item : Value) (items : List Value) (field : Option String × Value)
  (fields : List (Option String × Value))

/-- A quoted text is written between two quotes, character by character. -/
theorem toList_quote (text : String) :
    (quote text).toList = '"' :: (text.toList.flatMap escapeChar ++ ['"']) := by
  simp [quote]

/-- A text is written in quotes. -/
theorem written_string (text : String) :
    written depth (.string text) = '"' :: (text.toList.flatMap escapeChar ++ ['"']) := by
  rw [written, prettyAt, toList_quote]

/-- An array with items is written with its items on lines of their own, between brackets. -/
theorem written_array :
    written depth (.array (item :: items)) = '[' :: (newLine (depth + 1) ++
      (item.written (depth + 1) ++
        (writtenItems (depth + 1) items ++ (newLine depth ++ [']'])))) := by
  simp [written, writtenItems, newLine, prettyAt]

/-- An object with entries is written with its entries on lines of their own, between braces. -/
theorem written_object :
    written depth (.object (field :: fields)) = '\x7b' :: (newLine (depth + 1) ++
      (writtenField (depth + 1) field ++
        (writtenFields (depth + 1) fields ++ (newLine depth ++ ['\x7d'])))) := by
  simp [written, writtenField, writtenFields, newLine, prettyAt]

/-- An item after the first is written after a comma. -/
theorem writtenItems_cons :
    writtenItems depth (item :: items) =
      ',' :: (newLine depth ++ (item.written depth ++ writtenItems depth items)) := by
  simp [written, writtenItems, newLine, prettyItems]

/-- An entry after the first is written after a comma. -/
theorem writtenFields_cons :
    writtenFields depth (field :: fields) =
      ',' :: (newLine depth ++ (writtenField depth field ++ writtenFields depth fields)) := by
  simp [written, writtenField, writtenFields, newLine, prettyFields]

end Written

/-- What is written does not start with a blank, nor as the end of an array does. -/
theorem Value.Plain.head_written {value : Value} (h : value.Plain) (depth : Nat) :
    ∃ c cs, value.written depth = c :: cs ∧ isBlank c = false ∧ c ≠ ']' := by
  cases h with
  | null => simp [written, prettyAt, isBlank]
  | bool b => cases b <;> simp [written, prettyAt, isBlank]
  | string text => exact ⟨'"', _, written_string depth text, rfl, by decide⟩
  | @array items _ =>
      cases items with
      | nil => simp [written, prettyAt, isBlank]
      | cons item items => exact ⟨'[', _, written_array depth item items, rfl, by decide⟩
  | @object fields _ _ =>
      cases fields with
      | nil => simp [written, prettyAt, isBlank]
      | cons field fields => exact ⟨'\x7b', _, written_object depth field fields, rfl, by decide⟩

/-! ## Steps of the readers -/

section Steps

variable {fuel : Nat} {cs more rest : List Char} {value : Value}

/-- A string, with its text read up to the closing quote. -/
theorem value?_string {text : String} (hread : string? cs = some (some text, rest)) :
    value? (fuel + 1) ('"' :: cs) = some (.string text, rest) := by
  rw [value?, skipBlanks_cons rfl]
  simp [hread]

/-- An array with a first item. -/
theorem value?_array {c : Char} (hcs : skipBlanks cs = c :: rest) (hc : c ≠ ']') :
    value? (fuel + 1) ('[' :: cs) =
      (items? fuel (c :: rest)).map fun read => (.array read.1, read.2) := by
  rw [value?, skipBlanks_cons rfl]
  simp only [Char.reduceEq, if_false, if_true, hcs]
  split
  · next heq => exact absurd (List.cons.inj heq).1 hc
  · rfl

/-- An object with a first entry. -/
theorem value?_object (hcs : skipBlanks cs = '"' :: rest) :
    value? (fuel + 1) ('\x7b' :: cs) =
      (fields? fuel ('"' :: rest)).map fun read => (.object read.1, read.2) := by
  rw [value?, skipBlanks_cons rfl]
  simp only [Char.reduceEq, if_false, if_true, hcs]
  rfl

/-- The last item of an array. -/
theorem items?_last (hvalue : value? fuel cs = some (value, more))
    (hmore : skipBlanks more = ']' :: rest) : items? (fuel + 1) cs = some ([value], rest) := by
  rw [items?, hvalue]
  simp only [hmore]

/-- An item of an array before others. -/
theorem items?_next (hvalue : value? fuel cs = some (value, more))
    (hmore : skipBlanks more = ',' :: rest) :
    items? (fuel + 1) cs = (items? fuel rest).map fun read => (value :: read.1, read.2) := by
  rw [items?, hvalue]
  simp only [hmore]

variable {key : Option String} {after : List Char}

/-- The last entry of an object. -/
theorem fields?_last (hkey : string? cs = some (key, ':' :: more))
    (hvalue : value? fuel more = some (value, after)) (hafter : skipBlanks after = '\x7d' :: rest) :
    fields? (fuel + 1) ('"' :: cs) = some ([(key, value)], rest) := by
  rw [fields?, skipBlanks_cons rfl]
  simp only [hkey, skipBlanks_cons (c := ':') rfl, hvalue, hafter]

/-- An entry of an object before others. -/
theorem fields?_next (hkey : string? cs = some (key, ':' :: more))
    (hvalue : value? fuel more = some (value, after)) (hafter : skipBlanks after = ',' :: rest) :
    fields? (fuel + 1) ('"' :: cs) =
      (fields? fuel rest).map fun read => ((key, value) :: read.1, read.2) := by
  rw [fields?, skipBlanks_cons rfl]
  simp only [hkey, skipBlanks_cons (c := ':') rfl, hvalue, hafter]

end Steps

/-! ## Reading values -/

/-- The written form of the value is taken off the front of a text. -/
def Value.ReadsBack (value : Value) : Prop :=
  ∀ depth fuel rest, (value.written depth).length ≤ fuel →
    value? fuel (value.written depth ++ rest) = some (value, rest)

/-- The items of an array are read back up to its closing bracket. -/
theorem items?_written (depth close : Nat) (rest : List Char) {items : List Value} :
    ∀ {item : Value}, item.ReadsBack → (∀ next ∈ items, next.ReadsBack) → ∀ fuel : Nat,
      (item.written depth).length + (writtenItems depth items).length < fuel →
      items? fuel (item.written depth ++ (writtenItems depth items ++
        (newLine close ++ ']' :: rest))) = some (item :: items, rest) := by
  induction items with
  | nil =>
      intro item hitem _ fuel hfuel
      obtain ⟨fuel, rfl⟩ : ∃ n, fuel = n + 1 := ⟨fuel - 1, by omega⟩
      refine items?_last (hitem depth fuel _ (by omega)) ?_
      rw [writtenItems, prettyItems, String.toList_empty, List.nil_append, skipBlanks_newLine,
        skipBlanks_cons rfl]
  | cons next items ih =>
      intro item hitem hitems fuel hfuel
      obtain ⟨hnext, hothers⟩ := List.forall_mem_cons.1 hitems
      obtain ⟨fuel, rfl⟩ : ∃ n, fuel = n + 1 := ⟨fuel - 1, by omega⟩
      rw [writtenItems_cons] at hfuel ⊢
      simp only [List.length_cons, List.length_append, List.cons_append, List.append_assoc]
        at hfuel ⊢
      -- The comma before the next item pays for the step.
      rw [items?_next (hitem depth fuel _ (by omega)) (skipBlanks_cons rfl _),
        items?_of_skipBlanks (skipBlanks_newLine depth _), ih hnext hothers fuel (by omega)]
      rfl

variable {field : Option String × Value} {depth fuel : Nat}

/-- The key of an entry is read back, up to its value. -/
theorem string?_writtenField (hkey : field.1.isSome) (depth : Nat) (rest : List Char) :
    ∃ cs, writtenField depth field ++ rest = '"' :: cs ∧
      string? cs = some (field.1, ':' :: ' ' :: (field.2.written depth ++ rest)) := by
  obtain ⟨key, hkey⟩ := Option.isSome_iff_exists.1 hkey
  refine ⟨key.toList.flatMap escapeChar ++ '"' :: ':' :: ' ' :: (field.2.written depth ++ rest),
    ?_, ?_⟩
  · simp [writtenField, toList_quote, hkey]
  · rw [string?_escaped, hkey]

/-- Its value is read back after a blank. -/
theorem value?_writtenField (hvalue : field.2.ReadsBack)
    (hfuel : (writtenField depth field).length ≤ fuel) (rest : List Char) :
    value? fuel (' ' :: (field.2.written depth ++ rest)) = some (field.2, rest) := by
  have hblank : skipBlanks (' ' :: (field.2.written depth ++ rest)) =
      skipBlanks (field.2.written depth ++ rest) := rfl
  rw [value?_of_skipBlanks hblank]
  refine hvalue depth fuel rest ?_
  simp only [writtenField, List.length_append, List.length_cons] at hfuel
  omega

/-- The entries of an object are read back up to its closing brace. -/
theorem fields?_written (depth close : Nat) (rest : List Char)
    {fields : List (Option String × Value)} :
    ∀ {field : Option String × Value}, field.1.isSome → field.2.ReadsBack →
      (∀ next ∈ fields, next.1.isSome) → (∀ next ∈ fields, next.2.ReadsBack) → ∀ fuel : Nat,
      (writtenField depth field).length + (writtenFields depth fields).length < fuel →
      fields? fuel (writtenField depth field ++ (writtenFields depth fields ++
        (newLine close ++ '\x7d' :: rest))) = some (field :: fields, rest) := by
  induction fields with
  | nil =>
      intro field hkey hvalue _ _ fuel hfuel
      obtain ⟨fuel, rfl⟩ : ∃ n, fuel = n + 1 := ⟨fuel - 1, by omega⟩
      obtain ⟨cs, hcs, hread⟩ := string?_writtenField hkey depth
        (writtenFields depth [] ++ (newLine close ++ '\x7d' :: rest))
      rw [hcs]
      refine fields?_last hread (value?_writtenField hvalue (by omega) _) ?_
      rw [writtenFields, prettyFields, String.toList_empty, List.nil_append, skipBlanks_newLine,
        skipBlanks_cons rfl]
  | cons next fields ih =>
      intro field hkey hvalue hkeys hvalues fuel hfuel
      obtain ⟨hnextkey, hotherkeys⟩ := List.forall_mem_cons.1 hkeys
      obtain ⟨hnextvalue, hothervalues⟩ := List.forall_mem_cons.1 hvalues
      obtain ⟨fuel, rfl⟩ : ∃ n, fuel = n + 1 := ⟨fuel - 1, by omega⟩
      rw [writtenFields_cons] at hfuel ⊢
      simp only [List.length_cons, List.length_append, List.cons_append, List.append_assoc]
        at hfuel ⊢
      obtain ⟨cs, hcs, hread⟩ := string?_writtenField hkey depth
        (',' :: (newLine depth ++ (writtenField depth next ++ (writtenFields depth fields ++
          (newLine close ++ '\x7d' :: rest)))))
      rw [hcs, fields?_next hread (value?_writtenField hvalue (by omega) _) (skipBlanks_cons rfl _),
        fields?_of_skipBlanks (skipBlanks_newLine depth _),
        ih hnextkey hnextvalue hotherkeys hothervalues fuel (by omega)]
      rfl

/-- What is written is not empty, so there is fuel for a step. -/
theorem Value.Plain.readsBack_of_succ {value : Value} (h : value.Plain)
    (hread : ∀ depth fuel rest, (value.written depth).length ≤ fuel + 1 →
      value? (fuel + 1) (value.written depth ++ rest) = some (value, rest)) :
    value.ReadsBack := by
  intro depth fuel rest hfuel
  obtain ⟨c, cs, hcs, -⟩ := h.head_written depth
  cases fuel with
  | zero => simp [hcs] at hfuel
  | succ fuel => exact hread depth fuel rest hfuel

/-- What is written of a plain value is taken off the front of a text. -/
theorem Value.Plain.readsBack {value : Value} (h : value.Plain) : value.ReadsBack := by
  induction h with
  | null =>
      refine Plain.null.readsBack_of_succ fun depth fuel rest _ => ?_
      simp [written, prettyAt, value?, skipBlanks, isBlank, afterWord]
  | bool b =>
      refine (Plain.bool b).readsBack_of_succ fun depth fuel rest _ => ?_
      cases b <;> simp [written, prettyAt, value?, skipBlanks, isBlank, afterWord]
  | string text =>
      refine (Plain.string text).readsBack_of_succ fun depth fuel rest _ => ?_
      rw [written_string, List.cons_append, List.append_assoc]
      exact value?_string (string?_escaped text rest)
  | @array items hitems ih =>
      refine (Plain.array hitems).readsBack_of_succ fun depth fuel rest hfuel => ?_
      cases items with
      | nil => simp [written, prettyAt, value?, skipBlanks, isBlank]
      | cons item items =>
          obtain ⟨hitem, hothers⟩ := List.forall_mem_cons.1 ih
          obtain ⟨c, cs, hhead, hblank, hc⟩ :=
            (hitems item List.mem_cons_self).head_written (depth + 1)
          rw [written_array] at hfuel ⊢
          simp only [List.length_cons, List.length_append, List.cons_append, List.append_assoc,
            List.nil_append] at hfuel ⊢
          have hitems := items?_written (depth + 1) depth rest hitem hothers fuel (by omega)
          rw [hhead, List.cons_append] at hitems ⊢
          rw [value?_array ((skipBlanks_newLine _ _).trans (skipBlanks_cons hblank _)) hc, hitems]
          rfl
  | @object fields hkeys hvalues ih =>
      refine (Plain.object hkeys hvalues).readsBack_of_succ fun depth fuel rest hfuel => ?_
      cases fields with
      | nil => simp [written, prettyAt, value?, skipBlanks, isBlank]
      | cons field fields =>
          obtain ⟨hkey, hotherkeys⟩ := List.forall_mem_cons.1 hkeys
          obtain ⟨hvalue, hothervalues⟩ := List.forall_mem_cons.1 ih
          rw [written_object] at hfuel ⊢
          simp only [List.length_cons, List.length_append, List.cons_append, List.append_assoc,
            List.nil_append] at hfuel ⊢
          have hfields := fields?_written (depth + 1) depth rest hkey hvalue hotherkeys hothervalues
            fuel (by omega)
          obtain ⟨cs, hcs, -⟩ := string?_writtenField hkey (depth + 1)
            (writtenFields (depth + 1) fields ++ (newLine depth ++ '\x7d' :: rest))
          rw [hcs] at hfields ⊢
          rw [value?_object ((skipBlanks_newLine _ _).trans (skipBlanks_cons rfl _)), hfields]
          rfl

/-- A plain value is read back from what was written of it. -/
theorem read_pretty {value : Value} (h : value.Plain) : read value.pretty = some value := by
  have hlength : (value.written 0).length = value.pretty.toList.length := rfl
  have hread := h.readsBack 0 (2 * value.pretty.toList.length + 2) [] (by omega)
  rw [List.append_nil, written, ← pretty] at hread
  rw [read, hread]
  rfl

end NativeBuild.Json
