import Mathlib.Data.List.Basic
import NativeBuild.Config.Manifest
import NativeBuild.Proofs.Json.RoundTrip

/-!
# The forms of a manifest

What the reader of manifests makes of the forms in which one may be given.  For an object, only
the values under the known keys matter: neither the order of its entries nor what stands under
other keys.  An array is read as the object that has its values under the first keys.  And what
is written of a manifest is read back, whichever of its fields it leaves out.

Main definitions:

- `Manifest.ofFields?`: the manifest that keyed values hold.
- `Manifest.isSkipped`: an entry of an object that the reader skips.
- `Manifest.written`: what is written of a manifest under each key, if anything is.

Main results:

- Theorem `ofFields?_eq_some_iff`: each field is read from the values under its key.
- Theorem `ofFields?_congr`: the reading of keyed values depends on no more than that.
- Theorem `ofJson?_object_congr`: objects that are read alike.
- Theorem `ofJson?_toJson`: a manifest is read back.
- Theorem `reading_laws`: the laws of reading and writing.
-/

namespace NativeBuild.Manifest

open Json (Value)

/-! ## Keyed values -/

/-- The manifest that keyed values hold. -/
def ofFields? (fields : List (String × Value)) : Option Manifest := do
  return {
    id := ← field? fields "id" none optionalText?
    kind := ← field? fields "type" none optionalText?
    libs := ← field? fields "libs" [] texts?
    includes := ← field? fields "includes" [] texts?
    strict := ← field? fields "strict" none optionalBool? }

/-- A manifest is read from its keyed values. -/
theorem ofJson?_eq_bind (value : Value) : ofJson? value = (keyedValues? value).bind ofFields? :=
  rfl

/-- Each field is read from the values under its key. -/
theorem ofFields?_eq_some_iff {fields : List (String × Value)} {m : Manifest} :
    ofFields? fields = some m ↔
      field? fields "id" none optionalText? = some m.id ∧
      field? fields "type" none optionalText? = some m.kind ∧
      field? fields "libs" [] texts? = some m.libs ∧
      field? fields "includes" [] texts? = some m.includes ∧
      field? fields "strict" none optionalBool? = some m.strict := by
  simp only [ofFields?, bind, Option.bind_eq_some_iff]
  constructor
  · rintro ⟨id, hid, kind, hkind, libs, hlibs, includes, hincludes, strict, hstrict, hm⟩
    cases hm
    exact ⟨hid, hkind, hlibs, hincludes, hstrict⟩
  · rintro ⟨hid, hkind, hlibs, hincludes, hstrict⟩
    exact ⟨_, hid, _, hkind, _, hlibs, _, hincludes, _, hstrict, rfl⟩

/-- A list of at most one item has no other order. -/
theorem eq_of_perm_of_length_le_one {α : Type} {l l' : List α} (h : l.Perm l')
    (hl : l.length ≤ 1) : l = l' := by
  match l, hl with
  | [], _ => exact (List.nil_perm.1 h).symm
  | [a], _ => exact List.singleton_perm.1 h ▸ rfl

section Field

variable {α : Type} {fields fields' : List (String × Value)} {key : String} {missing : α}
  {read : Value → Option α}

/-- A key that occurs at most once. -/
theorem field?_of_filter {value : Option Value}
    (h : (fields.filter fun field => field.1 == key) = (value.map fun v => (key, v)).toList) :
    field? fields key missing read = value.elim (some missing) read := by
  rw [field?, h]
  cases value <;> rfl

/-- A key that occurs more than once. -/
theorem field?_eq_none (h : 2 ≤ (fields.filter fun field => field.1 == key).length) :
    field? fields key missing read = none := by
  rw [field?]
  split
  · next hfields => simp [hfields] at h
  · next hfields => simp [hfields] at h
  · rfl

/-- The order of the values does not matter. -/
theorem field?_congr (h : (fields.filter fun field => field.1 == key).Perm
      (fields'.filter fun field => field.1 == key)) :
    field? fields key missing read = field? fields' key missing read := by
  rcases Nat.lt_or_ge 1 (fields.filter fun field => field.1 == key).length with hmany | hone
  · rw [field?_eq_none hmany, field?_eq_none (h.length_eq ▸ hmany)]
  · rw [field?, field?, eq_of_perm_of_length_le_one h hone]

end Field

/-- The reading depends only on the values under the known keys. -/
theorem ofFields?_congr {fields fields' : List (String × Value)}
    (h : ∀ key ∈ keys, (fields.filter fun field => field.1 == key).Perm
      (fields'.filter fun field => field.1 == key)) :
    ofFields? fields = ofFields? fields' := by
  simp only [keys, List.forall_mem_cons] at h
  obtain ⟨hid, hkind, hlibs, hincludes, hstrict, -⟩ := h
  rw [ofFields?, field?_congr hid, field?_congr hkind, field?_congr hlibs, field?_congr hincludes,
    field?_congr hstrict]
  rfl

/-- Values under a known key that occurs more than once hold no manifest. -/
theorem ofFields?_eq_none {fields : List (String × Value)} {key : String} (hkey : key ∈ keys)
    (h : 2 ≤ (fields.filter fun field => field.1 == key).length) : ofFields? fields = none := by
  refine Option.eq_none_iff_forall_ne_some.2 fun m hm => ?_
  obtain ⟨hid, hkind, hlibs, hincludes, hstrict⟩ := ofFields?_eq_some_iff.1 hm
  simp only [keys, List.mem_cons, List.not_mem_nil, or_false] at hkey
  rcases hkey with rfl | rfl | rfl | rfl | rfl
  · cases (field?_eq_none h).symm.trans hid
  · cases (field?_eq_none h).symm.trans hkind
  · cases (field?_eq_none h).symm.trans hlibs
  · cases (field?_eq_none h).symm.trans hincludes
  · cases (field?_eq_none h).symm.trans hstrict

/-! ## Objects and arrays -/

/-- The reader skips an entry under a text that is no known key. -/
def isSkipped (field : Option String × Value) : Bool :=
  field.1.any fun key => key ∉ keys

/-- An entry with the text that is its key, if one is. -/
def named? (field : Option String × Value) : Option (String × Value) :=
  field.1.map fun key => (key, field.2)

/-- An object has keyed values when all of its keys are texts. -/
theorem keyedValues?_object (fields : List (Option String × Value)) :
    keyedValues? (.object fields) =
      if ∀ field ∈ fields, field.1.isSome then some (fields.filterMap named?) else none := by
  rw [keyedValues?]
  induction fields with
  | nil => rfl
  | cons field fields ih =>
      rw [List.mapM_cons, ih]
      simp only [List.forall_mem_cons]
      obtain ⟨_ | key, value⟩ := field
      · simp
      · by_cases hfields : ∀ field ∈ fields, field.1.isSome
        · rw [if_pos hfields, if_pos ⟨rfl, hfields⟩]
          rfl
        · rw [if_neg hfields, if_neg fun hall => hfields hall.2]
          rfl

/-- The keyed values of a record are its entries. -/
theorem keyedValues?_record (fields : List (String × Value)) :
    keyedValues? (.record fields) = some fields := by
  have hnamed : (fields.map fun field => (some field.1, field.2)).filterMap named? = fields := by
    rw [List.filterMap_map]
    exact List.filterMap_some
  rw [Value.record, keyedValues?_object, if_pos, hnamed]
  intro field hfield
  obtain ⟨_, -, rfl⟩ := List.mem_map.1 hfield
  rfl

/-- The values under a known key are those of the entries that are not skipped. -/
theorem filter_named (fields : List (Option String × Value)) {key : String} (hkey : key ∈ keys) :
    ((fields.filterMap named?).filter fun field => field.1 == key) =
      ((fields.filter fun field => !isSkipped field).filterMap named?).filter
        fun field => field.1 == key := by
  rw [List.filterMap_filter, List.filter_filterMap, List.filter_filterMap]
  refine List.filterMap_congr fun field _ => ?_
  obtain ⟨_ | key', value⟩ := field
  · rfl
  · by_cases hkey' : key' ∈ keys
    · simp [isSkipped, hkey']
    · have hne : key' ≠ key := fun h => hkey' (h ▸ hkey)
      simp [isSkipped, named?, hkey', hne]

/-- All keys are texts when those of the entries that are not skipped are. -/
theorem forall_isSome_filter (fields : List (Option String × Value)) :
    (∀ field ∈ fields.filter fun field => !isSkipped field, field.1.isSome) ↔
      ∀ field ∈ fields, field.1.isSome := by
  refine ⟨fun h field hfield => ?_, fun h field hfield => h field (List.mem_of_mem_filter hfield)⟩
  cases hkey : field.1 with
  | some key => rfl
  | none =>
      have hkept := h field (List.mem_filter.2 ⟨hfield, by simp [isSkipped, hkey]⟩)
      rw [hkey] at hkept
      cases hkept

variable {fields fields' : List (Option String × Value)}

/-- Objects with the same entries but for the skipped ones and for the order. -/
theorem ofJson?_object_congr
    (h : (fields.filter fun field => !isSkipped field).Perm
      (fields'.filter fun field => !isSkipped field)) :
    ofJson? (.object fields) = ofJson? (.object fields') := by
  have htexts : (∀ field ∈ fields, field.1.isSome) ↔ ∀ field ∈ fields', field.1.isSome := by
    rw [← forall_isSome_filter fields, ← forall_isSome_filter fields']
    exact ⟨fun hall field hfield => hall field (h.mem_iff.2 hfield),
      fun hall field hfield => hall field (h.mem_iff.1 hfield)⟩
  rw [ofJson?_eq_bind, ofJson?_eq_bind, keyedValues?_object, keyedValues?_object]
  by_cases hall : ∀ field ∈ fields, field.1.isSome
  · rw [if_pos hall, if_pos (htexts.1 hall)]
    refine ofFields?_congr fun key hkey => ?_
    rw [filter_named fields hkey, filter_named fields' hkey]
    exact (h.filterMap named?).filter _
  · rw [if_neg hall, if_neg fun hall' => hall (htexts.2 hall')]

/-- The values under a key are as many as the entries with the key. -/
theorem length_filter_named (fields : List (Option String × Value)) (key : String) :
    ((fields.filterMap named?).filter fun field => field.1 == key).length =
      (fields.map Prod.fst).count (some key) := by
  induction fields with
  | nil => rfl
  | cons field fields ih =>
      obtain ⟨_ | key', value⟩ := field
      · rw [List.filterMap_cons_none rfl]
        simpa using ih
      · by_cases hkey' : key' = key
        · simpa [named?, hkey'] using ih
        · simpa [named?, hkey'] using ih

/-- A known key that occurs more than once. -/
theorem ofJson?_object_eq_none {key : String} (hkey : key ∈ keys)
    (h : 2 ≤ (fields.map Prod.fst).count (some key)) : ofJson? (.object fields) = none := by
  rw [ofJson?_eq_bind, keyedValues?_object]
  split_ifs with hall
  · exact ofFields?_eq_none hkey (by rwa [length_filter_named])
  · rfl

/-! ## Writing -/

/-- The keys with what is written under them, if anything is. -/
def written (m : Manifest) : List (String × Option Value) :=
  [("id", m.id.map .string), ("type", m.kind.map .string),
    ("libs", if m.libs = [] then none else some (.strings m.libs)),
    ("includes", if m.includes = [] then none else some (.strings m.includes)),
    ("strict", m.strict.map .bool)]

/-- The entries that are written for optional values. -/
def entries (values : List (String × Option Value)) : List (String × Value) :=
  values.flatMap fun field => (field.2.map fun value => (field.1, value)).toList

/-- A manifest is written as a record of the entries for its keys. -/
theorem toJson_eq (m : Manifest) : m.toJson = .record (entries m.written) := by
  have hoptional {α : Type} (key : String) (write : α → Value) (o : Option α) :
      ((o.map write).map fun value => (key, value)).toList =
        (o.map fun a => (key, write a)).toList := by
    rw [Option.map_map]
    rfl
  have hlist (key : String) (texts : List String) :
      ((if texts = [] then none else some (Value.strings texts)).map fun value =>
        (key, value)).toList = if texts = [] then [] else [(key, Value.strings texts)] := by
    split_ifs <;> rfl
  simp only [toJson, entries, written, List.flatMap_cons, List.flatMap_nil, hoptional, hlist,
    List.append_nil, List.append_assoc]

/-- The entries for a key and others are that of the key, if there is any, and the others. -/
theorem entries_cons (field : String × Option Value) (values : List (String × Option Value)) :
    entries (field :: values) =
      (field.2.map fun value => (field.1, value)).toList ++ entries values :=
  rfl

/-- Each entry is written for one of the values. -/
theorem mem_of_mem_entries {values : List (String × Option Value)} {entry : String × Value}
    (h : entry ∈ entries values) : (entry.1, some entry.2) ∈ values := by
  obtain ⟨⟨key, value⟩, hfield, hentry⟩ := List.mem_flatMap.1 h
  obtain ⟨value, rfl, rfl⟩ := Option.map_eq_some_iff.1 (Option.mem_toList.1 hentry)
  exact hfield

/-- When the keys are different, a key has no other entry than its own. -/
theorem filter_entries {values : List (String × Option Value)} {key : String}
    {value : Option Value} (hnodup : (values.map Prod.fst).Nodup) (h : (key, value) ∈ values) :
    ((entries values).filter fun field => field.1 == key) =
      (value.map fun v => (key, v)).toList := by
  induction values with
  | nil => cases h
  | cons field values ih =>
      obtain ⟨hfresh, hnodup⟩ := List.nodup_cons.1 hnodup
      rw [entries_cons, List.filter_append]
      rcases List.mem_cons.1 h with rfl | hmem
      · have hothers : ((entries values).filter fun field => field.1 == key) = [] := by
          refine List.filter_eq_nil_iff.2 fun entry hentry hkey => hfresh ?_
          rw [← eq_of_beq hkey]
          exact List.mem_map.2 ⟨_, mem_of_mem_entries hentry, rfl⟩
        rw [hothers, List.append_nil]
        cases value <;> simp
      · have hne : field.1 ≠ key := by
          rintro rfl
          exact hfresh (List.mem_map.2 ⟨_, hmem, rfl⟩)
        rw [ih hnodup hmem]
        cases field.2 <;> simp [hne]

/-- Texts are read back from an array of them. -/
theorem texts?_strings (texts : List String) : texts? (.strings texts) = some texts := by
  rw [Value.strings, texts?]
  induction texts with
  | nil => rfl
  | cons text texts ih =>
      rw [List.map_cons, List.mapM_cons, ih]
      rfl

/-- An optional text is read back from what is written for it. -/
theorem elim_text (text : Option String) :
    (text.map Value.string).elim (some none) optionalText? = some text := by
  cases text <;> rfl

/-- An optional flag is read back from what is written for it. -/
theorem elim_bool (b : Option Bool) :
    (b.map Value.bool).elim (some none) optionalBool? = some b := by
  cases b <;> rfl

/-- A list of texts is read back from what is written for it, nothing for the empty one. -/
theorem elim_texts (texts : List String) :
    (if texts = [] then none else some (Value.strings texts)).elim (some []) texts? =
      some texts := by
  split_ifs with hempty
  · rw [hempty]
    rfl
  · exact texts?_strings texts

/-- What is written of a manifest is read back. -/
theorem ofJson?_toJson (m : Manifest) : ofJson? m.toJson = some m := by
  have hread {α : Type} {missing : α} {read : Value → Option α} {key : String}
      {value : Option Value} (h : (key, value) ∈ m.written) :
      field? (entries m.written) key missing read = value.elim (some missing) read :=
    field?_of_filter (filter_entries (show keys.Nodup by decide) h)
  rw [toJson_eq, ofJson?_eq_bind, keyedValues?_record]
  exact ofFields?_eq_some_iff.2
    ⟨(hread (by simp [written])).trans (elim_text m.id),
      (hread (by simp [written])).trans (elim_text m.kind),
      (hread (by simp [written])).trans (elim_texts m.libs),
      (hread (by simp [written])).trans (elim_texts m.includes),
      (hread (by simp [written])).trans (elim_bool m.strict)⟩

/-- A manifest is written without numbers, and with texts only. -/
theorem plain_toJson (m : Manifest) : m.toJson.Plain := by
  rw [toJson_eq]
  refine Value.plain_record fun entry hentry => ?_
  have hwritten := mem_of_mem_entries hentry
  simp only [written, List.mem_cons, List.not_mem_nil, or_false, Prod.mk.injEq] at hwritten
  rcases hwritten with ⟨-, h⟩ | ⟨-, h⟩ | ⟨-, h⟩ | ⟨-, h⟩ | ⟨-, h⟩
  · obtain ⟨id, -, hid⟩ := Option.map_eq_some_iff.1 h.symm
    exact hid ▸ .string id
  · obtain ⟨kind, -, hkind⟩ := Option.map_eq_some_iff.1 h.symm
    exact hkind ▸ .string kind
  · obtain ⟨-, hlibs⟩ := Option.ite_none_left_eq_some.1 h.symm
    exact Option.some.inj hlibs ▸ Value.plain_strings m.libs
  · obtain ⟨-, hincludes⟩ := Option.ite_none_left_eq_some.1 h.symm
    exact Option.some.inj hincludes ▸ Value.plain_strings m.includes
  · obtain ⟨strict, -, hstrict⟩ := Option.map_eq_some_iff.1 h.symm
    exact hstrict ▸ .bool strict

/-! ## The laws -/

/-- What is written of a manifest is read back, as a value and as a text.  Objects hold the same
manifest, or none, when the entries that are not skipped are the same up to their order; an object
with a repeated known key holds none; and an array of at most five values is read as the object
that has them under the first keys. -/
theorem reading_laws :
    (∀ m : Manifest, ofJson? m.toJson = some m ∧ read m.toJson.pretty = some m) ∧
    (∀ fields fields' : List (Option String × Value),
      (fields.filter fun field => !isSkipped field).Perm
        (fields'.filter fun field => !isSkipped field) →
      ofJson? (.object fields) = ofJson? (.object fields')) ∧
    (∀ (fields : List (Option String × Value)) (key : String), key ∈ keys →
      2 ≤ (fields.map Prod.fst).count (some key) → ofJson? (.object fields) = none) ∧
    ∀ items : List Value, items.length ≤ 5 →
      ofJson? (.array items) =
        ofJson? (.record (["id", "type", "libs", "includes", "strict"].zip items)) := by
  refine ⟨fun m => ⟨ofJson?_toJson m, ?_⟩, fun _ _ => ofJson?_object_congr,
    fun _ _ => ofJson?_object_eq_none, fun items hitems => ?_⟩
  · rw [read, Json.read_pretty (plain_toJson m), Option.bind_some, ofJson?_toJson]
  · rw [ofJson?_eq_bind, ofJson?_eq_bind, keyedValues?_record, keyedValues?]
    exact congrArg (Option.bind · ofFields?) (if_pos hitems)

end NativeBuild.Manifest

/-! ## A sample -/

namespace NativeBuild.Sample

open Json Manifest

/-- A manifest with a further key, one with a repeated key, and one without keys. -/
theorem forms_read :
    ofJson? (.record [("type", .string "lib"), ("since", .number "1.5"), ("id", .string "core")]) =
      some { id := some "core", kind := some "lib" } ∧
    ofJson? (.record [("libs", .strings []), ("id", .null), ("libs", .strings ["core"])]) = none ∧
    ofJson? (.array [.string "core", .null, .strings ["text"]]) =
      some { id := some "core", libs := ["text"] } := by
  obtain ⟨hwritten, hobject, hrepeated, harray⟩ := reading_laws
  refine ⟨?_, hrepeated _ "libs" (by decide) (by decide), (harray _ (by decide)).trans ?_⟩
  · refine (hobject _ _ ?_).trans (hwritten { id := some "core", kind := some "lib" }).1
    exact .swap _ _ []
  · rfl

end NativeBuild.Sample
