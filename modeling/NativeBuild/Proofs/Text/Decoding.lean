import Mathlib
import NativeBuild.Text.Utf8

/-!
# Decoding is exact

Bytes that are read as a text are the bytes of that text.  So different bytes are never read as
the same text, and a file is found under the text that its name was read as.

Main results:

- Theorem `encode_of_scanChar`: a character that is read has the bytes that were taken.
- Theorem `utf8_of_decode?`: a text that is read has the bytes it was read from.
-/

namespace NativeBuild.Text

/-- The bytes of a text are those of its characters. -/
theorem utf8_ofList (chars : List Char) :
    utf8 (String.ofList chars) = chars.flatMap String.utf8EncodeChar := by
  simp [utf8, List.utf8Encode]

/-! ## One character -/

/-- A byte goes on with a character exactly between these bounds. -/
theorem isContinuation_iff {b : UInt8} :
    isContinuation b = true ↔ 0x80 ≤ b.toNat ∧ b.toNat ≤ 0xBF := by
  simp [isContinuation, UInt8.le_iff_toNat_le]

/-- Second bytes continue a character; after four of the first bytes their range is narrower. -/
theorem range_of_isSecond {first second : UInt8} (h : isSecond first second = true) :
    (0x80 ≤ second.toNat ∧ second.toNat ≤ 0xBF) ∧
      (first.toNat = 0xE0 → 0xA0 ≤ second.toNat) ∧ (first.toNat = 0xED → second.toNat ≤ 0x9F) ∧
      (first.toNat = 0xF0 → 0x90 ≤ second.toNat) ∧ (first.toNat = 0xF4 → second.toNat ≤ 0x8F) := by
  simp only [isSecond, isContinuation, ← UInt8.toNat_inj] at h
  split_ifs at h <;>
    simp only [UInt8.le_iff_toNat_le, Bool.and_eq_true, decide_eq_true_eq] at h <;>
    simp at * <;> omega

/-- A byte is known by its number. -/
theorem ofNat_eq_of_toNat {n : Nat} {b : UInt8} (h : n = b.toNat) : UInt8.ofNat n = b := by
  rw [h, UInt8.ofNat_toNat]

/-- The number of a character that is made from a number. -/
theorem toNat_val_ofNat {n : Nat} (h : n < 0xD800 ∨ 0xDFFF < n ∧ n < 0x110000) :
    (Char.ofNat n).val.toNat = n := by
  have hvalid : n.isValidChar := h
  exact (Char.toNat_ofNat n).trans (if_pos hvalid)

section Encoding

variable {a b c d : UInt8}

/-- A character of one byte. -/
theorem encode_one (ha : a.toNat < 0x80) : String.utf8EncodeChar (Char.ofNat a.toNat) = [a] := by
  unfold String.utf8EncodeChar
  rw [toNat_val_ofNat (by omega), if_pos (by omega), ofNat_eq_of_toNat rfl]

/-- A character of two bytes. -/
theorem encode_two (ha : 0xC2 ≤ a.toNat ∧ a.toNat ≤ 0xDF) (hb : isContinuation b = true) :
    String.utf8EncodeChar (Char.ofNat ((a.toNat % 32) * 64 + low6 b)) = [a, b] := by
  rw [isContinuation_iff] at hb
  unfold String.utf8EncodeChar low6
  rw [toNat_val_ofNat (by omega), if_neg (by omega), if_pos (by omega),
    ofNat_eq_of_toNat (b := a) (by omega), ofNat_eq_of_toNat (b := b) (by omega)]

/-- A character of three bytes. -/
theorem encode_three (ha : 0xE0 ≤ a.toNat ∧ a.toNat ≤ 0xEF) (hb : isSecond a b = true)
    (hc : isContinuation c = true) :
    String.utf8EncodeChar (Char.ofNat ((a.toNat % 16) * 4096 + low6 b * 64 + low6 c)) =
      [a, b, c] := by
  obtain ⟨hb, hlow, hhigh, -, -⟩ := range_of_isSecond hb
  rw [isContinuation_iff] at hc
  unfold String.utf8EncodeChar low6
  rw [toNat_val_ofNat (by omega), if_neg (by omega), if_neg (by omega), if_pos (by omega),
    ofNat_eq_of_toNat (b := a) (by omega), ofNat_eq_of_toNat (b := b) (by omega),
    ofNat_eq_of_toNat (b := c) (by omega)]

/-- A character of four bytes. -/
theorem encode_four (ha : 0xF0 ≤ a.toNat ∧ a.toNat ≤ 0xF4) (hb : isSecond a b = true)
    (hc : isContinuation c = true) (hd : isContinuation d = true) :
    String.utf8EncodeChar (Char.ofNat
        ((a.toNat % 8) * 262144 + low6 b * 4096 + low6 c * 64 + low6 d)) = [a, b, c, d] := by
  obtain ⟨hb, -, -, hlow, hhigh⟩ := range_of_isSecond hb
  rw [isContinuation_iff] at hc hd
  unfold String.utf8EncodeChar low6
  rw [toNat_val_ofNat (by omega), if_neg (by omega), if_neg (by omega), if_neg (by omega),
    ofNat_eq_of_toNat (b := a) (by omega), ofNat_eq_of_toNat (b := b) (by omega),
    ofNat_eq_of_toNat (b := c) (by omega), ofNat_eq_of_toNat (b := d) (by omega)]

end Encoding

/-- A character that is read has the bytes that were taken for it. -/
theorem encode_of_scanChar {first : UInt8} {rest : List UInt8} {c : Char} {taken : Nat}
    (h : scanChar first rest = (some c, taken)) :
    String.utf8EncodeChar c = first :: rest.take taken := by
  unfold scanChar at h
  simp only [UInt8.le_iff_toNat_le, UInt8.lt_iff_toNat_lt] at h
  split_ifs at h with hone htwo hthree hfour
  · cases h
    exact encode_one hone
  · split at h
    · split_ifs at h with hb
      · cases h
        exact encode_two htwo hb
      · cases h
    · cases h
  · split at h
    · split_ifs at h with hb
      · split at h
        · split_ifs at h with hc
          · cases h
            exact encode_three hthree hb hc
          · cases h
        · cases h
      · cases h
    · cases h
  · split at h
    · split_ifs at h with hb
      · split at h
        · split_ifs at h with hc
          · split at h
            · split_ifs at h with hd
              · cases h
                exact encode_four hfour hb hc hd
              · cases h
            · cases h
          · cases h
        · cases h
      · cases h
    · cases h
  · cases h

/-! ## Whole texts -/

/-- Where all of the bytes are read as characters, they are those of the characters. -/
theorem encode_of_scanChars {bytes : List UInt8} {chars : List Char}
    (h : scanChars bytes = chars.map some) : chars.flatMap String.utf8EncodeChar = bytes := by
  fun_induction scanChars bytes generalizing chars with
  | case1 =>
      obtain rfl := List.map_eq_nil_iff.1 h.symm
      rfl
  | case2 first rest read taken hscan ih =>
      obtain ⟨c, others, rfl, rfl, hrest⟩ := List.map_eq_cons_iff.1 h.symm
      rw [List.flatMap_cons, ih hrest.symm, encode_of_scanChar hscan, List.cons_append,
        List.take_append_drop]

/-- All of some values are there when mapping the identity over them gives their contents. -/
theorem eq_map_some_of_mapM {α : Type} {values : List (Option α)} {contents : List α}
    (h : values.mapM id = some contents) : values = contents.map some := by
  induction values generalizing contents with
  | nil =>
      rw [List.mapM_nil] at h
      cases h
      rfl
  | cons value rest ih =>
      rw [List.mapM_cons] at h
      obtain ⟨content, hcontent, hmapped⟩ := Option.bind_eq_some_iff.1 h
      obtain ⟨others, hothers, hcontents⟩ := Option.bind_eq_some_iff.1 hmapped
      obtain rfl : content :: others = contents := Option.some.inj hcontents
      rw [ih hothers, List.map_cons, ← hcontent, id]

/-- A text that is read has the bytes it was read from. -/
theorem utf8_of_decode? {bytes : List UInt8} {text : String} (h : decode? bytes = some text) :
    utf8 text = bytes := by
  obtain ⟨chars, hchars, rfl⟩ := Option.map_eq_some_iff.1 h
  rw [utf8_ofList]
  exact encode_of_scanChars (eq_map_some_of_mapM hchars)

/-- Different bytes are not read as the same text. -/
theorem decode?_inj {bytes others : List UInt8} {text : String} (h : decode? bytes = some text)
    (hothers : decode? others = some text) : bytes = others := by
  rw [← utf8_of_decode? h, utf8_of_decode? hothers]

end NativeBuild.Text
