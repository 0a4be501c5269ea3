import NativeBuild.Proofs.Text.Decoding

/-!
# Texts in the order of their bytes

Texts are compared by their characters.  Their bytes give the same order: the bytes of a smaller
character are smaller where they differ first, and those of one character never start those of
another.

Main results:

- Theorem `encode_append_lt`: bytes of a smaller character, whatever follows them.
- Theorem `utf8_lt_iff`: the order of texts is that of their bytes.
-/

namespace NativeBuild.Text

/-- Bytes that are given by numbers are compared by these. -/
theorem ofNat_lt_iff {m n : Nat} (hm : m < 256) (hn : n < 256) :
    UInt8.ofNat m < UInt8.ofNat n ↔ m < n := by
  rw [UInt8.lt_iff_toNat_lt, UInt8.toNat_ofNat_of_lt' hm, UInt8.toNat_ofNat_of_lt' hn]

/-- Different numbers below 256 are different bytes. -/
theorem ofNat_inj {m n : Nat} (hm : m < 256) (hn : n < 256) :
    UInt8.ofNat m = UInt8.ofNat n ↔ m = n := by
  rw [← UInt8.toNat_inj, UInt8.toNat_ofNat_of_lt' hm, UInt8.toNat_ofNat_of_lt' hn]

/-- The bytes of a smaller character come first, whatever follows them. -/
theorem encode_append_lt {c d : Char} (h : c < d) (front back : List UInt8) :
    String.utf8EncodeChar c ++ front < String.utf8EncodeChar d ++ back := by
  have hlt : c.val.toNat < d.val.toNat := h
  have hbound : d.val.toNat < 0x110000 := by
    have hvalid := d.valid
    simp only [UInt32.isValidChar, Nat.isValidChar] at hvalid
    omega
  have hdigits : ∀ n : Nat, n / 4096 = n / 64 / 64 ∧ n / 262144 = n / 64 / 64 / 64 := by omega
  unfold String.utf8EncodeChar
  dsimp only
  rw [(hdigits _).1, (hdigits _).2, (hdigits d.val.toNat).1, (hdigits d.val.toNat).2]
  -- A character of more bytes starts with a greater one; of as many, their digits decide.
  split_ifs <;> simp only [List.cons_append, List.nil_append, List.cons_lt_cons_iff] <;>
    simp (disch := omega) only [ofNat_lt_iff, ofNat_inj] <;> omega

/-- The bytes of smaller characters come first. -/
theorem flatMap_encode_lt {chars others : List Char} (h : chars < others) :
    chars.flatMap String.utf8EncodeChar < others.flatMap String.utf8EncodeChar := by
  induction chars generalizing others with
  | nil =>
      cases others with
      | nil => exact absurd h (List.lt_irrefl _)
      | cons d rest =>
          rw [List.flatMap_nil, List.flatMap_cons]
          cases hbytes : String.utf8EncodeChar d with
          | nil => exact absurd hbytes String.utf8EncodeChar_ne_nil
          | cons b bytes => exact List.nil_lt_cons _ _
  | cons c rest ih =>
      cases others with
      | nil => exact absurd h (List.not_lt_nil _)
      | cons d tail =>
          rw [List.flatMap_cons, List.flatMap_cons]
          rcases List.cons_lt_cons_iff.1 h with hlt | ⟨rfl, hrest⟩
          · exact encode_append_lt hlt _ _
          · exact List.append_left_lt (ih hrest)

/-- The order of texts is that of their bytes. -/
theorem utf8_lt_iff {s t : String} : utf8 s < utf8 t ↔ s < t := by
  have hlt : ∀ {s t : String}, s < t → utf8 s < utf8 t := by
    intro s t h
    rw [← String.ofList_toList (s := s), ← String.ofList_toList (s := t), utf8_ofList, utf8_ofList]
    exact flatMap_encode_lt (String.lt_iff.1 h)
  refine ⟨fun h => ?_, hlt⟩
  by_contra hle
  by_cases hgt : t < s
  · exact List.lt_asymm h (hlt hgt)
  · obtain rfl := String.le_antisymm hgt hle
    exact List.lt_irrefl _ h

end NativeBuild.Text
