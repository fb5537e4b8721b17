import Mosaic.Proofs.Bytewise.Checked

/-! The bytes of a text. The first byte of a character tells it apart from all other characters,
and no byte behind it can be taken for a first one: what is found in the bytes is found in the
text. -/
namespace Mosaic.Bytewise

def encode (text : List Char) : List UInt8 := text.flatMap String.utf8EncodeChar

/-- A byte as the character with its number. -/
def asChar (b : UInt8) : Char := Char.ofNat b.toNat

theorem encode_cons (c : Char) (rest : List Char) :
    encode (c :: rest) = String.utf8EncodeChar c ++ encode rest := List.flatMap_cons

theorem encode_append (s t : List Char) : encode (s ++ t) = encode s ++ encode t :=
  List.flatMap_append

theorem length_encode (text : List Char) : (encode text).length = Text.bytes text := by
  induction text with
  | nil => rfl
  | cons c rest ih =>
    rw [encode_cons, List.length_append, String.length_utf8EncodeChar, ih, Text.bytes_cons]

theorem encodeChar_inj {c d : Char} {s t : List UInt8}
    (h : String.utf8EncodeChar c ++ s = String.utf8EncodeChar d ++ t) : c = d := by
  have same := congrArg (fun bytes => ByteArray.utf8DecodeChar? bytes.toByteArray 0) h
  simp only [List.toByteArray_append, ByteArray.utf8DecodeChar?_utf8EncodeChar_append] at same
  exact Option.some.inj same

theorem and_eq_zero_of_lt {b : UInt8} (h : b.toNat < 128) : b &&& 0x80 = 0 := by
  have all : ∀ n : Fin 256, n.val < 128 → UInt8.ofFin n &&& 0x80 = 0 := by decide +kernel
  exact all b.toFin h

theorem ge_of_not_first {b : UInt8} (h : ¬ b.IsUTF8FirstByte) : 128 ≤ b.toNat := by
  apply Nat.le_of_not_lt
  intro small
  exact h (.inl (and_eq_zero_of_lt small))

theorem toNat_asChar (b : UInt8) : (asChar b).toNat = b.toNat := by
  have valid : b.toNat.isValidChar := by
    have small := b.toNat_lt
    left
    omega
  rw [asChar, Char.ofNat, dif_pos valid]
  rfl

theorem encodeChar_asChar {b : UInt8} (h : b.toNat < 128) :
    String.utf8EncodeChar (asChar b) = [b] := by
  have small : (asChar b).utf8Size = 1 := by
    rw [Char.utf8Size_eq_one_iff, UInt32.le_iff_toNat_le]
    have value : (asChar b).val.toNat = b.toNat := toNat_asChar b
    rw [value]
    exact Nat.le_of_lt_succ h
  rw [String.utf8EncodeChar_eq_singleton small]
  have value : (asChar b).val.toNat = b.toNat := toNat_asChar b
  refine congrArg (· :: []) (UInt8.toNat_inj.mp ?_)
  rw [UInt32.toNat_toUInt8, value]
  exact Nat.mod_eq_of_lt b.toNat_lt

/-- The bytes of a character: a first one, and some that cannot be first ones. -/
theorem encodeChar_eq_cons (c : Char) :
    ∃ lead conts, String.utf8EncodeChar c = lead :: conts ∧ conts.length + 1 = c.utf8Size ∧
      lead.IsUTF8FirstByte ∧ ∀ b ∈ conts, ¬ b.IsUTF8FirstByte := by
  cases h : String.utf8EncodeChar c with
  | nil => exact absurd h String.utf8EncodeChar_ne_nil
  | cons lead conts =>
    have size : conts.length + 1 = c.utf8Size := by
      rw [← String.length_utf8EncodeChar, h, List.length_cons]
    have first : ∀ i (hi : i < (lead :: conts).length),
        ((lead :: conts)[i]).IsUTF8FirstByte ↔ i = 0 := by
      rw [← h]
      intro i hi
      exact UInt8.isUTF8FirstByte_getElem_utf8EncodeChar
    refine ⟨lead, conts, rfl, size, (first 0 (Nat.succ_pos _)).mpr rfl, fun b mem starts => ?_⟩
    obtain ⟨i, hi, rfl⟩ := List.getElem_of_mem mem
    have zero := (first (i + 1) (Nat.succ_lt_succ hi)).mp starts
    cases zero

theorem eq_asChar_of_lt {c : Char} {lead : UInt8} {conts : List UInt8}
    (h : String.utf8EncodeChar c = lead :: conts) (small : lead.toNat < 128) :
    c = asChar lead ∧ conts = [] := by
  have same : String.utf8EncodeChar c ++ [] = String.utf8EncodeChar (asChar lead) ++ conts := by
    rw [h, encodeChar_asChar small, List.append_nil]
    rfl
  have char := encodeChar_inj same
  subst char
  rw [encodeChar_asChar small] at h
  exact ⟨rfl, (List.cons.inj h).2.symm⟩

theorem lead_of_small {c : Char} {lead : UInt8} {conts : List UInt8} (small : c.toNat ≤ 127)
    (h : String.utf8EncodeChar c = lead :: conts) : lead.toNat < 128 := by
  have size : c.utf8Size = 1 := Char.utf8Size_eq_one_iff.mpr small
  rw [String.utf8EncodeChar_eq_singleton size] at h
  obtain ⟨rfl, -⟩ := List.cons.inj h
  rw [UInt32.toNat_toUInt8]
  exact Nat.lt_of_le_of_lt (Nat.mod_le _ _) (Nat.lt_succ_of_le small)

theorem ne_of_wide {c d : Char} (wide : 127 < c.toNat) (small : d.toNat ≤ 127) : c ≠ d := by
  rintro rfl
  omega

theorem asChar_eq_iff {c d : Char} {lead : UInt8} {conts : List UInt8}
    (h : String.utf8EncodeChar c = lead :: conts) (small : d.toNat ≤ 127) :
    asChar lead = d ↔ c = d := by
  by_cases low : lead.toNat < 128
  · rw [(eq_asChar_of_lt h low).1]
  · have wide : 127 < c.toNat := Nat.lt_of_not_le fun le => low (lead_of_small le h)
    have wideLead : 127 < (asChar lead).toNat := by
      rw [toNat_asChar]
      omega
    exact iff_of_false (ne_of_wide wideLead small) (ne_of_wide wide small)

theorem isPrefixOf_encode (word text : List Char) :
    (encode word).isPrefixOf (encode text) = word.isPrefixOf text := by
  induction word generalizing text with
  | nil => rfl
  | cons d word ih =>
    cases text with
    | nil =>
      obtain ⟨lead, conts, h, -, -⟩ := encodeChar_eq_cons d
      rw [encode_cons, h]
      rfl
    | cons c text =>
      by_cases same : d = c
      · subst same
        rw [List.isPrefixOf, ← ih text, beq_self_eq_true, Bool.true_and, encode_cons, encode_cons,
          Bool.eq_iff_iff, List.isPrefixOf_iff_prefix, List.isPrefixOf_iff_prefix,
          List.prefix_append_right_inj]
      · have other : (d == c) = false := beq_false_of_ne same
        rw [List.isPrefixOf, other, Bool.false_and, ← Bool.not_eq_true,
          List.isPrefixOf_iff_prefix]
        intro ⟨tail, htail⟩
        rw [encode_cons, encode_cons, List.append_assoc] at htail
        exact same (encodeChar_inj htail)

/-- No word begins inside of a character. -/
theorem isPrefixOf_inside {word : List Char} (some : word ≠ []) {b : UInt8} (tail : List UInt8)
    (h : ¬ b.IsUTF8FirstByte) : (encode word).isPrefixOf (b :: tail) = false := by
  cases word with
  | nil => exact absurd rfl some
  | cons d word =>
    obtain ⟨lead, conts, hd, -, first, -⟩ := encodeChar_eq_cons d
    have other : (lead == b) = false := by
      apply beq_false_of_ne
      rintro rfl
      exact h first
    rw [encode_cons, hd, List.cons_append, List.isPrefixOf, other, Bool.false_and]

end Mosaic.Bytewise
