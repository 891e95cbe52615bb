import Shardway.Text.Utf8

/-!
# Texts read back from their bytes
-/

namespace Shardway.Text.Utf8

/-! ## Kinds of bytes -/

theorem within_eq_true {lo hi : Nat} {b : UInt8} :
    within lo hi b = true ↔ lo ≤ b.toNat ∧ b.toNat ≤ hi := by
  simp [within]

theorem width_one {a : UInt8} (h : a.toNat < 0x80) : width a = 1 := by
  have h1 : within 0 0x7F a = true := within_eq_true.mpr (by omega)
  rw [width, if_pos h1]

theorem width_two {a : UInt8} (hlo : 0xC2 ≤ a.toNat) (hhi : a.toNat ≤ 0xDF) : width a = 2 := by
  have h1 : ¬within 0 0x7F a = true := by rw [within_eq_true]; omega
  have h2 : within 0xC2 0xDF a = true := within_eq_true.mpr ⟨hlo, hhi⟩
  rw [width, if_neg h1, if_pos h2]

theorem width_three {a : UInt8} (hlo : 0xE0 ≤ a.toNat) (hhi : a.toNat ≤ 0xEF) : width a = 3 := by
  have h1 : ¬within 0 0x7F a = true := by rw [within_eq_true]; omega
  have h2 : ¬within 0xC2 0xDF a = true := by rw [within_eq_true]; omega
  have h3 : within 0xE0 0xEF a = true := within_eq_true.mpr ⟨hlo, hhi⟩
  rw [width, if_neg h1, if_neg h2, if_pos h3]

theorem width_four {a : UInt8} (hlo : 0xF0 ≤ a.toNat) (hhi : a.toNat ≤ 0xF4) : width a = 4 := by
  have h1 : ¬within 0 0x7F a = true := by rw [within_eq_true]; omega
  have h2 : ¬within 0xC2 0xDF a = true := by rw [within_eq_true]; omega
  have h3 : ¬within 0xE0 0xEF a = true := by rw [within_eq_true]; omega
  have h4 : within 0xF0 0xF4 a = true := within_eq_true.mpr ⟨hlo, hhi⟩
  rw [width, if_neg h1, if_neg h2, if_neg h3, if_pos h4]

/-- The byte that holds the low six bits of `n`. -/
theorem toNat_tail (n : Nat) : (UInt8.ofNat (0x80 + n % 64)).toNat = 0x80 + n % 64 := by
  rw [UInt8.toNat_ofNat']
  omega

theorem isTail_tail (n : Nat) : isTail (UInt8.ofNat (0x80 + n % 64)) = true := by
  rw [isTail, within_eq_true, toNat_tail]
  omega

theorem tailBits_tail (n : Nat) : tailBits (UInt8.ofNat (0x80 + n % 64)) = n % 64 := by
  rw [tailBits, toNat_tail]
  omega

/-- After the four first bytes that allow only some tail bytes, one has to be among those. -/
theorem isSecond_of {a b : UInt8} (hb : isTail b = true)
    (hE0 : a.toNat = 0xE0 → 0xA0 ≤ b.toNat) (hED : a.toNat = 0xED → b.toNat ≤ 0x9F)
    (hF0 : a.toNat = 0xF0 → 0x90 ≤ b.toNat) (hF4 : a.toNat = 0xF4 → b.toNat ≤ 0x8F) :
    isSecond a b = true := by
  obtain ⟨hlo, hhi⟩ := within_eq_true.mp hb
  unfold isSecond
  split
  · next ha => exact within_eq_true.mpr ⟨hE0 (congrArg UInt8.toNat ha), hhi⟩
  split
  · next ha => exact within_eq_true.mpr ⟨hlo, hED (congrArg UInt8.toNat ha)⟩
  split
  · next ha => exact within_eq_true.mpr ⟨hF0 (congrArg UInt8.toNat ha), hhi⟩
  split
  · next ha => exact within_eq_true.mpr ⟨hlo, hF4 (congrArg UInt8.toNat ha)⟩
  · exact hb

/-! ## One character -/

/-- A character is no surrogate. -/
theorem toNat_range (c : Char) : c.toNat < 0xD800 ∨ 0xDFFF < c.toNat ∧ c.toNat < 0x110000 :=
  c.valid

/-- The bytes of a character are read as that character, whatever follows them. -/
theorem head_encodeChar (c : Char) :
    ∃ a r, encodeChar c = a :: r ∧ ∀ rest, head a (r ++ rest) = .char c rest := by
  have hrange := toNat_range c
  have hc : Char.ofNat c.toNat = c := Char.ofNat_toNat c
  unfold encodeChar
  generalize c.toNat = n at hrange hc ⊢
  simp only
  split
  · have ha : (UInt8.ofNat n).toNat = n := by rw [UInt8.toNat_ofNat']; omega
    refine ⟨_, _, rfl, fun rest => ?_⟩
    have hw : width (UInt8.ofNat n) = 1 := width_one (by omega)
    simp only [head, hw, ha, hc, List.nil_append]
  split
  · have ha : (UInt8.ofNat (0xC0 + n / 64)).toNat = 0xC0 + n / 64 := by
      rw [UInt8.toNat_ofNat']; omega
    refine ⟨_, _, rfl, fun rest => ?_⟩
    have hw : width (UInt8.ofNat (0xC0 + n / 64)) = 2 := width_two (by omega) (by omega)
    have hn : (0xC0 + n / 64 - 0xC0) * 64 + n % 64 = n := by omega
    simp only [head, hw, ha, List.cons_append, List.nil_append, isTail_tail, if_true,
      tailBits_tail, hn, hc]
  split
  · have ha : (UInt8.ofNat (0xE0 + n / 4096)).toNat = 0xE0 + n / 4096 := by
      rw [UInt8.toNat_ofNat']; omega
    refine ⟨_, _, rfl, fun rest => ?_⟩
    have hw : width (UInt8.ofNat (0xE0 + n / 4096)) = 3 := width_three (by omega) (by omega)
    have hs : isSecond (UInt8.ofNat (0xE0 + n / 4096)) (UInt8.ofNat (0x80 + n / 64 % 64)) =
        true := by
      apply isSecond_of (isTail_tail _) <;> rw [ha, toNat_tail] <;> omega
    have hn : ((0xE0 + n / 4096 - 0xE0) * 64 + n / 64 % 64) * 64 + n % 64 = n := by omega
    simp only [head, hw, ha, List.cons_append, List.nil_append, hs, isTail_tail, if_true,
      tailBits_tail, hn, hc]
  · have ha : (UInt8.ofNat (0xF0 + n / 262144)).toNat = 0xF0 + n / 262144 := by
      rw [UInt8.toNat_ofNat']; omega
    refine ⟨_, _, rfl, fun rest => ?_⟩
    have hw : width (UInt8.ofNat (0xF0 + n / 262144)) = 4 := width_four (by omega) (by omega)
    have hs : isSecond (UInt8.ofNat (0xF0 + n / 262144)) (UInt8.ofNat (0x80 + n / 4096 % 64)) =
        true := by
      apply isSecond_of (isTail_tail _) <;> rw [ha, toNat_tail] <;> omega
    have hn : (((0xF0 + n / 262144 - 0xF0) * 64 + n / 4096 % 64) * 64 + n / 64 % 64) * 64 + n % 64 =
        n := by omega
    simp only [head, hw, ha, List.cons_append, List.nil_append, hs, isTail_tail, if_true,
      tailBits_tail, hn, hc]

/-- A character at the head of a sequence does not depend on how that goes on. -/
theorem head_append {a : UInt8} {r rest : Bytes} {c : Char} (h : head a r = .char c rest)
    (more : Bytes) : head a (r ++ more) = .char c (rest ++ more) := by
  unfold head at h ⊢
  split at h
  · cases h
    rfl
  -- of a longer character all tail bytes are there, and their tests come out as before
  all_goals grind

/-! ## Texts -/

theorem decodeFrom_flatMap (i : Nat) (l : List Char) :
    decodeFrom i (l.flatMap encodeChar) = .ok l := by
  induction l generalizing i with
  | nil => simp [decodeFrom]
  | cons c l ih =>
      obtain ⟨a, r, hc, hh⟩ := head_encodeChar c
      rw [List.flatMap_cons, hc, List.cons_append, decodeFrom]
      split
      · next heq =>
          cases (hh _).symm.trans heq
          rw [ih]
          rfl
      · next heq => cases (hh _).symm.trans heq
      · next heq => cases (hh _).symm.trans heq

/-- A text is read back from its bytes. -/
@[simp]
theorem decode_encode (s : String) : decode (encode s) = .ok s := by
  rw [decode, encode, decodeFrom_flatMap]
  exact congrArg Except.ok String.ofList_toList

end Shardway.Text.Utf8
