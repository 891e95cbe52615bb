import Shardway.Text.Digits
import Shardway.Text.Unicode
import Mathlib.Data.List.Basic
import Mathlib.Data.List.Induction

/-!
# Numerals

A number is read just from its numerals: from a run of digits that denotes it, perhaps with zeros in
front, and with a plus sign before it where one is allowed. One of the numerals is the one that is
printed.
-/

namespace Shardway.Text

/-- A run of digits denotes a number. -/
inductive Denotes : List Char → Nat → Prop
  | digit {d : Nat} : d < 10 → Denotes [d.digitChar] d
  | snoc {ds : List Char} {n d : Nat} :
      Denotes ds n → d < 10 → Denotes (ds ++ [d.digitChar]) (n * 10 + d)

/-- A numeral of a number: its digits, and a plus sign before them or none. -/
inductive Numeral : List Char → Nat → Prop
  | plain {ds : List Char} {n : Nat} : Denotes ds n → Numeral ds n
  | plus {ds : List Char} {n : Nat} : Denotes ds n → Numeral ('+' :: ds) n

/-- The numeral has no sign, and no zero in front that it could do without. -/
def IsPlain (p : List Char) : Prop := p.head? ≠ some '+' ∧ (p = ['0'] ∨ p.head? ≠ some '0')

instance (p : List Char) : Decidable (IsPlain p) := inferInstanceAs (Decidable (_ ∧ _))

variable {ds p : List Char} {c : Char} {n m d bound : Nat}

/-! ## Digits -/

theorem isDigit_iff : isDigit c = true ↔ 48 ≤ c.toNat ∧ c.toNat ≤ 57 := by
  simp only [isDigit, Bool.and_eq_true, decide_eq_true_eq]
  rfl

theorem isDigit_digitChar (h : d < 10) : isDigit d.digitChar = true := by
  rw [isDigit_iff, Nat.toNat_digitChar_of_lt_ten h]
  omega

theorem digitValue_digitChar (h : d < 10) : digitValue d.digitChar = d := by
  rw [digitValue, Nat.toNat_digitChar_of_lt_ten h]
  exact Nat.add_sub_cancel_left 48 d

theorem exists_eq_digitChar (h : isDigit c = true) : ∃ d < 10, c = d.digitChar := by
  obtain ⟨hlo, hhi⟩ := isDigit_iff.mp h
  refine ⟨c.toNat - 48, by omega, Char.toNat_inj.mp ?_⟩
  rw [Nat.toNat_digitChar_of_lt_ten (by omega)]
  omega

theorem isBlank_of_isDigit (h : isDigit c = true) : isBlank c = false := by
  obtain ⟨hlo, hhi⟩ := isDigit_iff.mp h
  simp only [isBlank]
  grind

theorem digitsValue_concat : digitsValue (ds ++ [c]) = digitsValue ds * 10 + digitValue c := by
  simp [digitsValue]

/-! ## Reading -/

theorem denotes_iff :
    Denotes ds n ↔ ds ≠ [] ∧ (∀ c ∈ ds, isDigit c = true) ∧ digitsValue ds = n := by
  constructor
  · intro h
    induction h with
    | digit hd => simpa [isDigit_digitChar hd, digitsValue] using digitValue_digitChar hd
    | snoc _ hd ih =>
        obtain ⟨-, ha, hv⟩ := ih
        refine ⟨by simp, ?_, ?_⟩
        · simpa [or_imp, forall_and, isDigit_digitChar hd] using ha
        · rw [digitsValue_concat, hv, digitValue_digitChar hd]
  · rintro ⟨hne, ha, rfl⟩
    induction ds using List.reverseRecOn with
    | nil => exact absurd rfl hne
    | append_singleton ds c ih =>
        obtain ⟨d, hd, rfl⟩ := exists_eq_digitChar (ha c (by simp))
        rw [digitsValue_concat, digitValue_digitChar hd]
        by_cases hn : ds = []
        · subst hn
          simpa [digitsValue] using Denotes.digit hd
        · exact .snoc (ih hn fun x hx => ha x (by simp [hx])) hd

theorem readDigits?_eq_some : readDigits? ds = some n ↔ Denotes ds n := by
  rw [denotes_iff, readDigits?]
  split
  · rename_i h
    obtain ⟨hne, ha⟩ := h
    simp only [Option.some.injEq]
    exact ⟨fun hv => ⟨hne, List.all_eq_true.mp ha, hv⟩, fun h => h.2.2⟩
  · rename_i h
    simp only [reduceCtorEq, false_iff]
    exact fun hd => h ⟨hd.1, List.all_eq_true.mpr hd.2.1⟩

theorem Denotes.ne_nil (h : Denotes ds n) : ds ≠ [] := (denotes_iff.mp h).1

theorem Denotes.isDigit (h : Denotes ds n) (hc : c ∈ ds) : isDigit c = true :=
  (denotes_iff.mp h).2.1 c hc

theorem Denotes.eq (h : Denotes ds n) (h' : Denotes ds m) : n = m :=
  (denotes_iff.mp h).2.2.symm.trans (denotes_iff.mp h').2.2

/-- No digits begin with a sign. -/
theorem Denotes.head?_ne (h : Denotes ds n) : ds.head? ≠ some '+' := fun hs =>
  absurd (h.isDigit (List.mem_of_mem_head? hs)) (by decide)

theorem readNat?_eq_some : readNat? bound p = some n ↔ Numeral p n ∧ n < bound := by
  have hf (ds : List Char) :
      (readDigits? ds).filter (· < bound) = some n ↔ Denotes ds n ∧ n < bound := by
    rw [Option.filter_eq_some_iff, readDigits?_eq_some, decide_eq_true_eq]
  unfold readNat?
  dsimp only
  split
  · rename_i ds
    rw [hf]
    refine and_congr_left fun _ => ⟨.plus, fun h => ?_⟩
    cases h with
    | plain h => exact absurd rfl h.head?_ne
    | plus h => exact h
  · rename_i hp
    rw [hf]
    refine and_congr_left fun _ => ⟨.plain, fun h => ?_⟩
    cases h with
    | plain h => exact h
    | plus h => exact absurd rfl (hp _)

theorem Numeral.denotes (h : Numeral p n) (hp : p.head? ≠ some '+') : Denotes p n := by
  cases h with
  | plain h => exact h
  | plus _ => exact absurd rfl hp

/-! ## Printing -/

/-- What is printed for a number denotes it. -/
theorem denotes_toDigits (n : Nat) : Denotes (Nat.toDigits 10 n) n := by
  induction n using Nat.strongRecOn with
  | ind n ih =>
      rw [Nat.toDigits_eq_if (by decide)]
      split
      · exact .digit ‹_›
      · have hd := (ih (n / 10) (by omega)).snoc (Nat.mod_lt n (by decide))
        rwa [Nat.div_add_mod'] at hd

theorem denotes_zeros (k : Nat) : Denotes (List.replicate (k + 1) '0') 0 := by
  induction k with
  | zero => exact .digit (Nat.zero_lt_succ 9)
  | succ k ih =>
      rw [List.replicate_succ']
      exact ih.snoc (Nat.zero_lt_succ 9)

/-- Zeros in front change nothing. -/
theorem Denotes.zeros (h : Denotes ds n) (k : Nat) : Denotes (List.replicate k '0' ++ ds) n := by
  induction h with
  | @digit d hd =>
      cases k with
      | zero => exact .digit hd
      | succ k => simpa using (denotes_zeros k).snoc hd
  | snoc _ hd ih =>
      rw [← List.append_assoc]
      exact ih.snoc hd

theorem Denotes.head?_zero (h : Denotes ds n) (hn : n = 0) : ds.head? = some '0' := by
  induction h with
  | digit hd =>
      subst hn
      rfl
  | snoc h _ ih =>
      rw [List.head?_append_of_ne_nil _ h.ne_nil]
      exact ih (by omega)

/-- Of the runs of digits that denote a number, the one that is printed has no zero in front that it
could do without. -/
theorem Denotes.eq_toDigits_iff (h : Denotes ds n) :
    ds = Nat.toDigits 10 n ↔ ds = ['0'] ∨ ds.head? ≠ some '0' := by
  induction h with
  | @digit d hd =>
      refine iff_of_true (Nat.toDigits_of_lt_base hd).symm ?_
      by_cases hz : d.digitChar = '0'
      · exact .inl (by rw [hz])
      · exact .inr (by simpa using hz)
  | @snoc ds n d h hd ih =>
      have hne : ds ++ [d.digitChar] ≠ ['0'] := by simp [List.append_eq_singleton_iff, h.ne_nil]
      rw [or_iff_right hne, List.head?_append_of_ne_nil _ h.ne_nil]
      by_cases hn : n = 0
      · -- A zero stands in front.
        subst hn
        refine iff_of_false (fun he => ?_) fun hz => hz (h.head?_zero rfl)
        rw [Nat.zero_mul, Nat.zero_add, Nat.toDigits_of_lt_base hd] at he
        simp [h.ne_nil] at he
      · have hz : ds ≠ ['0'] := by
          rintro rfl
          exact hn (h.eq (denotes_zeros 0))
        rw [Nat.mul_comm, ← Nat.toDigits_append_toDigits (by decide) (Nat.pos_of_ne_zero hn) hd,
          Nat.toDigits_of_lt_base hd, List.append_left_inj, ih, or_iff_right hz]

theorem Numeral.eq_toDigits_iff (h : Numeral p n) : p = Nat.toDigits 10 n ↔ IsPlain p := by
  cases h with
  | plain h =>
      rw [h.eq_toDigits_iff, IsPlain]
      exact (and_iff_right h.head?_ne).symm
  | plus h =>
      refine iff_of_false (fun he => ?_) fun hp => hp.1 rfl
      exact (denotes_toDigits n).head?_ne (he ▸ rfl)

end Shardway.Text
