import Shardway.Fault
import Shardway.Proofs.Text.Blanks
import Shardway.Proofs.Text.Numerals
import Mathlib.Algebra.Group.Nat.Defs

/-!
# The short form of spans

A span is read from just those texts that write one: a number of at most 64 bits in digits, with a
unit right behind it, and blanks around the two. It is exact if it has 64 bits of seconds at most.
-/

namespace Shardway.Span

open Text

variable {s : String} {d : Span} {ds rest : List Char} {n : Nat} {u : Unit}

/-! ## Units -/

/-- How many nanoseconds a unit has. -/
def Unit.nanos : Unit → Nat
  | millis => 10 ^ 6
  | seconds => 10 ^ 9
  | minutes => 60 * 10 ^ 9
  | hours => 3600 * 10 ^ 9

/-- Seconds that do not fit 64 bits begin at zero again. -/
theorem Unit.nanos_span (u : Unit) (hn : n < 2 ^ 64) :
    (u.span n).nanos = n * u.nanos % (2 ^ 64 * 10 ^ 9) := by
  have scaled (k : Nat) : n * k % 0x10000000000000000 * 1000000000 =
      n * (k * 10 ^ 9) % (2 ^ 64 * 10 ^ 9) := by
    rw [← Nat.mul_assoc, Nat.mul_mod_mul_right]
    rfl
  cases u with
  | millis | seconds =>
      simp only [span, nanos, ofMillis, ofSeconds]
      omega
  | minutes => exact scaled 60
  | hours => exact scaled 3600

theorem Unit.ofSymbol?_eq_some {t : String} : ofSymbol? t = some u ↔ t = u.symbol := by
  constructor
  · intro h
    unfold ofSymbol? at h
    split at h
    case h_5 => cases h
    all_goals
      cases h
      rfl
  · rintro rfl
    cases u <;> rfl

/-- The digits before a unit end where the unit begins. -/
theorem Unit.exists_symbol_eq (u : Unit) : ∃ c r, u.symbol.toList = c :: r ∧ isDigit c = false := by
  cases u with
  | millis => exact ⟨'m', ['s'], rfl, rfl⟩
  | seconds => exact ⟨'s', [], rfl, rfl⟩
  | minutes => exact ⟨'m', [], rfl, rfl⟩
  | hours => exact ⟨'h', [], rfl, rfl⟩

/-! ## Texts of spans -/

/-- The text writes so many of a unit. -/
inductive Writes : String → Nat → Unit → Prop
  | intro {s : String} {ds : List Char} {n : Nat} {u : Unit} :
      TrimsTo s.toList (ds ++ u.symbol.toList) → Denotes ds n → n < 2 ^ 64 → Writes s n u

theorem takeWhile_symbol (h : ∀ c ∈ ds, isDigit c = true) (u : Unit) :
    (ds ++ u.symbol.toList).takeWhile isDigit = ds := by
  obtain ⟨c, r, hu, hc⟩ := u.exists_symbol_eq
  rw [List.takeWhile_append_of_pos h, hu, List.takeWhile_cons_of_neg (by simp [hc]),
    List.append_nil]

theorem dropWhile_symbol (h : ∀ c ∈ ds, isDigit c = true) (u : Unit) :
    (ds ++ u.symbol.toList).dropWhile isDigit = u.symbol.toList := by
  obtain ⟨c, r, hu, hc⟩ := u.exists_symbol_eq
  rw [List.dropWhile_append_of_pos h, hu, List.dropWhile_cons_of_neg (by simp [hc])]

theorem Writes.parse (h : Writes s n u) : parse s = .ok (u.span n) := by
  obtain ⟨ht, hds, hn⟩ := h
  rename_i ds
  have hdigits : ∀ c ∈ ds, isDigit c = true := fun c hc => hds.isDigit hc
  have htrim : trimChars s.toList = ds ++ u.symbol.toList := trimChars_eq.mpr ht
  have hread : readNat? 0x10000000000000000 ds = some n :=
    readNat?_eq_some.mpr ⟨.plain hds, hn⟩
  have hu : Unit.ofSymbol? u.symbol = some u := Unit.ofSymbol?_eq_some.mpr rfl
  have hne : ds ++ u.symbol.toList ≠ [] := by simp [hds.ne_nil]
  have hsym : u.symbol.isEmpty = false := by cases u <;> rfl
  unfold Span.parse
  simp [htrim, takeWhile_symbol hdigits, dropWhile_symbol hdigits, String.ofList_toList, hne, hsym,
    hread, hu]

theorem writes_of_parse (h : parse s = .ok d) : ∃ n u, Writes s n u ∧ d = u.span n := by
  unfold parse at h
  dsimp only at h
  split at h
  · cases h
  split at h
  · cases h
  split at h
  · cases h
  rename_i n hread
  split at h
  · cases h
  rename_i u hu
  cases h
  obtain ⟨hnum, hn⟩ := readNat?_eq_some.mp hread
  -- A plus sign is no digit, so none stands in front of the number.
  have hds : Denotes ((trimChars s.toList).takeWhile isDigit) n := hnum.denotes fun hp =>
    absurd (List.mem_takeWhile_imp (List.mem_of_mem_head? hp)) (by decide)
  refine ⟨n, u, .intro ?_ hds hn, rfl⟩
  rw [← Unit.ofSymbol?_eq_some.mp hu, String.toList_ofList, List.takeWhile_append_dropWhile]
  exact trimsTo_trimChars _

/-- No blanks stand around a number and a unit of their own. -/
theorem isTrim_symbol (hds : Denotes ds n) (u : Unit) : IsTrim (ds ++ u.symbol.toList) where
  first := fun c hc => by
    rw [List.head?_append_of_ne_nil _ hds.ne_nil] at hc
    exact isBlank_of_isDigit (hds.isDigit (List.mem_of_mem_head? hc))
  last := fun c hc => by
    rw [List.getLast?_append_of_ne_nil _ (by cases u <;> simp [Unit.symbol])] at hc
    cases u <;> cases hc <;> rfl

theorem Writes.nanos (h : Writes s n u) : (u.span n).nanos = n * u.nanos % (2 ^ 64 * 10 ^ 9) := by
  obtain ⟨-, -, hn⟩ := h
  exact u.nanos_span hn

theorem writes_decimal (k : Nat) (u : Unit) (hn : n < 2 ^ 64) :
    Writes (String.ofList (List.replicate k '0') ++ toString n ++ u.symbol) n u := by
  have hds := (denotes_toDigits n).zeros k
  refine .intro ?_ hds hn
  have hs : (String.ofList (List.replicate k '0') ++ toString n ++ u.symbol).toList =
      (List.replicate k '0' ++ Nat.toDigits 10 n) ++ u.symbol.toList := by
    rw [String.toList_append, String.toList_append, String.toList_ofList, Nat.toString_eq_repr,
      Nat.toList_repr]
  rw [hs]
  exact (isTrim_symbol hds u).trimsTo

/-- A text is read as a span just if it writes one: if, without the blanks around it, it is a number
of at most 64 bits in digits, with a unit right behind it. Any other text is a fault of the
configuration. The span is so many of the unit, exactly if its seconds have at most 64 bits; what
goes beyond them is lost. A number in decimal, with any zeros in front, and a unit are always read
back. -/
theorem parse_iff_writes :
    (∀ s d, parse s = .ok d ↔
      ∃ n u, Writes s n u ∧ d.nanos = n * u.nanos % (2 ^ 64 * 10 ^ 9)) ∧
      (∀ s n u, Writes s n u → n * u.nanos < 2 ^ 64 * 10 ^ 9 → parse s = .ok ⟨n * u.nanos⟩) ∧
      (∀ s, (∃ f text, parse s = .error f ∧ f.fault = .invalidConfig text) ↔
        ∀ n u, ¬Writes s n u) ∧
      ∀ (n k : Nat) (u : Unit), n < 2 ^ 64 →
        let s := String.ofList (List.replicate k '0') ++ toString n ++ u.symbol
        parse s = .ok (u.span n) ∧
          (n * u.nanos < 2 ^ 64 * 10 ^ 9 → parse s = .ok ⟨n * u.nanos⟩) := by
  have exactly {s n u} (hw : Writes s n u) (hf : n * u.nanos < 2 ^ 64 * 10 ^ 9) :
      parse s = .ok ⟨n * u.nanos⟩ := by
    rw [hw.parse, Except.ok.injEq, Span.mk.injEq, hw.nanos, Nat.mod_eq_of_lt hf]
  refine ⟨fun s d => ⟨fun h => ?_, ?_⟩, fun s n u => exactly, fun s => ⟨?_, fun h => ?_⟩,
    fun n k u hn => ?_⟩
  · obtain ⟨n, u, hw, rfl⟩ := writes_of_parse h
    exact ⟨n, u, hw, hw.nanos⟩
  · rintro ⟨n, u, hw, hd⟩
    rw [hw.parse, Except.ok.injEq, Span.mk.injEq, hw.nanos, hd]
  · rintro ⟨f, -, he, -⟩ n u hw
    cases he.symm.trans hw.parse
  · cases hp : parse s with
    | error f => exact ⟨f, f.message, rfl, rfl⟩
    | ok d =>
        obtain ⟨n, u, hw, -⟩ := writes_of_parse hp
        exact absurd hw (h n u)
  · have hw := writes_decimal k u hn
    exact ⟨hw.parse, exactly hw⟩

/-- The most milliseconds, with zeros in front and with blanks around; hours whose seconds do not
fit; and a number with a sign. -/
theorem parse_iff_writes_longest :
    parse "0018446744073709551615ms" = .ok (.ofMillis 18446744073709551615) ∧
      parse "\u3000 18446744073709551615ms\n" = .ok (.ofMillis 18446744073709551615) ∧
      parse "5124095576030432h" = .ok (.ofSeconds 3584) ∧ ∀ n u, ¬Writes "+5s" n u := by
  obtain ⟨-, he, hf, hz⟩ := parse_iff_writes
  refine ⟨(hz 18446744073709551615 2 .millis (by decide)).2 (by decide),
    he _ 18446744073709551615 .millis ?_ (by decide),
    (hz 5124095576030432 0 .hours (by decide)).1, (hf _).mp ?_⟩
  · exact @Writes.intro _ "18446744073709551615".toList _ _ (trimChars_eq.mp (by decide +kernel))
      (readDigits?_eq_some.mp rfl) (by decide)
  · exact ⟨.badNumber "+5s", "invalid duration: +5s", by decide +kernel, rfl⟩

end Shardway.Span
