import Shardway.Node
import Shardway.Proofs.Text.Numerals

/-!
# Addresses and their texts

An address with a host is read back from its text. It is read from other texts too, but just from
those that differ from its own in how the port is written.
-/

namespace Shardway.Address

open Text

/-- The text is the host of the address and `p`, a numeral of its port, with a colon in between. -/
structure Spells (s : String) (a : Address) (p : String) : Prop where
  host : a.host ≠ ""
  port : Numeral p.toList a.port.toNat
  eq : s = a.host ++ ":" ++ p

variable {a b : Address} {s p : String} {c : Char} {l before after : List Char}

/-! ## Colons -/

theorem splitLast_eq_none : splitLast c l = none ↔ c ∉ l := by
  induction l with
  | nil => simp [splitLast]
  | cons x l ih =>
      unfold splitLast
      split
      · rename_i hs
        have hm : c ∈ l := by
          by_contra hm
          rw [ih.mpr hm] at hs
          cases hs
        simp [hm]
      · rename_i hs
        have hm := ih.mp hs
        split
        · rename_i hx
          simp [hx]
        · rename_i hx
          simp [hm, Ne.symm hx]

theorem splitLast_append (h : c ∉ after) :
    splitLast c (before ++ c :: after) = some (before, after) := by
  induction before with
  | nil => simp [splitLast, splitLast_eq_none.mpr h]
  | cons x before ih => rw [List.cons_append, splitLast, ih]

theorem splitLast_eq_some (h : splitLast c l = some (before, after)) :
    l = before ++ c :: after ∧ c ∉ after := by
  induction l generalizing before with
  | nil => cases h
  | cons x l ih =>
      unfold splitLast at h
      split at h
      · rename_i hs
        cases h
        obtain ⟨rfl, hc⟩ := ih hs
        exact ⟨rfl, hc⟩
      · rename_i hs
        split at h
        · rename_i hx
          cases h
          exact ⟨by rw [hx, List.nil_append], splitLast_eq_none.mp hs⟩
        · cases h

/-- Texts that are equal are so up to their first colons. -/
theorem eq_of_append_colon {l' r r' : List Char} (hl : ':' ∉ l) (hl' : ':' ∉ l')
    (h : l ++ ':' :: r = l' ++ ':' :: r') : l = l' := by
  have ht {l r : List Char} (hl : ':' ∉ l) : (l ++ ':' :: r).takeWhile (· ≠ ':') = l := by
    rw [List.takeWhile_append_of_pos fun c hm => by simpa using fun he : c = ':' => hl (he ▸ hm)]
    simp
  rw [← @ht l r hl, h, ht hl']

/-- A numeral has no colon in it. -/
theorem colon_notMem {ds : List Char} {n : Nat} (h : Numeral ds n) : ':' ∉ ds := by
  cases h with
  | plain h => exact fun hm => absurd (h.isDigit hm) (by decide)
  | plus h =>
      intro hm
      rcases List.mem_cons.mp hm with he | hm
      · cases he
      · exact absurd (h.isDigit hm) (by decide)

/-! ## Reading and printing -/

theorem toList_text (a : Address) :
    a.text.toList = a.host.toList ++ ':' :: Nat.toDigits 10 a.port.toNat := by
  have ht : a.text = a.host ++ ":" ++ a.port.toNat.repr := rfl
  simp [ht, Nat.toList_repr]

/-- No two addresses have the same text, not even without a host. -/
theorem text_inj (h : a.text = b.text) : a = b := by
  have hs (x : Address) :
      splitLast ':' x.text.toList = some (x.host.toList, Nat.toDigits 10 x.port.toNat) := by
    rw [toList_text]
    exact splitLast_append (colon_notMem (.plain (denotes_toDigits _)))
  have he := (hs a).symm.trans (h ▸ hs b)
  simp only [Option.some.injEq, Prod.mk.injEq] at he
  obtain ⟨hh, hp⟩ := he
  have hn := (denotes_toDigits a.port.toNat).eq (hp ▸ denotes_toDigits b.port.toNat)
  cases a
  cases b
  simp only [Address.mk.injEq]
  exact ⟨String.toList_inj.mp hh, UInt16.toNat_inj.mp hn⟩

theorem Spells.parse (h : Spells s a p) : parse s = .ok a := by
  have hs : splitLast ':' s.toList = some (a.host.toList, p.toList) := by
    have hl : s.toList = a.host.toList ++ ':' :: p.toList := by simp [h.eq]
    rw [hl]
    exact splitLast_append (colon_notMem h.port)
  have hp : readNat? 0x10000 p.toList = some a.port.toNat :=
    readNat?_eq_some.mpr ⟨h.port, a.port.toNat_lt⟩
  unfold Address.parse
  simp [hs, hp, h.host, String.ofList_toList]

theorem exists_spells (h : parse s = .ok a) : ∃ p, Spells s a p := by
  unfold Address.parse at h
  split at h
  · cases h
  rename_i host port hs
  split at h
  · cases h
  rename_i n hp
  split at h
  · cases h
  rename_i hh
  cases h
  obtain ⟨hn, hlt⟩ := readNat?_eq_some.mp hp
  have ht : n.toUInt16.toNat = n := UInt16.toNat_ofNat_of_lt' hlt
  refine ⟨String.ofList port, ?_, ?_, String.toList_inj.mp ?_⟩
  · simpa using hh
  · simpa [ht] using hn
  · simpa using (splitLast_eq_some hs).1

theorem spells_text (h : a.host ≠ "") : Spells a.text a (toString a.port) :=
  ⟨h, by
    change Numeral a.port.toNat.repr.toList a.port.toNat
    rw [Nat.toList_repr]
    exact .plain (denotes_toDigits _), rfl⟩

theorem Spells.text_eq_iff (h : Spells s a p) : a.text = s ↔ IsPlain p.toList := by
  rw [← h.port.eq_toDigits_iff, ← String.toList_inj, toList_text, h.eq]
  simp [eq_comm]

/-- Every address with a host is read back from its text, and different addresses have different
texts. A text is read as an address just if it is the host, which is not empty, a colon, and a
numeral of the port: digits, perhaps with zeros or a plus sign in front. It is the address's own
text just if nothing stands in front. -/
theorem parse_iff_spells :
    (∀ a : Address, a.host ≠ "" → parse a.text = .ok a) ∧
      (∀ a b : Address, a.text = b.text → a = b) ∧
      (∀ s a, parse s = .ok a ↔ ∃ p, Spells s a p) ∧
      ∀ s a p, Spells s a p → (a.text = s ↔ IsPlain p.toList) := by
  refine ⟨fun a h => (spells_text h).parse, fun a b => text_inj, fun s a => ⟨exists_spells, ?_⟩,
    fun s a p h => h.text_eq_iff⟩
  rintro ⟨p, h⟩
  exact h.parse

theorem parse_iff_spells_colons :
    (parse (text ⟨"::1", 6301⟩) = .ok ⟨"::1", 6301⟩) ∧
      (parse "::1:+006301" = .ok ⟨"::1", 6301⟩) ∧
      (⟨"::1", 6301⟩ : Address).text ≠ "::1:+006301" := by
  have h : Spells "::1:+006301" ⟨"::1", 6301⟩ "+006301" :=
    ⟨by decide, .plus (readDigits?_eq_some.mp rfl), by decide⟩
  refine ⟨parse_iff_spells.1 _ (by decide), (parse_iff_spells.2.2.1 _ _).mpr ⟨_, h⟩, fun he => ?_⟩
  exact absurd ((parse_iff_spells.2.2.2 _ _ _ h).mp he) (by decide)

end Shardway.Address
