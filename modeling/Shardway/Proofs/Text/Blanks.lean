import Shardway.Text.Unicode
import Mathlib.Data.List.Basic
import Mathlib.Data.List.TakeWhile

/-!
# Texts without the blanks at their ends
-/

namespace Shardway.Text

/-- The text does not begin or end with a blank. -/
structure IsTrim (cs : List Char) : Prop where
  first : ∀ c, cs.head? = some c → isBlank c = false
  last : ∀ c, cs.getLast? = some c → isBlank c = false

/-- The blanks at the ends of `cs` aside, there is just `core`. -/
inductive TrimsTo : List Char → List Char → Prop
  | intro {l core r : List Char} : (∀ c ∈ l, isBlank c = true) → (∀ c ∈ r, isBlank c = true) →
      IsTrim core → TrimsTo (l ++ core ++ r) core

variable {cs core l r : List Char} {c : Char}

theorem head?_dropWhile (h : (cs.dropWhile isBlank).head? = some c) : isBlank c = false := by
  have hd := List.head?_dropWhile_not isBlank cs
  rwa [h] at hd

theorem dropWhile_of_head? (h : ∀ c, cs.head? = some c → isBlank c = false) :
    cs.dropWhile isBlank = cs := by
  cases cs with
  | nil => rfl
  | cons c cs => rw [List.dropWhile_cons_of_neg (by simp [h c rfl])]

theorem trimsTo_trimChars (cs : List Char) : TrimsTo cs (trimChars cs) := by
  let d := cs.dropWhile isBlank
  have hd : d = trimChars cs ++ (d.reverse.takeWhile isBlank).reverse := by
    rw [trimChars, ← List.reverse_append, List.takeWhile_append_dropWhile, List.reverse_reverse]
  have hcs : cs =
      cs.takeWhile isBlank ++ trimChars cs ++ (d.reverse.takeWhile isBlank).reverse := by
    rw [List.append_assoc, ← hd, List.takeWhile_append_dropWhile]
  have ht : IsTrim (trimChars cs) := by
    refine ⟨fun c hc => @head?_dropWhile cs c ?_, fun c hc => ?_⟩
    · change d.head? = some c
      rw [hd, List.head?_append, hc, Option.some_or]
    · rw [trimChars, List.getLast?_reverse] at hc
      exact head?_dropWhile hc
  have hb : TrimsTo (cs.takeWhile isBlank ++ trimChars cs ++ (d.reverse.takeWhile isBlank).reverse)
      (trimChars cs) :=
    .intro (fun _ => List.mem_takeWhile_imp)
      (fun _ hc => List.mem_takeWhile_imp (List.mem_reverse.mp hc)) ht
  rwa [← hcs] at hb

theorem trimChars_of_isTrim (hl : ∀ c ∈ l, isBlank c = true) (hr : ∀ c ∈ r, isBlank c = true)
    (h : IsTrim core) : trimChars (l ++ core ++ r) = core := by
  have hd : (l ++ core ++ r).dropWhile isBlank = (core ++ r).dropWhile isBlank := by
    rw [List.append_assoc, List.dropWhile_append_of_pos hl]
  have hrr : ∀ c ∈ r.reverse, isBlank c = true := fun c hc => hr c (List.mem_reverse.mp hc)
  rw [trimChars, hd]
  by_cases hc : core = []
  · subst hc
    rw [List.nil_append, List.dropWhile_eq_nil_iff.mpr hr]
    rfl
  · have hf : (core ++ r).dropWhile isBlank = core ++ r :=
      dropWhile_of_head? (by rw [List.head?_append_of_ne_nil _ hc]; exact h.first)
    have hg : core.reverse.dropWhile isBlank = core.reverse :=
      dropWhile_of_head? (by rw [List.head?_reverse]; exact h.last)
    rw [hf, List.reverse_append, List.dropWhile_append_of_pos hrr, hg, List.reverse_reverse]

theorem IsTrim.trimsTo (h : IsTrim cs) : TrimsTo cs cs := by
  have ht : TrimsTo ([] ++ cs ++ []) cs := .intro (by simp) (by simp) h
  simpa using ht

theorem trimChars_eq : trimChars cs = core ↔ TrimsTo cs core := by
  constructor
  · rintro rfl
    exact trimsTo_trimChars cs
  · rintro ⟨hl, hr, h⟩
    exact trimChars_of_isTrim hl hr h

end Shardway.Text
