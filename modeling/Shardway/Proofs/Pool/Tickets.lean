import Shardway.Pool.Move

/-!
# Operations under tickets

What the lists of waiting operations hold after one is added, changed or taken out.
-/

namespace Shardway.Pool

variable {α : Type} {t : Ticket} {a : α} {l : List (Ticket × α)}

/-- No two operations in the list have the same ticket. -/
def Distinct (l : List (Ticket × α)) : Prop := (l.map (·.1)).Nodup

theorem mem_of_find? (h : find? t l = some a) : (t, a) ∈ l := by
  unfold find? at h
  obtain ⟨⟨u, b⟩, hf, rfl⟩ := Option.map_eq_some_iff.mp h
  have hu : u = t := by simpa using List.find?_some hf
  exact hu ▸ List.mem_of_find?_eq_some hf

theorem fst_ne_of_find?_eq_none (h : find? t l = none) : ∀ x ∈ l, x.1 ≠ t := by
  unfold find? at h
  simpa using h

theorem without_of_find?_eq_none (h : find? t l = none) : without t l = l :=
  List.filter_eq_self.mpr fun x hx => by simpa using fst_ne_of_find?_eq_none h x hx

@[simp] theorem find?_without : find? t (without t l) = none := by
  simp [find?, without]

theorem find?_without_of_ne {u : Ticket} (h : u ≠ t) : find? u (without t l) = find? u l := by
  unfold find? without
  rw [List.find?_filter]
  congr 2
  funext x
  by_cases hx : x.1 = u <;> simp [hx, h]

theorem find?_putAt_of_ne {u : Ticket} (h : u ≠ t) : find? u (putAt t a l) = find? u l := by
  have : find? u (putAt t a l) = find? u (without t l) := by
    simp [find?, putAt, List.find?_append, h.symm]
  rw [this, find?_without_of_ne h]

theorem find?_append_cons {u : Ticket} {l₁ l₂ : List (Ticket × α)} :
    find? u (l₁ ++ (t, a) :: l₂) = (find? u l₁).or (if t = u then some a else find? u l₂) := by
  by_cases hu : t = u <;> cases h : l₁.find? (·.1 = u) <;>
    simp [find?, List.find?_append, h, hu]

theorem find?_putAt : find? t (putAt t a l) = some a := by
  have hn : find? t (without t l) = none := find?_without
  simp [putAt, find?_append_cons, hn]

theorem without_without : without t (without t l) = without t l := by
  simp [without, List.filter_filter]

theorem without_putAt : without t (putAt t a l) = without t l := by
  simp [putAt, without, List.filter_append, List.filter_filter]

/-- With distinct tickets, an operation is the only one that goes when its ticket does. -/
theorem perm_without (hl : Distinct l) (h : find? t l = some a) :
    l.Perm ((t, a) :: without t l) := by
  induction l with
  | nil => simp [find?] at h
  | cons x r ih =>
      obtain ⟨u, b⟩ := x
      obtain ⟨hu, hr⟩ := List.nodup_cons.mp hl
      by_cases htu : u = t
      · subst htu
        have hb : b = a := by simpa [find?] using h
        have hn : find? u r = none := by
          simp only [find?, Option.map_eq_none_iff, List.find?_eq_none]
          intro y hy hyu
          exact hu (List.mem_map.mpr ⟨y, hy, by simpa using hyu⟩)
        have hw : without u ((u, b) :: r) = r := by
          simpa [without] using without_of_find?_eq_none hn
        rw [hb] at hw ⊢
        rw [hw]
      · have hw : without t ((u, b) :: r) = (u, b) :: without t r := by simp [without, htu]
        rw [hw]
        exact ((ih hr (by simpa [find?, htu] using h)).cons _).trans (List.Perm.swap ..)

theorem Distinct.without (hl : Distinct l) : Distinct (without t l) :=
  (List.filter_sublist.map _).nodup hl

theorem Distinct.putAt (hl : Distinct l) : Distinct (putAt t a l) := by
  unfold Distinct Pool.putAt
  rw [List.map_append, List.nodup_append]
  refine ⟨hl.without, by simp, ?_⟩
  rintro u hu v hv rfl
  obtain ⟨x, hx, rfl⟩ := List.mem_map.mp hu
  have hv : x.1 = t := by simpa using hv
  exact absurd hv (by simpa using (List.mem_filter.mp hx).2)

theorem mem_putAt {x : Ticket × α} (h : x ∈ putAt t a l) : x = (t, a) ∨ x ∈ l := by
  rcases List.mem_append.mp h with h | h
  · exact .inr (List.mem_filter.mp h).1
  · exact .inl (by simpa using h)

/-- The permit goes to one borrower in the queue, and all else stays. -/
theorem grant?_eq_some {l l' : List (Ticket × BorrowStage)} (h : grant? l = some (t, l')) :
    ∃ l₁ l₂, l = l₁ ++ (t, .queued) :: l₂ ∧ l' = l₁ ++ (t, .granted) :: l₂ := by
  induction l generalizing l' with
  | nil => simp [grant?] at h
  | cons x r ih =>
      obtain ⟨u, s⟩ := x
      unfold grant? at h
      split at h
      · cases h
      · rename_i heq
        cases heq
        cases h
        exact ⟨[], _, rfl, rfl⟩
      · rename_i heq
        cases heq
        obtain ⟨⟨v, r'⟩, hr, hv⟩ := Option.map_eq_some_iff.mp h
        cases hv
        obtain ⟨l₁, l₂, rfl, rfl⟩ := ih hr
        exact ⟨_ :: l₁, l₂, rfl, rfl⟩

end Shardway.Pool
