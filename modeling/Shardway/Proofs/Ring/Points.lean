import Shardway.Ring
import Mathlib.Data.List.Perm.Basic

/-!
# The points of a ring

A ring is determined by who owns which point. So it does not matter in which order points come to
it, and a ring of groups depends on nothing but which groups they are.
-/

namespace Shardway.Ring

/-- The owner of a point, if the point is there. -/
def ownerAt? (p : UInt64) (ps : List (UInt64 × GroupId)) : Option GroupId :=
  (ps.find? (·.1 = p)).map (·.2)

variable {p q : UInt64} {g o : GroupId} {ps qs : List (UInt64 × GroupId)} {r : Ring}
  {hash : Bytes → UInt64} {n : Nat} {ids ids' : List GroupId}

/-! ## Owners of points -/

@[simp] theorem ownerAt?_nil : ownerAt? p [] = none := rfl

theorem ownerAt?_cons : ownerAt? p ((q, o) :: ps) = if q = p then some o else ownerAt? p ps := by
  unfold ownerAt?
  by_cases h : q = p <;> simp [h]

theorem ownerAt?_eq_none (h : ∀ x ∈ ps, p < x.1) : ownerAt? p ps = none := by
  have hn : ps.find? (·.1 = p) = none :=
    List.find?_eq_none.mpr fun x hx he => UInt64.lt_irrefl p (of_decide_eq_true he ▸ h x hx)
  rw [ownerAt?, hn, Option.map_none]

/-- No two groups own one point. -/
theorem mem_iff_ownerAt? (h : ps.Pairwise Before) : (p, g) ∈ ps ↔ ownerAt? p ps = some g := by
  induction ps with
  | nil => simp
  | cons x ps ih =>
      obtain ⟨q, o⟩ := x
      obtain ⟨hq, hps⟩ := List.pairwise_cons.mp h
      rw [ownerAt?_cons, List.mem_cons, ih hps]
      split
      · rename_i he
        subst he
        have hn : ownerAt? q ps = none := ownerAt?_eq_none hq
        simp [hn, eq_comm]
      · rename_i hne
        simp [Ne.symm hne]

theorem eq_of_ownerAt? (h : ps.Pairwise Before) (h' : qs.Pairwise Before)
    (ho : ∀ p, ownerAt? p ps = ownerAt? p qs) : ps = qs := by
  have hn {l : List (UInt64 × GroupId)} (hl : l.Pairwise Before) : l.Nodup := by
    refine hl.imp ?_
    rintro a _ hlt rfl
    exact UInt64.lt_irrefl a.1 hlt
  have hm (x : UInt64 × GroupId) : x ∈ ps ↔ x ∈ qs := by
    rw [mem_iff_ownerAt? h, mem_iff_ownerAt? h', ho]
  have hp : ps.Perm qs := (List.perm_ext_iff_of_nodup (hn h) (hn h')).mpr hm
  refine hp.eq_of_pairwise (fun a b _ _ hab hba => ?_) h h'
  exact absurd (UInt64.lt_trans hab hba) (UInt64.lt_irrefl a.1)

/-- A new point has its group as owner, and one that was there has the lower of two. -/
theorem ownerAt?_insertPoint (h : ps.Pairwise Before) :
    ownerAt? q (insertPoint p g ps) =
      if p = q then some ((ownerAt? p ps).elim g (min · g)) else ownerAt? q ps := by
  induction ps with
  | nil => simp [insertPoint, ownerAt?_cons]
  | cons x ps ih =>
      obtain ⟨s, o⟩ := x
      obtain ⟨hs, hps⟩ := List.pairwise_cons.mp h
      unfold insertPoint
      split
      · rename_i hlt
        have hn : ownerAt? p ((s, o) :: ps) = none := by
          refine ownerAt?_eq_none fun x hx => ?_
          rcases List.mem_cons.mp hx with rfl | hx
          · exact hlt
          · exact UInt64.lt_trans hlt (hs x hx)
        rw [ownerAt?_cons, hn, Option.elim_none]
      · split
        · rename_i he
          subst he
          by_cases hq : p = q <;> simp [ownerAt?_cons, hq]
        · rename_i hne
          rw [ownerAt?_cons, ih hps, ownerAt?_cons, ownerAt?_cons, if_neg (Ne.symm hne)]
          by_cases hq : s = q
          · subst hq
            simp [hne]
          · simp [hq]

/-! ## Many points at once -/

theorem eq_of_points {r' : Ring} (hv : r.virtualNodes = r'.virtualNodes)
    (hp : r.points = r'.points) : r = r' := by
  cases r
  cases r'
  cases hv
  cases hp
  rfl

theorem insert_right_comm (r : Ring) (p q : UInt64) (g o : GroupId) :
    (r.insert p g).insert q o = (r.insert q o).insert p g := by
  refine eq_of_points rfl (eq_of_ownerAt? (Ring.ascending _) (Ring.ascending _) fun s => ?_)
  have hr {p : UInt64} {g : GroupId} := pairwise_insertPoint p g r.ascending
  simp only [insert, ownerAt?_insertPoint r.ascending, ownerAt?_insertPoint hr]
  by_cases hpq : p = q
  · subst hpq
    by_cases hp : p = s
    · cases ownerAt? p r.points with
      | none =>
          have hm : min g o = min o g := by ac_rfl
          simp [hp, hm]
      | some x =>
          have hm : min (min x g) o = min (min x o) g := by ac_rfl
          simp [hp, hm]
    · simp [hp]
  · by_cases hp : p = s
    · subst hp
      simp [Ne.symm hpq]
    · simp [hp, hpq]

/-- The points that a group is to own. -/
def stamps (hash : Bytes → UInt64) (n : Nat) (g : GroupId) : List (UInt64 × GroupId) :=
  (List.range n).map fun i => (hash (label g i), g)

def insertAll (r : Ring) (ps : List (UInt64 × GroupId)) : Ring :=
  ps.foldl (fun r p => r.insert p.1 p.2) r

theorem insertAll_append (r : Ring) (ps qs : List (UInt64 × GroupId)) :
    r.insertAll (ps ++ qs) = (r.insertAll ps).insertAll qs := List.foldl_append

theorem insertAll_virtualNodes (r : Ring) (ps : List (UInt64 × GroupId)) :
    (r.insertAll ps).virtualNodes = r.virtualNodes := by
  induction ps generalizing r with
  | nil => rfl
  | cons p ps ih => exact ih (r.insert p.1 p.2)

theorem insertAll_perm (r : Ring) (h : ps.Perm qs) : r.insertAll ps = r.insertAll qs := by
  have : RightCommutative fun (r : Ring) (p : UInt64 × GroupId) => r.insert p.1 p.2 :=
    ⟨fun r p q => r.insert_right_comm p.1 q.1 p.2 q.2⟩
  exact h.foldl_eq r

theorem add_eq_insertAll (hash : Bytes → UInt64) (r : Ring) (g : GroupId) :
    r.add hash g = r.insertAll (stamps hash r.virtualNodes g) := by
  rw [add, insertAll, stamps, List.foldl_map]

theorem foldl_add_eq_insertAll (hash : Bytes → UInt64) (r : Ring) (ids : List GroupId) :
    ids.foldl (add hash) r = r.insertAll (ids.flatMap (stamps hash r.virtualNodes)) := by
  induction ids generalizing r with
  | nil => rfl
  | cons g ids ih =>
      rw [List.foldl_cons, ih, add_eq_insertAll, insertAll_virtualNodes, List.flatMap_cons,
        insertAll_append]

/-- The order of the groups does not matter. -/
theorem ofGroups_perm (hash : Bytes → UInt64) (n : Nat) (h : ids.Perm ids') :
    ofGroups hash n ids = ofGroups hash n ids' := by
  rw [ofGroups, ofGroups, foldl_add_eq_insertAll, foldl_add_eq_insertAll]
  exact insertAll_perm _ (h.flatMap_right _)

theorem ofGroups_concat (hash : Bytes → UInt64) (n : Nat) (ids : List GroupId) (g : GroupId) :
    ofGroups hash n (ids ++ [g]) = (ofGroups hash n ids).add hash g := by
  rw [ofGroups, List.foldl_append, List.foldl_cons, List.foldl_nil, ← ofGroups]

end Shardway.Ring
