import Shardway.Proofs.Ring.Points
import Shardway.Proofs.Router.Ownership

/-!
# Rings that grow and shrink

When a group is added to a ring, keys move to it or stay where they are. When a group is removed,
its own keys move and no others do. The same holds of indexes that route by a ring.
-/

namespace Shardway.Ring

/-- The owner of the first point that is as wanted. -/
def firstOwner? (f : UInt64 → Bool) (ps : List (UInt64 × GroupId)) : Option GroupId :=
  (ps.find? fun x => f x.1).map (·.2)

variable {p h : UInt64} {g o : GroupId} {ps : List (UInt64 × GroupId)} {r : Ring}
  {f : UInt64 → Bool} {hash : Bytes → UInt64} {key : Bytes}

theorem successor?_eq (r : Ring) (h : UInt64) :
    r.successor? h = (firstOwner? (h ≤ ·) r.points).or (firstOwner? (fun _ => true) r.points) := by
  rw [successor?, Option.map_or, firstOwner?, firstOwner?]
  cases r.points <;> rfl

/-! ## Adding -/

theorem firstOwner?_insertPoint (f : UInt64 → Bool) (p : UInt64) (g : GroupId)
    (ps : List (UInt64 × GroupId)) :
    firstOwner? f (insertPoint p g ps) = firstOwner? f ps ∨
      firstOwner? f (insertPoint p g ps) = some g := by
  unfold firstOwner?
  induction ps with
  | nil => cases hf : f p <;> simp [insertPoint, hf]
  | cons x ps ih =>
      obtain ⟨q, o⟩ := x
      unfold insertPoint
      split
      · cases hf : f p <;> simp [hf]
      · split
        · -- The point stays with its owner, or goes to the new group.
          cases hf : f q with
          | false => simp [hf]
          | true =>
              rcases Std.min_eq_or (a := o) (b := g) with hm | hm
              · simp [hf, hm]
              · simp [hf, hm]
        · cases hf : f q with
          | false => simpa [hf] using ih
          | true => simp [hf]

theorem successor?_insert (r : Ring) (p : UInt64) (g : GroupId) (h : UInt64) :
    (r.insert p g).successor? h = r.successor? h ∨ (r.insert p g).successor? h = some g := by
  rw [successor?_eq, successor?_eq]
  rcases firstOwner?_insertPoint (h ≤ ·) p g r.points with he | he
  · rw [insert, he]
    cases firstOwner? (h ≤ ·) r.points with
    | none => exact firstOwner?_insertPoint (fun _ => true) p g r.points
    | some o => exact .inl rfl
  · rw [insert, he]
    exact .inr rfl

theorem successor?_insertAll (r : Ring) (h : UInt64) (hp : ∀ x ∈ ps, x.2 = g) :
    (r.insertAll ps).successor? h = r.successor? h ∨ (r.insertAll ps).successor? h = some g := by
  induction ps generalizing r with
  | nil => exact .inl rfl
  | cons x ps ih =>
      obtain ⟨hx, hps⟩ := List.forall_mem_cons.mp hp
      rcases ih (r.insert x.1 x.2) hps with he | he
      · rcases r.successor?_insert x.1 x.2 h with he' | he'
        · exact .inl (he.trans he')
        · exact .inr (he.trans (hx ▸ he'))
      · exact .inr he

theorem successor?_add (hash : Bytes → UInt64) (r : Ring) (g : GroupId) (h : UInt64) :
    (r.add hash g).successor? h = r.successor? h ∨ (r.add hash g).successor? h = some g := by
  rw [add_eq_insertAll]
  refine r.successor?_insertAll h fun x hx => ?_
  obtain ⟨i, -, rfl⟩ := List.mem_map.mp hx
  rfl

theorem successor?_of_ownerAt? (ho : ownerAt? h r.points = some o) : r.successor? h = some o := by
  have hf {ps : List (UInt64 × GroupId)} (hps : ps.Pairwise Before)
      (ho : ownerAt? h ps = some o) : firstOwner? (h ≤ ·) ps = some o := by
    induction ps with
    | nil => cases ho
    | cons x ps ih =>
        obtain ⟨q, a⟩ := x
        obtain ⟨hq, hps'⟩ := List.pairwise_cons.mp hps
        rw [ownerAt?_cons] at ho
        split at ho
        · rename_i he
          simpa [firstOwner?, he] using ho
        · -- The point comes later, so this one lies before it.
          have hlt : q < h := hq _ ((mem_iff_ownerAt? hps').mpr ho)
          simpa [firstOwner?, UInt64.not_le.mpr hlt] using ih hps' ho
  rw [successor?_eq, hf r.ascending ho, Option.some_or]

theorem ownerAt?_insertAll_le (r : Ring) (ps : List (UInt64 × GroupId))
    (h : ∃ a, ownerAt? p r.points = some a ∧ a ≤ g) :
    ∃ a, ownerAt? p (r.insertAll ps).points = some a ∧ a ≤ g := by
  induction ps generalizing r with
  | nil => exact h
  | cons x ps ih =>
      refine ih (r.insert x.1 x.2) ?_
      obtain ⟨a, ha, hle⟩ := h
      rw [insert, ownerAt?_insertPoint r.ascending]
      split
      · rename_i he
        exact ⟨min a x.2, by rw [he, ha, Option.elim_some], UInt32.le_trans Std.min_le_left hle⟩
      · exact ⟨a, ha, hle⟩

/-- A point of a group goes to no higher group. -/
theorem ownerAt?_insertAll_of_mem (r : Ring) (hm : (p, g) ∈ ps) :
    ∃ a, ownerAt? p (r.insertAll ps).points = some a ∧ a ≤ g := by
  obtain ⟨before, after, rfl⟩ := List.append_of_mem hm
  rw [insertAll_append]
  refine ownerAt?_insertAll_le ((r.insertAll before).insert p g) after ?_
  rw [insert, ownerAt?_insertPoint (r.insertAll before).ascending, if_pos rfl]
  cases ownerAt? p (r.insertAll before).points with
  | none => exact ⟨g, rfl, UInt32.le_refl g⟩
  | some a => exact ⟨min a g, rfl, Std.min_le_right⟩

/-! ## Removing -/

theorem firstOwner?_filter_ne (f : UInt64 → Bool) (g : GroupId) (ps : List (UInt64 × GroupId)) :
    firstOwner? f (ps.filter (·.2 ≠ g)) ≠ some g := by
  intro he
  obtain ⟨x, hx, hg⟩ := Option.map_eq_some_iff.mp he
  exact of_decide_eq_true (List.mem_filter.mp (List.mem_of_find?_eq_some hx)).2 hg

theorem firstOwner?_filter (hn : firstOwner? f ps ≠ some g) :
    firstOwner? f (ps.filter (·.2 ≠ g)) = firstOwner? f ps := by
  induction ps with
  | nil => rfl
  | cons x ps ih =>
      unfold firstOwner? at hn ih ⊢
      cases hf : f x.1 with
      | true =>
          have hx : x.2 ≠ g := by simpa [hf] using hn
          simp [hx, hf]
      | false =>
          rw [List.find?_cons_of_neg (by simp [hf])] at hn ⊢
          rw [← ih hn, List.filter_cons]
          split
          · rw [List.find?_cons_of_neg (by simp [hf])]
          · rfl

theorem successor?_remove_ne (r : Ring) (g : GroupId) (h : UInt64) :
    (r.remove g).successor? h ≠ some g := by
  rw [successor?_eq]
  intro he
  rcases Option.or_eq_some_iff.mp he with he | ⟨-, he⟩
  · exact firstOwner?_filter_ne _ g r.points he
  · exact firstOwner?_filter_ne _ g r.points he

theorem successor?_remove (hn : r.successor? h ≠ some g) :
    (r.remove g).successor? h = r.successor? h := by
  rw [successor?_eq] at hn ⊢
  rw [successor?_eq]
  cases he : firstOwner? (h ≤ ·) r.points with
  | some o =>
      have ho : firstOwner? (h ≤ ·) r.points ≠ some g := by simpa [he] using hn
      rw [remove, firstOwner?_filter ho, he, Option.some_or, Option.some_or]
  | none =>
      rw [he, Option.none_or] at hn
      have ho : firstOwner? (h ≤ ·) r.points ≠ some g := by simp [he]
      rw [remove, firstOwner?_filter ho, he, Option.none_or, Option.none_or, firstOwner?_filter hn]

/-! ## Indexes -/

/-- In an index by a ring, a key belongs to its owner on the ring of the groups, in whatever order
they are given. -/
theorem map_slotAt?_of_build {routing : Config.Routing} {generation : Nat} {slots : List Slot}
    {x : Index} (hs : routing.strategy = .ring)
    (hx : Index.build hash routing generation slots = .ok x) (h : UInt64) :
    (x.slotAt? h).map (·.group.id) =
      (ofGroups hash routing.virtualNodes (Index.ids slots)).successor? h := by
  obtain ⟨-, hslots, -, -, hr⟩ := Index.parts_of_build hx
  have hp : x.slots.Perm slots := hslots ▸ List.mergeSort_perm ..
  rw [← ofGroups_perm hash _ (Index.perm_ids hp)]
  simp only [Index.slotAt?, hr, hs]
  cases ho : (ofGroups hash routing.virtualNodes (Index.ids x.slots)).successor? h with
  | none => rfl
  | some o => exact Index.map_find?_id (mem_of_successor? ho)

theorem slotAt?_of_grown {routing : Config.Routing} {generation generation' : Nat}
    {slots slots' : List Slot} {x x' : Index} (hs : routing.strategy = .ring)
    (hg : ∀ i, i ∈ Index.ids slots' ↔ i = g ∨ i ∈ Index.ids slots)
    (hx : Index.build hash routing generation slots = .ok x)
    (hx' : Index.build hash routing generation' slots' = .ok x') (h : UInt64) :
    (x'.slotAt? h).map (·.group.id) = (x.slotAt? h).map (·.group.id) ∨
      (x'.slotAt? h).map (·.group.id) = some g := by
  rw [map_slotAt?_of_build hs hx, map_slotAt?_of_build hs hx']
  have hn := Index.nodup_of_build hx
  have hn' := Index.nodup_of_build hx'
  by_cases hm : g ∈ Index.ids slots
  · have hp : (Index.ids slots').Perm (Index.ids slots) := by
      refine (List.perm_ext_iff_of_nodup hn' hn).mpr fun i => (hg i).trans ?_
      simp only [or_iff_right_iff_imp]
      rintro rfl
      exact hm
    exact .inl (by rw [ofGroups_perm hash _ hp])
  · have hc : (Index.ids slots ++ [g]).Nodup := by
      refine List.nodup_append.mpr ⟨hn, by simp, fun a ha b hb he => ?_⟩
      cases List.mem_singleton.mp hb
      exact hm (he ▸ ha)
    have hp : (Index.ids slots').Perm (Index.ids slots ++ [g]) := by
      refine (List.perm_ext_iff_of_nodup hn' hc).mpr fun i => (hg i).trans ?_
      simp [or_comm]
    rw [ofGroups_perm hash _ hp, ofGroups_concat]
    exact successor?_add hash _ g h

/-! ## Keys that move -/

/-- Adding a group moves keys to that group only, among them those at its points unless a lower
group owns them. Removing a group moves the keys of that group, all of them, and no others. An
index that has one more group than another sends a key to that group or where the other sends it. -/
theorem resizing_moves_least (hash : Bytes → UInt64) (g : GroupId) (key : Bytes) :
    (∀ r : Ring,
      ((r.add hash g).owner? hash key = r.owner? hash key ∨
        (r.add hash g).owner? hash key = some g) ∧
      (∀ i < r.virtualNodes, hash key = hash (label g i) →
        ∃ o ≤ g, (r.add hash g).owner? hash key = some o) ∧
      (r.remove g).owner? hash key ≠ some g ∧
      (r.owner? hash key ≠ some g → (r.remove g).owner? hash key = r.owner? hash key)) ∧
    ∀ (routing : Config.Routing) (generation generation' : Nat) (slots slots' : List Slot)
      (x x' : Index), routing.strategy = .ring →
      (∀ i, i ∈ Index.ids slots' ↔ i = g ∨ i ∈ Index.ids slots) →
      Index.build hash routing generation slots = .ok x →
      Index.build hash routing generation' slots' = .ok x' →
      (x'.slotAt? (hash key)).map (·.group.id) = (x.slotAt? (hash key)).map (·.group.id) ∨
        (x'.slotAt? (hash key)).map (·.group.id) = some g := by
  refine ⟨fun r => ⟨r.successor?_add hash g _, ?_, r.successor?_remove_ne g _,
    successor?_remove⟩, ?_⟩
  · intro i hi hk
    have hm : (hash key, g) ∈ stamps hash r.virtualNodes g :=
      List.mem_map.mpr ⟨i, List.mem_range.mpr hi, by rw [hk]⟩
    obtain ⟨o, ho, hle⟩ := r.ownerAt?_insertAll_of_mem hm
    rw [← add_eq_insertAll] at ho
    exact ⟨o, hle, successor?_of_ownerAt? ho⟩
  · intro routing generation generation' slots slots' x x' hs hg hx hx'
    exact slotAt?_of_grown hs hg hx hx' (hash key)

/-- The sum of the bytes: labels meet in a point if their digits add up to the same. -/
def byteSum (b : Bytes) : UInt64 := b.foldl (fun n x => n + x.toUInt64) 0

def masterless (i : GroupId) : Slot := ⟨⟨i, none, [], []⟩, none⟩

theorem resizing_moves_least_third :
    let routing : Config.Routing := ⟨.ring, 2⟩
    let r := ofGroups byteSum 2 [1, 2]
    let key := label 3 1
    r.owner? byteSum key = some 1 ∧ (∃ o ≤ 3, (r.add byteSum 3).owner? byteSum key = some o) ∧
      (r.remove 3).owner? byteSum key = some 1 ∧
      ∃ x x', Index.build byteSum routing 1 [masterless 1, masterless 2] = .ok x ∧
        Index.build byteSum routing 2 [masterless 3, masterless 2, masterless 1] = .ok x' ∧
        ((x'.slotAt? (byteSum key)).map (·.group.id) =
            (x.slotAt? (byteSum key)).map (·.group.id) ∨
          (x'.slotAt? (byteSum key)).map (·.group.id) = some 3) := by
  intro routing r key
  obtain ⟨hr, hx⟩ := resizing_moves_least byteSum 3 key
  obtain ⟨-, hadd, -, hremove⟩ := hr r
  have ho : r.owner? byteSum key = some 1 := by decide +kernel
  refine ⟨ho, hadd 1 (by decide) rfl, ?_, ?_⟩
  · rw [hremove (by rw [ho]; decide), ho]
  · obtain ⟨x, hb⟩ : ∃ x, Index.build byteSum routing 1 [masterless 1, masterless 2] = .ok x :=
      Index.exists_build byteSum routing 1 (by decide) (by decide)
    obtain ⟨x', hb'⟩ : ∃ x, Index.build byteSum routing 2
        [masterless 3, masterless 2, masterless 1] = .ok x :=
      Index.exists_build byteSum routing 2 (by decide) (by decide)
    refine ⟨x, x', hb, hb', hx routing 1 2 _ _ x x' rfl (fun i => ?_) hb hb'⟩
    simp [Index.ids, masterless, or_comm, or_assoc]

end Shardway.Ring
