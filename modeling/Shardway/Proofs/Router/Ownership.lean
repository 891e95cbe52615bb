import Shardway.Router.Index
import Shardway.Proofs.Topology.GroupIds

/-!
# The owner of a key

The group to which an index sends a key depends on nothing but the ids of its groups and the
routing.
-/

namespace Shardway

variable {g : GroupId} {ids : List GroupId} {hash : Bytes → UInt64} {n : Nat}

/-! ## Rings -/

namespace Ring

theorem mem_insertPoint_snd {p : UInt64} {x : UInt64 × GroupId} {ps : List (UInt64 × GroupId)}
    (h : x ∈ insertPoint p g ps) : x.2 = g ∨ ∃ y ∈ ps, y.2 = x.2 := by
  induction ps with
  | nil =>
      cases List.mem_singleton.mp h
      exact .inl rfl
  | cons q r ih =>
      obtain ⟨q, o⟩ := q
      unfold insertPoint at h
      split at h
      · rcases List.mem_cons.mp h with rfl | h
        · exact .inl rfl
        · exact .inr ⟨x, h, rfl⟩
      · split at h
        · rcases List.mem_cons.mp h with rfl | h
          · have hm : min o g = if o ≤ g then o else g := rfl
            dsimp only
            rw [hm]
            split
            · exact .inr ⟨_, List.mem_cons_self, rfl⟩
            · exact .inl rfl
          · exact .inr ⟨x, List.mem_cons_of_mem _ h, rfl⟩
        · rcases List.mem_cons.mp h with rfl | h
          · exact .inr ⟨_, List.mem_cons_self, rfl⟩
          · rcases ih h with h | ⟨y, hy, hyx⟩
            · exact .inl h
            · exact .inr ⟨y, List.mem_cons_of_mem _ hy, hyx⟩

theorem insertPoint_ne_nil (p : UInt64) (ps : List (UInt64 × GroupId)) :
    insertPoint p g ps ≠ [] := by
  cases ps with
  | nil => simp [insertPoint]
  | cons q r =>
      unfold insertPoint
      split
      · simp
      · split <;> simp

/-- Points of a group are added: no other group gets any, and the ring is not empty. -/
theorem foldl_insert_points (hash : Bytes → UInt64) (g : GroupId) (l : List Nat) (r : Ring) :
    (l.foldl (fun r i => r.insert (hash (label g i)) g) r).virtualNodes = r.virtualNodes ∧
      (∀ x ∈ (l.foldl (fun r i => r.insert (hash (label g i)) g) r).points,
        x.2 = g ∨ ∃ y ∈ r.points, y.2 = x.2) ∧
      (l ≠ [] ∨ r.points ≠ [] →
        (l.foldl (fun r i => r.insert (hash (label g i)) g) r).points ≠ []) := by
  induction l generalizing r with
  | nil => exact ⟨rfl, fun x hx => .inr ⟨x, hx, rfl⟩, fun h => h.resolve_left (· rfl)⟩
  | cons i l ih =>
      obtain ⟨hv, hm, hn⟩ := ih (r.insert (hash (label g i)) g)
      refine ⟨hv, fun x hx => ?_, fun _ => hn (.inr (insertPoint_ne_nil _ _))⟩
      rcases hm x hx with h | ⟨y, hy, hyx⟩
      · exact .inl h
      · exact hyx ▸ mem_insertPoint_snd hy

theorem add_points (hash : Bytes → UInt64) (r : Ring) (g : GroupId) :
    (r.add hash g).virtualNodes = r.virtualNodes ∧
      (∀ x ∈ (r.add hash g).points, x.2 = g ∨ ∃ y ∈ r.points, y.2 = x.2) ∧
      (0 < r.virtualNodes ∨ r.points ≠ [] → (r.add hash g).points ≠ []) := by
  obtain ⟨hv, hm, hn⟩ := foldl_insert_points hash g (List.range r.virtualNodes) r
  refine ⟨hv, hm, fun h => hn (h.imp_left fun h0 hr => ?_)⟩
  rw [List.range_eq_nil] at hr
  omega

theorem foldl_add_points (hash : Bytes → UInt64) (ids : List GroupId) (r : Ring) :
    (∀ x ∈ (ids.foldl (add hash) r).points, x.2 ∈ ids ∨ ∃ y ∈ r.points, y.2 = x.2) ∧
      (ids ≠ [] ∧ 0 < r.virtualNodes ∨ r.points ≠ [] → (ids.foldl (add hash) r).points ≠ []) := by
  induction ids generalizing r with
  | nil => exact ⟨fun x hx => .inr ⟨x, hx, rfl⟩, fun h => h.resolve_left (·.1 rfl)⟩
  | cons g ids ih =>
      obtain ⟨hv, hm, hn⟩ := r.add_points hash g
      obtain ⟨hm', hn'⟩ := ih (r.add hash g)
      refine ⟨fun x hx => ?_, fun h => hn' (.inr (hn (h.imp_left (·.2))))⟩
      rcases hm' x hx with h | ⟨y, hy, hyx⟩
      · exact .inl (List.mem_cons_of_mem _ h)
      · rcases hm y hy with h | ⟨z, hz, hzy⟩
        · exact .inl (hyx ▸ h ▸ List.mem_cons_self)
        · exact .inr ⟨z, hz, hzy.trans hyx⟩

theorem mem_of_successor? {h : UInt64} (hs : (ofGroups hash n ids).successor? h = some g) :
    g ∈ ids := by
  obtain ⟨hm, -⟩ := foldl_add_points hash ids (empty n)
  unfold successor? at hs
  obtain ⟨x, hx, rfl⟩ := Option.map_eq_some_iff.mp hs
  have hx : x ∈ (ofGroups hash n ids).points := by
    rcases Option.or_eq_some_iff.mp hx with hx | ⟨-, hx⟩
    · exact List.mem_of_find?_eq_some hx
    · exact List.mem_of_head? hx
  rcases hm x hx with h | ⟨y, hy, -⟩
  · exact h
  · cases hy

theorem successor?_isSome {h : UInt64} (hi : ids ≠ []) (hn : 0 < n) :
    ((ofGroups hash n ids).successor? h).isSome := by
  obtain ⟨-, hp⟩ := foldl_add_points hash ids (empty n)
  have hp : (ofGroups hash n ids).points ≠ [] := hp (.inl ⟨hi, hn⟩)
  simp [successor?, Option.isSome_or, hp]

end Ring

/-! ## Indices -/

/-- The group among these that owns a key with this hash. -/
def ownerOf (routing : Config.Routing) (ids : List GroupId) (h : UInt64) : Option GroupId :=
  match routing.strategy with
  | .modulo => (slotOf h ids.length).bind (ids[·]?)
  | .ring => (Ring.ofGroups keyHash routing.virtualNodes ids).successor? h

theorem mem_of_ownerOf {routing : Config.Routing} {h : UInt64}
    (ho : ownerOf routing ids h = some g) : g ∈ ids := by
  unfold ownerOf at ho
  split at ho
  · obtain ⟨i, -, hi⟩ := Option.bind_eq_some_iff.mp ho
    exact List.mem_of_getElem? hi
  · exact Ring.mem_of_successor? ho

/-- With groups and a routing that are usable, every key has an owner. -/
theorem ownerOf_isSome {routing : Config.Routing} {h : UInt64} (hi : ids ≠ [])
    (hr : routing.strategy = .ring → 0 < routing.virtualNodes) :
    (ownerOf routing ids h).isSome := by
  unfold ownerOf
  split
  · have hl : ids.length ≠ 0 := by simpa using hi
    simp [slotOf, hl, Nat.mod_lt _ (Nat.pos_of_ne_zero hl)]
  · rename_i hs
    exact Ring.successor?_isSome hi (hr hs)

namespace Index

/-- An index over these groups. -/
structure Over (routing : Config.Routing) (ids : List GroupId) (x : Index) : Prop where
  slots : Index.ids x.slots = ids
  ring : x.ring = match routing.strategy with
    | .modulo => none
    | .ring => some (.ofGroups keyHash routing.virtualNodes ids)

variable {routing : Config.Routing} {slots : List Slot}

theorem mergeSort_of_ascending (ha : (Index.ids slots).Pairwise (· < ·)) :
    (slots.mergeSort fun a b => a.group.id ≤ b.group.id) = slots := by
  refine List.mergeSort_of_pairwise ((List.pairwise_map.mp ha).imp fun hlt => ?_)
  exact decide_eq_true (UInt32.le_of_lt hlt)

theorem perm_ids {slots' : List Slot} (h : slots.Perm slots') :
    (Index.ids slots).Perm (Index.ids slots') := h.map _

theorem exists_build (hash : Bytes → UInt64) (routing : Config.Routing) (generation : Nat)
    (hn : Index.ids slots ≠ []) (hd : (Index.ids slots).Nodup) :
    ∃ x, build hash routing generation slots = .ok x := by
  have hp : (slots.mergeSort fun a b => a.group.id ≤ b.group.id).Perm slots :=
    List.mergeSort_perm ..
  have hs : (slots.mergeSort fun a b => a.group.id ≤ b.group.id) ≠ [] := by
    intro he
    rw [he] at hp
    exact hn (by rw [hp.nil_eq.symm]; rfl)
  unfold build
  dsimp only
  rw [if_neg (by simpa using hs), if_neg (not_not_intro ((perm_ids hp).nodup_iff.mpr hd))]
  exact ⟨_, rfl⟩

/-- What an index that could be built is made of. -/
theorem parts_of_build {generation : Nat} {x : Index}
    (h : build hash routing generation slots = .ok x) :
    x.generation = generation ∧
      x.slots = slots.mergeSort (fun a b => a.group.id ≤ b.group.id) ∧
      x.slots ≠ [] ∧ (Index.ids x.slots).Nodup ∧
      x.ring = match routing.strategy with
        | .modulo => none
        | .ring => some (.ofGroups hash routing.virtualNodes (Index.ids x.slots)) := by
  unfold build at h
  dsimp only at h
  split at h
  · cases h
  · rename_i hn
    split at h
    · cases h
    · rename_i hd
      cases h
      exact ⟨rfl, rfl, by simpa using hn, not_not.mp hd, rfl⟩

theorem nodup_of_build {generation : Nat} {x : Index}
    (h : build hash routing generation slots = .ok x) : (Index.ids slots).Nodup := by
  obtain ⟨-, hs, -, hd, -⟩ := parts_of_build h
  have hp : x.slots.Perm slots := hs ▸ List.mergeSort_perm ..
  exact (perm_ids hp).nodup_iff.mp hd

theorem over_of_build {generation : Nat} {x : Index} (ha : (Index.ids slots).Pairwise (· < ·))
    (h : build keyHash routing generation slots = .ok x) : x.Over routing (Index.ids slots) := by
  obtain ⟨-, hs, -, -, hr⟩ := parts_of_build h
  rw [mergeSort_of_ascending ha] at hs
  exact ⟨hs ▸ rfl, hs ▸ hr⟩

/-- A group that is there has a slot. -/
theorem map_find?_id (hg : g ∈ Index.ids slots) :
    (slots.find? (·.group.id = g)).map (·.group.id) = some g := by
  obtain ⟨slot, hslot, hid⟩ := List.mem_map.mp hg
  cases hf : slots.find? (·.group.id = g) with
  | none =>
      have := List.find?_eq_none.mp hf slot hslot
      simp [hid] at this
  | some slot' =>
      have := List.find?_some hf
      simpa using this

/-- The owner of a key is the group of its slot. -/
theorem Over.map_slotAt? {x : Index} {h : UInt64}
    (hx : x.Over routing ids) : (x.slotAt? h).map (·.group.id) = ownerOf routing ids h := by
  obtain ⟨rfl, hr⟩ := hx
  unfold slotAt? ownerOf
  rw [hr]
  cases routing.strategy with
  | modulo =>
      simp only [Index.ids, List.length_map, List.getElem?_map]
      exact Option.map_bind ..
  | ring =>
      cases hs : (Ring.ofGroups keyHash routing.virtualNodes (Index.ids x.slots)).successor? h with
      | none => simp [hs]
      | some g =>
          simp only [hs, Option.bind_some]
          exact map_find?_id (Ring.mem_of_successor? hs)

end Index

end Shardway
