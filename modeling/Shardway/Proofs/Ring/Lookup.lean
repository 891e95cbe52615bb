import Shardway.Proofs.Ring.Points
import Shardway.Proofs.Router.Ownership

/-!
# Looking up a key

A key belongs to the owner of the point that comes first on the way round the circle from its hash,
its hash included. A ring of some groups with some points has an owner for every key.
-/

namespace Shardway.Ring

/-- How far it is from `h` to `p` round the circle, upwards. -/
def ahead (h p : UInt64) : Int := ((p.toNat : Int) - h.toNat) % UInt64.size

/-- No point of the ring comes before this one on the way from `h`. -/
structure Nearest (h : UInt64) (r : Ring) (x : UInt64 × GroupId) : Prop where
  mem : x ∈ r.points
  le : ∀ y ∈ r.points, ahead h x.1 ≤ ahead h y.1

variable {h p q : UInt64} {g : GroupId} {r : Ring} {x y : UInt64 × GroupId}

theorem ahead_of_le (hp : h ≤ p) : ahead h p = p.toNat - h.toNat := by
  have hle := UInt64.le_iff_toNat_le.mp hp
  have hlt := p.toNat_lt
  unfold ahead UInt64.size
  omega

theorem ahead_of_lt (hp : p < h) : ahead h p = p.toNat - h.toNat + UInt64.size := by
  have hlt := UInt64.lt_iff_toNat_lt.mp hp
  have hh := h.toNat_lt
  unfold ahead UInt64.size
  omega

theorem ahead_inj (he : ahead h p = ahead h q) : p = q := by
  have hp := p.toNat_lt
  have hq := q.toNat_lt
  apply UInt64.toNat_inj.mp
  unfold ahead UInt64.size at he
  omega

/-- Up to the largest number the way leads through larger points. -/
theorem ahead_le_of_le (hp : h ≤ p) (hq : p ≤ q ∨ q < h) : ahead h p ≤ ahead h q := by
  rw [ahead_of_le hp]
  have hlt := p.toNat_lt_size
  rcases hq with hq | hq
  · have hle := UInt64.le_iff_toNat_le.mp hq
    rw [ahead_of_le (UInt64.le_trans hp hq)]
    omega
  · rw [ahead_of_lt hq]
    omega

/-- Past the largest number it leads through the points below the hash. -/
theorem ahead_le_of_lt (hp : p < h) (hq : q < h) (hle : p ≤ q) : ahead h p ≤ ahead h q := by
  have hle := UInt64.le_iff_toNat_le.mp hle
  rw [ahead_of_lt hp, ahead_of_lt hq]
  omega

/-! ## The first point on the way -/

theorem nearest_of_find? (hx : r.points.find? (h ≤ ·.1) = some x) : Nearest h r x := by
  obtain ⟨hp, before, after, hr, hb⟩ := List.find?_eq_some_iff_append.mp hx
  have hp : h ≤ x.1 := of_decide_eq_true hp
  refine ⟨List.mem_of_find?_eq_some hx, ?_⟩
  intro y hy
  apply ahead_le_of_le hp
  rw [hr] at hy
  rcases List.mem_append.mp hy with hy | hy
  · have hn := hb y hy
    exact .inr (by simpa using hn)
  · have ha := r.ascending
    rw [hr, List.pairwise_append, List.pairwise_cons] at ha
    obtain ⟨-, ⟨hlt, -⟩, -⟩ := ha
    rcases List.mem_cons.mp hy with rfl | hy
    · exact .inl (UInt64.le_refl y.1)
    · exact .inl (UInt64.le_of_lt (hlt y hy))

theorem nearest_of_head? (hn : r.points.find? (h ≤ ·.1) = none)
    (hx : r.points.head? = some x) : Nearest h r x := by
  have hlt : ∀ y ∈ r.points, y.1 < h := by
    intro y hy
    simpa using List.find?_eq_none.mp hn y hy
  have hm := List.mem_of_head? hx
  refine ⟨hm, ?_⟩
  intro y hy
  apply ahead_le_of_lt (hlt x hm) (hlt y hy)
  obtain ⟨after, hr⟩ := List.head?_eq_some_iff.mp hx
  have ha := r.ascending
  rw [hr, List.pairwise_cons] at ha
  rw [hr] at hy
  rcases List.mem_cons.mp hy with rfl | hy
  · exact UInt64.le_refl y.1
  · exact UInt64.le_of_lt (ha.1 y hy)

/-- Only one point is the first on the way. -/
theorem Nearest.unique (hx : Nearest h r x) (hy : Nearest h r y) : x = y := by
  have hp : x.1 = y.1 := ahead_inj (Int.le_antisymm (hx.le y hy.mem) (hy.le x hx.mem))
  have ho (z : UInt64 × GroupId) (hz : z ∈ r.points) : ownerAt? z.1 r.points = some z.2 :=
    (mem_iff_ownerAt? r.ascending).mp hz
  have hg := ho x hx.mem
  rw [hp, ho y hy.mem, Option.some.injEq] at hg
  exact Prod.ext hp hg.symm

theorem successor?_eq_none : r.successor? h = none ↔ r.points = [] := by
  constructor
  · intro hs
    cases hr : r.points with
    | nil => rfl
    | cons x ps => simp [successor?, hr] at hs
  · intro hr
    simp [successor?, hr]

theorem exists_nearest (hs : r.successor? h = some g) : ∃ p, Nearest h r (p, g) := by
  unfold successor? at hs
  obtain ⟨⟨p, o⟩, hx, rfl⟩ := Option.map_eq_some_iff.mp hs
  rcases Option.or_eq_some_iff.mp hx with hx | ⟨hn, hx⟩
  · exact ⟨p, nearest_of_find? hx⟩
  · exact ⟨p, nearest_of_head? hn hx⟩

theorem successor?_of_nearest (hx : Nearest h r (p, g)) : r.successor? h = some g := by
  cases hs : r.successor? h with
  | none =>
      have hm := hx.mem
      rw [successor?_eq_none.mp hs] at hm
      cases hm
  | some o =>
      obtain ⟨q, hq⟩ := exists_nearest hs
      cases hx.unique hq
      rfl

/-- A key has no owner only on a ring without points. Else it belongs to the group whose point comes
first on the way round from its hash, and on a ring of groups that have points to one of these. -/
theorem owner?_iff_nearest (hash : Bytes → UInt64) (r : Ring) (key : Bytes) :
    (r.owner? hash key = none ↔ r.points = []) ∧
      (∀ g, r.owner? hash key = some g ↔ ∃ p, Nearest (hash key) r (p, g)) ∧
      ∀ n ids, ids ≠ [] → 0 < n → ∃ g ∈ ids, (ofGroups hash n ids).owner? hash key = some g := by
  refine ⟨successor?_eq_none, ?_, ?_⟩
  · intro g
    constructor
    · exact exists_nearest
    · rintro ⟨p, hp⟩
      exact successor?_of_nearest hp
  · intro n ids hi hn
    have hs : ((ofGroups hash n ids).successor? (hash key)).isSome := successor?_isSome hi hn
    obtain ⟨g, hg⟩ := Option.isSome_iff_exists.mp hs
    exact ⟨g, mem_of_successor? hg, hg⟩

/-- The key hashes past the last of two points, so it belongs to the first one. -/
theorem owner?_iff_nearest_past :
    let r : Ring := ofGroups (fun b => b.length.toUInt64) 1 [10, 7]
    r.points = [(9, 7), (10, 10)] ∧ Nearest 11 r (9, 7) ∧
      ∃ g ∈ [10, 7], r.owner? (fun b => b.length.toUInt64) (label 100 0) = some g := by
  intro r
  obtain ⟨-, hsome, hgroups⟩ :=
    owner?_iff_nearest (fun b => b.length.toUInt64) r (label 100 0)
  obtain ⟨p, hp⟩ := (hsome 7).mp (by decide +kernel)
  have hr : r.points = [(9, 7), (10, 10)] := by decide +kernel
  have hh : (label 100 0).length.toUInt64 = 11 := by decide +kernel
  refine ⟨hr, ?_, hgroups 1 [10, 7] (by decide) (by decide)⟩
  have hm := hp.mem
  rw [hr] at hm
  rw [hh] at hp
  have : p = 9 := by simpa using hm
  rwa [this] at hp

end Shardway.Ring
