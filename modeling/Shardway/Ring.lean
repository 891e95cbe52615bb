import Shardway.Hash.Blake3

/-!
A consistent-hash ring. Every group owns points on a circle of 64-bit numbers, and a key belongs to
the owner of the first point at or after its hash, going round past the largest number.
-/
namespace Shardway

/-- The number that names a replication group. -/
abbrev GroupId := UInt32

namespace Ring

/-- Two owned points in ascending order. -/
def Before (p q : UInt64 × GroupId) : Prop := p.1 < q.1

/-- Puts a point among ascending ones. Where two groups meet in one point the lower id owns it, so
the order in which groups come does not matter. -/
def insertPoint (p : UInt64) (g : GroupId) : List (UInt64 × GroupId) → List (UInt64 × GroupId)
  | [] => [(p, g)]
  | (q, o) :: r =>
    if p < q then (p, g) :: (q, o) :: r
    else if p = q then (q, min o g) :: r
    else (q, o) :: insertPoint p g r

theorem mem_insertPoint {p : UInt64} {g : GroupId} {x : UInt64 × GroupId} :
    {ps : List (UInt64 × GroupId)} → x ∈ insertPoint p g ps → x.1 = p ∨ x ∈ ps
  | [], h => by simp_all [insertPoint]
  | (q, o) :: r, h => by
    unfold insertPoint at h
    split at h
    · rcases List.mem_cons.1 h with rfl | h
      · exact .inl rfl
      · exact .inr h
    · split at h
      · rename_i he
        rcases List.mem_cons.1 h with rfl | h
        · exact .inl he.symm
        · exact .inr (List.mem_cons_of_mem _ h)
      · rcases List.mem_cons.1 h with rfl | h
        · exact .inr (List.mem_cons_self ..)
        · exact (mem_insertPoint h).imp_right (List.mem_cons_of_mem _)

theorem pairwise_insertPoint (p : UInt64) (g : GroupId) :
    {ps : List (UInt64 × GroupId)} → ps.Pairwise Before → (insertPoint p g ps).Pairwise Before
  | [], _ => by simp [insertPoint]
  | (q, o) :: r, h => by
    have ⟨hq, hr⟩ := List.pairwise_cons.1 h
    unfold insertPoint
    split
    · rename_i lt
      refine List.pairwise_cons.2 ⟨fun x hx => ?_, h⟩
      rcases List.mem_cons.1 hx with rfl | hx
      · exact lt
      · exact UInt64.lt_trans lt (hq x hx)
    · split
      · exact List.pairwise_cons.2 ⟨hq, hr⟩
      · rename_i nlt ne
        refine List.pairwise_cons.2 ⟨fun x hx => ?_, pairwise_insertPoint p g hr⟩
        rcases mem_insertPoint hx with hp | hx
        · have hlt : q < p := UInt64.lt_of_le_of_ne (UInt64.not_lt.1 nlt) (Ne.symm ne)
          exact (show q < x.1 from hp ▸ hlt)
        · exact hq x hx

end Ring

/-- Points in ascending order with the group that owns each. -/
structure Ring where
  /-- How many points every group owns, unless points of two groups meet. -/
  virtualNodes : Nat
  points : List (UInt64 × GroupId)
  ascending : points.Pairwise Ring.Before

namespace Ring

def empty (virtualNodes : Nat) : Ring := ⟨virtualNodes, [], .nil⟩

/-- What is hashed to place the `i`-th point of a group. -/
def label (g : GroupId) (i : Nat) : Bytes := Text.Utf8.encode s!"shard-{g}-{i}"

/-- The ring with one more point. -/
def insert (r : Ring) (p : UInt64) (g : GroupId) : Ring :=
  ⟨r.virtualNodes, insertPoint p g r.points, pairwise_insertPoint p g r.ascending⟩

/-- The ring with the points of one more group, which `hash` places. -/
def add (hash : Bytes → UInt64) (r : Ring) (g : GroupId) : Ring :=
  (List.range r.virtualNodes).foldl (fun r i => r.insert (hash (label g i)) g) r

/-- The ring without the points that a group owns. -/
def remove (r : Ring) (g : GroupId) : Ring :=
  ⟨r.virtualNodes, r.points.filter (·.2 ≠ g), r.ascending.filter _⟩

/-- The ring of these groups. -/
def ofGroups (hash : Bytes → UInt64) (virtualNodes : Nat) (groups : List GroupId) : Ring :=
  groups.foldl (add hash) (empty virtualNodes)

/-- The owner of the first point at or after a hash, or of the first point at all. -/
def successor? (r : Ring) (h : UInt64) : Option GroupId :=
  ((r.points.find? fun p => h ≤ p.1).or r.points.head?).map (·.2)

/-- The group to which a key belongs. -/
def owner? (hash : Bytes → UInt64) (r : Ring) (key : Bytes) : Option GroupId :=
  r.successor? (hash key)

/-- The number of points. -/
def size (r : Ring) : Nat := r.points.length

end Ring
end Shardway
