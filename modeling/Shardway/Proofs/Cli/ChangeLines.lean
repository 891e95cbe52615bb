import Shardway.Cli.Report
import Shardway.Proofs.Topology.Addresses
import Mathlib.Data.List.Nodup

/-!
# Lines about changes of masters

The lines that are printed of two indexes are found by comparing printed addresses, and the notices
of a router by comparing the addresses themselves. They tell the same changes. The lines can be read
back: along with the masters from before they determine the masters from then on.
-/

namespace Shardway

/-- The masters of groups. -/
abbrev Mastership := List (GroupId × Option Address)

namespace Cli

open Text

/-- The line about a group that has another master, or none any more. -/
def changeLine (g : GroupId) (old new : Option Address) : String :=
  s!"Group {g}: master {masterText old} -> {masterText new}"

/-- The line about a change of masters. -/
def changeLine? : Notice → Option String
  | .masterChanged g old new => some (changeLine g (some old) (some new))
  | .masterElected g new => some (changeLine g none (some new))
  | .masterLost g old => some (changeLine g (some old) none)
  | _ => none

/-- A group has another master, or none any more. -/
def setMaster (g : GroupId) (new : Option Address) (ms : Mastership) : Mastership :=
  ms.map fun e => if e.1 = g then (g, new) else e

/-- The lines lead from some masters to others. Each is about a group with the master that it has by
then, and gives it another one. -/
inductive Replays : Mastership → List String → Mastership → Prop
  | nil {ms : Mastership} : Replays ms [] ms
  | cons {ms ms' : Mastership} {g : GroupId} {old new : Option Address} {ls : List String} :
      (g, old) ∈ ms → Replays (setMaster g new ms) ls ms' →
      Replays ms (changeLine g old new :: ls) ms'

variable {g g' : GroupId} {old old' new new' : Option Address} {x y : Index}
  {ms ms' ms'' : Mastership} {ls ls' : List String}

/-! ## Reading -/

theorem toList_changeLine (g : GroupId) (old new : Option Address) :
    (changeLine g old new).toList = "Group ".toList ++ (Nat.toDigits 10 g.toNat ++ ':' ::
      (" master ".toList ++ ((masterText old).toList ++
        (" -> ".toList ++ (masterText new).toList)))) := by
  have ht : changeLine g old new = "Group " ++ g.toNat.repr ++ ": master " ++ masterText old ++
    " -> " ++ masterText new := rfl
  simp [ht, Nat.toList_repr]

/-- No two masters are printed in the same way, nor is any printed like a missing one. -/
theorem masterText_inj (h : masterText old = masterText new) : old = new := by
  have hn (a : Address) : a.text ≠ "none" := by
    intro he
    have hc : ':' ∉ "none".toList := by decide
    rw [← he, Address.toList_text] at hc
    exact hc (by simp)
  cases old with
  | none =>
      cases new with
      | none => rfl
      | some b => exact absurd h.symm (hn b)
  | some a =>
      cases new with
      | none => exact absurd h (hn a)
      | some b => exact congrArg some (Address.text_inj h)

theorem group_of_changeLine (h : changeLine g old new = changeLine g' old' new') : g = g' := by
  have hc (g : GroupId) : ':' ∉ Nat.toDigits 10 g.toNat :=
    Address.colon_notMem (.plain (denotes_toDigits _))
  rw [← String.toList_inj, toList_changeLine, toList_changeLine] at h
  have hd := Address.eq_of_append_colon (hc g) (hc g') (List.append_cancel_left h)
  exact UInt32.toNat_inj.mp ((denotes_toDigits g.toNat).eq (hd ▸ denotes_toDigits g'.toNat))

theorem new_of_changeLine (h : changeLine g old new = changeLine g old new') : new = new' := by
  rw [← String.toList_inj, toList_changeLine, toList_changeLine] at h
  simp only [List.append_cancel_left_eq, List.cons.injEq, true_and] at h
  exact masterText_inj (String.toList_inj.mp h)

theorem keys_setMaster : (setMaster g new ms).map (·.1) = ms.map (·.1) := by
  rw [setMaster, List.map_map]
  refine List.map_congr_left fun e _ => ?_
  by_cases h : e.1 = g <;> simp [h]

/-- Lines lead to one end at most. -/
theorem Replays.unique (h : Replays ms ls ms') (h' : Replays ms ls ms'')
    (hn : (ms.map (·.1)).Nodup) : ms' = ms'' := by
  induction h with
  | nil =>
      cases h'
      rfl
  | @cons ms ms' g old new ls hg hr ih =>
      generalize hl : changeLine g old new :: ls = lines at h'
      cases h' with
      | nil => cases hl
      | @cons _ _ g' old' new' ls' hg' hr' =>
          obtain ⟨hline, rfl⟩ := List.cons.inj hl
          obtain rfl := group_of_changeLine hline
          obtain rfl : old = old' :=
            congrArg Prod.snd (List.inj_on_of_nodup_map hn hg hg' rfl)
          obtain rfl := new_of_changeLine hline
          exact ih hr' (by rwa [keys_setMaster])

theorem Replays.append (h : Replays ms ls ms') (h' : Replays ms' ls' ms'') :
    Replays ms (ls ++ ls') ms'' := by
  induction h with
  | nil => exact h'
  | cons hg _ ih => exact .cons hg (ih h')

/-! ## Comparing -/

/-- The line about a group after a change to the index, if its master is another one than before. -/
def lineOf (x : Index) (g : ResolvedGroup) : Option String :=
  let old := (x.groups.find? (·.id = g.id)).bind (·.masterAddr?)
  if old = g.masterAddr? then none else some (changeLine g.id old g.masterAddr?)

theorem changeLines_changes :
    (x.changes y).filterMap changeLine? = y.groups.filterMap (lineOf x) := by
  rw [Index.changes, List.filterMap_filterMap]
  congr 1
  funext g
  unfold lineOf
  generalize (x.groups.find? (·.id = g.id)).bind (·.masterAddr?) = old
  cases old with
  | none => cases g.masterAddr? <;> simp [changeLine?]
  | some a =>
      cases g.masterAddr? with
      | none => simp [changeLine?]
      | some b => by_cases h : a = b <;> simp [h, changeLine?]

theorem ofIndex_eq (x : Index) :
    Masters.ofIndex x = x.groups.map fun g => (g.id, g.masterAddr?.map Address.text) := by
  rw [Masters.ofIndex, Index.masters, List.map_map]
  rfl

theorem get?_ofIndex (x : Index) (g : GroupId) : (Masters.ofIndex x).get? g =
    (x.groups.find? (·.id = g)).map fun h => h.masterAddr?.map Address.text := by
  rw [Masters.get?, ofIndex_eq, List.find?_map, Option.map_map]
  rfl

/-- What is printed of two indexes are the changes from the one to the other, as long as each group
of the later one is in the earlier one, too. -/
theorem changeLines_ofIndex (h : ∀ g ∈ y.groups, ∃ k ∈ x.groups, k.id = g.id) :
    changeLines (.ofIndex x) (.ofIndex y) = (x.changes y).filterMap changeLine? := by
  rw [changeLines_changes, changeLines, ofIndex_eq y, List.filterMap_map]
  refine List.filterMap_congr fun g hg => ?_
  obtain ⟨k, hk⟩ := Option.isSome_iff_exists.mp
    (List.find?_isSome.mpr ((h g hg).imp fun k hk => ⟨hk.1, decide_eq_true hk.2⟩))
  have hinj : Option.map Address.text k.masterAddr? = Option.map Address.text g.masterAddr? ↔
      k.masterAddr? = g.masterAddr? :=
    (Option.map_injective fun _ _ => Address.text_inj).eq_iff
  simp only [Function.comp, get?_ofIndex, lineOf, hk, Option.map_some, Option.bind_some,
    Option.some.injEq, hinj, Option.getD_some]
  rfl

/-! ## Replaying -/

theorem setMaster_of_notMem {before after : Mastership} (hb : g ∉ before.map (·.1))
    (ha : g ∉ after.map (·.1)) : setMaster g new (before ++ (g, old) :: after) =
      before ++ (g, new) :: after := by
  have hs {ms : Mastership} (h : g ∉ ms.map (·.1)) : setMaster g new ms = ms := by
    refine (List.map_congr_left fun e he => if_neg fun hg => h ?_).trans (List.map_id ms)
    exact hg ▸ List.mem_map_of_mem he
  have hsb := hs hb
  have hsa := hs ha
  unfold setMaster at hsb hsa ⊢
  rw [List.map_append, List.map_cons, hsb, hsa, if_pos rfl]

theorem find?_group {gs : List ResolvedGroup} {g : ResolvedGroup} (hn : (gs.map (·.id)).Nodup)
    (hg : g ∈ gs) : gs.find? (·.id = g.id) = some g := by
  obtain ⟨k, hk⟩ := Option.isSome_iff_exists.mp
    (List.find?_isSome (p := (·.id = g.id)).mpr ⟨g, hg, decide_eq_true rfl⟩)
  have hid : k.id = g.id := by simpa using List.find?_some hk
  rw [hk, List.inj_on_of_nodup_map hn (List.mem_of_find?_eq_some hk) hg hid]

/-- The groups that remain give way to others one after the other. -/
theorem replays_lineOf {before : Mastership} {gs hs : List ResolvedGroup}
    (hg : ∀ g ∈ gs, x.groups.find? (·.id = g.id) = some g) (hid : gs.map (·.id) = hs.map (·.id))
    (hn : ((before ++ gs.map fun g => (g.id, g.masterAddr?)).map (·.1)).Nodup) :
    Replays (before ++ gs.map fun g => (g.id, g.masterAddr?)) (hs.filterMap (lineOf x))
      (before ++ hs.map fun g => (g.id, g.masterAddr?)) := by
  induction gs generalizing before hs with
  | nil =>
      cases hs with
      | nil => exact .nil
      | cons h hs => cases hid
  | cons g gs ih =>
      cases hs with
      | nil => cases hid
      | cons h hs =>
          obtain ⟨hh, hid⟩ : g.id = h.id ∧ gs.map (·.id) = hs.map (·.id) := List.cons.inj hid
          obtain ⟨hfind, hg⟩ := List.forall_mem_cons.mp hg
          have hkeys : ((before ++ [(h.id, h.masterAddr?)] ++
              gs.map fun g => (g.id, g.masterAddr?)).map (·.1)).Nodup := by
            simpa [hh] using hn
          have hr := ih hg hid hkeys
          rw [List.append_assoc, List.append_assoc] at hr
          have hline : lineOf x h = if g.masterAddr? = h.masterAddr? then none
              else some (changeLine h.id g.masterAddr? h.masterAddr?) := by
            rw [lineOf, ← hh, hfind]
            rfl
          rw [List.map_cons, List.map_cons, hh]
          by_cases he : g.masterAddr? = h.masterAddr?
          · rw [List.filterMap_cons_none (hline.trans (if_pos he)), he]
            exact hr
          · rw [List.filterMap_cons_some (hline.trans (if_neg he))]
            refine .cons (List.mem_append_right _ List.mem_cons_self) ?_
            obtain ⟨hb, ha⟩ : h.id ∉ before.map (·.1) ∧
                h.id ∉ (gs.map fun g => (g.id, g.masterAddr?)).map (·.1) := by
              rw [List.map_append, List.map_cons, List.map_cons, hh] at hn
              have hm := List.nodup_middle.mp hn
              simpa using (List.nodup_cons.mp hm).1
            rw [setMaster_of_notMem hb ha]
            exact hr

/-- The lines about the changes from one index to another lead from the masters of the one to those
of the other. -/
theorem replays_changes (hid : x.groups.map (·.id) = y.groups.map (·.id))
    (hn : (x.groups.map (·.id)).Nodup) :
    Replays x.masters ((x.changes y).filterMap changeLine?) y.masters := by
  rw [changeLines_changes]
  refine @replays_lineOf x [] x.groups y.groups (fun g hg => find?_group hn hg) hid ?_
  simpa [Function.comp_def] using hn

end Cli

end Shardway
