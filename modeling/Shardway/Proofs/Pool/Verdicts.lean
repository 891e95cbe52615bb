import Shardway.Proofs.Pool.Examination
import Shardway.Proofs.Pool.Tally
import Mathlib.Data.List.Induction

/-!
# Verdicts

What an eviction pass makes of the connections that it examines, what it leaves of the idle ones, and
what is heard of it.
-/

namespace Shardway.Pool

/-! ## Verdicts -/

namespace Exam

variable (tuning : Config.PoolTuning) (x : Exam)

/-- The connection had been idle for as long as one may be. -/
def Old : Prop := x.entry.since + tuning.minEvictableIdleMs ≤ x.time

/-- The connection had been idle for a while, and more were idle than should be. -/
def Spare : Prop :=
  tuning.softMinEvictableIdleMs ≠ 0 ∧
    x.entry.since + tuning.softMinEvictableIdleMs ≤ x.time ∧ tuning.minIdle < x.idle.length

def Stale : Prop := x.Old tuning ∨ x.Spare tuning

/-- The connection has to be pinged. -/
def IsTested : Prop := tuning.testWhileIdle = true ∧ ¬x.Stale tuning

/-- The connection has to be closed. -/
def Evicts : Prop := x.Stale tuning ∨ tuning.testWhileIdle = true ∧ x.ping = some false

instance : Decidable (x.Stale tuning) := by unfold Stale Old Spare; infer_instance

instance : Decidable (x.IsTested tuning) := by unfold IsTested; infer_instance

instance : Decidable (x.Evicts tuning) := by unfold Evicts; infer_instance

end Exam

/-- The examined connections that stay, in their order. -/
def staying (tuning : Config.PoolTuning) (xs : List Exam) : List Parked :=
  (xs.filter fun x => ¬x.Evicts tuning).map (·.entry)

/-- The examined connections that are closed. -/
def evicted (tuning : Config.PoolTuning) (xs : List Exam) : List Link :=
  (xs.filter fun x => x.Evicts tuning).map (·.entry.link)

/-- The examined connections that are pinged. -/
def tested (tuning : Config.PoolTuning) (xs : List Exam) : List Link :=
  (xs.filter fun x => x.IsTested tuning).map (·.entry.link)

/-- What is left of the idle connections `l` after these examinations. -/
def remaining (tuning : Config.PoolTuning) (l : List Parked) (xs : List Exam) : List Parked :=
  staying tuning xs ++ l.drop xs.length

/-- The examination after those `before` it is of the next one of the connections `l`, which is
pinged just when it has to be. -/
structure Exact (tuning : Config.PoolTuning) (l : List Parked) (before : List Exam) (x : Exam) :
    Prop where
  entry : l[before.length]? = some x.entry
  idle : x.idle = remaining tuning l before
  ping : x.ping.isSome = true ↔ x.IsTested tuning

variable {tuning : Config.PoolTuning} {l : List Parked} {xs ys : List Exam} {x : Exam}

@[simp] theorem staying_append :
    staying tuning (xs ++ ys) = staying tuning xs ++ staying tuning ys := by
  simp [staying]

@[simp] theorem evicted_append :
    evicted tuning (xs ++ ys) = evicted tuning xs ++ evicted tuning ys := by
  simp [evicted]

@[simp] theorem tested_append :
    tested tuning (xs ++ ys) = tested tuning xs ++ tested tuning ys := by
  simp [tested]

theorem staying_singleton :
    staying tuning [x] = if x.Evicts tuning then [] else [x.entry] := by
  by_cases h : x.Evicts tuning <;> simp [staying, h]

theorem evicted_singleton :
    evicted tuning [x] = if x.Evicts tuning then [x.entry.link] else [] := by
  by_cases h : x.Evicts tuning <;> simp [evicted, h]

theorem tested_singleton :
    tested tuning [x] = if x.IsTested tuning then [x.entry.link] else [] := by
  by_cases h : x.IsTested tuning <;> simp [tested, h]

theorem length_staying_le : (staying tuning xs).length ≤ xs.length := by
  rw [staying, List.length_map]
  exact List.length_filter_le ..

theorem exact_entries (h : Each (Exact tuning l) xs) : xs.map (·.entry) = l.take xs.length := by
  induction xs using List.reverseRecOn with
  | nil => rfl
  | append_singleton xs x ih =>
      obtain ⟨hxs, hx⟩ := each_concat.mp h
      rw [List.map_append, ih hxs, List.length_append, List.length_singleton, List.take_add_one,
        hx.entry]
      rfl

theorem exact_length_le (h : Each (Exact tuning l) xs) : xs.length ≤ l.length := by
  have := congrArg List.length (exact_entries h)
  rw [List.length_map, List.length_take] at this
  omega

/-- Only what is too old or does not answer is closed when no more connections are idle than should
be. -/
theorem min_le_length_remaining (h : Each (Exact tuning l) xs)
    (hx : ∀ x ∈ xs, ¬x.Old tuning ∧ x.ping ≠ some false) :
    min tuning.minIdle l.length ≤ (remaining tuning l xs).length := by
  induction xs using List.reverseRecOn with
  | nil => simp [remaining, staying]
  | append_singleton xs x ih =>
      obtain ⟨hxs, hlast⟩ := each_concat.mp h
      have ih := ih hxs fun y hy => hx y (List.mem_append_left _ hy)
      obtain ⟨hold, hping⟩ := hx x (by simp)
      have hlt : xs.length < l.length := by
        have := exact_length_le h
        rw [List.length_append] at this
        exact this
      have hidle := congrArg List.length hlast.idle
      simp only [remaining, staying_append, List.length_append, List.length_drop,
        List.length_singleton, staying_singleton] at ih hidle ⊢
      split
      · rename_i he
        have hs : x.Spare tuning := by
          rcases he with (he | he) | he
          · exact absurd he hold
          · exact he
          · exact absurd he.2 hping
        have := hs.2.2
        simp
        omega
      · simp
        omega

/-! ## What is heard of a pass -/

/-- The connection that is pinged. -/
def Event.pinged? : Event → Option Link
  | .told (.ping _ link) => some link
  | _ => none

/-- The connections that are pinged. -/
def pings (es : List Event) : List Link := es.filterMap Event.pinged?

@[simp] theorem pings_append (es es' : List Event) : pings (es ++ es') = pings es ++ pings es' :=
  List.filterMap_append

theorem mem_pings {es : List Event} {link : Link} :
    link ∈ pings es ↔ ∃ t, .told (.ping t link) ∈ es := by
  simp only [pings, List.mem_filterMap]
  constructor
  · rintro ⟨e, he, hl⟩
    cases e with
    | told e => cases e <;> cases hl; exact ⟨_, he⟩
    | _ => cases hl
  · rintro ⟨t, ht⟩
    exact ⟨_, ht, rfl⟩

theorem pings_inputs (p : Pool) (m : Move) : pings (p.inputs m) = [] := by
  rw [List.eq_nil_iff_forall_not_mem]
  intro link hl
  obtain ⟨t, ht⟩ := mem_pings.mp hl
  exact Story.told_notMem_inputs p m _ ht

/-- The events tell which connections were closed and pinged in these examinations, and which were
opened. -/
structure Tells (tuning : Config.PoolTuning) (xs : List Exam) (fresh : List Link)
    (es : List Event) : Prop where
  closings : closings es = evicted tuning xs
  pings : pings es = tested tuning xs
  openings : openings es = fresh

variable {es es' : List Event} {fresh fresh' : List Link}

theorem tells_nil : Tells tuning [] [] [] := ⟨rfl, rfl, rfl⟩

theorem Tells.append (h : Tells tuning xs fresh es) (h' : Tells tuning ys fresh' es') :
    Tells tuning (xs ++ ys) (fresh ++ fresh') (es ++ es') where
  closings := by rw [closings_append, evicted_append, h.closings, h'.closings]
  pings := by rw [pings_append, tested_append, h.pings, h'.pings]
  openings := by rw [openings_append, h.openings, h'.openings]

theorem Tells.more (h : Tells tuning xs fresh es) (hc : Pool.closings es' = [])
    (hp : Pool.pings es' = []) (ho : Pool.openings es' = []) : Tells tuning xs fresh (es ++ es') := by
  have h' : Tells tuning [] [] es' := ⟨hc, hp, ho⟩
  simpa using h.append h'

theorem closings_close (links : List Link) : closings (tell (links.map .close)) = links := by
  induction links with
  | nil => rfl
  | cons link links ih => simpa [Event.closed?] using ih

theorem pings_close (links : List Link) : pings (tell (links.map .close)) = [] := by
  induction links with
  | nil => rfl
  | cons link links ih => simpa [pings, Event.pinged?] using ih

theorem tells_close (h : ¬x.IsTested tuning) :
    Tells tuning [x] [] (tell ((evicted tuning [x]).map .close)) where
  closings := closings_close _
  pings := by rw [pings_close, tested_singleton, if_neg h]
  openings := Story.openings_tell _

/-- An unanswered ping is no reason to close a connection. -/
theorem evicts_iff_of_ping_eq_none (h : x.ping = none) : x.Evicts tuning ↔ x.Stale tuning := by
  simp [Exam.Evicts, h]

theorem evicted_of_isTested (h : x.IsTested tuning) (hp : x.ping = none) :
    evicted tuning [x] = [] := by
  rw [evicted_singleton, if_neg]
  rw [evicts_iff_of_ping_eq_none hp]
  exact h.2

end Shardway.Pool
