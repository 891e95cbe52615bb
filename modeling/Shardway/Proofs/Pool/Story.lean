import Shardway.Proofs.Pool.Moves

/-!
# Stories of a pool

A story is a pool with the time and all that has happened to it. Operations run side by side: any
move of any operation may come next, and time passes between moves as it will. What a story keeps is
what every ledger step keeps.
-/

namespace Shardway.Pool

theorem openings_inputs_pinged (p : Pool) (t : Ticket) (alive : Bool) :
    openings (p.inputs (.pinged t alive)) = [] := by
  cases alive <;> simp only [inputs] <;> split <;> simp [Event.opened?]

structure Story where
  pool : Pool
  now : Nat := 0
  past : List Event := []

namespace Story

/-- A new pool, to which nothing has happened. -/
def start (node : Node) (tuning : Config.PoolTuning) : Story where
  pool := ofNode node tuning

/-- What a move adds to the past. -/
def news (s : Story) (now : Nat) (m : Move) : List Event :=
  s.pool.inputs m ++ tell (s.pool.step now m).effects

def next (s : Story) (now : Nat) (m : Move) : Story where
  pool := (s.pool.step now m).state
  now := now
  past := s.past ++ s.news now m

/-- The pool accepts the move, and a connection that is new has not been there before. -/
structure Admits (s : Story) (m : Move) : Prop where
  accepts : s.pool.Accepts m
  fresh : ∀ link ∈ openings (s.pool.inputs m), link ∉ openings s.past

instance (p : Pool) : (m : Move) → Decidable (p.Accepts m)
  | .borrow t => inferInstanceAs (Decidable (p.waiting? t = none))
  | .giveBack t link _ => inferInstanceAs (Decidable (p.waiting? t = none ∧ link ∈ p.lent))
  | .letGo link => inferInstanceAs (Decidable (link ∈ p.lent))
  | .sweep t => inferInstanceAs (Decidable (p.waiting? t = none))
  | .takeUp _ | .expire _ | .abandon _ | .pinged _ _ | .connected _ _ | .shutdown =>
    inferInstanceAs (Decidable True)

instance (s : Story) (m : Move) : Decidable (s.Admits m) :=
  decidable_of_iff
    (s.pool.Accepts m ∧ ∀ link ∈ openings (s.pool.inputs m), link ∉ openings s.past)
    ⟨fun h => ⟨h.1, h.2⟩, fun h => ⟨h.1, h.2⟩⟩

/-- A story goes on by moves that are admitted, in any order. -/
inductive Leads (s : Story) : Story → Prop
  | refl : Leads s s
  | next {s' : Story} {now : Nat} {m : Move} :
      Leads s s' → s'.now ≤ now → s'.Admits m → Leads s (s'.next now m)

/-- What holds all along. -/
structure Kept (s : Story) : Prop where
  coherent : s.pool.Coherent s.now
  sound : s.pool.ledger.Sound s.past
  fresh : (openings s.past).Nodup

variable {node : Node} {tuning : Config.PoolTuning} {s s' s'' : Story} {now : Nat} {m : Move}

theorem Leads.trans (h : Leads s s') (h' : Leads s' s'') : Leads s s'' := by
  induction h' with
  | refl => exact h
  | next _ hn ha ih => exact ih.next hn ha

/-- What has happened stays in the past. -/
theorem Leads.exists_past_eq (h : Leads s s') : ∃ es, s'.past = s.past ++ es := by
  induction h with
  | refl => exact ⟨[], (List.append_nil _).symm⟩
  | @next s' now m _ _ _ ih =>
      obtain ⟨es, he⟩ := ih
      refine ⟨es ++ s'.news now m, ?_⟩
      simp [Story.next, he]

theorem kept_start : (start node tuning).Kept where
  coherent := by constructor <;> simp [start, ofNode, Distinct]
  sound := by
    constructor <;> simp [start, ofNode, ledger, hands, Ledger.busy, Ledger.links, Ledger.lentCount]
  fresh := by simp [start]

theorem openings_tell (es : List Effect) : openings (tell es) = [] := by
  induction es with
  | nil => rfl
  | cons e es ih => simpa [Event.opened?] using ih

theorem openings_inputs_nodup (p : Pool) (m : Move) : (openings (p.inputs m)).Nodup := by
  have h : (openings (p.inputs m)).length ≤ 1 := by
    refine (List.length_filterMap_le _ _).trans ?_
    unfold inputs
    split <;> (try split) <;> (try split) <;> simp
  match openings (p.inputs m), h with
  | [], _ => exact List.nodup_nil
  | [link], _ => exact List.nodup_singleton link

theorem Kept.reaches (h : s.Kept) (hn : s.now ≤ now) (ha : s.Admits m) :
    Reaches (fun _ _ _ => True) now s.pool.ledger (s.pool.inputs m) 0 (s.pool.step now m) :=
  (h.coherent.later hn).step ha.accepts fun _ _ _ _ _ _ _ => trivial

theorem Kept.next (h : s.Kept) (hn : s.now ≤ now) (ha : s.Admits m) : (s.next now m).Kept where
  coherent := (h.reaches hn ha).coherent
  sound := by simpa [Story.next, news] using (h.reaches hn ha).steps.sound h.sound
  fresh := by
    simp only [Story.next, news, openings_append, openings_tell, List.append_nil]
    exact List.nodup_append'.mpr ⟨h.fresh, openings_inputs_nodup _ _, fun link ho hi =>
      ha.fresh link hi ho⟩

theorem Leads.kept (h : Leads s s') (hs : s.Kept) : s'.Kept := by
  induction h with
  | refl => exact hs
  | next _ hn ha ih => exact ih.next hn ha

theorem Leads.tuning_eq (h : Leads s s') (hs : s.Kept) : s'.pool.tuning = s.pool.tuning := by
  induction h with
  | refl => rfl
  | next h' hn ha ih => exact (((h'.kept hs).reaches hn ha).steps.tuning_eq).trans ih

/-- The gauge of lent connections follows their number. -/
theorem Leads.active (h : Leads s s') (hs : s.Kept) (hw : s.pool.tuning.maxTotal < 2 ^ 64)
    (ha : s.pool.metrics.active.value.toNat = s.pool.ledger.lentCount) :
    s'.pool.metrics.active.value.toNat = s'.pool.ledger.lentCount := by
  induction h with
  | refl => exact ha
  | @next s' now m h' hn hm ih =>
      have hk := h'.kept hs
      have hw' : s'.pool.ledger.tuning.maxTotal < 2 ^ 64 := by
        rw [ledger_tuning, h'.tuning_eq hs]
        exact hw
      have hm := (hk.reaches hn hm).steps.active hw' hk.sound.permits ih
      rw [Ledger.add_zero] at hm
      exact hm

/-! ## Stories as lists of moves -/

/-- The story after moves at given times. -/
def play (s : Story) : List (Nat × Move) → Story
  | [] => s
  | (now, m) :: ms => (s.next now m).play ms

/-- All the moves are admitted, one after the other. -/
def Plays (s : Story) : List (Nat × Move) → Prop
  | [] => True
  | (now, m) :: ms => s.now ≤ now ∧ s.Admits m ∧ (s.next now m).Plays ms

instance decidablePlays (s : Story) : (ms : List (Nat × Move)) → Decidable (s.Plays ms)
  | [] => inferInstanceAs (Decidable True)
  | (now, m) :: ms =>
    have := decidablePlays (s.next now m) ms
    inferInstanceAs (Decidable (s.now ≤ now ∧ s.Admits m ∧ (s.next now m).Plays ms))

theorem Plays.leads {ms : List (Nat × Move)} (h : s.Plays ms) : Leads s (s.play ms) := by
  induction ms generalizing s with
  | nil => exact .refl
  | cons x ms ih =>
      obtain ⟨hn, ha, hr⟩ := h
      exact (Leads.refl.next hn ha).trans (ih hr)

end Story

end Shardway.Pool
