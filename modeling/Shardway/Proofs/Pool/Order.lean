import Shardway.Proofs.Pool.Story

/-!
# The order of the idle connections

Returned connections go to the back, so the idle ones are in the order of their idle times. Only one
move can disturb the order: an examined connection goes back behind so many others as were kept
before it, whatever has come and gone during its ping. Where it `Fits` there, the order stays.
-/

namespace Shardway.Pool

/-- From the front on, no connection has been idle longer than the one before it. -/
def Ordered (l : List Parked) : Prop := l.Pairwise fun a b => a.since ≤ b.since

/-- Behind the first `k` connections is a place for `e` by its idle time. -/
structure Fits (k : Nat) (e : Parked) (l : List Parked) : Prop where
  before : ∀ x ∈ l.take k, x.since ≤ e.since
  behind : ∀ x ∈ l.drop k, e.since ≤ x.since

variable {now k : Nat} {e : Parked} {l : List Parked}

theorem insertIdx_eq_take_drop (hk : k ≤ l.length) :
    l.insertIdx k e = l.take k ++ e :: l.drop k := by
  induction l generalizing k with
  | nil => simp_all
  | cons x l ih =>
      cases k with
      | zero => rfl
      | succ k => simpa using ih (by simpa using hk)

theorem insertIdx_length (a b : List Parked) (e : Parked) :
    (a ++ b).insertIdx (min a.length (a ++ b).length) e = a ++ e :: b := by
  have hk : min a.length (a ++ b).length = a.length := by simp
  rw [hk, insertIdx_eq_take_drop (by simp), List.take_left, List.drop_left]

theorem eraseIdx_length (a b : List Parked) : (a ++ e :: b).eraseIdx a.length = a ++ b := by
  rw [List.eraseIdx_append_of_length_le le_rfl, Nat.sub_self, List.eraseIdx_cons_zero]

/-- In a place where it does not fit, a connection is out of order. -/
theorem ordered_insertIdx (hl : Ordered l) (hk : k ≤ l.length) :
    Ordered (l.insertIdx k e) ↔ Fits k e l := by
  have hs : Ordered (l.take k ++ l.drop k) := by rwa [List.take_append_drop]
  obtain ⟨ht, hd, htd⟩ := List.pairwise_append.mp hs
  rw [insertIdx_eq_take_drop hk, Ordered, List.pairwise_append, List.pairwise_cons]
  constructor
  · rintro ⟨-, ⟨hb, -⟩, ha⟩
    exact ⟨fun x hx => ha x hx e List.mem_cons_self, hb⟩
  · rintro ⟨ha, hb⟩
    refine ⟨ht, ⟨hb, hd⟩, fun x hx y hy => ?_⟩
    rcases List.mem_cons.mp hy with rfl | hy
    · exact ha x hx
    · exact htd x hx y hy

theorem Ordered.eraseIdx (hl : Ordered l) (k : Nat) : Ordered (l.eraseIdx k) :=
  hl.sublist (List.eraseIdx_sublist ..)

theorem Ordered.append {link : Link} (hl : Ordered l) (hn : ∀ e ∈ l, e.since ≤ now) :
    Ordered (l ++ [⟨link, now⟩]) := by
  refine List.pairwise_append.mpr ⟨hl, List.pairwise_singleton .., fun x hx y hy => ?_⟩
  rw [List.mem_singleton.mp hy]
  exact hn x hx

theorem ordered_of_length_le_one (h : l.length ≤ 1) : Ordered l := by
  match l, h with
  | [], _ => exact .nil
  | [e], _ => exact List.pairwise_singleton ..

/-! ## Steps -/

/-- Where examined connections may go back to. -/
def InPlace (now : Nat) (k : Nat) (e : Parked) (l : List Parked) : Prop :=
  Fits k e l ∧ e.since ≤ now

namespace Ledger

variable {a a' : Ledger} {es : List Event}

theorem Step.since_le (h : Step (InPlace now) now a es a') (ha : ∀ e ∈ a.idle, e.since ≤ now) :
    ∀ e ∈ a'.idle, e.since ≤ now := by
  cases h with
  | take _ => exact fun e he => ha e (List.mem_of_mem_eraseIdx he)
  | park _ =>
      intro e he
      rcases List.mem_append.mp he with he | he
      · exact ha e he
      · rw [List.mem_singleton.mp he]
  | repark _ _ hr =>
      intro x hx
      rcases List.eq_or_mem_of_mem_insertIdx hx with rfl | hx
      · exact hr.2
      · exact ha x hx
  | shut _ => intro e he; cases he
  | _ => exact ha

theorem Step.ordered (h : Step (InPlace now) now a es a') (ha : ∀ e ∈ a.idle, e.since ≤ now)
    (ho : Ordered a.idle) : Ordered a'.idle := by
  cases h with
  | take _ => exact ho.eraseIdx _
  | park _ => exact ho.append ha
  | repark _ hk hr => exact (ordered_insertIdx ho hk).mpr hr.1
  | shut _ => exact .nil
  | _ => exact ho

theorem Steps.ordered (h : Steps (InPlace now) now a es a') (ha : ∀ e ∈ a.idle, e.since ≤ now)
    (ho : Ordered a.idle) : Ordered a'.idle := by
  induction h with
  | refl => exact ho
  | cons hs _ ih => exact ih (hs.since_le ha) (hs.ordered ha ho)

end Ledger

/-! ## Moves -/

/-- What is examined fits the place where the move puts it, if it puts it back. -/
def KeepsPlace (p : Pool) (m : Move) : Prop :=
  ∀ t e left pass, m = .pinged t true → find? t p.sweeps = some (.pinging e left pass) →
    p.isFull = false → Fits (min pass.kept p.idle.length) e p.idle

theorem Coherent.ordered_step {p : Pool} {m : Move} (h : p.Coherent now) (ha : p.Accepts m)
    (hm : p.KeepsPlace m) (ho : Ordered p.idle) : Ordered (p.step now m).state.idle := by
  have hr : Reaches (InPlace now) now p.ledger (p.inputs m) 0 (p.step now m) :=
    h.step ha fun t e left pass ht hs hf =>
      ⟨hm t e left pass ht hs hf, (h.examined t e left pass (mem_of_find? hs)).since_le⟩
  have := hr.steps.ordered h.since_le ho
  rwa [Ledger.add_zero] at this

/-! ## The two ends -/

/-- In order, the connection that is lent next is the one that came back last, or the one that has
been idle longest. -/
theorem takeIdle?_ordered {p q : Pool} (ho : Ordered p.idle) (h : p.takeIdle? = some (e, q)) :
    ∀ x ∈ p.idle, if p.tuning.lifo then x.since ≤ e.since else e.since ≤ x.since := by
  intro x hx
  unfold takeIdle? at h
  split at h
  · rename_i hl
    obtain ⟨e', he, heq⟩ := Option.map_eq_some_iff.mp h
    cases heq
    obtain ⟨r, hr⟩ := List.getLast?_eq_some_iff.mp he
    rw [hr] at ho hx
    rw [if_pos hl]
    rcases List.mem_append.mp hx with hx | hx
    · exact (List.pairwise_append.mp ho).2.2 x hx e List.mem_cons_self
    · rw [List.mem_singleton.mp hx]
  · rename_i hl
    obtain ⟨e', he, heq⟩ := Option.map_eq_some_iff.mp h
    cases heq
    obtain ⟨r, hr⟩ := List.head?_eq_some_iff.mp he
    rw [hr] at ho hx
    rw [if_neg hl]
    rcases List.mem_cons.mp hx with rfl | hx
    · exact le_rfl
    · exact (List.pairwise_cons.mp ho).1 x hx

/-! ## Tunings -/

/-- The tuning makes eviction passes ping connections, and lets more than one be idle. -/
structure MayMisplace (tuning : Config.PoolTuning) : Prop where
  testWhileIdle : tuning.testWhileIdle = true
  testsPerEviction : 0 < tuning.testsPerEviction
  minEvictableIdleMs : 0 < tuning.minEvictableIdleMs
  maxIdle : 2 ≤ tuning.maxIdle

namespace Story

variable {node : Node} {tuning : Config.PoolTuning} {s : Story}

theorem Leads.ordered (hm : ¬MayMisplace tuning) (h : Leads (start node tuning) s) :
    Ordered s.pool.idle := by
  have hk := h.kept kept_start
  have ht : s.pool.tuning = tuning := h.tuning_eq kept_start
  by_cases hi : 2 ≤ tuning.maxIdle
  · induction h with
    | refl => exact .nil
    | @next s' now m h' hn ha ih =>
        have hk' := h'.kept kept_start
        have ht' : s'.pool.tuning = tuning := h'.tuning_eq kept_start
        refine (hk'.coherent.later hn).ordered_step ha.accepts ?_ (ih hk' ht')
        intro t e left pass _ hs _
        -- Without pings nothing is under examination between two moves.
        obtain ⟨hw, hms, hl, -⟩ := hk'.coherent.examined t e left pass (mem_of_find? hs)
        rw [ht'] at hw hms hl
        exact absurd ⟨hw, Nat.zero_lt_of_lt hl, hms, hi⟩ hm
  · have hl := hk.sound.idle_le
    rw [ledger_tuning, ht] at hl
    exact ordered_of_length_le_one (hl.trans (by omega))

end Story

end Shardway.Pool
