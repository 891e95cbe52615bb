import Shardway.Simulation.Network
import Shardway.Proofs.Topology.Progress
import Mathlib.Data.List.MinMax
import Mathlib.Logic.Relation

/-!
# Rounds in time

Every probe takes its time, and its deadline cuts it off. The outcome of a round depends on nothing
but what each probe has told by then, in whatever order the answers are taken, and it is there when
the last deadline has passed at the latest.
-/

namespace Shardway

/-- Whatever steps are taken, some state is reached for which `P` holds, and none before it is
stuck. -/
inductive Inevitably {α : Type} (step : α → α → Prop) (P : α → Prop) : α → Prop
  | now {a : α} : P a → Inevitably step P a
  | later {a : α} : (∃ b, step a b) → (∀ b, step a b → Inevitably step P b) → Inevitably step P a

section

variable {α : Type} {step : α → α → Prop} {P I : α → Prop} {a : α}

/-- It is enough that every step keeps an invariant and takes something away from a number. -/
theorem inevitably_of_measure (f : α → Nat) (hn : ∀ a, I a → ¬P a → ∃ b, step a b)
    (hs : ∀ a b, I a → ¬P a → step a b → I b ∧ f b < f a) (h : I a) : Inevitably step P a := by
  induction hf : f a using Nat.strongRecOn generalizing a with
  | ind n ih =>
      subst hf
      by_cases hp : P a
      · exact .now hp
      · refine .later (hn a h hp) fun b hb => ?_
        obtain ⟨hi, hlt⟩ := hs a b h hp hb
        exact ih (f b) hlt hi rfl

theorem Inevitably.exists_reached (h : Inevitably step P a) :
    ∃ b, Relation.ReflTransGen step a b ∧ P b := by
  induction h with
  | now hp => exact ⟨_, .refl, hp⟩
  | later hn _ ih =>
      obtain ⟨b, hb⟩ := hn
      obtain ⟨c, hc, hp⟩ := ih b hb
      exact ⟨c, .head hb hc, hp⟩

end

/-! ## Probes -/

namespace Simulation.Act

/-- The role that a probe tells by its deadline. -/
def heard (act : Act) (n : Node) : Role :=
  match act.fate with
  | .tells role => if act.delay ≤ n.probeDeadline.ceilMillis then role else n.timedOut
  | _ => n.timedOut

/-- The probe breaks its group off for a reason, and does so by its deadline. -/
def BreaksOff (act : Act) (n : Node) (reason : String) : Prop :=
  act.fate = .breaks reason ∧ act.delay ≤ n.probeDeadline.ceilMillis

variable {act : Act} {n : Node} {role : Role} {reason : String}

theorem settled_le (act : Act) (n : Node) : (act.settled n).1 ≤ n.probeDeadline.ceilMillis := by
  unfold settled
  cases act.fate with
  | hangs => exact Nat.le_refl _
  | tells role =>
      dsimp only
      split
      · assumption
      · exact Nat.le_refl _
  | breaks reason =>
      dsimp only
      split
      · assumption
      · exact Nat.le_refl _

/-- A probe comes to its end in one of two ways. -/
theorem settled_cases (act : Act) (n : Node) :
    ((act.settled n).2 = .tells (act.heard n) ∧ ∀ reason, ¬act.BreaksOff n reason) ∨
      ∃ reason, (act.settled n).2 = .breaks reason ∧ act.BreaksOff n reason := by
  obtain ⟨delay, fate⟩ := act
  by_cases hd : delay ≤ n.probeDeadline.ceilMillis
  · cases fate <;> simp [settled, heard, BreaksOff, hd]
  · cases fate <;> simp [settled, heard, BreaksOff, hd]

theorem heard_of_settled (h : (act.settled n).2 = .tells role) :
    role = act.heard n ∧ ∀ reason, ¬act.BreaksOff n reason := by
  rcases act.settled_cases n with ⟨hs, hb⟩ | ⟨reason, hs, -⟩
  · cases h.symm.trans hs
    exact ⟨rfl, hb⟩
  · cases h.symm.trans hs

theorem breaksOff_of_settled (h : (act.settled n).2 = .breaks reason) :
    act.BreaksOff n reason := by
  rcases act.settled_cases n with ⟨hs, -⟩ | ⟨_, hs, hb⟩
  · cases h.symm.trans hs
  · cases h.symm.trans hs
    exact hb

end Simulation.Act

/-- For a bound of whole milliseconds the deadline is twice the bound and 100 ms, unless no span is
that long. -/
theorem ceilMillis_probeDeadline (a : Address) (g : GroupId) (ms : Nat) :
    (Node.probeDeadline ⟨a, g, .ofMillis ms⟩).ceilMillis =
      min (2 * ms + 100) Span.longest.ceilMillis := by
  simp only [Node.probeDeadline, Span.ceilMillis, Span.ofMillis, probeGrace]
  omega

namespace Round

open Simulation

/-! ## The clock of a round -/

/-- The member `j` of the group at place `i`. -/
def member? (sets : List ReplicaSet) (i j : Nat) : Option Node :=
  sets[i]?.bind (·.members[j]?)

/-- A round with a clock. -/
structure Timed where
  round : Round
  /-- The milliseconds since the round began. -/
  elapsed : Nat := 0
  result : Option (Except Fault (List ResolvedGroup)) := none

namespace Timed

/-- A round of these groups begins. -/
def start (sets : List ReplicaSet) : Timed := { round := (Round.start sets).state }

/-- What can come next in a round that has no result yet. What is due now comes before the clock
goes on, in any order. -/
inductive Step (sets : List ReplicaSet) (acts : Nat → Nat → Act) : Timed → Timed → Prop
  | tell {s : Timed} {i j : Nat} {n : Node} {role : Role} :
      s.result = none → member? sets i j = some n → s.round.awaits i j = true →
      (acts i j).settled n = (s.elapsed, .tells role) →
      Step sets acts s { s with round := (s.round.answer i j role).state }
  | breakOff {s : Timed} {i j : Nat} {n : Node} {reason : String} :
      s.result = none → member? sets i j = some n → s.round.awaits i j = true →
      (acts i j).settled n = (s.elapsed, .breaks reason) →
      Step sets acts s { s with round := s.round.breakOff i reason }
  | collect {s : Timed} :
      s.result = none → s.round.isReady = true →
      Step sets acts s { s with round := s.round.collect.1.state, result := s.round.collect.2 }
  | wait {s : Timed} {d : Nat} :
      s.result = none → s.round.isReady = false → 0 < d →
      (∀ i j n, member? sets i j = some n → s.round.awaits i j = true →
        s.elapsed + d ≤ ((acts i j).settled n).1) →
      Step sets acts s { s with elapsed := s.elapsed + d }

abbrev Steps (sets : List ReplicaSet) (acts : Nat → Nat → Act) : Timed → Timed → Prop :=
  Relation.ReflTransGen (Step sets acts)

end Timed

variable {sets : List ReplicaSet} {acts : Nat → Nat → Act} {r : Round} {i j k l : Nat}
  {role : Role} {reason : String} {n : Node} {resolved : List ResolvedGroup}

/-! ## Members that are awaited -/

theorem awaits_iff : r.awaits i j = true ↔
    ∃ p, r.polls[i]? = some p ∧ p.closed = false ∧ p.roles[j]? = some none := by
  unfold awaits
  cases hp : r.polls[i]? with
  | none => simp
  | some p => simp

theorem ClosesWith.awaits {p : Poll} {v : Verdict} {r' : Round} (h : ClosesWith i p v r r')
    (ha : r'.awaits k l = true) : r.awaits k l = true := by
  obtain ⟨q, hq, ho, hl⟩ := awaits_iff.mp ha
  rw [h.state] at hq
  by_cases hki : i = k
  · subst hki
    rw [List.getElem?_set_self (List.getElem?_eq_some_iff.mp h.poll).1] at hq
    cases hq
    cases ho
  · rw [List.getElem?_set_ne hki] at hq
    exact awaits_iff.mpr ⟨q, hq, ho, hl⟩

theorem awaits_of_answer (ha : (r.answer i j role).state.awaits k l = true) :
    r.awaits k l = true := by
  have hc : (r.hear i j role).awaits k l = true := by
    rw [answer_eq] at ha
    rcases (r.hear i j role).close_cases i with ⟨hs, -⟩ | ⟨p, roles, -, hc⟩
    · rwa [hs] at ha
    · exact hc.awaits ha
  rcases r.hear_cases i j role with ⟨hs, -⟩ | ⟨p, hp, ho, hs⟩
  · rwa [hs] at hc
  · obtain ⟨q, hq, hqo, hl⟩ := awaits_iff.mp hc
    rw [hs] at hq
    by_cases hki : i = k
    · subst hki
      rw [List.getElem?_set_self (List.getElem?_eq_some_iff.mp hp).1] at hq
      cases hq
      refine awaits_iff.mpr ⟨p, hp, ho, ?_⟩
      -- What was noted is no place that is still to be heard.
      simp only [Poll.note, List.getElem?_modify] at hl
      split at hl
      · cases hx : p.roles[l]? <;> simp [hx] at hl
      · simpa using hl
    · rw [List.getElem?_set_ne hki] at hq
      exact awaits_iff.mpr ⟨q, hq, hqo, hl⟩

theorem awaits_of_breakOff (ha : (r.breakOff i reason).awaits k l = true) :
    r.awaits k l = true := by
  rcases r.breakOff_cases i reason with hs | ⟨p, hc⟩
  · rwa [hs] at ha
  · exact hc.awaits ha

theorem work_breakOff_lt (reason : String) (ha : r.awaits i j = true) :
    (r.breakOff i reason).work < r.work := by
  obtain ⟨p, hp, ho, hj⟩ := awaits_iff.mp ha
  rcases r.breakOff_cases i reason with hs | ⟨q, hc⟩
  · -- An open group can be broken off.
    have hv : (r.breakOff i reason).verdicts = r.verdicts ++ [.brokenOff reason] := by
      simp [Round.breakOff, hp, ho]
    rw [hs] at hv
    simp at hv
  · cases hp.symm.trans hc.poll
    have hw := hc.work
    have hpos : 0 < p.roles.count none := List.count_pos_iff.mpr (List.mem_of_getElem? hj)
    omega

theorem Informed.exists_member {told : Nat → Nat → Role → Prop} (h : r.Informed sets told)
    (ha : r.awaits i j = true) : ∃ n, member? sets i j = some n := by
  obtain ⟨p, hp, -, hj⟩ := awaits_iff.mp ha
  have hs : sets[i]? = some p.set := by rw [← h.polls, List.getElem?_map, hp, Option.map_some]
  have hl : j < p.set.members.length := by
    rw [← h.sizes p (List.mem_of_getElem? hp)]
    exact (List.getElem?_eq_some_iff.mp hj).1
  exact ⟨p.set.members[j], by rw [member?, hs, Option.bind_some, List.getElem?_eq_getElem hl]⟩

/-! ## The outcome -/

/-- The probe of some member breaks off for a reason. -/
def Breaks (sets : List ReplicaSet) (acts : Nat → Nat → Act) (reason : String) : Prop :=
  ∃ i j n, member? sets i j = some n ∧ (acts i j).BreaksOff n reason

theorem not_breaks (h : ∀ i j reason, (acts i j).fate ≠ .breaks reason) (reason : String) :
    ¬Breaks sets acts reason :=
  fun ⟨i, j, _, _, hf, _⟩ => h i j reason hf

/-- The groups as they are elected from what their members tell in time. -/
def elected (sets : List ReplicaSet) (acts : Nat → Nat → Act) : List ResolvedGroup :=
  sets.mapIdx fun i set => elect set (set.members.mapIdx fun j n => (acts i j).heard n)

/-- A round that has gone as the probes go. -/
structure Faithful (sets : List ReplicaSet) (acts : Nat → Nat → Act) (r : Round) : Prop where
  runs : Runs sets r
  ongoing : Ongoing sets r
  informed : r.Informed sets fun i j role =>
    ∃ n, member? sets i j = some n ∧ ((acts i j).settled n).2 = .tells role
  broken : ∀ reason, .brokenOff reason ∈ r.verdicts → Breaks sets acts reason

theorem faithful_start (sets : List ReplicaSet) (acts : Nat → Nat → Act) :
    Faithful sets acts (Round.start sets).state :=
  ⟨.start, ongoing_start sets, informed_start sets _, fun _ h => absurd h brokenOff_notMem_start⟩

/-- The group in a place of the outcome is elected from the answers of the members in that place. -/
theorem Faithful.getElem?_outcome {g : ResolvedGroup} (h : Faithful sets acts r)
    (hs : (sets.map (·.id)).Pairwise (· < ·)) (ho : r.collect.2 = some (.ok resolved))
    (hg : resolved[i]? = some g) : ∃ set roles, sets[i]? = some set ∧ g = elect set roles ∧
      roles.length = set.members.length ∧ ∀ j role, roles[j]? = some role →
        ∃ n, member? sets i j = some n ∧ ((acts i j).settled n).2 = .tells role := by
  obtain ⟨k, set, roles, hk, rfl, hl, hr⟩ := h.informed.outcome ho g (List.mem_of_getElem? hg)
  have hids := h.ongoing.sane.map_id_outcome hs ho
  have hi : (sets.map (·.id))[i]? = some set.id := by
    rw [← hids, List.getElem?_map, hg]
    rfl
  have hk' : (sets.map (·.id))[k]? = some set.id := by rw [List.getElem?_map, hk, Option.map_some]
  have hik : i = k := (List.getElem?_inj (List.getElem?_eq_some_iff.mp hi).1
    (nodup_of_pairwise_lt hs)).mp (hi.trans hk'.symm)
  subst hik
  exact ⟨set, roles, hk, rfl, hl, hr⟩

theorem Faithful.outcome (h : Faithful sets acts r) (hs : (sets.map (·.id)).Pairwise (· < ·))
    (ho : r.collect.2 = some (.ok resolved)) :
    (∀ reason, ¬Breaks sets acts reason) ∧ resolved = elected sets acts := by
  have hlen : resolved.length = sets.length := by
    simpa using congrArg List.length (h.ongoing.sane.map_id_outcome hs ho)
  constructor
  · rintro reason ⟨i, j, n, hm, hb⟩
    obtain ⟨set, hset, hn⟩ := Option.bind_eq_some_iff.mp hm
    have hi : i < resolved.length := hlen ▸ (List.getElem?_eq_some_iff.mp hset).1
    obtain ⟨set', roles, hset', -, hl, hr⟩ :=
      h.getElem?_outcome hs ho (List.getElem?_eq_getElem hi)
    cases hset.symm.trans hset'
    -- The member has told a role, so its probe did not break off.
    have hj : j < roles.length := hl ▸ (List.getElem?_eq_some_iff.mp hn).1
    obtain ⟨n', hm', ht⟩ := hr j _ (List.getElem?_eq_getElem hj)
    cases hm.symm.trans hm'
    exact (Act.heard_of_settled ht).2 reason hb
  · refine List.ext_getElem? fun i => ?_
    cases hg : resolved[i]? with
    | none =>
        have hi : sets[i]? = none := by
          rw [List.getElem?_eq_none_iff, ← hlen, ← List.getElem?_eq_none_iff, hg]
        simp [elected, hi]
    | some g =>
        obtain ⟨set, roles, hset, rfl, hl, hr⟩ := h.getElem?_outcome hs ho hg
        have hroles : roles = set.members.mapIdx fun j n => (acts i j).heard n := by
          refine List.ext_getElem? fun j => ?_
          cases hj : roles[j]? with
          | none =>
              have hn : set.members[j]? = none := by
                rw [List.getElem?_eq_none_iff, ← hl, ← List.getElem?_eq_none_iff, hj]
              simp [hn]
          | some role =>
              obtain ⟨n, hm, ht⟩ := hr j role hj
              have hn : set.members[j]? = some n := by simpa [member?, hset] using hm
              simp [hn, (Act.heard_of_settled ht).1]
        simp [elected, hset, hroles]

theorem Faithful.result {x : Except Fault (List ResolvedGroup)} (h : Faithful sets acts r)
    (hs : (sets.map (·.id)).Pairwise (· < ·)) (ho : r.collect.2 = some x) :
    ((∃ reason, Breaks sets acts reason) →
        ∃ reason, Breaks sets acts reason ∧ x = .error (brokenOffFault reason)) ∧
      ((∀ reason, ¬Breaks sets acts reason) → x = .ok (elected sets acts)) := by
  cases x with
  | error f =>
      obtain ⟨reason, rfl, hb⟩ := fault_of_collect ho
      have hbreaks := h.broken reason hb
      exact ⟨fun _ => ⟨reason, hbreaks, rfl⟩, fun hn => absurd hbreaks (hn reason)⟩
  | ok resolved =>
      obtain ⟨hn, rfl⟩ := h.outcome hs ho
      exact ⟨fun ⟨reason, hb⟩ => absurd hb (hn reason), fun _ => rfl⟩

/-! ## Steps -/

/-- The last deadline of a member. -/
def lastDeadline (sets : List ReplicaSet) : Nat :=
  ((sets.flatMap (·.members)).map (·.probeDeadline.ceilMillis)).foldr max 0

theorem le_lastDeadline (hm : member? sets i j = some n) :
    n.probeDeadline.ceilMillis ≤ lastDeadline sets := by
  obtain ⟨set, hset, hn⟩ := Option.bind_eq_some_iff.mp hm
  have hmem : n.probeDeadline.ceilMillis ∈
      (sets.flatMap (·.members)).map (·.probeDeadline.ceilMillis) :=
    List.mem_map_of_mem (List.mem_flatMap.mpr
      ⟨set, List.mem_of_getElem? hset, List.mem_of_getElem? hn⟩)
  exact List.le_max_of_le' 0 hmem (Nat.le_refl _)

namespace Timed

/-- A round that has gone as the probes go, in their time. -/
structure Timely (sets : List ReplicaSet) (acts : Nat → Nat → Act) (s : Timed) : Prop where
  faithful : s.result = none → Faithful sets acts s.round
  result : ∀ x, s.result = some x → ∃ r, Faithful sets acts r ∧ r.collect.2 = some x
  due : ∀ i j n, member? sets i j = some n → s.round.awaits i j = true →
    s.elapsed ≤ ((acts i j).settled n).1
  elapsed : s.elapsed ≤ lastDeadline sets

variable {s s' : Timed}

/-- What there is still to do and to wait for. -/
def remains (sets : List ReplicaSet) (s : Timed) : Nat :=
  s.round.work + (lastDeadline sets - s.elapsed) + if s.result = none then 1 else 0

theorem timely_start (sets : List ReplicaSet) (acts : Nat → Nat → Act) :
    (start sets).Timely sets acts :=
  ⟨fun _ => faithful_start sets acts, nofun, fun _ _ _ _ _ => Nat.zero_le _, Nat.zero_le _⟩

theorem Timely.step (h : s.Timely sets acts) (hs : (sets.map (·.id)).Pairwise (· < ·))
    (hst : Step sets acts s s') : s'.Timely sets acts ∧ s'.remains sets < s.remains sets := by
  cases hst with
  | @tell i j n role hr hm ha hd =>
      have hf := h.faithful hr
      refine ⟨⟨fun _ => ⟨hf.runs.answer i j role, hf.ongoing.answer, ?_, ?_⟩, ?_, ?_, h.elapsed⟩,
        ?_⟩
      · exact hf.informed.answer ⟨n, hm, by rw [hd]⟩
      · exact fun reason hb => hf.broken reason (brokenOff_of_answer hb)
      · exact h.result
      · exact fun k l m hm hk => h.due k l m hm (awaits_of_answer hk)
      · have hw : (s.round.answer i j role).state.work + (s.round.awaits i j).toNat =
            s.round.work := work_answer
        rw [ha, Bool.toNat_true] at hw
        simp only [remains]
        omega
  | @breakOff i j n reason hr hm ha hd =>
      have hf := h.faithful hr
      refine ⟨⟨fun _ => ⟨hf.runs.breakOff i reason, hf.ongoing.breakOff, hf.informed.breakOff, ?_⟩,
        ?_, ?_, h.elapsed⟩, ?_⟩
      · intro why hw
        rcases mem_of_breakOff hw with hw | rfl
        · exact hf.broken why hw
        · exact ⟨i, j, n, hm, Act.breaksOff_of_settled (by rw [hd])⟩
      · exact h.result
      · exact fun k l m hm hk => h.due k l m hm (awaits_of_breakOff hk)
      · have hw := work_breakOff_lt reason ha
        simp only [remains]
        omega
  | collect hr hready =>
      have hf := h.faithful hr
      refine ⟨⟨fun ho => ⟨hf.runs.collect, hf.ongoing.collect ho, hf.informed.collect, ?_⟩, ?_,
        h.due, h.elapsed⟩, ?_⟩
      · simp [Round.collect]
      · exact fun x hx => ⟨s.round, hf, hx⟩
      · have hw := s.round.work_collect
        simp only [remains, hr, if_true]
        split
        · rename_i ho
          have hv := List.length_pos_of_ne_nil (hf.ongoing.verdicts_ne_nil hready ho)
          omega
        · omega
  | @wait d hr hready hd hdue =>
      have hf := h.faithful hr
      obtain ⟨i, j, ha⟩ := (hf.ongoing.isReady_or_awaits hs).resolve_left (by simp [hready])
      obtain ⟨n, hm⟩ := hf.informed.exists_member ha
      have hle : s.elapsed + d ≤ lastDeadline sets :=
        Nat.le_trans (hdue i j n hm ha)
          (Nat.le_trans ((acts i j).settled_le n) (le_lastDeadline hm))
      refine ⟨⟨fun _ => hf, h.result, hdue, hle⟩, ?_⟩
      simp only [remains]
      omega

theorem Timely.steps (h : s.Timely sets acts) (hs : (sets.map (·.id)).Pairwise (· < ·))
    (hst : Steps sets acts s s') : s'.Timely sets acts := by
  induction hst with
  | refl => exact h
  | tail _ hst ih => exact (ih.step hs hst).1

/-- A round without a result is not stuck. -/
theorem Timely.exists_step (h : s.Timely sets acts) (hr : s.result = none) :
    ∃ s', Step sets acts s s' := by
  have hf := h.faithful hr
  by_cases hready : s.round.isReady = true
  · exact ⟨_, .collect hr hready⟩
  by_cases hnow : ∃ i j n, member? sets i j = some n ∧ s.round.awaits i j = true ∧
      ((acts i j).settled n).1 = s.elapsed
  · obtain ⟨i, j, n, hm, ha, hd⟩ := hnow
    rcases (acts i j).settled_cases n with ⟨ht, -⟩ | ⟨reason, hb, -⟩
    · exact ⟨_, .tell hr hm ha (Prod.ext hd ht)⟩
    · exact ⟨_, .breakOff hr hm ha (Prod.ext hd hb)⟩
  · refine ⟨_, .wait hr (by simpa using hready) Nat.one_pos fun i j n hm ha => ?_⟩
    exact Nat.lt_of_le_of_ne (h.due i j n hm ha) fun he => hnow ⟨i, j, n, hm, ha, he.symm⟩

theorem Timely.inevitable (h : s.Timely sets acts) (hs : (sets.map (·.id)).Pairwise (· < ·)) :
    Inevitably (Step sets acts) (·.result.isSome) s :=
  inevitably_of_measure (remains sets)
    (fun _ h hr => h.exists_step (by simpa using hr)) (fun _ _ h _ hst => h.step hs hst) h

/-- Of the groups of any nodes, whatever their probes do and in whatever order it is taken up: the
round comes to a result, by the last deadline of a member. If some probe breaks off in time, the
result is a fault with the reason of such a probe. Otherwise it is one group for each set, elected
from what each of its members has told by its deadline, which is twice the bound of the member and
100 ms. So no group depends on the probes of another one. -/
theorem resolution_timing (nodes : List Node) (acts : Nat → Nat → Act) :
    let sets := ReplicaSet.ofNodes nodes
    Inevitably (Step sets acts) (·.result.isSome) (start sets) ∧
      (∀ s, Steps sets acts (start sets) s →
        s.elapsed ≤ lastDeadline sets ∧
        ∀ x, s.result = some x →
          ((∃ reason, Breaks sets acts reason) →
            ∃ reason, Breaks sets acts reason ∧ x = .error (brokenOffFault reason)) ∧
          ((∀ reason, ¬Breaks sets acts reason) → x = .ok (elected sets acts))) ∧
      (∀ acts' s s' i groups groups', (∀ j, acts i j = acts' i j) →
        Steps sets acts (start sets) s → Steps sets acts' (start sets) s' →
        s.result = some (.ok groups) → s'.result = some (.ok groups') →
        groups[i]? = groups'[i]?) ∧
      ∀ n ∈ nodes, ∀ ms, n.timeout = .ofMillis ms →
        n.probeDeadline.ceilMillis = min (2 * ms + 100) Span.longest.ceilMillis := by
  intro sets
  have hs : (sets.map (·.id)).Pairwise (· < ·) := ReplicaSet.pairwise_ofNodes nodes
  refine ⟨(timely_start sets acts).inevitable hs, fun s hst => ?_, ?_, ?_⟩
  · have h := (timely_start sets acts).steps hs hst
    refine ⟨h.elapsed, fun x hx => ?_⟩
    obtain ⟨r, hr, ho⟩ := h.result x hx
    exact hr.result hs ho
  · intro acts' s s' i groups groups' hi hst hst' hg hg'
    obtain ⟨r, hr, ho⟩ := ((timely_start sets acts).steps hs hst).result _ hg
    obtain ⟨r', hr', ho'⟩ := ((timely_start sets acts').steps hs hst').result _ hg'
    rw [(hr.outcome hs ho).2, (hr'.outcome hs ho').2]
    simp only [elected, List.getElem?_mapIdx, hi]
  · intro n _ ms hms
    obtain ⟨a, g, _⟩ := n
    cases hms
    exact ceilMillis_probeDeadline a g ms

/-- Two groups, one of them with a member that never answers. -/
def hungNodes : List Node :=
  [⟨⟨"a", 6379⟩, 1, .ofMillis 500⟩, ⟨⟨"hung", 6379⟩, 2, .ofMillis 500⟩,
    ⟨⟨"c", 6379⟩, 2, .ofMillis 500⟩]

def hungActs : Nat → Nat → Act
  | 1, 0 => ⟨0, .hangs⟩
  | _, _ => ⟨0, .tells .master⟩

theorem resolution_timing_hung :
    ∃ s, Steps (ReplicaSet.ofNodes hungNodes) hungActs (start (ReplicaSet.ofNodes hungNodes)) s ∧
      s.elapsed ≤ 1100 ∧
      s.result = some (.ok [⟨1, some ⟨⟨"a", 6379⟩, 1, .ofMillis 500⟩, [], []⟩,
        ⟨2, some ⟨⟨"c", 6379⟩, 2, .ofMillis 500⟩, [], [⟨⟨"hung", 6379⟩, 2, .ofMillis 500⟩]⟩]) := by
  obtain ⟨hi, hr, -, -⟩ := resolution_timing hungNodes hungActs
  have hl : lastDeadline (ReplicaSet.ofNodes hungNodes) = 1100 := by decide +kernel
  have hb : ∀ reason, ¬Breaks (ReplicaSet.ofNodes hungNodes) hungActs reason :=
    not_breaks fun i j reason => by unfold hungActs; split <;> simp
  obtain ⟨s, hs, hx⟩ := hi.exists_reached
  obtain ⟨x, hx⟩ := Option.isSome_iff_exists.mp hx
  obtain ⟨he, ho⟩ := hr s hs
  refine ⟨s, hs, hl ▸ he, ?_⟩
  rw [hx, (ho x hx).2 hb]
  rfl

end Timed

end Round

end Shardway
