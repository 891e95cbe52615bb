import Shardway.Proofs.Router.Story
import Mathlib

/-!
# Refreshes one after the other

Only the refresh at the head of the queue probes. So all that it learns is newer than the index in
place, and the indexes that are put in place are numbered without a gap.
-/

namespace Shardway.Router

def Event.renewed? : Event → Option Index
  | .renewed _ x => some x
  | _ => none

/-- The indexes that refreshes have put in place. -/
def renewals (past : List Event) : List Index := past.filterMap Event.renewed?

/-- The refresh has begun to probe, once, and `mid` is all that has happened since. No index was put
in place in that time. -/
structure ProbedSince (past : List Event) (t : Ticket) (mid : List Event) : Prop where
  begun : ∃ pre, past = pre ++ .told (.probe t) :: mid ∧ .told (.probe t) ∉ pre
  once : .told (.probe t) ∉ mid
  unchanged : renewals mid = []

/-- The index is of groups elected from roles that their members have told the refresh, all of them
after the last index was put in place. -/
def DrawnUp (sets : List ReplicaSet) (past : List Event) (t : Ticket) (x : Index) : Prop :=
  ∃ mid, ProbedSince past t mid ∧
    ∀ g ∈ x.groups, ElectedBy sets (fun i j role => .answered t i j role ∈ mid) g

variable {config : Config.Cluster} {past es mid : List Event} {r r' : Router} {t : Ticket}

@[simp] theorem renewals_nil : renewals [] = [] := rfl

@[simp] theorem renewals_append (p q : List Event) : renewals (p ++ q) = renewals p ++ renewals q :=
  List.filterMap_append ..

theorem mem_renewals {x : Index} (h : .renewed t x ∈ past) : x ∈ renewals past :=
  List.mem_filterMap.mpr ⟨_, h, rfl⟩

theorem ProbedSince.append (h : ProbedSince past t mid) (hp : .told (.probe t) ∉ es)
    (hr : renewals es = []) : ProbedSince (past ++ es) t (mid ++ es) where
  begun := by
    obtain ⟨pre, rfl, hn⟩ := h.begun
    exact ⟨pre, by simp, hn⟩
  once := by
    rw [List.mem_append, not_or]
    exact ⟨h.once, hp⟩
  unchanged := by rw [renewals_append, h.unchanged, hr, List.append_nil]

/-! ## The queue -/

/-- The refreshes in progress, with all that has happened so far. -/
structure Serial (past : List Event) (r : Router) : Prop where
  tickets : (r.refreshes.map (·.1)).Nodup
  came : ∀ t ∈ r.refreshes.map (·.1), .came t ∈ past
  asked : ∀ t, .told (.probe t) ∈ past → .came t ∈ past
  behind : ∀ e ∈ r.refreshes.tail, e.2 = .waiting
  waiting : ∀ t, (t, .waiting) ∈ r.refreshes → .told (.probe t) ∉ past
  probing : ∀ t round, (t, .probing round) ∈ r.refreshes → ∃ mid, ProbedSince past t mid ∧
    round.Informed r.sets fun i j role => .answered t i j role ∈ mid

variable {rest : List (Ticket × RefreshStage)} {round : Round}

/-- No refresh begins to probe, and either nothing is put in place or nobody probes any more. -/
theorem Serial.sub (h : Serial past r) (hp : ∀ t, .told (.probe t) ∉ es) (hs : r'.sets = r.sets)
    (hr : r'.refreshes.Sublist r.refreshes)
    (hn : renewals es = [] ∨ ∀ e ∈ r'.refreshes, e.2 = .waiting) : Serial (past ++ es) r' where
  tickets := h.tickets.sublist (hr.map _)
  came := fun t ht => List.mem_append_left _ (h.came t ((hr.map _).subset ht))
  asked := fun t ht => by
    rcases List.mem_append.mp ht with ht | ht
    · exact List.mem_append_left _ (h.asked t ht)
    · exact absurd ht (hp t)
  behind := fun e he => h.behind e (hr.tail.subset he)
  waiting := fun t ht hm => by
    rcases List.mem_append.mp hm with hm | hm
    · exact h.waiting t (hr.subset ht) hm
    · exact hp t hm
  probing := fun t round ht => by
    rcases hn with hn | hn
    · obtain ⟨mid, hb, hi⟩ := h.probing t round (hr.subset ht)
      refine ⟨mid ++ es, hb.append (hp t) hn, hs ▸ hi.mono fun i j role hm => ?_⟩
      exact List.mem_append_left _ hm
    · cases hn _ ht

theorem Serial.queue (h : Serial past r) (ha : .came t ∉ past) :
    Serial (past ++ [.came t]) { r with refreshes := r.refreshes ++ [(t, .waiting)] } where
  tickets := by
    rw [List.map_append]
    refine List.nodup_append'.mpr ⟨h.tickets, List.nodup_singleton t, fun u hu hm => ?_⟩
    cases List.mem_singleton.mp hm
    exact ha (h.came t hu)
  came := fun u hu => by
    rw [List.map_append] at hu
    rcases List.mem_append.mp hu with hu | hu
    · exact List.mem_append_left _ (h.came u hu)
    · cases List.mem_singleton.mp hu
      exact List.mem_append_right _ List.mem_cons_self
  asked := fun u hu => List.mem_append_left _ (h.asked u (by simpa using hu))
  behind := fun e he => by
    have he : e ∈ r.refreshes.tail ++ [(t, .waiting)] := by
      cases hr : r.refreshes with
      | nil => simp [hr] at he
      | cons x l => simpa [hr] using he
    rcases List.mem_append.mp he with he | he
    · exact h.behind e he
    · exact congrArg (·.2) (List.mem_singleton.mp he)
  waiting := fun u hu hm => by
    have hm : .told (.probe u) ∈ past := by simpa using hm
    rcases List.mem_append.mp hu with hu | hu
    · exact h.waiting u hu hm
    · cases List.mem_singleton.mp hu
      exact ha (h.asked t hm)
  probing := fun u round hu => by
    have hu : (u, .probing round) ∈ r.refreshes := by simpa using hu
    obtain ⟨mid, hb, hi⟩ := h.probing u round hu
    refine ⟨mid ++ [.came t], hb.append (by simp) rfl, hi.mono fun i j role hm => ?_⟩
    exact List.mem_append_left _ hm

theorem Serial.begin (h : Serial past r) (hr : r.refreshes = (t, .waiting) :: rest) :
    Serial (past ++ [.told (.probe t)])
      { r with refreshes := (t, .probing (Round.start r.sets).state) :: rest } where
  tickets := by simpa [hr] using h.tickets
  came := fun u hu => List.mem_append_left _ (h.came u (by simpa [hr] using hu))
  asked := fun u hu => by
    rcases List.mem_append.mp hu with hu | hu
    · exact List.mem_append_left _ (h.asked u hu)
    · cases List.mem_singleton.mp hu
      exact List.mem_append_left _ (h.came t (by simp [hr]))
  behind := by simpa [hr] using h.behind
  waiting := fun u hu hm => by
    have hu : (u, .waiting) ∈ rest := by simpa using hu
    rcases List.mem_append.mp hm with hm | hm
    · exact h.waiting u (hr ▸ List.mem_cons_of_mem _ hu) hm
    · cases List.mem_singleton.mp hm
      have ht := h.tickets
      rw [hr, List.map_cons, List.nodup_cons] at ht
      exact ht.1 (List.mem_map_of_mem hu)
  probing := fun u round hu => by
    rcases List.mem_cons.mp hu with hu | hu
    · cases hu
      have hn : .told (.probe t) ∉ past := h.waiting t (hr ▸ List.mem_cons_self)
      exact ⟨[], ⟨⟨past, rfl, hn⟩, List.not_mem_nil, rfl⟩, Round.informed_start _ _⟩
    · cases h.behind _ (by simpa [hr] using hu)

/-- The refresh that probes learns something, or counts what it has learnt. -/
theorem Serial.goOn {round' : Round} (h : Serial past r)
    (hr : r.refreshes = (t, .probing round) :: rest) (hp : ∀ t, .told (.probe t) ∉ es)
    (hn : renewals es = [])
    (hi : ∀ mid, round.Informed r.sets (fun i j role => .answered t i j role ∈ mid) →
      round'.Informed r.sets fun i j role => .answered t i j role ∈ mid ++ es) :
    Serial (past ++ es) { r with refreshes := (t, .probing round') :: rest } where
  tickets := by simpa [hr] using h.tickets
  came := fun u hu => List.mem_append_left _ (h.came u (by simpa [hr] using hu))
  asked := fun u hu => by
    rcases List.mem_append.mp hu with hu | hu
    · exact List.mem_append_left _ (h.asked u hu)
    · exact absurd hu (hp u)
  behind := by simpa [hr] using h.behind
  waiting := fun u hu hm => by
    have hu : (u, .waiting) ∈ rest := by simpa using hu
    rcases List.mem_append.mp hm with hm | hm
    · exact h.waiting u (hr ▸ List.mem_cons_of_mem _ hu) hm
    · exact hp u hm
  probing := fun u x hu => by
    rcases List.mem_cons.mp hu with hu | hu
    · cases hu
      obtain ⟨mid, hb, hm⟩ := h.probing t round (hr ▸ List.mem_cons_self)
      exact ⟨mid ++ es, hb.append (hp t) hn, hi mid hm⟩
    · cases h.behind _ (by simpa [hr] using hu)

theorem Event.IsIdle.calm {e : Event} (h : e.IsIdle) :
    (∀ t, .told (.probe t) ∉ [e]) ∧ renewals [e] = [] := by
  refine ⟨fun t hm => ?_, ?_⟩
  · cases List.mem_singleton.mp hm
    exact h
  · cases e with
    | renewed => exact h.elim
    | _ => rfl

theorem Serial.turn (h : Serial past r) (ht : Story.Turn past r es r') :
    Serial (past ++ es) r' := by
  cases ht with
  | idle he => exact h.sub he.calm.1 rfl (.refl _) (.inl he.calm.2)
  | other hs hr _ _ _ => exact h.sub (by simp) hs (hr ▸ .refl _) (.inl rfl)
  | queue _ ha => exact h.queue ha
  | refuse _ => exact h.sub (by simp) rfl (.refl _) (.inl rfl)
  | begin hr => exact h.begin hr
  | @hear t round rest i j role hr =>
      refine h.goOn hr (by simp) rfl fun mid hi => ?_
      have hm : round.Informed r.sets fun k l x => .answered t k l x ∈
          mid ++ [.answered t i j role] :=
        hi.mono fun k l x hx => List.mem_append_left _ hx
      exact hm.answer (List.mem_append_right _ List.mem_cons_self)
  | @breakOff t round rest i reason hr =>
      refine h.goOn hr (by simp) rfl fun mid hi => ?_
      have hm : round.Informed r.sets fun k l x => .answered t k l x ∈
          mid ++ [.broke t i reason] :=
        hi.mono fun k l x hx => List.mem_append_left _ hx
      exact hm.breakOff
  | count hr _ =>
      refine h.goOn hr (by simp) rfl fun mid hi => ?_
      rw [List.append_nil]
      exact hi.collect
  | fail hr _ => exact h.sub (by simp) rfl (hr ▸ List.sublist_cons_self _ _) (.inl rfl)
  | renew _ hr _ hs hr' _ _ _ =>
      refine h.sub (by simp) hs ?_ (.inr fun e he => ?_)
      · rw [hr', hr]
        exact List.sublist_cons_self _ _
      · exact h.behind e (by rw [hr]; exact hr' ▸ he)
  | leave hs _ => exact h.sub (by simp) rfl hs (.inl rfl)

/-! ## The index in place -/

/-- The indexes that were put in place, and the one that is there now. -/
structure Numbered (past : List Event) (r : Router) : Prop where
  generation : r.generation = (renewals past).length + 1
  current : r.current.generation = r.generation
  numbered : (renewals past).map (·.generation) = List.range' 2 (renewals past).length
  last : ∀ x, (renewals past).getLast? = some x → r.current = x
  drawn : ∀ before t x after, past = before ++ .renewed t x :: after → DrawnUp r.sets before t x

theorem Numbered.keep (h : Numbered past r) (hn : renewals es = []) (hs : r'.sets = r.sets)
    (hc : r'.current = r.current) (hg : r'.generation = r.generation) :
    Numbered (past ++ es) r' where
  generation := by rw [hg, renewals_append, hn, List.append_nil, h.generation]
  current := by rw [hc, hg, h.current]
  numbered := by rw [renewals_append, hn, List.append_nil, h.numbered]
  last := fun x hx => by
    rw [renewals_append, hn, List.append_nil] at hx
    exact hc.trans (h.last x hx)
  drawn := fun before t x after hp => by
    rw [hs]
    rcases Pool.split_of_append hp with ⟨after', hp⟩ | ⟨before', -, he⟩
    · exact h.drawn before t x after' hp
    · have hm : x ∈ renewals es := mem_renewals (t := t) (by rw [he]; simp)
      rw [hn] at hm
      cases hm

theorem Numbered.renew {resolved : List ResolvedGroup} (h : Numbered past r) (hq : Serial past r)
    (hr : r.refreshes = (t, .probing round) :: rest)
    (ho : round.collect.2 = some (.ok resolved)) (hs : r'.sets = r.sets)
    (hg : r'.generation = r.generation + 1) (hc : r'.current.generation = r.generation + 1)
    (hx : r'.current.groups = resolved) :
    Numbered (past ++ [.renewed t r'.current]) r' where
  generation := by simp [hg, h.generation, renewals, Event.renewed?]
  current := hc.trans hg.symm
  numbered := by
    have hl : renewals [.renewed t r'.current] = [r'.current] := rfl
    rw [renewals_append, hl, List.map_append, h.numbered, List.length_append, List.length_singleton,
      List.range'_concat, List.map_singleton, hc, h.generation]
    congr 2
    omega
  last := fun x hl => by simpa [renewals, Event.renewed?] using hl
  drawn := fun before u x after hp => by
    rw [hs]
    rcases Pool.split_of_append hp with ⟨after', hp⟩ | ⟨before', rfl, he⟩
    · exact h.drawn before u x after' hp
    · -- The refresh that puts the index in place is the one that has probed.
      cases before' with
      | cons y l => simp at he
      | nil =>
          cases he
          obtain ⟨mid, hb, hi⟩ := hq.probing t round (hr ▸ List.mem_cons_self)
          rw [List.append_nil]
          exact ⟨mid, hb, hx ▸ hi.outcome ho⟩

theorem Numbered.turn (h : Numbered past r) (hq : Serial past r)
    (ht : Story.Turn past r es r') : Numbered (past ++ es) r' := by
  cases ht with
  | idle he => exact h.keep he.calm.2 rfl rfl rfl
  | other hs _ hc hg _ => exact h.keep rfl hs hc hg
  | renew _ hr ho hs _ hg hc hx => exact h.renew hq hr ho hs hg hc hx
  | _ => exact h.keep rfl rfl rfl rfl

theorem current_eq_of_turn (h : Story.Turn past r es r') (hn : renewals es = []) :
    r'.current = r.current := by
  cases h with
  | other _ _ hc _ _ => exact hc
  | renew => cases hn
  | _ => rfl

/-! ## Stories -/

namespace Story

variable {s s' : Story}

theorem serial_turns (h : Serial past r) (hn : Numbered past r) (ht : Turns past r es r') :
    Serial (past ++ es) r' ∧ Numbered (past ++ es) r' := by
  induction ht with
  | refl => exact ⟨by rwa [List.append_nil], by rwa [List.append_nil]⟩
  | tail _ ht ih =>
      rw [← List.append_assoc]
      exact ⟨ih.1.turn ht, ih.2.turn ih.1 ht⟩

theorem serial_ofResolved {background : Bool} {resolved : List ResolvedGroup} {started : Router}
    {told : List Effect}
    (h : ofResolved config background resolved = (.ok started, told)) :
    Serial [] started ∧ Numbered [] started := by
  obtain ⟨slots, opened, x, -, hx, rfl, -⟩ := ofResolved_eq_ok h
  exact ⟨⟨.nil, by simp, by simp, by simp, by simp, by simp⟩,
    ⟨rfl, Index.generation_of_build hx, rfl, by simp, by simp⟩⟩

theorem Runs.serial (h : Runs config s) : Serial s.past s.router ∧ Numbered s.past s.router := by
  induction h with
  | launch _ _ _ hs => exact serial_ofResolved hs
  | next now h ha ih => exact serial_turns ih.1 ih.2 (turns_next h.reachable ih.1.tickets ha now)

theorem Turns.current_eq (h : Turns past r es r') (hn : renewals es = []) :
    r'.current = r.current := by
  induction h with
  | refl => rfl
  | tail _ ht ih =>
      obtain ⟨hn, hn'⟩ := List.append_eq_nil_iff.mp ((renewals_append _ _) ▸ hn)
      exact (current_eq_of_turn ht hn').trans (ih hn)

/-- Nothing but a refresh that succeeds changes the index. -/
theorem Leads.current_eq (h : Runs config s) (hl : Leads s s')
    (hn : renewals s'.past = renewals s.past) : s'.router.current = s.router.current := by
  induction hl with
  | refl => rfl
  | @next s' m now hl ha ih =>
      obtain ⟨es, he⟩ := hl.exists_past_eq
      have hx : renewals es ++ renewals (s'.news now m) = [] := by
        simpa [Story.next, he, List.append_assoc] using hn
      obtain ⟨hx, hx'⟩ := List.append_eq_nil_iff.mp hx
      have h' := h.leads hl
      have ht := turns_next h'.reachable h'.serial.1.tickets ha now
      exact (ht.current_eq hx').trans (ih (by rw [he, renewals_append, hx, List.append_nil]))

/-- Refreshes never step back. Only the first of them probes. The indexes that they put in place
have the generations 2, 3, 4 and so on, in the order in which they are put in place, and the last one
is the current one. The generation never decreases, and nothing else changes the index. Each index
that was put in place is of groups elected from roles that were told to its refresh after the index
before it was put in place. -/
theorem refreshes_serial (h : Runs config s) :
    (∀ e ∈ s.router.refreshes.tail, e.2 = .waiting) ∧
      (renewals s.past).map (·.generation) = List.range' 2 (renewals s.past).length ∧
      s.router.current.generation = (renewals s.past).length + 1 ∧
      (∀ x, (renewals s.past).getLast? = some x → s.router.current = x) ∧
      (∀ s', Leads s s' → s.router.current.generation ≤ s'.router.current.generation ∧
        (renewals s'.past = renewals s.past → s'.router.current = s.router.current)) ∧
      ∀ before t x after, s.past = before ++ .renewed t x :: after →
        DrawnUp (ReplicaSet.ofNodes config.nodeList) before t x := by
  obtain ⟨hs, hn⟩ := h.serial
  have hg : s.router.current.generation = (renewals s.past).length + 1 :=
    hn.current.trans hn.generation
  refine ⟨hs.behind, hn.numbered, hg, hn.last, fun s' hl => ⟨?_, hl.current_eq h⟩, ?_⟩
  · obtain ⟨-, hn'⟩ := (h.leads hl).serial
    obtain ⟨es, he⟩ := hl.exists_past_eq
    rw [hg, hn'.current, hn'.generation, he, renewals_append, List.length_append]
    omega
  · rw [← h.reachable.steady.sets]
    exact hn.drawn

/-- Two refreshes have come to a router. -/
def twofold (r : Router) : Story := ((Story.mk r []).next 0 (.refresh 0)).next 0 (.refresh 1)

theorem Runs.twofold {r : Router} (h : Runs config { router := r }) : Runs config (twofold r) := by
  have h0 := h.next 0 (m := .refresh 0) (by simp [Admits])
  refine h0.next 0 fun hm => ?_
  cases eq_refresh_of_came hm

theorem exists_twofold :
    ∃ started told, ofResolved pair false pairGroups = (.ok started, told) ∧
      Runs pair (twofold started) := by
  obtain ⟨_, _, started, told, hp, hn, ho, hs⟩ := exists_launch_pair
  exact ⟨started, told, hs, (Runs.launch hp hn ho hs).twofold⟩

/-- The second refresh waits while the first one probes, and finds other roles than that one. -/
def overlapping : List (Nat × Move) :=
  [(1, .probed 0 1 0 .master), (2, .probed 0 0 0 .master), (2, .resume 0), (3, .resume 1),
    (4, .probed 1 0 0 .master), (5, .probed 1 1 0 (.unreachable "refused")), (5, .resume 1)]

theorem refreshes_serial_pair :
    ∃ s, Runs pair s ∧ (renewals s.past).map (·.generation) = [2, 3] ∧
      s.router.current.generation = 3 ∧
      ∀ before t x after, s.past = before ++ .renewed t x :: after →
        DrawnUp (ReplicaSet.ofNodes pair.nodeList) before t x := by
  obtain ⟨started, told, hs, h⟩ := exists_twofold
  have h' : Runs pair ((twofold started).play overlapping) :=
    h.leads (leads_play (by simp [overlapping]))
  have hl : (renewals ((twofold started).play overlapping).past).length = 2 := by
    have hr : (ofResolved pair false pairGroups).1.toOption.map
        (fun r => (renewals ((twofold r).play overlapping).past).length) = some 2 := by cbv
    rw [hs] at hr
    exact Option.some.inj hr
  obtain ⟨-, hn, hg, -, -, hd⟩ := refreshes_serial h'
  rw [hl] at hn hg
  exact ⟨_, h', hn, hg, hd⟩

end Story

end Shardway.Router
