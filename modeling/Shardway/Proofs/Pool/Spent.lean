import Shardway.Proofs.Pool.Capacity

/-!
# Connections that broke

Only connections in hand of an operation are lent and pinged, and a closed connection is in no hand.
So a connection that is closed when it breaks is never used again.
-/

namespace Shardway.Pool

/-- The connection that is lent or pinged. -/
def Event.used? : Event → Option Link
  | .told (.lent _ link) => some link
  | .told (.ping _ link) => some link
  | _ => none

/-- No connection is lent or pinged after it was closed. -/
def Spent (past : List Event) : Prop :=
  past.Pairwise fun e e' => ∀ link, e.closed? = some link → e'.used? ≠ some link

theorem Spent.not_used {before after : List Event} {e : Event} {link : Link}
    (h : Spent (before ++ e :: after)) (hc : .told (.close link) ∈ before) :
    e.used? ≠ some link := by
  obtain ⟨-, -, h⟩ := List.pairwise_append.mp h
  exact h _ hc e List.mem_cons_self link rfl

namespace Ledger

variable {R : Nat → Parked → List Parked → Prop} {now : Nat} {l l' : Ledger}
  {past es : List Event} {link : Link}

theorem mem_links_of_mem_hands {x : Hand} (h : x ∈ l.hands) (hx : x.link? = some link) :
    link ∈ l.links :=
  Multiset.mem_add.mpr (.inr ((Multiset.mem_filterMap ..).mpr ⟨x, h, hx⟩))

theorem Sound.closed_notMem (h : l.Sound past) (hf : (openings past).Nodup) (hl : link ∈ l.links) :
    .told (.close link) ∉ past := by
  intro hc
  have hn : (↑(closings past) + l.links).Nodup := by
    rw [h.links]
    exact Multiset.coe_nodup.mpr hf
  exact Multiset.disjoint_left.mp (Multiset.nodup_add.mp hn).2.2
    (Multiset.mem_coe.mpr (mem_closings.mpr hc)) hl

/-- What is lent or pinged is in a hand. -/
theorem Step.used (h : Step R now l es l') {e : Event} (he : e ∈ es) (hu : e.used? = some link) :
    link ∈ l.links := by
  cases h with
  | @lend l k t =>
      cases List.mem_singleton.mp he
      cases hu
      exact mem_links_of_mem_hands (x := .holds link) (by simp) rfl
  | say ha =>
      cases List.mem_singleton.mp he
      cases ha with
      | ping hm =>
          cases hu
          exact mem_links_of_mem_hands hm rfl
      | _ => cases hu
  | shut _ =>
      simp only [tell, List.mem_map] at he
      obtain ⟨x, ⟨e', -, rfl⟩, rfl⟩ := he
      cases hu
  | reject =>
      rcases List.mem_pair.mp he with rfl | rfl
      · cases hu
      · cases hu
  | dial _ | opened | close | abandon | back | fail =>
      cases List.mem_singleton.mp he
      cases hu
  | _ => cases he

theorem Step.spent_self (h : Step R now l es l') : Spent es := by
  have hs (hn : ∀ e ∈ es, e.used? = none) : Spent es :=
    List.pairwise_of_forall_mem_list fun _ _ e' he' link _ => by simp [hn e' he']
  cases h with
  | @shut l _ =>
      refine hs fun e he => ?_
      simp only [tell, List.mem_map] at he
      obtain ⟨x, ⟨e', -, rfl⟩, rfl⟩ := he
      rfl
  | reject => exact hs (by simp [Event.used?])
  | _ => first | exact .nil | exact List.pairwise_singleton _ _

theorem Step.spent (h : Step R now l es l') (hl : l.Sound past) (hf : (openings past).Nodup)
    (hp : Spent past) : Spent (past ++ es) := by
  refine List.pairwise_append.mpr ⟨hp, h.spent_self, fun e he e' he' link hc hu => ?_⟩
  exact hl.closed_notMem hf (h.used he' hu)
    (mem_closings.mp (List.mem_filterMap.mpr ⟨e, he, hc⟩))

theorem Steps.spent (h : Steps R now l es l') (hl : l.Sound past)
    (hf : (openings (past ++ es)).Nodup) (hp : Spent past) : Spent (past ++ es) := by
  induction h generalizing past with
  | refl => rwa [List.append_nil]
  | cons hs _ ih =>
      rw [← List.append_assoc] at hf ⊢
      have hf' := (List.nodup_append'.mp ((openings_append _ _) ▸ hf)).1
      have hf'' := (List.nodup_append'.mp ((openings_append _ _) ▸ hf')).1
      exact ih (hs.sound hl) hf (hs.spent hl hf'' hp)

end Ledger

/-! ## Verdicts -/

/-- The move tells that a connection is not to be used any more. -/
inductive Condemns (p : Pool) : Move → Link → Prop
  /-- It comes back as an unhealthy one. -/
  | unhealthy {t : Ticket} {link : Link} : Condemns p (.giveBack t link false) link
  /-- Its borrower does not return it. -/
  | dropped {link : Link} : Condemns p (.letGo link) link
  /-- It does not answer a ping, whatever operation asked for that. -/
  | silent {t : Ticket} {link : Link} :
      p.hand? t = some (.holds link) → Condemns p (.pinged t false) link

variable {p : Pool} {m : Move} {link : Link} {t : Ticket}

theorem close_of_condemns (h : p.Condemns m link) (now : Nat) :
    ∃ es, (p.step now m).effects = .close link :: es := by
  cases h with
  | unhealthy => exact ⟨_, rfl⟩
  | dropped => exact ⟨_, rfl⟩
  | @silent t _ hh =>
      cases hw : p.waiting? t with
      | none => simp [hand?, hw] at hh
      | some w =>
          cases w with
          | borrow =>
              simp only [hand?, hw, Option.bind_eq_some_iff] at hh
              obtain ⟨s, hs, hh⟩ := hh
              cases s <;> cases hh
              simp only [step, hw, Pool.borrowPinged, hs]
              exact ⟨_, rfl⟩
          | giveBack =>
              simp only [hand?, hw, Option.map_eq_some_iff, Hand.holds.injEq] at hh
              obtain ⟨k, hs, rfl⟩ := hh
              simp only [step, hw, Pool.returnPinged, hs]
              exact ⟨_, rfl⟩
          | sweep =>
              simp only [hand?, hw, Option.map_eq_some_iff] at hh
              obtain ⟨s, hs, hh⟩ := hh
              cases s <;> cases hh
              simp only [step, hw, Pool.sweepPinged, hs]
              exact ⟨_, rfl⟩

theorem used?_inputs {e : Event} (he : e ∈ p.inputs m) : e.used? = none := by
  cases e with
  | told e => exact absurd he (Story.told_notMem_inputs p m e)
  | _ => rfl

namespace Story

variable {node : Node} {tuning : Config.PoolTuning} {s s' : Story} {now : Nat}

theorem Leads.spent (h : Leads (start node tuning) s) : Spent s.past := by
  induction h with
  | refl => exact .nil
  | @next s now m h hn ha ih =>
      have hk := h.kept kept_start
      have hs := (hk.reaches hn ha).steps
      exact hs.spent hk.sound (hk.next hn ha).fresh ih

end Story

end Shardway.Pool
