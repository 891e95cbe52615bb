/-!
Reactions: what a state becomes, and what is asked for or told on the way.
-/
namespace Shardway

/-- A state of type `σ` after a move, and the effects of the move in order. -/
structure Reaction (ε σ : Type) where
  state : σ
  effects : List ε := []
deriving DecidableEq, Repr

namespace Reaction

variable {ε ε' σ τ : Type}

/-- One move after another. -/
def andThen (r : Reaction ε σ) (f : σ → Reaction ε τ) : Reaction ε τ :=
  ⟨(f r.state).state, r.effects ++ (f r.state).effects⟩

/-- Tells something more. -/
def tell (r : Reaction ε σ) (e : ε) : Reaction ε σ := ⟨r.state, r.effects ++ [e]⟩

/-- The same move of a part, seen from the whole. -/
def lift (r : Reaction ε σ) (state : σ → τ) (effect : ε → ε') : Reaction ε' τ :=
  ⟨state r.state, r.effects.map effect⟩

@[simp] theorem andThen_state (r : Reaction ε σ) (f : σ → Reaction ε τ) :
    (r.andThen f).state = (f r.state).state := rfl

@[simp] theorem andThen_effects (r : Reaction ε σ) (f : σ → Reaction ε τ) :
    (r.andThen f).effects = r.effects ++ (f r.state).effects := rfl

@[simp] theorem tell_state (r : Reaction ε σ) (e : ε) : (r.tell e).state = r.state := rfl

@[simp] theorem tell_effects (r : Reaction ε σ) (e : ε) :
    (r.tell e).effects = r.effects ++ [e] := rfl

@[simp] theorem lift_state (r : Reaction ε σ) (state : σ → τ) (effect : ε → ε') :
    (r.lift state effect).state = state r.state := rfl

@[simp] theorem lift_effects (r : Reaction ε σ) (state : σ → τ) (effect : ε → ε') :
    (r.lift state effect).effects = r.effects.map effect := rfl

end Reaction
end Shardway
