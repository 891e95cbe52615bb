import Shardway.Notice

/-!
Retrying: an attempt that fails with a fault that may pass is made again after a pause, each pause
twice as long as the one before, up to a number of attempts.
-/
namespace Shardway

/-- How an operation is retried, seen from one of its attempts. -/
structure Retry where
  /-- How many attempts may be made. -/
  limit : Nat
  /-- How many attempts were made before this one. -/
  made : Nat := 0
  /-- The pause that would follow this attempt. -/
  pause : Span
deriving DecidableEq, Repr, Inhabited

namespace Retry

/-- The retry seen from the next attempt, if there is one after this fault. -/
def next? (r : Retry) (f : Fault) : Option Retry :=
  if f.isRetryable ∧ r.made + 1 < r.limit then
    some { r with made := r.made + 1, pause := ⟨r.pause.nanos * 2⟩ }
  else none

/-- What is told before the pause. -/
def notice (r : Retry) (f : Fault) : Notice := .retrying (r.made + 1) f r.pause

/-- The fault of an operation that may not be attempted at all. -/
def noAttempt : Fault := .internal "Max retries exceeded"

/-- What became of an operation: its result, and the faults it was retried after with the pauses
that followed. -/
structure Run (α : Type) where
  result : Except Fault α
  pauses : List (Retry × Fault)

/-- Runs an operation whose attempt number `i` has the outcome `outcome i`. At most `left` attempts
follow this one. -/
def attempt (outcome : Nat → Except Fault α) (r : Retry) : (left : Nat) → Run α
  | 0 => ⟨outcome r.made, []⟩
  | left + 1 =>
    match outcome r.made with
    | .ok a => ⟨.ok a, []⟩
    | .error f =>
      match r.next? f with
      | none => ⟨.error f, []⟩
      | some next =>
        let rest := attempt outcome next left
        ⟨rest.result, (r, f) :: rest.pauses⟩

/-- Runs an operation with at most `limit` attempts. -/
def run (outcome : Nat → Except Fault α) (limit : Nat) (pause : Span) : Run α :=
  match limit with
  | 0 => ⟨.error noAttempt, []⟩
  | n + 1 => attempt outcome ⟨n + 1, 0, pause⟩ n

end Retry
end Shardway
