import Shardway.Text.Digits
import Shardway.Text.Unicode

/-!
Spans of time in nanoseconds: their text in the largest unit that fits, and the short form in which
a user writes them. Tickers: the times at which a task that is repeated with a period runs.
-/
namespace Shardway

/-- A length of time. -/
structure Span where
  nanos : Nat
deriving DecidableEq, Repr, Inhabited

namespace Span

def ofMillis (n : Nat) : Span := ⟨n * 1000000⟩

def ofSeconds (n : Nat) : Span := ⟨n * 1000000000⟩

def zero : Span := ⟨0⟩

/-- Whole seconds. -/
def seconds (s : Span) : Nat := s.nanos / 1000000000

/-- What is left beyond the whole seconds. -/
def subsecNanos (s : Span) : Nat := s.nanos % 1000000000

/-- The longest span: 64 bits of seconds and one nanosecond less than another second. -/
def longest : Span := ⟨0x10000000000000000 * 1000000000 - 1⟩

/-- The span in milliseconds, rounded up: how long a clock that counts milliseconds waits. -/
def ceilMillis (s : Span) : Nat := (s.nanos + 999999) / 1000000

/-- The decimals of `part / unit`, for a part below the unit, without the zeros at their end. -/
def decimals (unit part : Nat) : List Char :=
  if part = 0 ∨ unit ≤ 1 then []
  else
    Nat.digitChar (part * 10 / unit) :: decimals (unit / 10) (part - part * 10 / unit * (unit / 10))
termination_by unit
decreasing_by omega

/-- `nanos` counted in a unit of so many nanoseconds. -/
def inUnit (nanos unit : Nat) (name : String) : String :=
  let fraction := decimals unit (nanos % unit)
  let point := if fraction.isEmpty then [] else ['.']
  toString (nanos / unit) ++ String.ofList (point ++ fraction) ++ name

/-- The span in the largest unit of which it holds at least one. -/
def text (s : Span) : String :=
  if s.nanos ≥ 1000000000 then inUnit s.nanos 1000000000 "s"
  else if s.nanos ≥ 1000000 then inUnit s.nanos 1000000 "ms"
  else if s.nanos ≥ 1000 then inUnit s.nanos 1000 "µs"
  else inUnit s.nanos 1 "ns"

/-! ## The short form -/

/-- The units of the short form. -/
inductive Unit
  | millis | seconds | minutes | hours
deriving DecidableEq, Repr

namespace Unit

def symbol : Unit → String
  | millis => "ms"
  | seconds => "s"
  | minutes => "m"
  | hours => "h"

def ofSymbol? : String → Option Unit
  | "ms" => some millis
  | "s" => some seconds
  | "m" => some minutes
  | "h" => some hours
  | _ => none

/-- So many of the unit. Minutes and hours are counted in 64 bits of seconds, without a look at what
does not fit. -/
def span : Unit → Nat → Span
  | millis, n => .ofMillis n
  | seconds, n => .ofSeconds n
  | minutes, n => .ofSeconds (n * 60 % 0x10000000000000000)
  | hours, n => .ofSeconds (n * 3600 % 0x10000000000000000)

end Unit

/-- Why a text is no span. -/
inductive ParseFault
  | empty
  | missingUnit (text : String)
  | badNumber (text : String)
  | unknownUnit (unit : String)
deriving DecidableEq, Repr

def ParseFault.message : ParseFault → String
  | empty => "empty duration"
  | missingUnit t => s!"missing duration unit: {t}"
  | badNumber t => s!"invalid duration: {t}"
  | unknownUnit u => s!"unknown duration unit: {u}"

/-- Reads digits followed by a unit, with blanks around. -/
def parse (s : String) : Except ParseFault Span :=
  let trimmed := Text.trimChars s.toList
  let digits := trimmed.takeWhile Text.isDigit
  let unit := String.ofList (trimmed.dropWhile Text.isDigit)
  if trimmed.isEmpty then .error .empty
  else if unit.isEmpty then .error (.missingUnit (String.ofList trimmed))
  else
    match Text.readNat? 0x10000000000000000 digits with
    | none => .error (.badNumber (String.ofList trimmed))
    | some n =>
      match Unit.ofSymbol? unit with
      | none => .error (.unknownUnit unit)
      | some u => .ok (u.span n)

end Span

/-! ## Tickers -/

/-- What becomes of the rhythm when a run comes late. -/
inductive Rhythm
  /-- Every run keeps its place; runs that were missed follow at once. -/
  | kept
  /-- The next run comes a full period after the late one. -/
  | shifted
deriving DecidableEq, Repr

/-- A ticker; times are in milliseconds. -/
structure Ticker where
  rhythm : Rhythm
  period : Nat
  /-- When the next run is due. -/
  due : Nat
deriving DecidableEq, Repr

namespace Ticker

/-- A run that comes no later than this counts as punctual. -/
def tolerance : Nat := 5

/-- The first run, at the start, is over at once, and the next is due a period later. -/
def start (rhythm : Rhythm) (period now : Nat) : Ticker := ⟨rhythm, period, now + period⟩

/-- The ticker once the run that was due takes place. -/
def advance (now : Nat) (k : Ticker) : Ticker :=
  if k.rhythm = .shifted ∧ k.due + tolerance < now then { k with due := now + k.period }
  else { k with due := k.due + k.period }

end Ticker
end Shardway
