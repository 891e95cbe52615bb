import Shardway.Number.Double

/-!
Floating-point numbers in decimal, with the fewest digits that read back as the same number; of
several such numbers of digits, the one nearest to the value.
-/
namespace Shardway.Double

/-- `n` times a power of ten. -/
structure Decimal where
  digits : Nat
  exponent : Int
deriving DecidableEq, Repr

/-- The exponent of the first decimal digit of `num / den`, which is not zero and not below the
smallest floating-point number. -/
def leadingExponent (num den : Nat) : Int :=
  (Nat.toDigits 10 (num * Nat.pow 10 350 / den)).length - 351

/-- `num / den` divided by `10 ^ k`, as a quotient. -/
def inTens (num den : Nat) (k : Int) : Nat × Nat :=
  if 0 ≤ k then (num, den * Nat.pow 10 k.toNat) else (num * Nat.pow 10 (-k).toNat, den)

/-- The decimal with `count` digits that lies between `low / den` and `high / den` and is nearest to
`mid / den`; the ends belong to the interval if `ends` holds. -/
def nearestWith (low mid high den : Nat) (ends : Bool) (lead : Int) (count : Nat) :
    Option Decimal :=
  let k : Int := lead + 1 - count
  let (n, d) := inTens mid den k
  let below := n / d
  let (l, _) := inTens low den k
  let (h, _) := inTens high den k
  let inside (x : Nat) : Bool := if ends then l ≤ x * d && x * d ≤ h else l < x * d && x * d < h
  match inside below, inside (below + 1) with
  | true, true => some ⟨if 2 * (n % d) < d then below else below + 1, k⟩
  | true, false => some ⟨below, k⟩
  | false, true => some ⟨below + 1, k⟩
  | false, false => none

/-- The fewest digits that read back as `m * 2 ^ e`, which is not zero. -/
def shortest (m : Nat) (e : Int) : Decimal :=
  let (mid, den) := shifted (4 * m) 1 (e - 2)
  let (high, _) := shifted (4 * m + 2) 1 (e - 2)
  let narrow := m = leastMantissa ∧ e > leastExponent
  let (low, _) := shifted (if narrow then 4 * m - 1 else 4 * m - 2) 1 (e - 2)
  let lead := leadingExponent mid den
  ((List.range 17).findSome? fun i =>
    nearestWith low mid high den (m % 2 = 0) lead (i + 1)).getD ⟨mid / den, 0⟩

/-- Digits without the zeros at their end, and the exponent of the first of them. -/
def Decimal.normal (d : Decimal) : List Char × Int :=
  let cs := Nat.toDigits 10 d.digits
  let kept := (cs.reverse.dropWhile (· = '0')).reverse
  (kept, d.exponent + cs.length - 1)

/-- Digits written in full around the point; `lead` is the exponent of the first. -/
def positional (cs : List Char) (lead : Int) : List Char :=
  if lead < 0 then '0' :: '.' :: List.replicate (-lead - 1).toNat '0' ++ cs
  else
    let before := lead.toNat + 1
    let whole := cs.take before ++ List.replicate (before - cs.length) '0'
    match cs.drop before with
    | [] => whole
    | part => whole ++ '.' :: part

/-- One digit before the point, and the exponent after a mark. -/
def scientific (cs : List Char) (lead : Int) : List Char :=
  let mantissa := match cs with
    | c :: d :: r => c :: '.' :: d :: r
    | cs => cs
  mantissa ++ 'e' :: (toString lead).toList

/-- Whether a number is written in full: always, or unless it is very large or very small, when a
whole number keeps its point. -/
inductive Style
  | plain
  | marked
deriving DecidableEq, Repr

/-- Between these exponents the marked style writes numbers in full. -/
def Style.writesInFull (lead : Int) : Style → Bool
  | plain => true
  | marked => -4 ≤ lead && lead < 16

/-- The text of a number that is finite, without its sign. -/
def magnitude (s : Style) (m : Nat) (e : Int) : List Char :=
  let (cs, lead) := if m = 0 then (['0'], 0) else (shortest m e).normal
  if s.writesInFull lead then
    let full := positional cs lead
    if s = .marked && !full.contains '.' then full ++ ['.', '0'] else full
  else scientific cs lead

/-- The text of a number in a style. -/
def textIn (s : Style) (d : Double) : String :=
  let sign (negative : Bool) (cs : List Char) := String.ofList (if negative then '-' :: cs else cs)
  match d.view with
  | .nan => "NaN"
  | .infinite negative => sign negative "inf".toList
  | .finite negative m e => sign negative (magnitude s m e)

end Shardway.Double
