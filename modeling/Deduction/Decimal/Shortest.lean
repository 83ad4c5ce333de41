/-
Shortest decimals. A number that a machine keeps in binary with 53 bits is written with the fewest
digits that read back as the same number. Here the numbers are the fractions 1/2, 1/4, 1/8 and so
on; from 2^-1075 on they are kept as zero.
-/

namespace Deduction.Decimal

/-- A decimal fraction: `digits` divided by ten to the power `places`. -/
structure Fraction where
  digits : Nat
  places : Nat

/-- The least power of two that is kept, as the negated exponent. -/
def lastHalving : Nat := 1074

/-- The first power of two, as the negated exponent, below which the kept numbers stand at one
distance from each other. -/
def evenSpacing : Nat := 1022

/-- Whether a decimal fraction reads back as 2^-n: whether it lies in the interval of the numbers
that are nearer to 2^-n than to its neighbours, whose ends count unless 2^-n is the last number
kept. All is measured in quarters of the distance to the neighbour above. -/
def readsBack (n : Nat) (d : Fraction) : Bool :=
  let unit := if n ≤ evenSpacing then n + 54 else lastHalving + 2
  let value := Nat.pow 2 (unit - n) * Nat.pow 10 d.places
  let scaled := d.digits * Nat.pow 2 unit
  let below := (if n < evenSpacing then 1 else 2) * Nat.pow 10 d.places
  let above := 2 * Nat.pow 10 d.places
  if n = lastHalving then value < scaled + below && scaled < value + above
  else value ≤ scaled + below && scaled ≤ value + above

/-- Of the two decimals of so many places that enclose 2^-n, the one that reads back; of two the
nearer. -/
def ofPlaces? (n places : Nat) : Option Fraction :=
  let below := Nat.pow 10 places / Nat.pow 2 n
  let rest := Nat.pow 10 places % Nat.pow 2 n
  let candidates := if 2 * rest ≤ Nat.pow 2 n then [below, below + 1] else [below + 1, below]
  (candidates.map (Fraction.mk · places)).find? (readsBack n)

/-- The decimal of fewest places, from `places` on, that reads back as 2^-n. -/
def shortestFrom (n places : Nat) : Nat → Fraction
  | 0 => ⟨Nat.pow 5 n, n⟩
  | tries + 1 => (ofPlaces? n places).getD (shortestFrom n (places + 1) tries)

/-- The shortest decimal that reads back as 2^-n. -/
def shortest (n : Nat) : Fraction :=
  shortestFrom n 0 n

/-- A positive decimal below one as text: in full with up to three zeros behind the point, and with
an exponent of two digits or more beyond that. -/
def Fraction.text (d : Fraction) : String :=
  let digits := toString d.digits
  let lead := d.places - digits.length
  if lead ≤ 3 then "0." ++ String.ofList (List.replicate lead '0') ++ digits
  else
    let exponent := toString (lead + 1)
    let mantissa := match digits.toList with
      | [c] => [c]
      | c :: cs => c :: '.' :: cs
      | [] => []
    String.ofList mantissa ++ "e-" ++ (if exponent.length < 2 then "0" else "") ++ exponent

def halves (n : Nat) : String :=
  if n = 0 then "1.0" else if n ≤ lastHalving then (shortest n).text else "0.0"

end Deduction.Decimal
