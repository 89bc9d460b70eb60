/-!
Magnitudes of binary64 floats, as integers scaled by powers of two. The quotient of two integers is
rounded to the nearest magnitude, a half to the even one; what rounds above the greatest magnitude has
none. Products, quotients and decimal scaling are rounded by that one rule. Rounding is off by at most a
half (`nearest_within_half`).
-/

namespace FieldSeal

/-- The magnitude `significand * 2 ^ exponent`. -/
structure Binary64 where
  significand : Nat
  exponent : Int
  significand_lt : significand < 0x20000000000000
  le_exponent : -1074 ≤ exponent
  exponent_le : exponent ≤ 971
  deriving DecidableEq, Repr

namespace Binary64

def zero : Binary64 :=
  ⟨0, -1074, by decide, by decide, by decide⟩

/-- The integer nearest to `a / b`, of two the even one. -/
def nearest (a b : Nat) : Nat :=
  let q := a / b
  let r := a % b
  if 2 * r < b then q else if b < 2 * r then q + 1 else q + q % 2

theorem nearest_within_half {a b : Nat} (h : 0 < b) :
    2 * (nearest a b * b) ≤ 2 * a + b ∧ 2 * a ≤ 2 * (nearest a b * b) + b := by
  have ha : a / b * b + a % b = a := Nat.div_add_mod' a b
  have hr := Nat.mod_lt a h
  unfold nearest
  dsimp only
  split
  · omega
  split
  · rw [Nat.succ_mul (a / b)]
    omega
  rcases Nat.mod_two_eq_zero_or_one (a / b) with he | he
  · rw [he, Nat.add_zero]
    omega
  · rw [he, Nat.succ_mul (a / b)]
    omega

/-- `a / b * 2 ^ exponent` as a numerator and a denominator. -/
def shifted (a b : Nat) (exponent : Int) : Nat × Nat :=
  (a * Nat.pow 2 exponent.toNat, b * Nat.pow 2 (-exponent).toNat)

/-- The exponent that leaves fifty-three binary digits of `a / b` before the point, but never one below the
least exponent. -/
def exponentOf (a b : Nat) : Int :=
  if a = 0 then -1074
  else
    let low : Int := (a.log2 : Int) - b.log2 - 53
    let (n, d) := shifted a b (-low)
    max (-1074) (if n < d * 0x20000000000000 then low else low + 1)

theorem le_exponentOf (a b : Nat) : -1074 ≤ exponentOf a b := by
  unfold exponentOf
  split
  · decide
  · exact Int.le_max_left _ _

/-- The magnitude nearest to `a / b`. -/
def ofRatio? (a b : Nat) : Option Binary64 :=
  let exponent := exponentOf a b
  let (n, d) := shifted a b (-exponent)
  let significand := nearest n d
  if hs : significand < 0x20000000000000 then
    if he : exponent ≤ 971 then some ⟨significand, exponent, hs, le_exponentOf a b, he⟩ else none
  else if he : exponent + 1 ≤ 971 then
    some ⟨0x10000000000000, exponent + 1, by decide, by have := le_exponentOf a b; omega, he⟩
  else none

def ofNat? (n : Nat) : Option Binary64 :=
  ofRatio? n 1

def mul? (x y : Binary64) : Option Binary64 :=
  let (n, d) := shifted (x.significand * y.significand) 1 (x.exponent + y.exponent)
  ofRatio? n d

def div? (x y : Binary64) : Option Binary64 :=
  let (n, d) := shifted x.significand y.significand (x.exponent - y.exponent)
  ofRatio? n d

/-- The greatest power of ten that is a magnitude has this exponent. -/
def maxTens : Nat := 308

/-- `x * 10 ^ tens` in steps: the power of ten is rounded before it multiplies or divides `x`, and one below
the greatest power of ten divides twice. -/
def scaleByTens? (x : Binary64) (tens : Int) : Option Binary64 := do
  if x.significand = 0 then some x
  else if maxTens < tens then none
  else if 0 ≤ tens then x.mul? (← ofNat? (Nat.pow 10 tens.toNat))
  else if -maxTens ≤ tens then x.div? (← ofNat? (Nat.pow 10 (-tens).toNat))
  else if -(2 * maxTens) ≤ tens then
    let reduced ← x.div? (← ofNat? (Nat.pow 10 maxTens))
    reduced.div? (← ofNat? (Nat.pow 10 (-tens - maxTens).toNat))
  else some zero

end Binary64

end FieldSeal
