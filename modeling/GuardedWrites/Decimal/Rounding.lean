/-!
# Rounding a quotient

`roundDiv tie a b` is the whole number nearest to `a / b`; `tie` says which neighbour an exact
half goes to.
-/

namespace GuardedWrites.Decimal

/-- Where a value exactly between two neighbours goes. -/
inductive Tie where
  | toEven
  | up
deriving DecidableEq

/-- The whole number nearest to `num / den`. -/
def roundDiv (tie : Tie) (num den : Nat) : Nat :=
  let q := num / den
  let r := num % den
  if 2 * r < den then q
  else if den < 2 * r then q + 1
  else match tie with
    | .up => q + 1
    | .toEven => if q % 2 = 0 then q else q + 1

/-- The rounded quotient is at most half a unit above or below. -/
theorem roundDiv_within_half (tie : Tie) (num den : Nat) (h : 0 < den) :
    2 * num ≤ (2 * roundDiv tie num den + 1) * den ∧
      2 * roundDiv tie num den * den ≤ 2 * num + den := by
  have hd := Nat.div_add_mod num den
  have hr := Nat.mod_lt num h
  generalize hq : num / den = q at hd
  generalize hm : num % den = r at hd hr
  have e : den * q = q * den := Nat.mul_comm _ _
  simp only [roundDiv, hq, hm]
  split
  · constructor <;> grind
  · split
    · constructor <;> grind
    · cases tie with
      | up => constructor <;> grind
      | toEven => dsimp only; split <;> constructor <;> grind

/-- With a half going to the even side, what is at most a half is rounded to nothing. -/
theorem roundDiv_toEven_eq_zero_iff (num : Nat) {den : Nat} (h : 0 < den) :
    roundDiv .toEven num den = 0 ↔ 2 * num ≤ den := by
  constructor
  · intro hzero
    have hhalf := (roundDiv_within_half .toEven num den h).1
    rw [hzero] at hhalf
    omega
  · intro hle
    have hquotient : num / den = 0 := Nat.div_eq_of_lt (by omega)
    have hremainder : num % den = num := Nat.mod_eq_of_lt (by omega)
    simp only [roundDiv, hquotient, hremainder]
    split
    · rfl
    · rw [if_neg (by omega)]
      rfl

end GuardedWrites.Decimal
