import Mathlib.Data.Int.Basic
import Mathlib.Tactic.Linarith

namespace sow.js

/-- The 32 bits that the bitwise operators see of a number. -/
def bits (x : Int) : BitVec 32 := BitVec.ofInt 32 x

/-- The number of 32 bits read without a sign. -/
def num (x : BitVec 32) : Int := x.toNat

/-- `x & y` -/
def band (x y : Int) : Int := (bits x &&& bits y).toInt

/-- `x | y` -/
def bor (x y : Int) : Int := (bits x ||| bits y).toInt

/-- `x ^ y` -/
def bxor (x y : Int) : Int := (bits x ^^^ bits y).toInt

/-- `~x` -/
def bnot (x : Int) : Int := (~~~ bits x).toInt

/-- `x << n` -/
def shl (x : Int) (n : Nat) : Int := (bits x <<< (n % 32)).toInt

/-- `x >>> n` -/
def ushr (x : Int) (n : Nat) : Int := num (bits x >>> (n % 32))

@[simp] theorem bits_num (x : BitVec 32) : bits (num x) = x := by
  rw [bits, num, BitVec.ofInt_natCast, BitVec.ofNat_toNat, BitVec.setWidth_eq]

@[simp] theorem bits_toInt (x : BitVec 32) : bits x.toInt = x := BitVec.ofInt_toInt

theorem bits_add (x y : Int) : bits (x + y) = bits x + bits y := BitVec.ofInt_add x y

@[simp] theorem bits_band (x y : Int) : bits (band x y) = bits x &&& bits y := bits_toInt _

@[simp] theorem bits_bor (x y : Int) : bits (bor x y) = bits x ||| bits y := bits_toInt _

@[simp] theorem bits_bxor (x y : Int) : bits (bxor x y) = bits x ^^^ bits y := bits_toInt _

@[simp] theorem bits_bnot (x : Int) : bits (bnot x) = ~~~ bits x := bits_toInt _

@[simp] theorem bits_shl (x : Int) (n : Nat) : bits (shl x n) = bits x <<< (n % 32) := bits_toInt _

@[simp] theorem bits_ushr (x : Int) (n : Nat) : bits (ushr x n) = bits x >>> (n % 32) := bits_num _

theorem ushr_zero (x : Int) : ushr x 0 = num (bits x) := by
  rw [ushr, Nat.zero_mod, BitVec.ushiftRight_zero]

/-- A number that an operator on 32 bits can give, with a sign or without. -/
def Fits32 (x : Int) : Prop := -2 ^ 31 ≤ x ∧ x < 2 ^ 32

theorem fits32_num (x : BitVec 32) : Fits32 (num x) := by
  have hlt := x.isLt
  simp only [Fits32, num]
  omega

theorem fits32_toInt (x : BitVec 32) : Fits32 x.toInt := by
  have hle := BitVec.le_toInt x
  have hlt := BitVec.toInt_lt (x := x)
  simp only [Fits32]
  omega

theorem fits32_bxor (x y : Int) : Fits32 (bxor x y) := fits32_toInt _

/-- Addition that is exact while the sum is below `2 ^ 53`. -/
def ExactBelow (plus : Int → Int → Int) : Prop := ∀ a b, (a + b).natAbs < 2 ^ 53 → plus a b = a + b

/-- The double nearest to an integer, ties to even. -/
def roundDouble (n : Int) : Int :=
  let m := n.natAbs
  if m ≤ 2 ^ 53 then n
  else
    let ulp := 2 ^ (m.log2 - 52)
    let q := m / ulp
    let r := m % ulp
    let nearest := if 2 * r > ulp ∨ (2 * r = ulp ∧ q % 2 = 1) then q + 1 else q
    n.sign * (nearest * ulp : Nat)

/-- `a + b` on integers of any size a number can hold. -/
def numberPlus (a b : Int) : Int := roundDouble (a + b)

theorem exactBelow_numberPlus : ExactBelow numberPlus := by
  intro a b h
  simp only [numberPlus, roundDouble]
  rw [if_pos (Nat.le_of_lt h)]

theorem roundDouble_of_le {n : Int} (h : n.natAbs ≤ 2 ^ 53) : roundDouble n = n := by
  simp only [roundDouble]
  exact if_pos h

theorem roundDouble_nonpos {n : Int} (h : n ≤ 0) : roundDouble n ≤ 0 := by
  simp only [roundDouble]
  split
  · exact h
  · have hsign : n.sign ≤ 0 := Int.sign_nonpos_iff.mpr h
    exact Int.mul_nonpos_of_nonpos_of_nonneg hsign (Int.natCast_nonneg _)

theorem numberPlus_of_le {a b : Int} (h : (a + b).natAbs ≤ 2 ^ 53) : numberPlus a b = a + b := roundDouble_of_le h

/-- A counter below `2 ^ 53` goes up by one. -/
theorem toNat_numberPlus_one {i : Nat} (h : i < 2 ^ 53) : (numberPlus i 1).toNat = i + 1 := by
  rw [numberPlus_of_le (by omega)]
  omega

end sow.js
