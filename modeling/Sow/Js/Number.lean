import Sow.Js.String

namespace sow.js

/-- `String(n)` of a nonnegative safe integer: its decimal digits. -/
def decimal (n : Nat) : JsString := (Nat.toDigits 10 n).map fun c => UInt16.ofNat c.toNat

/-- `Number(s)` of a sequence of decimal digits. -/
def toNumber (digits : JsString) : Nat := digits.foldl (fun v d => 10 * v + (d.toNat - 48)) 0

private theorem foldl_decimal (cs : List Char) (hcs : ∀ c ∈ cs, c.isDigit) (v : Nat) :
    (cs.map fun c => UInt16.ofNat c.toNat).foldl (fun v d => 10 * v + (d.toNat - 48)) v = Nat.ofDigitChars 10 cs v := by
  induction cs generalizing v with
  | nil => simp
  | cons c cs ih =>
    have hc : c.isDigit := hcs c (List.mem_cons_self ..)
    have hsmall : c.toNat < 2 ^ 16 := by
      simp only [Char.isDigit, Bool.and_eq_true, decide_eq_true_eq] at hc
      have hle : c.val.toNat ≤ 57 := UInt32.le_iff_toNat_le.mp hc.2
      have heq : c.toNat = c.val.toNat := rfl
      omega
    rw [List.map_cons, List.foldl_cons, ih fun c h => hcs c (List.mem_cons_of_mem _ h), Nat.ofDigitChars_cons]
    rw [UInt16.toNat_ofNat', Nat.mod_eq_of_lt hsmall]
    rfl

@[simp] theorem toNumber_decimal (n : Nat) : toNumber (decimal n) = n := by
  unfold decimal toNumber
  rw [foldl_decimal _ fun c hc => Nat.isDigit_of_mem_toDigits (by omega) (by omega) hc]
  exact Nat.ofDigitChars_toDigits (by omega) (by omega)

/-- Different integers have different digits. -/
theorem decimal_injective : Function.Injective decimal := by
  intro n m h
  rw [← toNumber_decimal n, h, toNumber_decimal m]

theorem decimal_ne_nil (n : Nat) : decimal n ≠ [] := by
  simp [decimal]

/-- A decimal text is one of digits. -/
theorem digit_of_mem_decimal {n : Nat} {c : UInt16} (h : c ∈ decimal n) : 48 ≤ c.toNat ∧ c.toNat ≤ 57 := by
  obtain ⟨d, hd, rfl⟩ := List.mem_map.mp h
  have hdigit := Nat.isDigit_of_mem_toDigits (by omega) (by omega) hd
  simp only [Char.isDigit, Bool.and_eq_true, decide_eq_true_eq] at hdigit
  have hle : d.val.toNat ≤ 57 := UInt32.le_iff_toNat_le.mp hdigit.2
  have hge : 48 ≤ d.val.toNat := UInt32.le_iff_toNat_le.mp hdigit.1
  have heq : d.toNat = d.val.toNat := rfl
  rw [UInt16.toNat_ofNat', Nat.mod_eq_of_lt (by omega)]
  omega

/-- `Date.parse`, with `none` for `NaN`, and `new Date(ms).toISOString()`. -/
structure IsoDates where
  parse : JsString → Option Int
  toISOString : Int → JsString

end sow.js
