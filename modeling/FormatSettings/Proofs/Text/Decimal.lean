import FormatSettings.Binary64.Text
import FormatSettings.Text.Numeral

namespace FormatSettings.Text

theorem isDigit_of_mem_decimal {n : Nat} {c : Char} (h : c ∈ decimal n) : c.isDigit = true :=
  Nat.isDigit_of_mem_toDigits (by decide) (by decide) h

theorem decimal_ne_nil (n : Nat) : decimal n ≠ [] :=
  Nat.toDigits_ne_nil

theorem length_decimal_le_iff (n : Nat) :
    (decimal n).length ≤ digitLimit ↔ withinDigitLimit (.ofNat n) = true := by
  have hpos : 0 < digitLimit := by decide
  rw [decimal, Nat.length_toDigits_le_iff (by decide) hpos, withinDigitLimit, decide_eq_true_iff,
    Nat.pow_eq, Int.ofNat_eq_natCast, Int.natAbs_natCast]

theorem digitsNat_decimal (n : Nat) : Binary64.digitsNat (decimal n) = n :=
  Nat.ofDigitChars_ten_toDigits

theorem head?_decimal {n : Nat} (h : 0 < n) : (decimal n).head? ≠ some '0' := by
  unfold decimal
  induction n using Nat.base_induction 10 (by decide) with
  | single m hm =>
    rw [Nat.toDigits_of_lt_base hm]
    simp
    omega
  | digit m k hk hm ih =>
    rw [← Nat.toDigits_append_toDigits (by decide) hm hk]
    cases hdigits : Nat.toDigits 10 m with
    | nil => exact absurd hdigits Nat.toDigits_ne_nil
    | cons c rest =>
      rw [hdigits] at ih
      exact ih hm

theorem decimal_eq_zero_cons {n : Nat} {rest : List Char} (h : decimal n = '0' :: rest) :
    rest = [] := by
  cases n with
  | zero =>
    rw [decimal, Nat.toDigits_zero] at h
    cases h
    rfl
  | succ n =>
    have hhead := head?_decimal (Nat.succ_pos n)
    rw [h] at hhead
    exact absurd rfl hhead

end FormatSettings.Text
