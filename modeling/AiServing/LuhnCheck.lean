import AiServing.PiiDetectors
import AiServing.CheckDigits
import Mathlib.Data.Nat.Digits.Defs
import Mathlib.Data.ZMod.Basic

namespace AiServing
open CheckDigits
set_option autoImplicit true

theorem digitValue_lt (h : isDecimal c) : digitValue c < 10 := by
  obtain ⟨n, hn⟩ := Option.isSome_iff_exists.1 h
  obtain ⟨z, hz, rfl⟩ := Option.map_eq_some_iff.1 hn
  have hrange := List.find?_some hz
  rw [Bool.and_eq_true, decide_eq_true_eq, decide_eq_true_eq] at hrange
  rw [digitValue, hn, Option.getD_some]
  exact Nat.sub_lt_left_of_lt_add hrange.1 hrange.2

/-- A decimal digit of any script; on no other character is `int(char)` defined. -/
structure Digit where
  char : Char
  decimal : isDecimal char

def Digit.value (d : Digit) : Fin 10 := ⟨digitValue d.char, digitValue_lt d.decimal⟩

def textOf (v : List Digit) : Text := v.map Digit.char

/-- What is to be divisible by 10: the digits at an even distance from the right end, and the digit
sums of the doubled digits at an odd distance. -/
def checkedSum (v : List Digit) : Nat :=
  (∑ i : Fin v.length with Even (v.length - 1 - i.val), (v[i].value : Nat)) +
    ∑ i : Fin v.length with Odd (v.length - 1 - i.val), (Nat.digits 10 (2 * v[i].value)).sum

theorem luhnDigit_eq (i : Nat) (d : Fin 10) :
    luhnDigit i d = if Even i then (d : Nat) else (Nat.digits 10 (2 * d)).sum := by
  rw [luhnDigit]
  by_cases h : Even i
  · rw [if_pos h, if_neg (by rw [Nat.even_iff.1 h]; decide)]
  · rw [if_neg h, if_pos (Nat.odd_iff.1 (Nat.not_even_iff_odd.1 h))]
    revert d
    decide

theorem luhnDigit_bijective (i : Nat) :
    Function.Bijective fun d : Fin 10 => (luhnDigit i d : ZMod 10) := by
  have hparity : luhnDigit i = luhnDigit (i % 2) := by
    funext d
    rw [luhnDigit, luhnDigit, Nat.mod_mod]
  rw [hparity]
  rcases Nat.mod_two_eq_zero_or_one i with h | h
  · rw [h]
    decide
  · rw [h]
    decide

/-- The Luhn check as a code over the ten digits. -/
def luhnCode : Code (Fin 10) (ZMod 10) where
  weight := fun i d => (luhnDigit i d : ZMod 10)
  bijective := luhnDigit_bijective

theorem luhnTotal_textOf (v : List Digit) :
    luhnTotal (textOf v) = total (fun i (d : Digit) => luhnDigit i d.value) v := by
  rw [luhnTotal, List.map_reverse, foldl_reverse, textOf, total_map, total_map]
  rfl

theorem luhnTotal_eq_checkedSum (v : List Digit) : luhnTotal (textOf v) = checkedSum v := by
  rw [luhnTotal_textOf, total_eq_sum, checkedSum,
    ← Finset.sum_filter_add_sum_filter_not _ fun i : Fin v.length => Even (v.length - 1 - i.val)]
  simp only [Nat.not_even_iff_odd]
  congr 1
  · apply Finset.sum_congr rfl
    intro i hi
    rw [luhnDigit_eq, if_pos (Finset.mem_filter.1 hi).2]
  · apply Finset.sum_congr rfl
    intro i hi
    rw [luhnDigit_eq, if_neg (Nat.not_even_iff_odd.2 (Finset.mem_filter.1 hi).2)]

theorem luhnValid_iff_dvd (value : Text) : luhnValid value ↔ 10 ∣ luhnTotal value := by
  rw [luhnValid, decide_eq_true_eq]
  exact Nat.dvd_iff_mod_eq_zero.symm

theorem luhnValid_iff_valid (v : List Digit) :
    luhnValid (textOf v) ↔ luhnCode.Valid (v.map Digit.value) := by
  have hcast := map_total (fun i (d : Digit) => luhnDigit i d.value) (Nat.castAddMonoidHom (ZMod 10)) v
  rw [luhnValid_iff_dvd, ← ZMod.natCast_eq_zero_iff, luhnTotal_textOf, Code.Valid, total_map]
  exact Eq.congr_left hcast

def Digit.ofValue (n : Fin 10) : Digit := ⟨Char.ofNat (0x30 + n), by revert n; decide⟩

theorem Digit.value_ofValue (n : Fin 10) : (ofValue n).value = n := by
  revert n
  decide

/-- The check of a text of digits, of any length; digits of two scripts are the same digit if they
have the same value. -/
theorem luhn_check (v : List Digit) :
    (luhnValid (textOf v) ↔ 10 ∣ checkedSum v) ∧
    (∃! n : Fin 10, ∀ d : Digit, luhnValid (textOf (v ++ [d])) ↔ d.value = n) ∧
    (luhnValid (textOf v) → ∀ (i : Nat) (hi : i < v.length) (d : Digit),
      d.value ≠ v[i].value → ¬ luhnValid (textOf (v.set i d))) := by
  refine ⟨?_, ?_, ?_⟩
  · rw [luhnValid_iff_dvd, luhnTotal_eq_checkedSum]
  · obtain ⟨n, hn, hunique⟩ := luhnCode.existsUnique_valid_concat (v.map Digit.value)
    refine ⟨n, ?_, ?_⟩
    · intro d
      rw [luhnValid_iff_valid, List.map_append, List.map_singleton]
      constructor
      · exact hunique d.value
      · intro hd
        rw [hd]
        exact hn
    · intro m hm
      have hdigit := hm (.ofValue n)
      rw [luhnValid_iff_valid, List.map_append, List.map_singleton, Digit.value_ofValue] at hdigit
      exact (hdigit.1 hn).symm
  · intro hvalid i hi d hd
    rw [luhnValid_iff_valid] at hvalid
    rw [luhnValid_iff_valid, List.map_set]
    apply hvalid.not_set ((List.length_map _).symm ▸ hi)
    rwa [List.getElem_map]

example : (["79927398713", "79927398714", "٧٩٩٢٧٣٩٨٧١٣", ""].map fun t => luhnValid t.toList) =
    [true, false, true, true] := by decide

end AiServing
