import AiServing.UnicodeClasses
import Mathlib.Data.List.TakeWhile
import Mathlib.Data.List.DropRight
import Mathlib.Tactic.Ring

namespace AiServing
set_option autoImplicit true

/-- A finite `Decimal`; no price or token count makes another one. -/
structure Decimal where
  negative : Bool
  coefficient : Nat
  exponent : Int
  deriving DecidableEq, Repr

def digitsOf (n : Nat) : Text := Nat.toDigits 10 n

/-- `"%+d" % n` -/
def signedText (n : Int) : Text := (if n < 0 then '-' else '+') :: digitsOf n.natAbs

namespace Decimal

/-- The digits in front of the point when the exponent is written out. -/
def leftDigits (d : Decimal) : Int := d.exponent + (digitsOf d.coefficient).length

def dotPlace (d : Decimal) : Int :=
  if d.exponent ≤ 0 ∧ -6 < d.leftDigits then d.leftDigits else 1

def intPart (d : Decimal) : Text :=
  let digits := digitsOf d.coefficient
  if d.dotPlace ≤ 0 then ['0']
  else if digits.length ≤ d.dotPlace then
    digits ++ List.replicate (d.dotPlace - digits.length).toNat '0'
  else digits.take d.dotPlace.toNat

def fracPart (d : Decimal) : Text :=
  let digits := digitsOf d.coefficient
  if d.dotPlace ≤ 0 then '.' :: List.replicate (-d.dotPlace).toNat '0' ++ digits
  else if digits.length ≤ d.dotPlace then []
  else '.' :: digits.drop d.dotPlace.toNat

def expPart (d : Decimal) : Text :=
  if d.leftDigits = d.dotPlace then [] else 'E' :: signedText (d.leftDigits - d.dotPlace)

/-- `str(d)` -/
def str (d : Decimal) : Text :=
  (if d.negative then ['-'] else []) ++ d.intPart ++ d.fracPart ++ d.expPart

end Decimal

def splitSign : Text → Bool × Text
  | '-' :: t => (true, t)
  | '+' :: t => (false, t)
  | t => (false, t)

def signedInt? (t : Text) : Option Int :=
  let (negative, digits) := splitSign t
  if digits ≠ [] ∧ digits.all isDecimal then
    some (if negative then -(intOf digits : Int) else intOf digits)
  else none

def isExponentMark (c : Char) : Bool := c = 'E' || c = 'e'

def isDot (c : Char) : Bool := c = '.'

/-- `Decimal(t)` where it is finite: a sign, digits with a point, and an exponent. -/
def Decimal.ofText (t : Text) : Option Decimal :=
  let stripped := ((t.dropWhile isSpace).rdropWhile isSpace).filter (· ≠ '_')
  let (negative, body) := splitSign stripped
  let mantissa := body.takeWhile fun c => !isExponentMark c
  let int := mantissa.takeWhile fun c => !isDot c
  let frac := (mantissa.dropWhile fun c => !isDot c).drop 1
  let exp? :=
    match body.dropWhile fun c => !isExponentMark c with
    | [] => some 0
    | _ :: e => signedInt? e
  if int ++ frac ≠ [] ∧ (int ++ frac).all isDecimal then
    exp?.map fun e => ⟨negative, intOf (int ++ frac), e - frac.length⟩
  else none

theorem digitsOf_isDigit (h : c ∈ digitsOf n) : isAsciiDigit c := by
  have hd := Nat.isDigit_of_mem_toDigits (by decide) (by decide) h
  simp only [Char.isDigit, Bool.and_eq_true, decide_eq_true_eq] at hd
  simp only [isAsciiDigit, Bool.and_eq_true, decide_eq_true_eq, Char.le_def]
  exact hd

theorem digitValue_isAsciiDigit (h : isAsciiDigit c) : digitValue c = c.toNat - '0'.toNat := by
  simp only [isAsciiDigit, Bool.and_eq_true, decide_eq_true_eq, Char.le_def] at h
  have h₁ : 48 ≤ c.toNat := UInt32.le_iff_toNat_le.1 h.1
  have h₂ : c.toNat ≤ 57 := UInt32.le_iff_toNat_le.1 h.2
  simp [digitValue, decimalValue?, decimalZeros, h₁, Nat.lt_succ_of_le h₂]

theorem intOf_eq_ofDigitChars (h : ∀ c ∈ t, isAsciiDigit c) :
    intOf t = Nat.ofDigitChars 10 t 0 := by
  rw [intOf, Nat.ofDigitChars_eq_foldl]
  generalize 0 = n
  induction t generalizing n with
  | nil => rfl
  | cons c t ih =>
    rw [List.foldl_cons, List.foldl_cons, digitValue_isAsciiDigit (h c List.mem_cons_self)]
    exact ih (fun d hd => h d (List.mem_cons_of_mem _ hd)) _

theorem intOf_zeros_digitsOf (k n : Nat) : intOf (List.replicate k '0' ++ digitsOf n) = n := by
  rw [intOf_eq_ofDigitChars, Nat.ofDigitChars_append, Nat.ofDigitChars_replicate_zero, Nat.mul_zero]
  · exact Nat.ofDigitChars_toDigits (by decide) (by decide)
  · intro c hc
    rcases List.mem_append.1 hc with hc | hc
    · rw [List.eq_of_mem_replicate hc]
      decide
    · exact digitsOf_isDigit hc

theorem intOf_digitsOf (n : Nat) : intOf (digitsOf n) = n := intOf_zeros_digitsOf 0 n

theorem digitsOf_ne_nil (n : Nat) : digitsOf n ≠ [] := Nat.toDigits_ne_nil

theorem isDecimal_digitsOf (n : Nat) : (digitsOf n).all isDecimal = true := by
  rw [List.all_eq_true]
  intro c hc
  exact isAsciiDigit.isDecimal (digitsOf_isDigit hc)

theorem signedInt?_signedText (n : Int) : signedInt? (signedText n) = some n := by
  have hdigits : digitsOf n.natAbs ≠ [] ∧ (digitsOf n.natAbs).all isDecimal :=
    ⟨digitsOf_ne_nil _, isDecimal_digitsOf _⟩
  by_cases h : n < 0
  · have hsplit : splitSign (signedText n) = (true, digitsOf n.natAbs) := by
      rw [signedText, if_pos h]
      rfl
    simp only [signedInt?, hsplit, if_pos hdigits, intOf_digitsOf, if_true, Option.some.injEq]
    omega
  · have hsplit : splitSign (signedText n) = (false, digitsOf n.natAbs) := by
      rw [signedText, if_neg h]
      rfl
    simp only [signedInt?, hsplit, if_pos hdigits, intOf_digitsOf, Bool.false_eq_true, if_false,
      Option.some.injEq]
    omega

namespace Decimal

variable {d : Decimal}

theorem dotPlace_le (d : Decimal) : d.dotPlace ≤ (digitsOf d.coefficient).length := by
  have hpos := List.length_pos_of_ne_nil (digitsOf_ne_nil d.coefficient)
  rw [dotPlace, leftDigits]
  split <;> omega

theorem mantissa_cases (d : Decimal) :
    ∃ frac, d.fracPart = (if frac = [] then [] else '.' :: frac) ∧ d.intPart ≠ [] ∧
      (∀ c ∈ d.intPart ++ frac, isAsciiDigit c) ∧ intOf (d.intPart ++ frac) = d.coefficient ∧
      (frac.length : Int) = (digitsOf d.coefficient).length - d.dotPlace := by
  have hle := d.dotPlace_le
  have hne := digitsOf_ne_nil d.coefficient
  have hzeros (k : Nat) : ∀ c ∈ List.replicate k '0' ++ digitsOf d.coefficient, isAsciiDigit c := by
    intro c hc
    rcases List.mem_append.1 hc with hc | hc
    · rw [List.eq_of_mem_replicate hc]
      decide
    · exact digitsOf_isDigit hc
  rw [intPart, fracPart]
  by_cases hdot : d.dotPlace ≤ 0
  · have hcons : ['0'] ++ (List.replicate (-d.dotPlace).toNat '0' ++ digitsOf d.coefficient) =
        List.replicate ((-d.dotPlace).toNat + 1) '0' ++ digitsOf d.coefficient := rfl
    refine ⟨List.replicate (-d.dotPlace).toNat '0' ++ digitsOf d.coefficient, ?_, ?_, ?_, ?_, ?_⟩
    · rw [if_pos hdot, if_neg (by simp [hne])]
      rfl
    · rw [if_pos hdot]
      exact List.cons_ne_nil _ _
    · rw [if_pos hdot, hcons]
      exact hzeros _
    · rw [if_pos hdot, hcons]
      exact intOf_zeros_digitsOf _ _
    · simp only [List.length_append, List.length_replicate]
      omega
  · by_cases hfull : (digitsOf d.coefficient).length ≤ d.dotPlace
    · have hnone : (d.dotPlace - (digitsOf d.coefficient).length).toNat = 0 := by omega
      simp only [if_neg hdot, if_pos hfull, hnone, List.replicate_zero, List.append_nil]
      refine ⟨[], rfl, hne, ?_, ?_, ?_⟩
      · intro c hc
        exact digitsOf_isDigit ((List.append_nil _) ▸ hc)
      · rw [List.append_nil]
        exact intOf_digitsOf _
      · simp only [List.length_nil]
        omega
    · have hlt : d.dotPlace.toNat < (digitsOf d.coefficient).length := by omega
      have hdrop : (digitsOf d.coefficient).drop d.dotPlace.toNat ≠ [] := by
        rw [Ne, List.drop_eq_nil_iff]
        omega
      simp only [if_neg hdot, if_neg hfull]
      refine ⟨(digitsOf d.coefficient).drop d.dotPlace.toNat, by rw [if_neg hdrop], ?_, ?_, ?_, ?_⟩
      · rw [Ne, List.take_eq_nil_iff]
        exact fun h => h.elim (by omega) hne
      · rw [List.take_append_drop]
        exact fun c hc => digitsOf_isDigit hc
      · rw [List.take_append_drop]
        exact intOf_digitsOf _
      · rw [List.length_drop]
        omega

/-- The characters of a printed number. -/
def isNumeral (c : Char) : Bool := isAsciiDigit c || c = '.' || c = 'E' || c = '-' || c = '+'

theorem isAsciiDigit.isNumeral (h : isAsciiDigit c) : isNumeral c := by
  rw [Decimal.isNumeral, h]
  rfl

theorem isNumeral_signedText (n : Int) : ∀ c ∈ signedText n, isNumeral c := by
  intro c hc
  rw [signedText] at hc
  rcases List.mem_cons.1 hc with rfl | hc
  · split <;> decide
  · exact isAsciiDigit.isNumeral (digitsOf_isDigit hc)

theorem isNumeral_str (d : Decimal) : ∀ c ∈ d.str, isNumeral c := by
  obtain ⟨frac, hfrac, _, hdigits, _⟩ := d.mantissa_cases
  intro c hc
  rw [str, List.mem_append, List.mem_append, List.mem_append] at hc
  rcases hc with ((hc | hc) | hc) | hc
  · split at hc
    · rw [List.mem_singleton.1 hc]
      decide
    · cases hc
  · exact isAsciiDigit.isNumeral (hdigits c (List.mem_append_left _ hc))
  · rw [hfrac] at hc
    split at hc
    · cases hc
    · rcases List.mem_cons.1 hc with rfl | hc
      · decide
      · exact isAsciiDigit.isNumeral (hdigits c (List.mem_append_right _ hc))
  · rw [expPart] at hc
    split at hc
    · cases hc
    · rcases List.mem_cons.1 hc with rfl | hc
      · decide
      · exact isNumeral_signedText _ c hc

theorem isNumeral.plain (h : isNumeral c) : (!isSpace c && c != '_') = true := by
  simp only [isNumeral, Bool.or_eq_true, decide_eq_true_eq] at h
  rcases h with (((hd | rfl) | rfl) | rfl) | rfl
  · exact isAsciiDigit.elim (P := fun c => !isSpace c && c != '_') hd (by decide)
  all_goals decide

theorem strip_numeral {t : Text} (h : ∀ c ∈ t, isNumeral c) :
    ((t.dropWhile isSpace).rdropWhile isSpace).filter (· ≠ '_') = t := by
  have hplain (c) (hc : c ∈ t) : isSpace c = false ∧ c ≠ '_' := by
    simpa using isNumeral.plain (h c hc)
  have hl : t.dropWhile isSpace = t := by
    cases t with
    | nil => rfl
    | cons c t =>
      have hc := (hplain c List.mem_cons_self).1
      rw [List.dropWhile_cons_of_neg (by rw [hc]; exact Bool.false_ne_true)]
  have hr : t.rdropWhile isSpace = t := by
    rw [List.rdropWhile_eq_self_iff]
    intro hne hs
    rw [(hplain _ (List.getLast_mem hne)).1] at hs
    cases hs
  rw [hl, hr, List.filter_eq_self]
  intro c hc
  exact decide_eq_true (hplain c hc).2

theorem splitSign_digit {t : Text} (h : isAsciiDigit c) : splitSign (c :: t) = (false, c :: t) := by
  have hne := isAsciiDigit.elim (P := fun c => c != '-' && c != '+') h (by decide)
  simp only [Bool.and_eq_true, bne_iff_ne] at hne
  rw [splitSign]
  · exact fun _ hc => hne.1 (List.cons.inj hc).1
  · exact fun _ hc => hne.2 (List.cons.inj hc).1

theorem split_expPart (d : Decimal) {m : Text} (hm : ∀ c ∈ m, isExponentMark c = false) :
    (m ++ d.expPart).takeWhile (fun c => !isExponentMark c) = m ∧
      (match (m ++ d.expPart).dropWhile fun c => !isExponentMark c with
        | [] => some 0
        | _ :: e => signedInt? e) = some (d.leftDigits - d.dotPlace) := by
  have hpos : ∀ c ∈ m, (!isExponentMark c) = true := fun c hc => by rw [hm c hc]; rfl
  rw [List.takeWhile_append_of_pos hpos, List.dropWhile_append_of_pos hpos, expPart]
  split
  · next h =>
    refine ⟨List.append_nil _, congrArg some ?_⟩
    omega
  · exact ⟨List.append_nil _, signedInt?_signedText _⟩

theorem split_fracPart {m : Text} (frac : Text) (hm : ∀ c ∈ m, isDot c = false) :
    let t := m ++ if frac = [] then [] else '.' :: frac
    t.takeWhile (fun c => !isDot c) = m ∧ (t.dropWhile fun c => !isDot c).drop 1 = frac := by
  intro t
  have hpos : ∀ c ∈ m, (!isDot c) = true := fun c hc => by rw [hm c hc]; rfl
  rw [List.takeWhile_append_of_pos hpos, List.dropWhile_append_of_pos hpos]
  split
  · next h => exact ⟨List.append_nil _, h.symm⟩
  · exact ⟨List.append_nil _, rfl⟩

/-- `Decimal(str(d))` is `d`, with its exponent. -/
theorem ofText_str (d : Decimal) : ofText d.str = some d := by
  obtain ⟨frac, hfrac, hint, hdigits, hvalue, hlen⟩ := d.mantissa_cases
  have hplain {c} (hc : c ∈ d.intPart ++ frac) :
      isDot c = false ∧ isExponentMark c = false ∧ isDecimal c = true := by
    have hd := hdigits c hc
    have hnot := isAsciiDigit.elim (P := fun c => !isDot c && !isExponentMark c) hd (by decide)
    simp only [Bool.and_eq_true, Bool.not_eq_true'] at hnot
    exact ⟨hnot.1, hnot.2, isAsciiDigit.isDecimal hd⟩
  have hsign : splitSign d.str = (d.negative, d.intPart ++ d.fracPart ++ d.expPart) := by
    rw [str]
    cases d.negative with
    | true => rfl
    | false =>
      obtain ⟨c, t, hct⟩ := List.exists_cons_of_ne_nil hint
      have hc : isAsciiDigit c := hdigits c (by rw [hct]; exact List.mem_cons_self)
      rw [if_neg Bool.false_ne_true, List.nil_append, hct]
      exact splitSign_digit hc
  have hmark : ∀ c ∈ d.intPart ++ d.fracPart, isExponentMark c = false := by
    intro c hc
    rw [hfrac] at hc
    rcases List.mem_append.1 hc with hc | hc
    · exact (hplain (List.mem_append_left _ hc)).2.1
    · split at hc
      · cases hc
      · rcases List.mem_cons.1 hc with rfl | hc
        · decide
        · exact (hplain (List.mem_append_right _ hc)).2.1
  obtain ⟨htake, hexp⟩ := split_expPart d hmark
  obtain ⟨hi, hf⟩ := split_fracPart frac fun c hc =>
    (hplain (List.mem_append_left frac hc)).1
  rw [← hfrac] at hi hf
  have hall : d.intPart ++ frac ≠ [] ∧ (d.intPart ++ frac).all isDecimal :=
    ⟨by simp [hint], List.all_eq_true.2 fun c hc => (hplain hc).2.2⟩
  simp only [ofText, strip_numeral d.isNumeral_str, hsign, htake, hexp, hi, hf, if_pos hall,
    Option.map_some, hvalue, Option.some.injEq]
  have hexponent : d.leftDigits - d.dotPlace - frac.length = d.exponent := by
    rw [leftDigits]
    omega
  rw [hexponent]

end Decimal

end AiServing
