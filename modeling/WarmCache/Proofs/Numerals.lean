import WarmCache.Text.Blank
import WarmCache.Text.Decimal

/-!
# Numerals

Which texts are integers, and which integer each of them is: an optional sign that suits the
number, and one or more ASCII digits that count in tens. A number has many numerals, since zeros
may stand before its digits and zero goes with either sign.

A word reads a numeral digit by digit. It multiplies what it holds by ten and adds the digit, or
subtracts it after a minus sign, and gives up when a result does not fit. Both that reader and those
without bounds on their way accept the numerals of the numbers in range, and nothing else.

Results:
1. `readUnsigned_eq_some_iff`, `readInteger_eq_some_iff`: the readers that count without bounds.
2. `readWord_eq_some_iff`: the reader that stays within its word.
3. `Numeral.rendered`: the digits of a number after zeros and a sign are a numeral of it.
-/

namespace WarmCache

/-! ## The written form -/

/-- One or more ASCII digits. -/
def AllDigits (cs : List Char) : Prop := cs ≠ [] ∧ ∀ c ∈ cs, c.isDigit = true

/-- The signs before the digits of a number. A minus sign stands where `minus` admits one. -/
inductive Sign (minus : Bool) (n : Int) : List Char → Prop
  | none (nonneg : 0 ≤ n) : Sign minus n []
  | plus (nonneg : 0 ≤ n) : Sign minus n ['+']
  | minus (admitted : minus = true) (nonpos : n ≤ 0) : Sign minus n ['-']

/-- A text is a numeral of `n`: a sign of `n`, and then digits whose value is the size of `n`. -/
inductive Numeral (minus : Bool) (n : Int) : List Char → Prop
  | intro {sign ds : List Char} (signed : Sign minus n sign) (digits : AllDigits ds)
      (size : Nat.ofDigitChars 10 ds 0 = n.natAbs) : Numeral minus n (sign ++ ds)

variable {minus : Bool} {n : Int} {cs ds : List Char}

theorem isBlank_eq_false_of_isDigit {c : Char} (digit : c.isDigit = true) : isBlank c = false := by
  have apart : ∀ range ∈ blankRanges, range.2 < '0'.toNat ∨ '9'.toNat < range.1 := by decide
  rw [Char.isDigit_iff_toNat] at digit
  rw [← Bool.not_eq_true]
  intro blank
  obtain ⟨range, listed, contains⟩ := List.any_eq_true.1 blank
  simp only [CharRange.contains, Bool.and_eq_true, decide_eq_true_eq] at contains
  have := apart range listed
  omega

theorem AllDigits.head {c : Char} (digits : AllDigits (c :: ds)) : c.isDigit = true :=
  digits.2 c List.mem_cons_self

theorem sign_plus_iff : Sign minus n ['+'] ↔ 0 ≤ n := by
  refine ⟨fun signed => ?_, .plus⟩
  cases signed with
  | plus nonneg => exact nonneg

theorem sign_minus_iff : Sign minus n ['-'] ↔ minus = true ∧ n ≤ 0 := by
  refine ⟨fun signed => ?_, fun h => .minus h.1 h.2⟩
  cases signed with
  | minus admitted nonpos => exact ⟨admitted, nonpos⟩

/-- What stands first and is no digit is the sign. -/
theorem numeral_cons_iff {c : Char} (noDigit : ¬ c.isDigit = true) : Numeral minus n (c :: ds) ↔
    Sign minus n [c] ∧ AllDigits ds ∧ Nat.ofDigitChars 10 ds 0 = n.natAbs := by
  constructor
  · generalize written : c :: ds = cs
    rintro ⟨signed, digits, size⟩
    cases signed with
    | none nonneg =>
      rw [List.nil_append] at written
      subst written
      exact absurd digits.head noDigit
    | plus nonneg =>
      cases written
      exact ⟨.plus nonneg, digits, size⟩
    | minus admitted nonpos =>
      cases written
      exact ⟨.minus admitted nonpos, digits, size⟩
  · rintro ⟨signed, digits, size⟩
    exact .intro signed digits size

theorem numeral_plus_iff : Numeral minus n ('+' :: ds) ↔
    0 ≤ n ∧ AllDigits ds ∧ Nat.ofDigitChars 10 ds 0 = n.natAbs := by
  rw [numeral_cons_iff (by decide), sign_plus_iff]

theorem numeral_minus_iff : Numeral minus n ('-' :: ds) ↔
    (minus = true ∧ n ≤ 0) ∧ AllDigits ds ∧ Nat.ofDigitChars 10 ds 0 = n.natAbs := by
  rw [numeral_cons_iff (by decide), sign_minus_iff]

/-- Without a sign in front. -/
theorem numeral_bare_iff (noPlus : ∀ ds, cs ≠ '+' :: ds) (noMinus : ∀ ds, cs ≠ '-' :: ds) :
    Numeral minus n cs ↔ 0 ≤ n ∧ AllDigits cs ∧ Nat.ofDigitChars 10 cs 0 = n.natAbs := by
  constructor
  · rintro ⟨signed, digits, size⟩
    cases signed with
    | none nonneg => exact ⟨nonneg, digits, size⟩
    | plus => exact absurd rfl (noPlus _)
    | minus => exact absurd rfl (noMinus _)
  · rintro ⟨nonneg, digits, size⟩
    exact .intro (.none nonneg) digits size

namespace Numeral

theorem ne_nil (h : Numeral minus n cs) : cs ≠ [] := by
  obtain ⟨_, digits, _⟩ := h
  exact List.append_ne_nil_of_right_ne_nil _ digits.1

theorem not_isBlank (h : Numeral minus n cs) : ∀ c ∈ cs, isBlank c = false := by
  obtain ⟨signed, digits, _⟩ := h
  intro c hc
  rcases List.mem_append.1 hc with inSign | digit
  · cases signed with
    | none => cases inSign
    | plus => rw [List.mem_singleton.1 inSign]; decide
    | minus => rw [List.mem_singleton.1 inSign]; decide
  · exact isBlank_eq_false_of_isDigit (digits.2 c digit)

theorem nonneg (h : Numeral false n cs) : 0 ≤ n := by
  obtain ⟨signed, _, _⟩ := h
  cases signed with
  | none nonneg => exact nonneg
  | plus nonneg => exact nonneg
  | minus admitted => exact absurd admitted (by decide)

/-- Where no minus sign stands in front it makes no difference whether one is admitted. -/
theorem of_ne_minus (h : Numeral minus n cs) (noMinus : ∀ ds, cs ≠ '-' :: ds) (admitted : Bool) :
    Numeral admitted n cs := by
  obtain ⟨signed, digits, size⟩ := h
  cases signed with
  | none nonneg => exact .intro (.none nonneg) digits size
  | plus nonneg => exact .intro (.plus nonneg) digits size
  | minus => exact absurd rfl (noMinus _)

/-- The digits of a number, with any zeros and any of its signs in front, are a numeral of it. -/
theorem rendered {sign : List Char} (signed : Sign minus n sign) (zeros : Nat) :
    Numeral minus n (sign ++ (List.replicate zeros '0' ++ Nat.toDigits 10 n.natAbs)) := by
  refine .intro signed ⟨?_, fun c hc => ?_⟩ ?_
  · exact List.append_ne_nil_of_right_ne_nil _ Nat.toDigits_ne_nil
  · rcases List.mem_append.1 hc with zero | digit
    · rw [List.eq_of_mem_replicate zero]
      rfl
    · exact Nat.isDigit_of_mem_toDigits (by decide) (by decide) digit
  · rw [Nat.ofDigitChars_append, Nat.ofDigitChars_replicate_zero, Nat.mul_zero,
      Nat.ofDigitChars_ten_toDigits]

end Numeral

/-! ## Reading without bounds -/

theorem digitValue?_eq (c : Char) :
    digitValue? c = if c.isDigit then some (c.toNat - '0'.toNat) else none := by
  simp only [digitValue?, Char.isDigit_iff_toNat]
  rfl

theorem readDigitsFrom_eq_some_iff {acc k : Nat} : readDigitsFrom acc cs = some k ↔
    (∀ c ∈ cs, c.isDigit = true) ∧ Nat.ofDigitChars 10 cs acc = k := by
  induction cs generalizing acc with
  | nil => simp [readDigitsFrom, Nat.ofDigitChars]
  | cons c cs ih =>
    rw [readDigitsFrom, digitValue?_eq, List.forall_mem_cons, Nat.ofDigitChars_cons,
      Nat.mul_comm 10 acc]
    by_cases digit : c.isDigit = true
    · rw [if_pos digit, and_assoc, and_iff_right digit]
      exact ih
    · rw [if_neg digit]
      exact ⟨nofun, fun h => absurd h.1.1 digit⟩

theorem readDigits_eq_some_iff {k : Nat} : readDigits cs = some k ↔
    AllDigits cs ∧ Nat.ofDigitChars 10 cs 0 = k := by
  cases cs with
  | nil => simp [readDigits, AllDigits]
  | cons c cs => simp only [readDigits, readDigitsFrom_eq_some_iff, AllDigits, ne_eq, reduceCtorEq,
      not_false_eq_true, true_and]

theorem readUnsigned_eq_some_iff {k : Nat} :
    readUnsigned cs = some k ↔ Numeral false k cs := by
  unfold readUnsigned
  split
  · rw [readDigits_eq_some_iff, numeral_plus_iff, Int.natAbs_natCast]
    exact (and_iff_right (Int.natCast_nonneg k)).symm
  · next noPlus =>
    rw [readDigits_eq_some_iff]
    by_cases negative : ∃ ds, cs = '-' :: ds
    · obtain ⟨ds, rfl⟩ := negative
      rw [numeral_minus_iff]
      exact ⟨fun h => absurd h.1.head (by decide), fun h => absurd h.1.1 (by decide)⟩
    · rw [not_exists] at negative
      rw [numeral_bare_iff noPlus negative, Int.natAbs_natCast]
      exact (and_iff_right (Int.natCast_nonneg k)).symm

theorem readNatural_eq_some_iff {bound k : Nat} :
    readNatural bound cs = some k ↔ Numeral false k cs ∧ k ≤ bound := by
  rw [readNatural, Option.filter_eq_some_iff, readUnsigned_eq_some_iff, decide_eq_true_eq]

theorem readInteger_eq_some_iff {low high : Int} :
    readInteger low high cs = some n ↔ Numeral true n cs ∧ low ≤ n ∧ n ≤ high := by
  simp only [readInteger, Option.filter_eq_some_iff, Bool.and_eq_true, decide_eq_true_eq]
  refine and_congr_left fun _ => ?_
  split
  · rw [numeral_minus_iff]
    simp only [Option.map_eq_some_iff, Option.bind_eq_bind, Option.bind_eq_some_iff,
      Option.pure_def, Option.some_inj, readDigits_eq_some_iff]
    constructor
    · rintro ⟨_, ⟨k, ⟨digits, size⟩, rfl⟩, rfl⟩
      exact ⟨⟨trivial, by omega⟩, digits, by omega⟩
    · rintro ⟨⟨_, nonpos⟩, digits, size⟩
      exact ⟨_, ⟨n.natAbs, ⟨digits, size⟩, rfl⟩, by omega⟩
  · next noMinus =>
    simp only [Option.map_eq_some_iff, Option.bind_eq_bind, Option.bind_eq_some_iff,
      Option.pure_def, Option.some_inj, readUnsigned_eq_some_iff]
    constructor
    · rintro ⟨_, ⟨k, written, rfl⟩, rfl⟩
      exact written.of_ne_minus noMinus true
    · intro written
      have unsigned : Numeral false n cs := written.of_ne_minus noMinus false
      have whole : (n.toNat : Int) = n := Int.toNat_of_nonneg unsigned.nonneg
      exact ⟨n, ⟨n.toNat, whole.symm ▸ unsigned, whole⟩, rfl⟩

/-! ## Reading in a word -/

/-- A result that fits a word from `low` to `high`. -/
def fitting (low high n : Int) : Option Int := if low ≤ n ∧ n ≤ high then some n else none

/-- Digits taken one by one after those that gave `n`: added, or subtracted in a negative number. -/
def wordDigitsFrom (low high : Int) (negative : Bool) (n : Int) : List Char → Option Int
  | [] => some n
  | c :: cs =>
    (digitValue? c).bind fun d =>
      (fitting low high (n * 10)).bind fun tens =>
        (fitting low high (if negative then tens - d else tens + d)).bind fun next =>
          wordDigitsFrom low high negative next cs

/-- One or more digits. -/
def wordDigits (low high : Int) (negative : Bool) : List Char → Option Int
  | [] => none
  | cs => wordDigitsFrom low high negative 0 cs

/-- A numeral read within a word from `low` to `high`. -/
def readWord (minus : Bool) (low high : Int) : List Char → Option Int
  | '+' :: ds => wordDigits low high false ds
  | '-' :: ds => if minus then wordDigits low high true ds else none
  | ds => wordDigits low high false ds

/-- The number of size `k` on one side of zero. -/
def onSide (negative : Bool) (k : Nat) : Int := if negative then -k else k

section Word

variable {low high : Int} {negative : Bool}

theorem onSide_false_eq_iff {k : Nat} : onSide false k = n ↔ 0 ≤ n ∧ k = n.natAbs := by
  rw [onSide, if_neg Bool.false_ne_true]
  omega

theorem onSide_true_eq_iff {k : Nat} : onSide true k = n ↔ n ≤ 0 ∧ k = n.natAbs := by
  rw [onSide, if_pos rfl]
  omega

/-- What lies between zero and a number that fits a word fits too. -/
theorem onSide_fits_of_le (hlow : low ≤ 0) (hhigh : 0 ≤ high) {k m : Nat} (le : k ≤ m)
    (fits : low ≤ onSide negative m ∧ onSide negative m ≤ high) :
    low ≤ onSide negative k ∧ onSide negative k ≤ high := by
  cases negative with
  | false =>
    simp only [onSide, Bool.false_eq_true, if_false] at *
    omega
  | true =>
    simp only [onSide, if_true] at *
    omega

theorem onSide_next (acc d : Nat) :
    (if negative then onSide negative acc * 10 - d else onSide negative acc * 10 + d) =
      onSide negative (10 * acc + d) := by
  cases negative with
  | false =>
    simp only [onSide, Bool.false_eq_true, if_false]
    omega
  | true =>
    simp only [onSide, if_true]
    omega

/-- The multiplication does not fail unless the number with the next digit does not fit either. -/
theorem fitting_next (hlow : low ≤ 0) (hhigh : 0 ≤ high) (acc d : Nat) :
    ((fitting low high (onSide negative acc * 10)).bind fun tens =>
      fitting low high (if negative then tens - d else tens + d)) =
        fitting low high (onSide negative (10 * acc + d)) := by
  have tens : onSide negative acc * 10 = onSide negative (10 * acc) := by
    rw [← Nat.add_zero (10 * acc), ← onSide_next]
    simp
  by_cases fits : low ≤ onSide negative (10 * acc) ∧ onSide negative (10 * acc) ≤ high
  · rw [tens, fitting, if_pos fits, Option.bind_some, ← tens, onSide_next]
  · have more : ¬ (low ≤ onSide negative (10 * acc + d) ∧ onSide negative (10 * acc + d) ≤ high) :=
      fun kept => fits (onSide_fits_of_le hlow hhigh (Nat.le_add_right _ _) kept)
    rw [tens, fitting, if_neg fits, fitting, if_neg more, Option.bind_none]

theorem le_ofDigitChars (cs : List Char) (acc : Nat) : acc ≤ Nat.ofDigitChars 10 cs acc := by
  rw [Nat.ofDigitChars_eq_ofDigitChars_zero]
  exact Nat.le_add_right_of_le (Nat.le_mul_of_pos_left acc (Nat.pow_pos (by decide)))

/-- Digits only move a number away from zero: once it does not fit, it never fits again. -/
theorem wordDigitsFrom_eq_some_iff (hlow : low ≤ 0) (hhigh : 0 ≤ high) {acc : Nat}
    (fits : low ≤ onSide negative acc ∧ onSide negative acc ≤ high) :
    wordDigitsFrom low high negative (onSide negative acc) cs = some n ↔
      (∀ c ∈ cs, c.isDigit = true) ∧ onSide negative (Nat.ofDigitChars 10 cs acc) = n ∧
        low ≤ n ∧ n ≤ high := by
  induction cs generalizing acc with
  | nil =>
    rw [wordDigitsFrom, Option.some_inj]
    exact ⟨fun same => ⟨List.forall_mem_nil _, same, same ▸ fits⟩, fun h => h.2.1⟩
  | cons c cs ih =>
    rw [wordDigitsFrom, digitValue?_eq, List.forall_mem_cons, Nat.ofDigitChars_cons]
    by_cases digit : c.isDigit = true
    · rw [if_pos digit, Option.bind_some, ← Option.bind_assoc, fitting_next hlow hhigh, and_assoc,
        and_iff_right digit]
      generalize 10 * acc + (c.toNat - '0'.toNat) = further
      by_cases kept : low ≤ onSide negative further ∧ onSide negative further ≤ high
      · rw [fitting, if_pos kept, Option.bind_some, ih kept]
      · rw [fitting, if_neg kept, Option.bind_none]
        refine ⟨nofun, ?_⟩
        rintro ⟨_, rfl, fits⟩
        exact absurd (onSide_fits_of_le hlow hhigh (le_ofDigitChars cs further) fits) kept
    · rw [if_neg digit]
      exact ⟨nofun, fun h => absurd h.1.1 digit⟩

theorem wordDigits_eq_some_iff (hlow : low ≤ 0) (hhigh : 0 ≤ high) :
    wordDigits low high negative cs = some n ↔
      AllDigits cs ∧ onSide negative (Nat.ofDigitChars 10 cs 0) = n ∧ low ≤ n ∧ n ≤ high := by
  cases cs with
  | nil => exact ⟨nofun, fun h => absurd rfl h.1.1⟩
  | cons c cs =>
    have zero : onSide negative 0 = 0 := by cases negative <;> rfl
    have read : wordDigitsFrom low high negative (onSide negative 0) (c :: cs) = some n ↔ _ :=
      wordDigitsFrom_eq_some_iff hlow hhigh (zero.symm ▸ ⟨hlow, hhigh⟩)
    rw [zero] at read
    rw [AllDigits, and_iff_right (List.cons_ne_nil c cs)]
    exact read

theorem readWord_eq_some_iff (hlow : low ≤ 0) (hhigh : 0 ≤ high) :
    readWord minus low high cs = some n ↔ Numeral minus n cs ∧ low ≤ n ∧ n ≤ high := by
  unfold readWord
  split
  · rw [wordDigits_eq_some_iff hlow hhigh, numeral_plus_iff, onSide_false_eq_iff]
    simp only [and_assoc, and_left_comm]
  · rw [numeral_minus_iff]
    split
    · next admitted =>
      rw [wordDigits_eq_some_iff hlow hhigh, onSide_true_eq_iff, and_iff_right admitted]
      simp only [and_assoc, and_left_comm]
    · next refused => exact ⟨nofun, fun h => absurd h.1.1.1 refused⟩
  · next noPlus noMinus =>
    rw [wordDigits_eq_some_iff hlow hhigh, numeral_bare_iff noPlus noMinus, onSide_false_eq_iff]
    simp only [and_assoc, and_left_comm]

example : readWord true (-128) 127 "-0128".toList = some (-128) ∧
    readWord true (-128) 127 "128".toList = none ∧ readWord false 0 255 "-0".toList = none := by
  decide

/-- The two kinds of word read as if they counted without bounds. -/
theorem readWord_eq_readNatural (bound : Nat) (cs : List Char) :
    readWord false 0 bound cs = (readNatural bound cs).map Int.ofNat := by
  ext n
  rw [readWord_eq_some_iff (Int.le_refl 0) (Int.natCast_nonneg bound), Option.map_eq_some_iff]
  simp only [readNatural_eq_some_iff]
  constructor
  · rintro ⟨written, nonneg, le⟩
    have whole : (n.toNat : Int) = n := Int.toNat_of_nonneg nonneg
    exact ⟨n.toNat, ⟨whole.symm ▸ written, by omega⟩, whole⟩
  · rintro ⟨k, ⟨written, le⟩, rfl⟩
    exact ⟨written, Int.natCast_nonneg k, Int.ofNat_le.2 le⟩

theorem readWord_eq_readInteger (hlow : low ≤ 0) (hhigh : 0 ≤ high) (cs : List Char) :
    readWord true low high cs = readInteger low high cs := by
  ext n
  rw [readWord_eq_some_iff hlow hhigh, readInteger_eq_some_iff]

end Word

end WarmCache
