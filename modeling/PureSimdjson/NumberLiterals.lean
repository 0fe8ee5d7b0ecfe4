import PureSimdjson.Decimals

/-!
# Integer literals

simdjson finds out that an integer is too large only after it has read it: from how many
digits there were, which was the first, and what a 64-bit accumulator holds that has
wrapped around on the way.  The patched branches of `parse_number` are given here as the
patch has them; what stands around them is a parameter.  They tell the three kinds of
integers apart exactly.
-/
namespace PureSimdjson

/-- What a number literal comes to. -/
inductive NumberOutcome where
  | int64 (value : Int64)
  | uint64 (value : UInt64)
  /-- `BIGINT_NUMBER`, with the text that is kept. -/
  | bigint (text : Bytes)
  /-- `INVALID_NUMBER`. -/
  | invalidNumber
  deriving DecidableEq

/-- `INT64_MAX`. -/
def int64Max : UInt64 := 9223372036854775807

/-- The parts of `parse_number` and of its callers that the patch leaves alone. -/
structure NumberParsing where
  /-- `jsoncharutils::is_not_structural_or_whitespace`. -/
  isNotStructuralOrWhitespace : UInt8 → Bool
  /-- The accumulator after `parse_digit` has read some digits. -/
  accumulate : (digits : Bytes) → UInt64
  /-- `WRITE_INTEGER` of a negative number, and the check of what follows it. -/
  writeInteger : UInt64 → (next : UInt8) → NumberOutcome
  /-- The end of the function: a number that no earlier branch took. -/
  writeRemaining : (negative : Bool) → UInt64 → (next : UInt8) → NumberOutcome
  /-- `BIGINT_NUMBER`, for a parser with this `number_as_string`. -/
  bigintNumber : (numberAsString : Bool) → (src : Bytes) → NumberOutcome

/-- The option that `parser_new_configured_with_selection_lock` sets. -/
def parserNumberAsString : Bool := true

section
variable (parsing : NumberParsing)

/-- `parse_number`, from `longest_digit_count` on: `src` starts with the literal, `i` is the
accumulator, and `next` is the byte at `p`, behind the digits. -/
def parseInteger (src : Bytes) (negative : Bool) (digitCount : Nat) (i : UInt64) (next : UInt8) :
    NumberOutcome :=
  let longestDigitCount := if negative then 19 else 20
  if digitCount > longestDigitCount then
    if parsing.isNotStructuralOrWhitespace next then .invalidNumber
    else parsing.bigintNumber parserNumberAsString src
  else if digitCount = longestDigitCount then
    if negative then
      if i > int64Max + 1 then
        if parsing.isNotStructuralOrWhitespace next then .invalidNumber
        else parsing.bigintNumber parserNumberAsString src
      else parsing.writeInteger (~~~i + 1) next
    else if src.head? ≠ some '1'.toUInt8 ∨ i ≤ int64Max then
      if parsing.isNotStructuralOrWhitespace next then .invalidNumber
      else parsing.bigintNumber parserNumberAsString src
    else parsing.writeRemaining negative i next
  else parsing.writeRemaining negative i next

end

/-! ## What is assumed around the patch -/

/-- The bytes that may follow a number. -/
def structuralOrWhitespace : Bytes :=
  [' ', '\t', '\n', '\r', ',', ':', '[', ']', '{', '}'].map Char.toUInt8

/-- A decimal digit. -/
def isDigit (c : UInt8) : Bool := '0'.toUInt8 ≤ c && c ≤ '9'.toUInt8

/-- The text of a number that is kept as a string: a sign and the digits behind it. -/
def numberText (src : Bytes) : Bytes :=
  if src.head? = some '-'.toUInt8 then '-'.toUInt8 :: src.tail.takeWhile isDigit
  else src.takeWhile isDigit

/-- **What the patched branches rely on.** -/
structure NumberParsing.Documented (parsing : NumberParsing) : Prop where
  delimiter : ∀ c, parsing.isNotStructuralOrWhitespace c = false ↔ c ∈ structuralOrWhitespace
  /-- Digits are accumulated modulo `2 ^ 64`. -/
  accumulate : ∀ digits, IsDecimal digits →
    (parsing.accumulate digits).toNat = digitsValue digits % 2 ^ 64
  writeInteger : ∀ i next, parsing.writeInteger i next =
    if parsing.isNotStructuralOrWhitespace next then .invalidNumber else .int64 i.toInt64
  /-- A remaining number is unsigned if it does not fit in a signed integer. -/
  writeRemaining : ∀ negative i next, parsing.writeRemaining negative i next =
    if parsing.isNotStructuralOrWhitespace next then .invalidNumber
    else if i > int64Max then .uint64 i
    else .int64 (if negative then ~~~i + 1 else i).toInt64
  /-- With `number_as_string`, the text of the number is kept. -/
  bigintNumber : ∀ src, parsing.bigintNumber true src = .bigint (numberText src)

/-! ## What an integer literal should come to -/

/-- The digits of an integer literal. -/
structure IsIntegerDigits (digits : Bytes) : Prop where
  nonempty : digits ≠ []
  decimal : IsDecimal digits
  leading : ¬ LeadingZero digits

/-- The literal. -/
def integerLiteral (negative : Bool) (digits : Bytes) : Bytes :=
  if negative then '-'.toUInt8 :: digits else digits

/-- The number it stands for. -/
def integerValue (negative : Bool) (digits : Bytes) : Int :=
  if negative then -(digitsValue digits : Int) else digitsValue digits

/-- **The three kinds of integers.** -/
def classifyInteger (value : Int) (literal : Bytes) : NumberOutcome :=
  if -2 ^ 63 ≤ value ∧ value ≤ 2 ^ 63 - 1 then .int64 (Int64.ofInt value)
  else if 2 ^ 63 ≤ value ∧ value ≤ 2 ^ 64 - 1 then .uint64 (UInt64.ofNat value.toNat)
  else .bigint literal

/-! ## The tests for too large numbers -/

/-- **The 19-digit test is exact**: the accumulator has not wrapped yet. -/
theorem negative_test_iff {digits : Bytes} (h : IsDecimal digits) (hlength : digits.length = 19)
    {i : UInt64} (hi : i.toNat = digitsValue digits % 2 ^ 64) :
    i > int64Max + 1 ↔ integerValue true digits < -2 ^ 63 := by
  have hlt : digitsValue digits < 10 ^ digits.length := digitsValue_lt h
  rw [hlength] at hlt
  have hmax : (int64Max + 1).toNat = 2 ^ 63 := by decide
  rw [gt_iff_lt, UInt64.lt_iff_toNat_lt, hmax, hi]
  simp only [integerValue, if_true]
  omega

/-- **The 20-digit test is exact**: a number that starts with 1 and has wrapped is below
`2 ^ 63`, and one that has not is above. -/
theorem positive_test_iff {digits : Bytes} (h : IsIntegerDigits digits)
    (hlength : digits.length = 20) {i : UInt64} (hi : i.toNat = digitsValue digits % 2 ^ 64) :
    (digits.head? ≠ some '1'.toUInt8 ∨ i ≤ int64Max) ↔
      2 ^ 64 - 1 < integerValue false digits := by
  obtain ⟨c, rest, rfl⟩ := List.exists_cons_of_ne_nil h.nonempty
  have hrest : rest.length = 19 := by simpa using hlength
  obtain ⟨hlow, hhigh⟩ := digitsValue_cons_range h.decimal
  rw [hrest] at hlow hhigh
  have hpow := pow_le_digitsValue h.decimal h.leading (by omega)
  rw [hlength] at hpow
  have hmax : int64Max.toNat = 2 ^ 63 - 1 := by decide
  rw [List.head?_cons, ne_eq, Option.some.injEq, UInt8.toNat_inj.symm, UInt64.le_iff_toNat_le,
    hmax, hi]
  have hone : ('1'.toUInt8).toNat = 49 := by decide
  have hdigit := (toNat_digit (h.decimal c List.mem_cons_self)).2
  simp only [integerValue, Bool.false_eq_true, if_false, hone]
  by_cases hc : c.toNat = 49
  · -- the number is below twenty quintillion, so it wraps at most once
    rw [hc] at hlow hhigh
    omega
  · have hne : c.toNat ≠ 48 := by
      rintro hzero
      rw [hzero] at hhigh
      omega
    have hlow' : 2 * 10 ^ 19 ≤ digitsValue (c :: rest) :=
      le_trans (Nat.mul_le_mul_right _ (by omega)) hlow
    omega

/-! ## What the accumulator holds -/

theorem toInt64_of_mod {i : UInt64} {value : Nat} (hi : i.toNat = value % 2 ^ 64) :
    i.toInt64 = Int64.ofInt value := by
  apply Int64.toBitVec_inj.mp
  apply BitVec.eq_of_toNat_eq
  show i.toNat = (BitVec.ofInt 64 value).toNat
  rw [hi, BitVec.ofInt_natCast, BitVec.toNat_ofNat]

/-- `~i + 1` is the negative number. -/
theorem toInt64_neg {i : UInt64} {value : Nat} (hi : i.toNat = value % 2 ^ 64) :
    (~~~i + 1).toInt64 = Int64.ofInt (-(value : Int)) := by
  have hbits : i.toBitVec = BitVec.ofInt 64 value := by
    apply BitVec.eq_of_toNat_eq
    rw [UInt64.toNat_toBitVec, hi, BitVec.ofInt_natCast, BitVec.toNat_ofNat]
  apply Int64.toBitVec_inj.mp
  show ~~~i.toBitVec + 1#64 = BitVec.ofInt 64 (-(value : Int))
  rw [hbits, BitVec.ofInt_neg, BitVec.neg_eq_not_add]

/-! ## The patched branches -/

section
variable {parsing : NumberParsing} (hparsing : parsing.Documented)
include hparsing

/-- A digit is not what may follow a number. -/
theorem isDigit_of_delimiter {next : UInt8}
    (hnext : parsing.isNotStructuralOrWhitespace next = false) : isDigit next = false := by
  have hall : (structuralOrWhitespace.all fun c => !isDigit c) = true := rfl
  simpa using List.all_eq_true.mp hall next ((hparsing.delimiter next).mp hnext)

/-- **The text that is kept is the literal.** -/
theorem numberText_literal {negative : Bool} {digits : Bytes} (h : IsIntegerDigits digits)
    {next : UInt8} (hnext : parsing.isNotStructuralOrWhitespace next = false) (rest : Bytes) :
    numberText (integerLiteral negative digits ++ next :: rest) =
      integerLiteral negative digits := by
  have hdigits : ∀ c ∈ digits, isDigit c = true := fun c hc => by
    simpa [isDigit] using h.decimal c hc
  have htake : (digits ++ next :: rest).takeWhile isDigit = digits := by
    rw [List.takeWhile_append_of_pos hdigits, List.takeWhile_cons,
      isDigit_of_delimiter hparsing hnext]
    simp
  cases negative with
  | true =>
    show '-'.toUInt8 :: (digits ++ next :: rest).takeWhile isDigit = _
    rw [htake]
    rfl
  | false =>
    obtain ⟨c, tail, rfl⟩ := List.exists_cons_of_ne_nil h.nonempty
    have hminus : c ≠ '-'.toUInt8 := by
      rintro rfl
      exact absurd (hdigits _ List.mem_cons_self) (by decide)
    have hhead : (integerLiteral false (c :: tail) ++ next :: rest).head? ≠ some '-'.toUInt8 :=
      fun heq => hminus (Option.some.inj heq)
    rw [numberText, if_neg hhead]
    exact htake

/-- Whatever the branch, the byte behind the number is checked. -/
theorem parseInteger_dirty {next : UInt8}
    (hnext : parsing.isNotStructuralOrWhitespace next = true) (src : Bytes) (negative : Bool)
    (digitCount : Nat) (i : UInt64) :
    parseInteger parsing src negative digitCount i next = .invalidNumber := by
  rw [parseInteger]
  split_ifs <;> simp [hparsing.writeInteger, hparsing.writeRemaining, hnext]

/-- A negative number: the accumulator only counts if it has not wrapped. -/
theorem parseInteger_negative {digits : Bytes} (h : IsIntegerDigits digits) {next : UInt8}
    (hnext : parsing.isNotStructuralOrWhitespace next = false) {i : UInt64}
    (hi : i.toNat = digitsValue digits % 2 ^ 64) (rest : Bytes) :
    parseInteger parsing (integerLiteral true digits ++ next :: rest) true digits.length i next =
      classifyInteger (integerValue true digits) (integerLiteral true digits) := by
  have hbig := hparsing.bigintNumber (integerLiteral true digits ++ next :: rest)
  rw [numberText_literal hparsing h hnext] at hbig
  have hlt := digitsValue_lt h.decimal
  have hvalue : integerValue true digits = -(digitsValue digits : Int) := rfl
  have hsmall (hfits : -2 ^ 63 ≤ integerValue true digits) :
      NumberOutcome.int64 (~~~i + 1).toInt64 =
        classifyInteger (integerValue true digits) (integerLiteral true digits) := by
    rw [classifyInteger, if_pos ⟨hfits, by omega⟩, hvalue, toInt64_neg hi]
  have hlarge (hover : integerValue true digits < -2 ^ 63) :
      NumberOutcome.bigint (integerLiteral true digits) =
        classifyInteger (integerValue true digits) (integerLiteral true digits) := by
    rw [classifyInteger, if_neg (by omega), if_neg (by omega)]
  rw [parseInteger, parserNumberAsString, hbig]
  simp only [if_true, hparsing.writeInteger, hparsing.writeRemaining, hnext, Bool.false_eq_true,
    if_false]
  by_cases hmore : digits.length > 19
  · have hpow := pow_le_digitsValue h.decimal h.leading (by omega)
    have hlong : 10 ^ 19 ≤ 10 ^ (digits.length - 1) :=
      Nat.pow_le_pow_right (by decide) (by omega)
    rw [if_pos hmore]
    exact hlarge (by omega)
  · rw [if_neg hmore]
    by_cases hlength : digits.length = 19
    · have htest := negative_test_iff h.decimal hlength hi
      rw [if_pos hlength]
      by_cases hover : i > int64Max + 1
      · rw [if_pos hover]
        exact hlarge (htest.mp hover)
      · rw [if_neg hover]
        exact hsmall (not_lt.mp fun hlow => hover (htest.mpr hlow))
    · have hshort : 10 ^ digits.length ≤ 10 ^ 18 := Nat.pow_le_pow_right (by decide) (by omega)
      have hfits : ¬ i > int64Max := by
        rw [gt_iff_lt, UInt64.lt_iff_toNat_lt, show int64Max.toNat = 2 ^ 63 - 1 by decide, hi]
        omega
      rw [if_neg hlength, if_neg hfits]
      exact hsmall (by omega)

/-- A number without a sign: below twenty digits the accumulator has not wrapped, and with
twenty the test tells. -/
theorem parseInteger_positive {digits : Bytes} (h : IsIntegerDigits digits) {next : UInt8}
    (hnext : parsing.isNotStructuralOrWhitespace next = false) {i : UInt64}
    (hi : i.toNat = digitsValue digits % 2 ^ 64) (rest : Bytes) :
    parseInteger parsing (integerLiteral false digits ++ next :: rest) false digits.length i next =
      classifyInteger (integerValue false digits) (integerLiteral false digits) := by
  have hbig := hparsing.bigintNumber (integerLiteral false digits ++ next :: rest)
  rw [numberText_literal hparsing h hnext] at hbig
  have hlt := digitsValue_lt h.decimal
  have hvalue : integerValue false digits = (digitsValue digits : Int) := rfl
  have hhead : (integerLiteral false digits ++ next :: rest).head? = digits.head? := by
    obtain ⟨c, tail, rfl⟩ := List.exists_cons_of_ne_nil h.nonempty
    rfl
  -- what the end of the function writes is the number, if the accumulator has not wrapped
  have hfits (hsmall : digitsValue digits < 2 ^ 64) :
      (if i > int64Max then NumberOutcome.uint64 i else .int64 i.toInt64) =
        classifyInteger (integerValue false digits) (integerLiteral false digits) := by
    have hmax : int64Max.toNat = 2 ^ 63 - 1 := by decide
    by_cases hover : i > int64Max
    · have hi_gt := UInt64.lt_iff_toNat_lt.mp hover
      rw [hmax, hi] at hi_gt
      have hi_eq : UInt64.ofNat (integerValue false digits).toNat = i := by
        rw [hvalue, Int.toNat_natCast, ← UInt64.toNat_inj, hi]
        rfl
      rw [if_pos hover, classifyInteger, if_neg (by omega), if_pos (by omega), hi_eq]
    · have hi_le : i.toNat ≤ int64Max.toNat :=
        UInt64.le_iff_toNat_le.mp (UInt64.not_lt.mp hover)
      rw [hmax, hi] at hi_le
      rw [if_neg hover, classifyInteger, if_pos (by omega), hvalue, toInt64_of_mod hi]
  have hlarge (hover : 2 ^ 64 - 1 < integerValue false digits) :
      NumberOutcome.bigint (integerLiteral false digits) =
        classifyInteger (integerValue false digits) (integerLiteral false digits) := by
    rw [classifyInteger, if_neg (by omega), if_neg (by omega)]
  rw [parseInteger, parserNumberAsString, hbig, hhead]
  simp only [hparsing.writeRemaining, hnext, Bool.false_eq_true, if_false]
  by_cases hmore : digits.length > 20
  · have hpow := pow_le_digitsValue h.decimal h.leading (by omega)
    have hlong : 10 ^ 20 ≤ 10 ^ (digits.length - 1) :=
      Nat.pow_le_pow_right (by decide) (by omega)
    rw [if_pos hmore]
    exact hlarge (by omega)
  · rw [if_neg hmore]
    by_cases hlength : digits.length = 20
    · have htest := positive_test_iff h hlength hi
      rw [if_pos hlength]
      by_cases hover : digits.head? ≠ some '1'.toUInt8 ∨ i ≤ int64Max
      · rw [if_pos hover]
        exact hlarge (htest.mp hover)
      · have hnot : ¬ 2 ^ 64 - 1 < integerValue false digits := fun hlow => hover (htest.mpr hlow)
        rw [if_neg hover]
        exact hfits (by omega)
    · have hshort : 10 ^ digits.length ≤ 10 ^ 19 := Nat.pow_le_pow_right (by decide) (by omega)
      rw [if_neg hlength]
      exact hfits (by omega)

/-- **Integer literals are classified exactly.**  The byte behind the literal may be any; if
a number cannot end there, the literal is rejected.  Otherwise the kind is that of the value,
and the text of a big integer is the literal.  The two tests for too large numbers are exact. -/
theorem integer_literal_classification {negative : Bool} {digits : Bytes}
    (h : IsIntegerDigits digits) (next : UInt8) (rest : Bytes) :
    parseInteger parsing (integerLiteral negative digits ++ next :: rest) negative digits.length
        (parsing.accumulate digits) next =
      (if next ∈ structuralOrWhitespace then
        classifyInteger (integerValue negative digits) (integerLiteral negative digits)
      else .invalidNumber) ∧
    (digits.length = 20 →
      (digits.head? ≠ some '1'.toUInt8 ∨ parsing.accumulate digits ≤ int64Max ↔
        2 ^ 64 - 1 < integerValue false digits)) ∧
    (digits.length = 19 →
      (parsing.accumulate digits > int64Max + 1 ↔ integerValue true digits < -2 ^ 63)) := by
  have hi := hparsing.accumulate digits h.decimal
  refine ⟨?_, fun hlength => positive_test_iff h hlength hi,
    fun hlength => negative_test_iff h.decimal hlength hi⟩
  cases hnext : parsing.isNotStructuralOrWhitespace next with
  | true =>
    have hnot : next ∉ structuralOrWhitespace := by
      rw [← hparsing.delimiter, hnext]
      nofun
    rw [if_neg hnot]
    exact parseInteger_dirty hparsing hnext _ _ _ _
  | false =>
    rw [if_pos ((hparsing.delimiter next).mp hnext)]
    cases negative with
    | true => exact parseInteger_negative hparsing h hnext hi rest
    | false => exact parseInteger_positive hparsing h hnext hi rest

end

/-! ## A sample -/

/-- The parts around the patch, as they are documented. -/
def sampleParsing : NumberParsing where
  isNotStructuralOrWhitespace c := c ∉ structuralOrWhitespace
  accumulate digits := UInt64.ofNat (digitsValue digits)
  writeInteger i next := if next ∉ structuralOrWhitespace then .invalidNumber else .int64 i.toInt64
  writeRemaining negative i next :=
    if next ∉ structuralOrWhitespace then .invalidNumber
    else if i > int64Max then .uint64 i
    else .int64 (if negative then ~~~i + 1 else i).toInt64
  bigintNumber _ src := .bigint (numberText src)

theorem sampleParsing_documented : sampleParsing.Documented where
  delimiter c := by simp [sampleParsing]
  accumulate digits _ := rfl
  writeInteger i next := by simp [sampleParsing]
  writeRemaining negative i next := by simp [sampleParsing]
  bigintNumber src := rfl

theorem isIntegerDigits_decimalDigits (n : Nat) : IsIntegerDigits (decimalDigits n) where
  nonempty := by
    rw [decimalDigits]
    split <;> simp
  decimal := isDecimal_decimalDigits n
  leading := not_leadingZero_decimalDigits n

/-- The first number above the unsigned ones, with a comma behind it. -/
theorem integer_literal_classification_sample :
    parseInteger sampleParsing (decimalDigits (2 ^ 64) ++ [','.toUInt8]) false
        (decimalDigits (2 ^ 64)).length (sampleParsing.accumulate (decimalDigits (2 ^ 64)))
        ','.toUInt8 =
      .bigint (decimalDigits (2 ^ 64)) := by
  have hdigits := isIntegerDigits_decimalDigits (2 ^ 64)
  have hclass := (@integer_literal_classification sampleParsing sampleParsing_documented false _
    hdigits ','.toUInt8 []).1
  have hvalue : integerValue false (decimalDigits (2 ^ 64)) = 2 ^ 64 := by
    show (digitsValue (decimalDigits (2 ^ 64)) : Int) = 2 ^ 64
    rw [digitsValue_decimalDigits]
    rfl
  have hcomma : ','.toUInt8 ∈ structuralOrWhitespace := List.elem_iff.mp rfl
  rw [if_pos hcomma, hvalue, classifyInteger, if_neg (by decide), if_neg (by decide)] at hclass
  exact hclass

end PureSimdjson
