import PureSimdjson.Values

/-!
# Decimal digits

Numbers written in decimal, as bytes: the digits of a number, and the number that some
digits stand for.  So many digits stay below that power of ten, and if the first of them is
not zero they reach the power before.
-/
namespace PureSimdjson

/-- Nothing but decimal digits. -/
def IsDecimal (content : Bytes) : Prop := ∀ c ∈ content, '0'.toUInt8 ≤ c ∧ c ≤ '9'.toUInt8

/-- A zero, and something behind it. -/
def LeadingZero (content : Bytes) : Prop := ∃ c rest, content = '0'.toUInt8 :: c :: rest

/-- The decimal digits of a number. -/
def decimalDigits (n : Nat) : Bytes :=
  if n < 10 then [48 + n.toUInt8] else decimalDigits (n / 10) ++ [48 + (n % 10).toUInt8]

/-- The number that some digits stand for. -/
def digitsValue (digits : Bytes) : Nat :=
  digits.foldl (fun value c => 10 * value + (c - 48).toNat) 0

theorem digit_range {d : Nat} (h : d < 10) :
    '0'.toUInt8 ≤ 48 + d.toUInt8 ∧ 48 + d.toUInt8 ≤ '9'.toUInt8 := by
  interval_cases d <;> decide

theorem isDecimal_decimalDigits (n : Nat) : IsDecimal (decimalDigits n) := by
  fun_induction decimalDigits n with
  | case1 n h =>
    intro c hc
    rw [List.mem_singleton.mp hc]
    exact digit_range h
  | case2 n h ih =>
    intro c hc
    rcases List.mem_append.mp hc with hc | hc
    · exact ih c hc
    · rw [List.mem_singleton.mp hc]
      exact digit_range (Nat.mod_lt _ (by decide))

/-- A number that is not zero starts with a digit that is not zero. -/
theorem decimalDigits_head {n : Nat} (hpos : 0 < n) :
    ∃ c rest, decimalDigits n = c :: rest ∧ c ≠ '0'.toUInt8 := by
  fun_induction decimalDigits n with
  | case1 n h =>
    refine ⟨_, [], rfl, ?_⟩
    interval_cases n <;> decide
  | case2 n h ih =>
    obtain ⟨c, rest, hdigits, hc⟩ := ih (by omega)
    exact ⟨c, rest ++ _, by rw [hdigits, List.cons_append], hc⟩

theorem not_leadingZero_decimalDigits (n : Nat) : ¬ LeadingZero (decimalDigits n) := by
  rintro ⟨c, rest, hdigits⟩
  by_cases hn : n = 0
  · subst hn
    rw [decimalDigits] at hdigits
    cases hdigits
  · obtain ⟨d, rest', hdigits', hd⟩ := decimalDigits_head (Nat.pos_of_ne_zero hn)
    rw [hdigits'] at hdigits
    exact hd (List.cons.inj hdigits).1

theorem digitsValue_decimalDigits (n : Nat) : digitsValue (decimalDigits n) = n := by
  have hdigit {d : Nat} (h : d < 10) : (48 + d.toUInt8 - 48).toNat = d := by
    interval_cases d <;> decide
  fun_induction decimalDigits n with
  | case1 n h =>
    rw [digitsValue, List.foldl_cons, List.foldl_nil, hdigit h]
    omega
  | case2 n h ih =>
    rw [digitsValue, List.foldl_append, ← digitsValue, ih, List.foldl_cons, List.foldl_nil,
      hdigit (Nat.mod_lt _ (by decide))]
    omega

/-! ## How large a number is -/

theorem digitsValue_concat (digits : Bytes) (c : UInt8) :
    digitsValue (digits ++ [c]) = 10 * digitsValue digits + (c - 48).toNat := by
  rw [digitsValue, List.foldl_append]
  rfl

theorem toNat_digit {c : UInt8} (h : '0'.toUInt8 ≤ c ∧ c ≤ '9'.toUInt8) :
    (c - 48).toNat = c.toNat - 48 ∧ c.toNat - 48 < 10 := by
  have hlow : 48 ≤ c.toNat := h.1
  have hhigh : c.toNat ≤ 57 := h.2
  exact ⟨UInt8.toNat_sub_of_le _ _ h.1, by omega⟩

/-- **So many digits stay below that power of ten.** -/
theorem digitsValue_lt {digits : Bytes} (h : IsDecimal digits) :
    digitsValue digits < 10 ^ digits.length := by
  induction digits using List.reverseRecOn with
  | nil => decide
  | append_singleton digits c ih =>
    obtain ⟨hdigits, hc⟩ := List.forall_mem_append.mp h
    obtain ⟨hvalue, hdigit⟩ := toNat_digit (hc c (List.mem_singleton.mpr rfl))
    have hrest := ih hdigits
    rw [digitsValue_concat, List.length_append, List.length_singleton, Nat.pow_succ]
    omega

theorem digitsValue_cons (c : UInt8) (digits : Bytes) :
    digitsValue (c :: digits) = (c - 48).toNat * 10 ^ digits.length + digitsValue digits := by
  induction digits using List.reverseRecOn with
  | nil => rfl
  | append_singleton digits d ih =>
    rw [← List.cons_append, digitsValue_concat, digitsValue_concat, ih, List.length_append,
      List.length_singleton, Nat.pow_succ]
    ring

/-- The first digit gives the number up to a power of ten. -/
theorem digitsValue_cons_range {c : UInt8} {digits : Bytes} (h : IsDecimal (c :: digits)) :
    (c.toNat - 48) * 10 ^ digits.length ≤ digitsValue (c :: digits) ∧
      digitsValue (c :: digits) < (c.toNat - 48 + 1) * 10 ^ digits.length := by
  obtain ⟨hc, hdigits⟩ := List.forall_mem_cons.mp h
  have hrest : digitsValue digits < 10 ^ digits.length := digitsValue_lt hdigits
  rw [digitsValue_cons, (toNat_digit hc).1, Nat.add_mul]
  omega

/-- Without a leading zero, a number of several digits reaches the power of ten before. -/
theorem pow_le_digitsValue {digits : Bytes} (h : IsDecimal digits) (hzero : ¬ LeadingZero digits)
    (hlength : 1 < digits.length) : 10 ^ (digits.length - 1) ≤ digitsValue digits := by
  obtain ⟨c, rest, rfl⟩ := List.exists_cons_of_length_pos (show 0 < digits.length by omega)
  obtain ⟨d, rest', rfl⟩ : ∃ d rest', rest = d :: rest' :=
    List.exists_cons_of_length_pos (by simpa using hlength)
  have hrange := (digitsValue_cons_range h).1
  have hc : 1 ≤ c.toNat - 48 := by
    have hlow : 48 ≤ c.toNat := (h c List.mem_cons_self).1
    have hne : c ≠ '0'.toUInt8 := fun heq => hzero ⟨d, rest', congrArg (· :: _) heq⟩
    have hne_toNat : c.toNat ≠ 48 := fun heq => hne (UInt8.toNat_inj.mp heq)
    omega
  calc 10 ^ ((c :: d :: rest').length - 1)
      = 1 * 10 ^ (d :: rest').length := by simp
    _ ≤ (c.toNat - 48) * 10 ^ (d :: rest').length := Nat.mul_le_mul_right _ hc
    _ ≤ digitsValue (c :: d :: rest') := hrange

end PureSimdjson
