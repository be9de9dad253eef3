import SignalScript.Text.Decimal

/-!
# Reading digits

What the readers of numbers make of a row of digits: its value, as long as that is in the range
asked for. A text that begins with neither a digit nor a sign is no number.

## Main results

* `Decimal.readInt32?_digits`, `Decimal.readInt32?_minus` — digits, and digits behind a minus sign
* `Decimal.readInt32?_eq_none` — what is no number
* `Decimal.readNat?_writeNat` — a number is read back from its digits
-/

namespace SignalScript.Decimal

variable {digits : Text} {lowest highest : Int} {total : Nat}

theorem digit?_of_isDigit {c : Char} (h : c.isDigit = true) :
    digit? c = some (c.toNat - '0'.toNat) :=
  if_pos h

/-- Digits behind a number do not make it smaller. -/
theorem le_ofDigitChars (total : Nat) (digits : Text) :
    total ≤ Nat.ofDigitChars 10 digits total := by
  induction digits generalizing total with
  | nil => simp
  | cons c rest ih =>
    rw [Nat.ofDigitChars_cons]
    calc total ≤ 10 * total + (c.toNat - '0'.toNat) := by omega
      _ ≤ _ := ih _

/-- The value of digits is reached if it is not too large; then none of its beginnings is. -/
theorem readUp_digits (hdigits : ∀ c ∈ digits, c.isDigit = true)
    (hle : (Nat.ofDigitChars 10 digits total : Int) ≤ highest) :
    readUp highest total digits = .ok (Nat.ofDigitChars 10 digits total : Int) := by
  induction digits generalizing total with
  | nil => rw [readUp, Nat.ofDigitChars_nil]
  | cons c rest ih =>
    rw [Nat.ofDigitChars_cons] at hle ⊢
    -- The total so far is no larger than the final one, so it is in range too.
    have hstep := le_ofDigitChars (10 * total + (c.toNat - '0'.toNat)) rest
    have htotal : (total : Int) * 10 + (c.toNat - '0'.toNat : Nat) =
        (10 * total + (c.toNat - '0'.toNat) : Nat) := by omega
    rw [readUp, digit?_of_isDigit (hdigits c List.mem_cons_self)]
    simp only [htotal]
    rw [if_neg (by omega)]
    exact ih (fun d hd => hdigits d (List.mem_cons_of_mem _ hd)) hle

theorem readDown_digits (hdigits : ∀ c ∈ digits, c.isDigit = true)
    (hle : lowest ≤ -(Nat.ofDigitChars 10 digits total : Int)) :
    readDown lowest (-(total : Int)) digits = .ok (-(Nat.ofDigitChars 10 digits total : Int)) := by
  induction digits generalizing total with
  | nil => rw [readDown, Nat.ofDigitChars_nil]
  | cons c rest ih =>
    rw [Nat.ofDigitChars_cons] at hle ⊢
    have hstep := le_ofDigitChars (10 * total + (c.toNat - '0'.toNat)) rest
    -- The same digits, counted down from zero.
    have htotal : -(total : Int) * 10 - (c.toNat - '0'.toNat : Nat) =
        -((10 * total + (c.toNat - '0'.toNat) : Nat) : Int) := by omega
    rw [readDown, digit?_of_isDigit (hdigits c List.mem_cons_self)]
    simp only [htotal]
    rw [if_neg (by omega)]
    exact ih (fun d hd => hdigits d (List.mem_cons_of_mem _ hd)) hle

/-- A text that begins with no sign is read upwards. -/
theorem read_of_no_sign {c : Char} {rest : Text} (hplus : c ≠ '+') (hminus : c ≠ '-') :
    read lowest highest (c :: rest) = readUp highest 0 (c :: rest) := by
  -- All other ways to read begin with a sign.
  rw [read.eq_def]
  split
  · cases ‹_ :: _ = []›
  · cases ‹_ :: _ = ['+']›
    exact absurd rfl hplus
  · cases ‹_ :: _ = ['-']›
    exact absurd rfl hminus
  · cases ‹_ :: _ = '+' :: _›
    exact absurd rfl hplus
  · cases ‹_ :: _ = '-' :: _›
    exact absurd rfl hminus
  · rfl

theorem ne_of_isDigit {c d : Char} (hc : c.isDigit = true) (hd : d.isDigit = false) : c ≠ d := by
  rintro rfl
  rw [hc] at hd
  cases hd

/-- Digits are read as the number they spell. -/
theorem readInt32?_digits (hne : digits ≠ []) (hdigits : ∀ c ∈ digits, c.isDigit = true)
    (hle : Nat.ofDigitChars 10 digits 0 ≤ 2147483647) :
    readInt32? digits = some (Int32.ofInt (Nat.ofDigitChars 10 digits 0)) := by
  obtain ⟨c, rest, rfl⟩ := List.exists_cons_of_ne_nil hne
  have hc := hdigits c List.mem_cons_self
  have hread : readUp 2147483647 (0 : Nat) (c :: rest) = _ := readUp_digits hdigits (by omega)
  rw [readInt32?, readInt32, read_of_no_sign (ne_of_isDigit hc rfl) (ne_of_isDigit hc rfl)]
  exact congrArg (fun read => (Except.map Int32.ofInt read).toOption) hread

/-- Digits behind a minus sign are read as the negative number. -/
theorem readInt32?_minus (hne : digits ≠ []) (hdigits : ∀ c ∈ digits, c.isDigit = true)
    (hle : Nat.ofDigitChars 10 digits 0 ≤ 2147483648) :
    readInt32? ('-' :: digits) = some (Int32.ofInt (-(Nat.ofDigitChars 10 digits 0 : Int))) := by
  obtain ⟨c, rest, rfl⟩ := List.exists_cons_of_ne_nil hne
  have hread : readDown (-2147483648) (-(0 : Nat)) (c :: rest) = _ :=
    readDown_digits hdigits (by omega)
  exact congrArg (fun read => (Except.map Int32.ofInt read).toOption) hread

/-- A text that begins with neither a digit nor a sign is no number. -/
theorem readInt32?_eq_none {c : Char} {rest : Text} (hdigit : c.isDigit = false)
    (hplus : c ≠ '+') (hminus : c ≠ '-') : readInt32? (c :: rest) = none := by
  have hnone : digit? c = none := by simp [digit?, hdigit]
  rw [readInt32?, readInt32, read_of_no_sign hplus hminus, readUp, hnone]
  rfl

theorem readDigits?_digits (hdigits : ∀ c ∈ digits, c.isDigit = true) :
    readDigits? total digits = some (Nat.ofDigitChars 10 digits total) := by
  induction digits generalizing total with
  | nil => rw [readDigits?, Nat.ofDigitChars_nil]
  | cons c rest ih =>
    rw [readDigits?, digit?_of_isDigit (hdigits c List.mem_cons_self), Option.bind_some,
      ih fun d hd => hdigits d (List.mem_cons_of_mem _ hd), Nat.ofDigitChars_cons, Nat.mul_comm]

theorem isDigit_of_mem_writeNat {n : Nat} {c : Char} (h : c ∈ writeNat n) : c.isDigit = true :=
  Nat.isDigit_of_mem_toDigits (by decide) (by decide) h

theorem writeNat_ne_nil (n : Nat) : writeNat n ≠ [] := Nat.toDigits_ne_nil

/-- A number is read back from its digits. -/
theorem readNat?_writeNat (n : Nat) : readNat? (writeNat n) = some n := by
  have hdigits : ∀ c ∈ writeNat n, c.isDigit = true := fun c => isDigit_of_mem_writeNat
  obtain ⟨c, rest, hwrite⟩ := List.exists_cons_of_ne_nil (writeNat_ne_nil n)
  have hc : c.isDigit = true := hdigits c (by rw [hwrite]; exact List.mem_cons_self)
  -- Digits carry no sign.
  have hread : readNat? (writeNat n) = readDigits? 0 (writeNat n) := by
    rw [hwrite, readNat?.eq_def]
    split
    · cases ‹_ :: _ = []›
    · cases ‹_ :: _ = ['+']›
      cases hc
    · cases ‹_ :: _ = '+' :: _›
      cases hc
    · rfl
  rw [hread, readDigits?_digits hdigits]
  exact congrArg some Nat.ofDigitChars_ten_toDigits

theorem ofDigitChars_writeNat (n : Nat) : Nat.ofDigitChars 10 (writeNat n) 0 = n :=
  Nat.ofDigitChars_ten_toDigits

/-- A number of 32 bits is read back from the way it is written. -/
theorem readInt32?_write (value : Int32) : readInt32? (write value.toInt) = some value := by
  have hback : Int32.ofInt value.toInt = value := Int32.ofInt_toInt value
  have hlow := Int32.le_toInt value
  have hhigh := Int32.toInt_lt value
  cases hvalue : value.toInt with
  | ofNat n =>
    rw [hvalue] at hback hhigh
    have hread := readInt32?_digits (writeNat_ne_nil n) (fun c => isDigit_of_mem_writeNat)
      (by rw [ofDigitChars_writeNat]; simp at hhigh; omega)
    rw [ofDigitChars_writeNat] at hread
    exact hread.trans (congrArg some hback)
  | negSucc n =>
    rw [hvalue] at hback hlow
    have hread := readInt32?_minus (writeNat_ne_nil (n + 1)) (fun c => isDigit_of_mem_writeNat)
      (by rw [ofDigitChars_writeNat]; simp at hlow; omega)
    rw [ofDigitChars_writeNat] at hread
    exact hread.trans (congrArg some hback)

theorem isDigit_of_digit? {c : Char} {d : Nat} (h : digit? c = some d) : c.isDigit = true := by
  rw [digit?] at h
  split at h
  · assumption
  · cases h

/-- Reading upwards stays in the range. -/
theorem range_of_readUp {total n : Int} {text : Text} (h : readUp highest total text = .ok n)
    (htotal : 0 ≤ total) (hle : total ≤ highest) : 0 ≤ n ∧ n ≤ highest := by
  induction text generalizing total with
  | nil =>
    obtain rfl := Except.ok.inj h
    exact ⟨htotal, hle⟩
  | cons c rest ih =>
    rw [readUp] at h
    split at h
    · cases h
    · split at h
      · cases h
      · exact ih h (by omega) (by omega)

theorem isDigit_of_readDown {total n : Int} {text : Text}
    (h : readDown lowest total text = .ok n) : ∀ c ∈ text, c.isDigit = true := by
  induction text generalizing total with
  | nil => simp
  | cons c rest ih =>
    rw [readDown] at h
    split at h
    · cases h
    · rename_i hdigit
      split at h
      · cases h
      · exact List.forall_mem_cons.mpr ⟨isDigit_of_digit? hdigit, ih h⟩

/-- What is read as a negative number is digits behind a minus sign. -/
theorem exists_of_readInt32?_neg {text : Text} {value : Int32}
    (h : readInt32? text = some value) (hneg : value.toInt < 0) :
    ∃ digits : Text, text = '-' :: digits ∧ ∀ c ∈ digits, c.isDigit = true := by
  rw [readInt32?, readInt32] at h
  cases hread : read (-2147483648) 2147483647 text with
  | error error =>
    rw [hread] at h
    cases h
  | ok n =>
    rw [hread] at h
    obtain rfl : Int32.ofInt n = value := Option.some.inj h
    -- What is read upwards is not negative.
    have hup {digits : Text} (hread : readUp 2147483647 0 digits = .ok n) : False := by
      obtain ⟨hlow, hhigh⟩ := range_of_readUp hread (by omega) (by omega)
      rw [Int32.toInt_ofInt_of_le (by omega) (by omega)] at hneg
      omega
    rw [read.eq_def] at hread
    split at hread
    · cases hread
    · cases hread
    · cases hread
    · exact (hup hread).elim
    · exact ⟨_, rfl, isDigit_of_readDown hread⟩
    · exact (hup hread).elim

end SignalScript.Decimal
