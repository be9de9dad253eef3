import SignalScript.Proofs.Source.Appending

/-!
# Texts stored in UTF-8

The bytes of a text in UTF-8 are decoded to the text, whatever comes behind them; and if the text
does not begin with a byte order mark, they are a script file with that text.

## Main definitions

* `Utf8.encode` — the bytes of a text

## Main results

* `Utf8.decodeFrom_encode_append` — what was encoded is decoded, character by character
* `sourceText_encode`, `logicalLines_encode` — the text of a file is the text that was stored in it
-/

namespace SignalScript

namespace Utf8

/-- The bytes of a text in UTF-8. -/
def encode (text : Text) : List UInt8 := text.flatMap String.utf8EncodeChar

/-! ### Single bytes -/

section Bytes

variable {n : Nat} {state : Open} {rest : List UInt8}

theorem toNat_tail (n : Nat) : (UInt8.ofNat (n % 64 + 128)).toNat = n % 64 + 128 := by
  rw [UInt8.toNat_ofNat']
  omega

/-- The last byte of a sequence completes a character. -/
theorem decodeFrom_last (hleast : state.least ≤ n % 64 + 128)
    (hgreatest : n % 64 + 128 ≤ state.greatest) (hmissing : state.missing = 1) :
    decodeFrom (some state) (UInt8.ofNat (n % 64 + 128) :: rest) =
      some (Char.ofNat (state.bits * 64 + n % 64)) :: decodeFrom none rest := by
  have hnext : state.next (UInt8.ofNat (n % 64 + 128)) =
      .char (Char.ofNat (state.bits * 64 + n % 64)) := by
    simp only [Open.next, toNat_tail, hmissing, Nat.add_sub_cancel]
    simp [hleast, hgreatest]
  rw [decodeFrom, hnext]

/-- A byte that is not the last of its sequence adds its bits. -/
theorem decodeFrom_more {missing : Nat} (hleast : state.least ≤ n % 64 + 128)
    (hgreatest : n % 64 + 128 ≤ state.greatest) (hmissing : state.missing = missing + 2) :
    decodeFrom (some state) (UInt8.ofNat (n % 64 + 128) :: rest) =
      decodeFrom (some ⟨state.bits * 64 + n % 64, missing + 1, 0x80, 0xBF⟩) rest := by
  have hnext : state.next (UInt8.ofNat (n % 64 + 128)) =
      .more ⟨state.bits * 64 + n % 64, missing + 1, 0x80, 0xBF⟩ := by
    simp only [Open.next, toNat_tail, hmissing, Nat.add_sub_cancel]
    simp [hleast, hgreatest]
  rw [decodeFrom, hnext]

/-- A leading byte opens a character and gives none. -/
theorem decodeFrom_lead {byte : UInt8} (h : lead byte = .more state) :
    decodeFrom none (byte :: rest) = decodeFrom (some state) rest := by
  rw [decodeFrom, h]

theorem lead_two (hlow : 0x7F < n) (hhigh : n ≤ 0x7FF) :
    lead (UInt8.ofNat (n / 64 % 32 + 192)) = .more ⟨n / 64, 1, 0x80, 0xBF⟩ := by
  have hbyte : (UInt8.ofNat (n / 64 % 32 + 192)).toNat = n / 64 + 192 := by
    rw [UInt8.toNat_ofNat']
    omega
  simp only [lead, hbyte]
  rw [if_neg (by omega), if_neg (by omega), if_pos (by omega), Nat.add_sub_cancel]

/-- The first of three bytes bounds the second, so that the sequence is not too long and stands for
no surrogate. -/
theorem exists_lead_three (hlow : 0x7FF < n) (hhigh : n ≤ 0xFFFF)
    (hvalid : n < 0xD800 ∨ 0xDFFF < n) :
    ∃ least greatest, least ≤ n / 64 % 64 + 128 ∧ n / 64 % 64 + 128 ≤ greatest ∧
      lead (UInt8.ofNat (n / 4096 % 16 + 224)) = .more ⟨n / 4096, 2, least, greatest⟩ := by
  have hbyte : (UInt8.ofNat (n / 4096 % 16 + 224)).toNat = n / 4096 + 224 := by
    rw [UInt8.toNat_ofNat']
    omega
  simp only [lead, hbyte, Nat.add_sub_cancel]
  rw [if_neg (by omega), if_neg (by omega), if_neg (by omega)]
  split
  · exact ⟨_, _, by omega, by omega, rfl⟩
  · split
    · exact ⟨_, _, by omega, by omega, rfl⟩
    · rw [if_pos (by omega)]
      exact ⟨_, _, by omega, by omega, rfl⟩

/-- The first of four bytes bounds the second, so that the sequence is not too long and stands for a
code point. -/
theorem exists_lead_four (hlow : 0xFFFF < n) (hhigh : n < 0x110000) :
    ∃ least greatest, least ≤ n / 4096 % 64 + 128 ∧ n / 4096 % 64 + 128 ≤ greatest ∧
      lead (UInt8.ofNat (n / 262144 % 8 + 240)) = .more ⟨n / 262144, 3, least, greatest⟩ := by
  have hbyte : (UInt8.ofNat (n / 262144 % 8 + 240)).toNat = n / 262144 + 240 := by
    rw [UInt8.toNat_ofNat']
    omega
  simp only [lead, hbyte, Nat.add_sub_cancel]
  rw [if_neg (by omega), if_neg (by omega), if_neg (by omega), if_neg (by omega),
    if_neg (by omega), if_neg (by omega)]
  split
  · exact ⟨_, _, by omega, by omega, rfl⟩
  · split
    · exact ⟨_, _, by omega, by omega, rfl⟩
    · rw [if_pos (by omega)]
      exact ⟨_, _, by omega, by omega, rfl⟩

end Bytes

/-! ### Texts -/

/-- The bytes of a character are decoded to it. -/
theorem decodeFrom_utf8EncodeChar (c : Char) (rest : List UInt8) :
    decodeFrom none (String.utf8EncodeChar c ++ rest) = some c :: decodeFrom none rest := by
  have hvalid : c.val.toNat < 0xD800 ∨ 0xDFFF < c.val.toNat ∧ c.val.toNat < 0x110000 := c.valid
  have hchar : Char.ofNat c.val.toNat = c := Char.ofNat_toNat c
  rw [String.utf8EncodeChar]
  generalize c.val.toNat = n at hvalid hchar ⊢
  -- One, two, three or four bytes; in each case the bits are those of the code point.
  split_ifs with hone htwo hthree
  · have hlead : lead (UInt8.ofNat n) = .char (Char.ofNat n) := by
      have hbyte : (UInt8.ofNat n).toNat = n := by
        rw [UInt8.toNat_ofNat']
        omega
      simp only [lead, hbyte]
      rw [if_pos (by omega)]
    rw [List.singleton_append, decodeFrom, hlead, hchar]
  · have hbits : n / 64 * 64 + n % 64 = n := by omega
    simp only [List.cons_append, List.nil_append]
    rw [decodeFrom_lead (lead_two (by omega) htwo),
      decodeFrom_last (by dsimp only; omega) (by dsimp only; omega) rfl]
    dsimp only
    rw [hbits, hchar]
  · obtain ⟨least, greatest, hleast, hgreatest, hlead⟩ :=
      exists_lead_three (by omega) hthree (hvalid.imp_right And.left)
    have hbits : (n / 4096 * 64 + n / 64 % 64) * 64 + n % 64 = n := by omega
    simp only [List.cons_append, List.nil_append]
    rw [decodeFrom_lead hlead, decodeFrom_more hleast hgreatest rfl,
      decodeFrom_last (by dsimp only; omega) (by dsimp only; omega) rfl]
    dsimp only
    rw [hbits, hchar]
  · obtain ⟨least, greatest, hleast, hgreatest, hlead⟩ :=
      exists_lead_four (n := n) (by omega) (by omega)
    have hbits :
        ((n / 262144 * 64 + n / 4096 % 64) * 64 + n / 64 % 64) * 64 + n % 64 = n := by omega
    simp only [List.cons_append, List.nil_append]
    rw [decodeFrom_lead hlead, decodeFrom_more hleast hgreatest rfl,
      decodeFrom_more (by dsimp only; omega) (by dsimp only; omega) rfl,
      decodeFrom_last (by dsimp only; omega) (by dsimp only; omega) rfl]
    dsimp only
    rw [hbits, hchar]

/-- What was encoded is decoded, whatever comes behind it. -/
theorem decodeFrom_encode_append (text : Text) (rest : List UInt8) :
    decodeFrom none (encode text ++ rest) = text.map some ++ decodeFrom none rest := by
  induction text with
  | nil => rfl
  | cons c text ih =>
    rw [encode, List.flatMap_cons, List.append_assoc, decodeFrom_utf8EncodeChar, ← encode, ih]
    rfl

theorem decodeFrom_encode (text : Text) : decodeFrom none (encode text) = text.map some := by
  have happend := decodeFrom_encode_append text []
  rwa [List.append_nil, decodeFrom, List.append_nil] at happend

/-- The bytes of a text are decoded to the text. -/
theorem decodeLossy_encode (text : Text) : decodeLossy (encode text) = text := by
  rw [decodeLossy, decode, decodeFrom_encode, List.map_map]
  exact List.map_id text

end Utf8

/-! ### Files -/

section Files

variable {text : Text}

/-- The first byte of a byte order mark of UTF-16 begins no character of UTF-8. -/
theorem hasUtf16Mark_encode (text : Text) : hasUtf16Mark (Utf8.encode text) = false := by
  have hdecoded := Utf8.decodeFrom_encode text
  cases hbytes : Utf8.encode text with
  | nil => rfl
  | cons byte rest =>
    -- Decoding either byte leaves a malformed piece in front, and the text has none.
    have hne {mark : UInt8} (hmark : Utf8.lead mark = .malformed) : mark ≠ byte := by
      rintro rfl
      rw [hbytes, Utf8.decodeFrom, hmark] at hdecoded
      cases text <;> cases hdecoded
    have hff : (0xFF : UInt8) ≠ byte := hne rfl
    have hfe : (0xFE : UInt8) ≠ byte := hne rfl
    simp [hasUtf16Mark, List.isPrefixOf, hff, hfe]

/-- A text has the byte order mark of UTF-8 if it begins with the character of that mark. -/
theorem hasUtf8Mark_encode (h : text.head? ≠ some '\ufeff') :
    hasUtf8Mark (Utf8.encode text) = false := by
  rw [Bool.eq_false_iff]
  intro hmark
  obtain ⟨rest, hrest⟩ := List.isPrefixOf_iff_prefix.mp hmark
  have hdecoded := Utf8.decodeFrom_encode text
  rw [← hrest] at hdecoded
  have hfirst : Utf8.decodeFrom none ([0xEF, 0xBB, 0xBF] ++ rest) =
      some '\ufeff' :: Utf8.decodeFrom none rest := Utf8.decodeFrom_utf8EncodeChar '\ufeff' rest
  rw [hfirst] at hdecoded
  cases text with
  | nil => cases hdecoded
  | cons c text => exact h (List.cons.inj hdecoded).1.symm

/-- The text of a file is the text that was stored in it in UTF-8, unless this begins with a byte
order mark. -/
theorem sourceText_encode (h : text.head? ≠ some '\ufeff') :
    sourceText (Utf8.encode text) = text := by
  simp only [sourceText, ofBytes_of_no_mark (hasUtf16Mark_encode text) (hasUtf8Mark_encode h),
    Encoding.decode, Utf8.decodeLossy_encode]

/-- The logical lines of a file are found in the text that was stored in it. -/
theorem logicalLines_encode (h : text.head? ≠ some '\ufeff') :
    logicalLines (Utf8.encode text) = logicalLinesFrom 1 false (physicalLines text) := by
  rw [logicalLines_eq, sourceText_encode h]

end Files

end SignalScript
