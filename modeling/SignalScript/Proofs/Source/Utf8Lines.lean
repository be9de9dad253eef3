import Mathlib.Data.List.Count
import SignalScript.Proofs.Text.CaseTables
import SignalScript.Text.Utf8

/-!
# Line feeds in UTF-8

The byte of a line feed is a line feed wherever it stands: it continues no sequence, and no sequence
of several bytes stands for a line feed. So the text of a file falls into lines where its bytes do,
whatever is malformed in between.

## Main definitions

* `Utf8.Open.IsWide` — a sequence that has begun ends in no character as low as a line feed

## Main results

* `Utf8.exists_decodeLossy_append` — bytes behind a line feed are decoded on their own
* `Utf8.count_decodeLossy` — a text has as many line feeds as its bytes
-/

namespace SignalScript.Utf8

/-- The sequence ends in no character as low as a line feed, and no byte of ASCII goes on with
it. -/
structure Open.IsWide (state : Open) : Prop where
  ascii_lt : 0x80 ≤ state.least
  reaches : 0x10 ≤ state.bits * 64 + (state.least - 0x80)

variable {byte : UInt8} {c : Char}

/-- A leading byte opens no character of one byte. -/
theorem isWide_of_lead {next : Open} (h : lead byte = .more next) : next.IsWide := by
  simp only [lead] at h
  split_ifs at h <;> obtain rfl := Step.more.inj h <;> constructor <;> dsimp only <;> omega

/-- A byte alone is a line feed if it is the byte of one. -/
theorem eq_lineFeed_of_lead (h : lead byte = .char c) : c = '\n' ↔ byte = 10 := by
  simp only [lead] at h
  split_ifs at h with hascii
  obtain rfl := Step.char.inj h
  constructor
  · intro hfeed
    exact UInt8.toNat_inj.mp (Text.eq_ten_of_ofNat hfeed)
  · rintro rfl
    rfl

namespace Open.IsWide

variable {state next : Open}

theorem next_more (hwide : state.IsWide) (h : state.next byte = .more next) :
    next.IsWide ∧ byte ≠ 10 := by
  obtain ⟨hleast, hreach⟩ := hwide
  simp only [Open.next] at h
  split_ifs at h with hbyte
  simp only [Bool.and_eq_true, decide_eq_true_eq] at hbyte
  obtain rfl := Step.more.inj h
  refine ⟨⟨Nat.le_refl _, by dsimp only; omega⟩, ?_⟩
  rintro rfl
  have : (10 : UInt8).toNat = 10 := rfl
  omega

theorem next_char (hwide : state.IsWide) (h : state.next byte = .char c) :
    c ≠ '\n' ∧ byte ≠ 10 := by
  obtain ⟨hleast, hreach⟩ := hwide
  simp only [Open.next] at h
  split_ifs at h with hbyte
  simp only [Bool.and_eq_true, decide_eq_true_eq] at hbyte
  obtain rfl := Step.char.inj h
  constructor
  · intro hfeed
    have := Text.eq_ten_of_ofNat hfeed
    omega
  · rintro rfl
    have : (10 : UInt8).toNat = 10 := rfl
    omega

end Open.IsWide

/-! ### One byte -/

variable {state : Option Open}

/-- What a byte adds when no sequence has begun, and the sequence that has begun behind it. -/
def beginWith (byte : UInt8) : List (Option Char) × Option Open :=
  match lead byte with
  | .char c => ([some c], none)
  | .more next => ([], some next)
  | .malformed => ([none], none)

/-- What a byte adds, and the sequence that has begun behind it. -/
def advance (state : Option Open) (byte : UInt8) : List (Option Char) × Option Open :=
  match state with
  | none => beginWith byte
  | some state =>
    match state.next byte with
    | .char c => ([some c], none)
    | .more next => ([], some next)
    | .malformed => (none :: (beginWith byte).1, (beginWith byte).2)

theorem decodeFrom_none_cons (byte : UInt8) (rest : List UInt8) :
    decodeFrom none (byte :: rest) =
      (beginWith byte).1 ++ decodeFrom (beginWith byte).2 rest := by
  rw [decodeFrom, beginWith]
  cases lead byte <;> rfl

theorem decodeFrom_cons (state : Option Open) (byte : UInt8) (rest : List UInt8) :
    decodeFrom state (byte :: rest) =
      (advance state byte).1 ++ decodeFrom (advance state byte).2 rest := by
  cases state with
  | none => exact decodeFrom_none_cons byte rest
  | some state =>
    have hbegin := decodeFrom_none_cons byte rest
    rw [decodeFrom] at hbegin
    rw [decodeFrom, advance, hbegin]
    cases state.next byte <;> rfl

/-- What a byte begins has the bounds of a sequence of several bytes. -/
theorem isWide_beginWith : ∀ next ∈ (beginWith byte).2, next.IsWide := by
  rw [beginWith]
  cases hlead : lead byte with
  | char c => simp
  | more next =>
    intro begun hbegun
    obtain rfl := Option.some.inj hbegun
    exact isWide_of_lead hlead
  | malformed => simp

theorem isWide_advance (hwide : ∀ current ∈ state, current.IsWide) :
    ∀ next ∈ (advance state byte).2, next.IsWide := by
  cases state with
  | none => exact isWide_beginWith
  | some current =>
    rw [advance]
    cases hnext : current.next byte with
    | char c => simp
    | more next =>
      intro begun hbegun
      obtain rfl := Option.some.inj hbegun
      exact ((hwide current rfl).next_more hnext).1
    | malformed => exact isWide_beginWith

/-- Every byte is decoded, or a sequence has begun with it. -/
theorem advance_ne_nil_or_isSome (state : Option Open) (byte : UInt8) :
    (advance state byte).1 ≠ [] ∨ (advance state byte).2.isSome = true := by
  have hbegin : (beginWith byte).1 ≠ [] ∨ (beginWith byte).2.isSome = true := by
    rw [beginWith]
    cases lead byte with
    | char c => exact .inl (List.cons_ne_nil _ _)
    | more next => exact .inr rfl
    | malformed => exact .inl (List.cons_ne_nil _ _)
  cases state with
  | none => exact hbegin
  | some current =>
    rw [advance]
    cases current.next byte with
    | char c => exact .inl (List.cons_ne_nil _ _)
    | more next => exact .inr rfl
    | malformed => exact .inl (List.cons_ne_nil _ _)

/-- Only the byte of a line feed is decoded to one. -/
theorem count_beginWith (byte : UInt8) :
    (beginWith byte).1.count (some '\n') = if byte = 10 then 1 else 0 := by
  rw [beginWith]
  cases hlead : lead byte with
  | char c =>
    have hfeed := eq_lineFeed_of_lead hlead
    rw [List.count_singleton]
    simp [hfeed]
  | more next =>
    have hbyte : byte ≠ 10 := by
      rintro rfl
      cases hlead
    rw [if_neg hbyte, List.count_nil]
  | malformed =>
    have hbyte : byte ≠ 10 := by
      rintro rfl
      cases hlead
    rw [if_neg hbyte]
    rfl

/-- A byte adds a line feed if it is the byte of one. -/
theorem count_advance (hwide : ∀ current ∈ state, current.IsWide) :
    (advance state byte).1.count (some '\n') = if byte = 10 then 1 else 0 := by
  cases state with
  | none => exact count_beginWith byte
  | some current =>
    rw [advance]
    cases hnext : current.next byte with
    | char c =>
      obtain ⟨hc, hbyte⟩ := (hwide current rfl).next_char hnext
      rw [if_neg hbyte, List.count_singleton]
      simp [hc]
    | more next => rw [if_neg ((hwide current rfl).next_more hnext).2, List.count_nil]
    | malformed => simpa using count_beginWith byte

/-- A line feed ends what a byte before it has begun. -/
theorem exists_advance_lineFeed (hwide : ∀ current ∈ state, current.IsWide) :
    ∃ broken, advance state 10 = (broken ++ [some '\n'], none) := by
  cases state with
  | none => exact ⟨[], rfl⟩
  | some current =>
    rw [advance]
    cases hnext : current.next 10 with
    | char c => exact absurd rfl ((hwide current rfl).next_char hnext).2
    | more next => exact absurd rfl ((hwide current rfl).next_more hnext).2
    | malformed => exact ⟨[none], rfl⟩

/-! ### Many bytes -/

/-- Up to a line feed the bytes behind it play no part. -/
theorem exists_decodeFrom_append (front : List UInt8)
    (hwide : ∀ current ∈ state, current.IsWide) :
    ∃ pieces, ∀ back,
      decodeFrom state (front ++ 10 :: back) = pieces ++ some '\n' :: decodeFrom none back := by
  induction front generalizing state with
  | nil =>
    obtain ⟨broken, hbroken⟩ := exists_advance_lineFeed hwide
    refine ⟨broken, fun back => ?_⟩
    rw [List.nil_append, decodeFrom_cons, hbroken, List.append_assoc, List.singleton_append]
  | cons byte front ih =>
    obtain ⟨pieces, hpieces⟩ := ih (isWide_advance hwide)
    refine ⟨(advance state byte).1 ++ pieces, fun back => ?_⟩
    rw [List.cons_append, decodeFrom_cons, hpieces, List.append_assoc]

theorem count_decodeFrom (bytes : List UInt8) (hwide : ∀ current ∈ state, current.IsWide) :
    (decodeFrom state bytes).count (some '\n') = bytes.count 10 := by
  induction bytes generalizing state with
  | nil => cases state <;> rfl
  | cons byte bytes ih =>
    rw [decodeFrom_cons, List.count_append, count_advance hwide, ih (isWide_advance hwide),
      List.count_cons, Nat.add_comm]
    simp

/-- A sequence that has begun ends in a character or in a malformed piece. -/
theorem decodeFrom_ne_nil (bytes : List UInt8) (h : state.isSome = true) :
    decodeFrom state bytes ≠ [] := by
  induction bytes generalizing state with
  | nil =>
    obtain ⟨current, rfl⟩ := Option.isSome_iff_exists.mp h
    exact List.cons_ne_nil _ _
  | cons byte bytes ih =>
    rw [decodeFrom_cons]
    rcases advance_ne_nil_or_isSome state byte with hpiece | hbegun
    · exact List.append_ne_nil_of_left_ne_nil hpiece _
    · exact List.append_ne_nil_of_right_ne_nil _ (ih hbegun)

/-- Bytes behind a line feed are decoded on their own. -/
theorem exists_decodeLossy_append (front : List UInt8) :
    ∃ text, ∀ back, decodeLossy (front ++ 10 :: back) = text ++ '\n' :: decodeLossy back := by
  have hnone : ∀ current ∈ (none : Option Open), current.IsWide := by simp
  obtain ⟨pieces, hpieces⟩ := exists_decodeFrom_append front hnone
  refine ⟨pieces.map fun piece => piece.getD replacementCharacter, fun back => ?_⟩
  simp only [decodeLossy, decode, hpieces, List.map_append, List.map_cons, Option.getD_some]

/-- No bytes are lost altogether. -/
theorem decodeLossy_ne_nil {bytes : List UInt8} (h : bytes ≠ []) : decodeLossy bytes ≠ [] := by
  rw [decodeLossy, decode, ne_eq, List.map_eq_nil_iff]
  cases bytes with
  | nil => exact absurd rfl h
  | cons byte bytes =>
    rw [decodeFrom_cons]
    rcases advance_ne_nil_or_isSome none byte with hpiece | hbegun
    · exact List.append_ne_nil_of_left_ne_nil hpiece _
    · exact List.append_ne_nil_of_right_ne_nil _ (decodeFrom_ne_nil bytes hbegun)

/-- A text has as many line feeds as its bytes. -/
theorem count_decodeLossy (bytes : List UInt8) :
    (decodeLossy bytes).count '\n' = bytes.count 10 := by
  have hnone : ∀ current ∈ (none : Option Open), current.IsWide := by simp
  rw [← count_decodeFrom bytes hnone, decodeLossy, decode]
  induction decodeFrom none bytes with
  | nil => rfl
  | cons piece pieces ih =>
    rw [List.map_cons, List.count_cons, List.count_cons, ih]
    cases piece <;> simp [replacementCharacter]

end SignalScript.Utf8
