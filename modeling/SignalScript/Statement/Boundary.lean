import SignalScript.Statement.Weight
import SignalScript.Text.Bracket

/-!
# Boundaries of statements

Statements, conditions and blocks may run over several lines. Each of the readers here collects
lines until it meets the character that ends what it looks for, puts the text behind that
character back, and reports what does not end.

## Main definitions

* `isIf`, `isElse`, `isStructural` — lines that no statement runs across
* `takeStatement` — the text of a statement, up to its semicolon
* `takeCondition` — the head of an arm, up to the bracket that closes its condition
* `takeBlock` — the lines of a block, up to its closing brace
-/

namespace SignalScript

/-- The line begins an `IF`. -/
def isIf (text : Text) : Bool := "IF ".toList.isPrefixOf text

/-- The line begins an `ELSE` or an `ELSEIF`. -/
def isElse (text : Text) : Bool :=
  text = "ELSE".toList || "ELSE ".toList.isPrefixOf text || "ELSEIF".toList.isPrefixOf text

/-- The line begins with one of the two braces. -/
def startsWithBrace : Text → Bool
  | c :: _ => c = '{' || c = '}'
  | [] => false

/-- The line ends a statement that has no semicolon. -/
def isStructural (text : Text) : Bool := startsWithBrace text || isIf text || isElse text

/-- Text put back takes no more room than the longer text it is cut from. -/
theorem weight_pushRest_of_lt {behind text : Text} (h : behind.length < text.length) (number : Nat)
    (lines : List LogicalLine) :
    weight (pushRest behind number lines) ≤ text.length + weight lines := by
  have := weight_pushRest_le behind number lines
  omega

theorem length_lt_of_cut? {c : Char} {text before behind : Text}
    (h : Text.cut? c text = some (before, behind)) : behind.length < text.length := by
  have := Text.cut?_length h
  omega

/-- Joining a text and the next line with a space keeps the room they take. -/
theorem weight_joined (text : Text) (next : LogicalLine) (rest : List LogicalLine) :
    (text ++ ' ' :: next.text).length + weight rest = text.length + weight (next :: rest) := by
  simp only [List.length_append, List.length_cons, weight_cons]
  omega

/-- The text of a statement that begins with `text` on line `number`, up to its semicolon. -/
def takeStatement (text : Text) (number : Nat) (lines : List LogicalLine) :
    Taken Text (text.length + weight lines) :=
  match hcut : Text.cut? ';' text with
  | some (statement, behind) =>
    { value := statement ++ [';']
      problems := []
      rest := pushRest behind number lines
      fits := weight_pushRest_of_lt (length_lt_of_cut? hcut) number lines }
  | none =>
    match lines with
    | next :: rest =>
      if isStructural next.text then
        ⟨text, [⟨number, .missingSemicolon text⟩], next :: rest, Nat.le_add_left _ _⟩
      else
        let taken := takeStatement (text ++ ' ' :: next.text) number rest
        { taken with fits := Nat.le_trans taken.fits (Nat.le_of_eq (weight_joined text next rest)) }
    | [] => ⟨text, [⟨number, .missingSemicolon text⟩], [], Nat.zero_le _⟩
termination_by lines.length

/-- The text up to the bracket that matches the first opening one, and the text behind it. -/
def cutCondition? (text : Text) : Option (Text × Text) :=
  match Text.cut? '(' text with
  | none => none
  | some (before, behind) =>
    (Text.closing? 1 behind).map fun (inner, after) => (before ++ '(' :: inner ++ [')'], after)

theorem length_lt_of_cutCondition? {text head after : Text}
    (h : cutCondition? text = some (head, after)) : after.length < text.length := by
  unfold cutCondition? at h
  split at h
  · simp at h
  · rename_i hcut
    obtain ⟨⟨inner, behind⟩, hclose, heq⟩ := Option.map_eq_some_iff.mp h
    simp only [Prod.mk.injEq] at heq
    obtain ⟨_, rfl⟩ := heq
    have := Text.cut?_length hcut
    have := Text.closing?_length hclose
    omega

/-- The head of an arm that begins with `text` on line `number`, up to the bracket that closes its
condition. -/
def takeCondition (text : Text) (number : Nat) (lines : List LogicalLine) :
    Taken Text (text.length + weight lines) :=
  match hcut : cutCondition? text with
  | some (head, behind) =>
    { value := head
      problems := []
      rest := pushRest behind number lines
      fits := weight_pushRest_of_lt (length_lt_of_cutCondition? hcut) number lines }
  | none =>
    match lines with
    | next :: rest =>
      if startsWithBrace next.text then
        ⟨text, [⟨number, .openCondition text⟩], next :: rest, Nat.le_add_left _ _⟩
      else
        let taken := takeCondition (text ++ ' ' :: next.text) number rest
        { taken with fits := Nat.le_trans taken.fits (Nat.le_of_eq (weight_joined text next rest)) }
    | [] => ⟨text, [⟨number, .openCondition text⟩], [], Nat.zero_le _⟩
termination_by lines.length

/-- Where a line stands after its braces have been counted. -/
inductive BraceScan
  /-- The block goes on; `depth` more blocks are open in it. -/
  | inside (kept : Text) (depth : Nat)
  /-- The block ends; the text in front of its brace and behind it. -/
  | closed (kept after : Text)
  deriving DecidableEq, Repr

/-- Puts a character in front. -/
def BraceScan.cons (c : Char) : BraceScan → BraceScan
  | .inside kept depth => .inside (c :: kept) depth
  | .closed kept after => .closed (c :: kept) after

/-- Counts the braces of a line in a block in which `depth` more blocks are open. -/
def scanBraces (depth : Nat) : Text → BraceScan
  | [] => .inside [] depth
  | c :: rest =>
    if c = '{' then (scanBraces (depth + 1) rest).cons c
    else if c = '}' then
      match depth with
      | 0 => .closed [] rest
      | depth + 1 => (scanBraces depth rest).cons c
    else (scanBraces depth rest).cons c

theorem length_of_scanBraces_inside {depth after : Nat} {text kept : Text}
    (h : scanBraces depth text = .inside kept after) : kept.length ≤ text.length := by
  induction text generalizing depth kept with
  | nil => simp [scanBraces] at h; simp [h]
  | cons c rest ih =>
    unfold scanBraces at h
    split at h
    · cases hs : scanBraces (depth + 1) rest <;> simp_all [BraceScan.cons]
      exact h.1 ▸ Nat.succ_le_succ (ih hs)
    · split at h
      · split at h
        · simp at h
        · rename_i depth
          cases hs : scanBraces depth rest <;> simp_all [BraceScan.cons]
          exact h.1 ▸ Nat.succ_le_succ (ih hs)
      · cases hs : scanBraces depth rest <;> simp_all [BraceScan.cons]
        exact h.1 ▸ Nat.succ_le_succ (ih hs)

theorem length_of_scanBraces_closed {depth : Nat} {text kept after : Text}
    (h : scanBraces depth text = .closed kept after) :
    kept.length + after.length + 1 ≤ text.length := by
  induction text generalizing depth kept with
  | nil => simp [scanBraces] at h
  | cons c rest ih =>
    unfold scanBraces at h
    split at h
    · cases hs : scanBraces (depth + 1) rest <;> simp_all [BraceScan.cons]
      have := ih hs
      have := h.1 ▸ List.length_cons
      omega
    · split at h
      · split at h
        · simp_all
        · rename_i depth
          cases hs : scanBraces depth rest <;> simp_all [BraceScan.cons]
          have := ih hs
          have := h.1 ▸ List.length_cons
          omega
      · cases hs : scanBraces depth rest <;> simp_all [BraceScan.cons]
        have := ih hs
        have := h.1 ▸ List.length_cons
        omega

theorem weight_of_scanBraces_closed {depth : Nat} {text kept after : Text}
    (h : scanBraces depth text = .closed kept after) (number : Nat) (lines : List LogicalLine) :
    weight (pushRest kept number []) + weight (pushRest after number lines) ≤
      text.length + 1 + weight lines := by
  have := length_of_scanBraces_closed h
  have := weight_pushRest_le kept number []
  have := weight_pushRest_le after number lines
  simp only [weight_nil] at *
  omega

theorem weight_of_scanBraces_inside {depth after : Nat} {text kept : Text}
    (h : scanBraces depth text = .inside kept after) (number room : Nat)
    {inner rest : List LogicalLine} (hroom : weight inner + weight rest ≤ room) :
    weight (pushRest kept number inner) + weight rest ≤ text.length + 1 + room := by
  have := length_of_scanBraces_inside h
  have := weight_pushRest_le kept number inner
  omega

/-- The lines of a block and the lines behind it, which together take no more room than `room`. -/
structure Block (room : Nat) where
  inner : List LogicalLine
  problems : List Problem
  rest : List LogicalLine
  fits : weight inner + weight rest ≤ room

/-- The lines of a block that goes on with `text` on line `number`, in which `depth` more blocks
are open; line `start` opened it. -/
def takeBlock (start depth : Nat) (text : Text) (number : Nat) (lines : List LogicalLine) :
    Block (text.length + 1 + weight lines) :=
  match hscan : scanBraces depth text with
  | .closed kept after =>
    { inner := pushRest kept number []
      problems := []
      rest := pushRest after number lines
      fits := weight_of_scanBraces_closed hscan number lines }
  | .inside kept depth =>
    match lines with
    | [] =>
      { inner := pushRest kept number []
        problems := [⟨start, .openBlock⟩]
        rest := []
        fits := weight_of_scanBraces_inside hscan number 0 (Nat.le_refl 0) }
    | next :: rest =>
      let block := takeBlock start depth next.text next.number rest
      { inner := pushRest kept number block.inner
        problems := block.problems
        rest := block.rest
        fits := weight_of_scanBraces_inside hscan number (weight (next :: rest)) block.fits }
termination_by lines.length

end SignalScript
