import SignalScript.Proofs.Text.Cutting
import SignalScript.Proofs.Statement.Steps
import SignalScript.Proofs.Statement.Written

/-!
# Reading written lines

What the readers make of the lines of a sentence, a guard or a block: each takes exactly the lines
that were written for it and leaves the rest alone.

## Main definitions

* `braceDepth` — how many braces are open behind some lines
* `Written.IsHead` — lines that a body can stand behind
* `Written.IsWhole` — lines that can stand in a block

## Main results

* `takeStatement_lines`, `takeCondition_lines`, `takeBlock_lines` — what is read from the lines
* `Written.isWhole_linesOf` — the lines of a program close every brace they open
-/

namespace SignalScript

open Text

namespace Written

/-! ### Broken texts -/

section Broken

variable {tail piece next line : Text} {pieces more front back : List Text}

theorem extendLast_ne_nil (tail : Text) (front : List Text) : extendLast tail front ≠ [] := by
  cases front with
  | nil => simp [extendLast]
  | cons line more => cases more <;> simp [extendLast]

theorem extendLast_nil (h : front ≠ []) : extendLast [] front = front := by
  induction front with
  | nil => exact absurd rfl h
  | cons line more ih =>
    cases more with
    | nil => simp [extendLast]
    | cons next later => rw [extendLast, ih (List.cons_ne_nil _ _)]

/-- Two pieces on one line are as good as one. -/
theorem extendLast_merge (h : extendLast tail (next :: more) = line :: back) (piece : Text) :
    extendLast tail ((piece ++ ' ' :: next) :: more) = (piece ++ ' ' :: line) :: back := by
  cases more with
  | nil =>
    obtain ⟨rfl, rfl⟩ := List.cons.inj h
    simp [extendLast]
  | cons after later =>
    obtain ⟨rfl, rfl⟩ := List.cons.inj h
    rfl

theorem joinedBy_merge (piece next : Text) (more : List Text) :
    joinedBy [' '] (piece :: next :: more) = joinedBy [' '] ((piece ++ ' ' :: next) :: more) := by
  cases more <;> simp [joinedBy]

theorem joinedBy_cons_cons (piece next : Text) (more : List Text) :
    joinedBy [' '] (piece :: next :: more) = piece ++ ' ' :: joinedBy [' '] (next :: more) := by
  simp [joinedBy]

/-- Every line of an extended list is one of its lines, or its last line extended. -/
theorem mem_extendLast (h : line ∈ extendLast tail front) (hfront : front ≠ []) :
    line ∈ front ∨ ∃ last ∈ front, line = last ++ tail := by
  induction front with
  | nil => exact absurd rfl hfront
  | cons piece more ih =>
    cases more with
    | nil => exact Or.inr ⟨piece, List.mem_singleton_self _, List.mem_singleton.mp h⟩
    | cons next later =>
      rcases List.mem_cons.mp h with rfl | h
      · exact Or.inl List.mem_cons_self
      · rcases ih h (List.cons_ne_nil _ _) with h | ⟨last, hlast, rfl⟩
        · exact Or.inl (List.mem_cons_of_mem _ h)
        · exact Or.inr ⟨last, List.mem_cons_of_mem _ hlast, rfl⟩

/-- The characters of the pieces are characters of the text. -/
theorem subset_joinedBy (h : piece ∈ pieces) : piece ⊆ joinedBy [' '] pieces := by
  induction pieces with
  | nil => cases h
  | cons first more ih =>
    cases more with
    | nil =>
      rw [List.mem_singleton.mp h]
      exact fun _ hc => hc
    | cons next later =>
      rw [joinedBy_cons_cons]
      rcases List.mem_cons.mp h with rfl | h
      · exact List.subset_append_left _ _
      · exact fun c hc => List.mem_append_right _ (List.mem_cons_of_mem _ (ih h hc))

/-- The first piece begins the text. -/
theorem prefix_joinedBy (piece : Text) (more : List Text) :
    piece <+: joinedBy [' '] (piece :: more) := by
  cases more with
  | nil => exact List.prefix_rfl
  | cons next later => exact joinedBy_cons_cons piece next later ▸ List.prefix_append _ _

/-- The first line begins the text. -/
theorem prefix_extendLast (h : extendLast tail (piece :: more) = line :: back) :
    line <+: joinedBy [' '] (piece :: more) ++ tail := by
  cases more with
  | nil =>
    obtain ⟨rfl, -⟩ := List.cons.inj h
    exact List.prefix_rfl
  | cons next later =>
    obtain ⟨rfl, -⟩ := List.cons.inj h
    exact (prefix_joinedBy piece _).trans (List.prefix_append _ _)

end Broken

end Written

open Written

/-! ### Statements and guards -/

section Readers

variable {tail piece text head after : Text} {later : List Text} {number : Nat}
  {front rest : List LogicalLine}

/-- A statement is read up to the semicolon, and the lines behind it are left alone. -/
theorem takeStatement_lines
    (hplain : ';' ∉ joinedBy [' '] (piece :: later))
    (hcontinues : ∀ line ∈ (extendLast [';'] (piece :: later)).tail, isStructural line = false)
    (hlines : text :: front.map LogicalLine.text = extendLast [';'] (piece :: later)) :
    (takeStatement text number (front ++ rest)).parts =
      (joinedBy [' '] (piece :: later) ++ [';'], [], rest) := by
  induction later generalizing piece text front with
  | nil =>
    obtain ⟨rfl, hfront⟩ := List.cons.inj hlines
    obtain rfl := List.map_eq_nil_iff.mp hfront
    exact takeStatement_cut (cut?_append_cons hplain [])
  | cons next more ih =>
    obtain ⟨rfl, hfront⟩ := List.cons.inj hlines
    cases front with
    | nil => exact absurd hfront.symm (extendLast_ne_nil _ _)
    | cons second front =>
      have hsecond : isStructural second.text = false :=
        hcontinues _ (by rw [← hlines]; exact List.mem_cons_self)
      -- The semicolon stands behind the last piece only.
      have hnone : cut? ';' text = none :=
        cut?_eq_none_iff.mpr fun h => hplain (subset_joinedBy List.mem_cons_self h)
      -- Joined to the next line, the text is the first line of one broken once less.
      have hmerged := extendLast_merge hfront.symm text
      rw [List.cons_append, takeStatement_next hnone hsecond, joinedBy_merge]
      refine ih (by rwa [← joinedBy_merge]) (fun line hline => ?_) hmerged.symm
      refine hcontinues line ?_
      rw [hmerged] at hline
      rw [← hlines]
      exact List.mem_cons_of_mem _ hline

theorem cutCondition?_append (h : cutCondition? text = some (head, after)) (more : Text) :
    cutCondition? (text ++ more) = some (head, after ++ more) := by
  rw [cutCondition?] at h ⊢
  split at h
  · cases h
  · rename_i before behind hcut
    rw [cut?_append hcut]
    obtain ⟨⟨inner, back⟩, hclose, hpair⟩ := Option.map_eq_some_iff.mp h
    obtain ⟨rfl, rfl⟩ := Prod.mk.inj hpair
    simp [closing?_append hclose]

/-- A guard ends at the bracket that closes its condition. -/
theorem cutCondition?_of_isBalanced {condition : Text} (hopening : '(' ∉ text)
    (hcondition : condition.IsBalanced) :
    cutCondition? (text ++ '(' :: (condition ++ [')'])) =
      some (text ++ '(' :: (condition ++ [')']), []) := by
  rw [cutCondition?, cut?_append_cons hopening]
  simp [closing?_of_isBalanced hcondition]

/-- A guard is read up to the bracket that closes its condition, and what stands behind it on the
same line is left as a line of its own. -/
theorem takeCondition_lines
    (hcut : cutCondition? (joinedBy [' '] (piece :: later)) =
      some (joinedBy [' '] (piece :: later), []))
    (hcontinues : ∀ line ∈ (extendLast tail (piece :: later)).tail, startsWithBrace line = false)
    (hlines : text :: front.map LogicalLine.text = extendLast tail (piece :: later)) :
    (takeCondition text number (front ++ rest)).parts =
      (joinedBy [' '] (piece :: later), [], pushRest tail number rest) := by
  induction later generalizing piece text front with
  | nil =>
    obtain ⟨rfl, hfront⟩ := List.cons.inj hlines
    obtain rfl := List.map_eq_nil_iff.mp hfront
    exact takeCondition_cut (cutCondition?_append hcut tail)
  | cons next more ih =>
    obtain ⟨rfl, hfront⟩ := List.cons.inj hlines
    cases front with
    | nil => exact absurd hfront.symm (extendLast_ne_nil _ _)
    | cons second front =>
      have hsecond : startsWithBrace second.text = false :=
        hcontinues _ (by rw [← hlines]; exact List.mem_cons_self)
      -- A bracket that closed within the first piece would close too early in the whole guard.
      have hnone : cutCondition? text = none := by
        cases hsome : cutCondition? text with
        | none => rfl
        | some pair =>
          have hearly := cutCondition?_append hsome (' ' :: joinedBy [' '] (next :: more))
          rw [← joinedBy_cons_cons, hcut] at hearly
          have := congrArg Prod.snd (Option.some.inj hearly)
          simp at this
      have hmerged := extendLast_merge hfront.symm text
      rw [List.cons_append, takeCondition_next hnone hsecond, joinedBy_merge]
      refine ih (by rwa [← joinedBy_merge]) (fun line hline => ?_) hmerged.symm
      refine hcontinues line ?_
      rw [hmerged] at hline
      rw [← hlines]
      exact List.mem_cons_of_mem _ hline

end Readers

/-! ### Blocks -/

/-- How many blocks are open behind some lines, if `depth` are open in front of them and none of
those is closed. -/
def braceDepth (depth : Nat) : List Text → Option Nat
  | [] => some depth
  | line :: more =>
    match scanBraces depth line with
    | .inside _ depth => braceDepth depth more
    | .closed _ _ => none

section Blocks

variable {text kept : Text} {depth depth' number start : Nat} {lines more : List Text}
  {front rest : List LogicalLine} {close : LogicalLine}

/-- A line in a block is kept as it is. -/
theorem kept_of_scanBraces (h : scanBraces depth text = .inside kept depth') : kept = text := by
  induction text generalizing depth kept with
  | nil => exact (BraceScan.inside.inj h).1.symm
  | cons c line ih =>
    have hcons {depth : Nat} (h : (scanBraces depth line).cons c = .inside kept depth') :
        kept = c :: line := by
      cases hscan : scanBraces depth line with
      | inside inner depth =>
        rw [hscan] at h
        obtain ⟨rfl, rfl⟩ := BraceScan.inside.inj h
        rw [ih hscan]
      | closed inner after =>
        rw [hscan] at h
        cases h
    -- Every character is put back in front of what is kept of the rest.
    rw [scanBraces.eq_def] at h
    simp only at h
    split at h
    · exact hcons h
    · split at h
      · split at h
        · cases h
        · exact hcons h
      · exact hcons h

theorem braceDepth_append (depth : Nat) (lines more : List Text) :
    braceDepth depth (lines ++ more) = (braceDepth depth lines).bind (braceDepth · more) := by
  induction lines generalizing depth with
  | nil => rfl
  | cons line lines ih =>
    rw [List.cons_append, braceDepth, braceDepth]
    cases scanBraces depth line with
    | inside kept depth => exact ih depth
    | closed kept after => rfl

/-- A block is read up to the brace that closes it, with its lines as they are. -/
theorem takeBlock_lines (hdepth : braceDepth depth (text :: front.map LogicalLine.text) = some 0)
    (htight : ∀ line ∈ front, line.text.IsTight) (hclose : close.text = ['}']) :
    (takeBlock start depth text number (front ++ close :: rest)).parts =
      (pushRest text number front, [], rest) := by
  induction front generalizing text number depth with
  | nil =>
    cases hscan : scanBraces depth text with
    | inside kept depth' =>
      rw [List.map_nil, braceDepth, hscan] at hdepth
      obtain rfl := Option.some.inj hdepth
      -- Nothing is open any more, so the brace closes the block itself.
      have hend : scanBraces 0 close.text = .closed [] [] := by rw [hclose]; rfl
      rw [List.nil_append, takeBlock_next hscan, kept_of_scanBraces hscan, takeBlock_closed hend]
      rfl
    | closed kept after =>
      rw [List.map_nil, braceDepth, hscan] at hdepth
      cases hdepth
  | cons next front ih =>
    cases hscan : scanBraces depth text with
    | inside kept depth' =>
      rw [List.map_cons, braceDepth, hscan] at hdepth
      rw [List.cons_append, takeBlock_next hscan, kept_of_scanBraces hscan,
        ih hdepth fun line hline => htight line (List.mem_cons_of_mem _ hline)]
      exact congrArg (fun inner => (pushRest text number inner, [], rest))
        (pushRest_of_isTight (htight next List.mem_cons_self) _ _)
    | closed kept after =>
      rw [List.map_cons, braceDepth, hscan] at hdepth
      cases hdepth

end Blocks

/-! ### Written lines are whole -/

namespace Written

/-- The line holds no brace. -/
def IsPlain (line : Text) : Prop := ∀ c ∈ line, c ≠ '{' ∧ c ≠ '}'

section Plain

variable {line first back : Text} {front later lines more : List Text}

theorem scanBraces_cons {c : Char} (hopen : c ≠ '{') (hclose : c ≠ '}') (depth : Nat)
    (rest : Text) : scanBraces depth (c :: rest) = (scanBraces depth rest).cons c := by
  rw [scanBraces.eq_def]
  simp only [if_neg hopen, if_neg hclose]

/-- Text without braces in front of a line changes nothing about its braces. -/
theorem braceDepth_append_text (h : IsPlain line) (depth : Nat) (back : Text) (more : List Text) :
    braceDepth depth ((line ++ back) :: more) = braceDepth depth (back :: more) := by
  induction line with
  | nil => rfl
  | cons c line ih =>
    obtain ⟨hopen, hclose⟩ := h c List.mem_cons_self
    rw [← ih fun d hd => h d (List.mem_cons_of_mem _ hd), List.cons_append, braceDepth,
      braceDepth, scanBraces_cons hopen hclose]
    cases scanBraces depth (line ++ back) <;> rfl

theorem braceDepth_cons (h : IsPlain line) (depth : Nat) (more : List Text) :
    braceDepth depth (line :: more) = braceDepth depth more := by
  rw [← List.append_nil line, braceDepth_append_text h]
  rfl

theorem braceDepth_extendLast (hne : front ≠ []) (h : ∀ line ∈ front, IsPlain line) (depth : Nat)
    (tail : Text) (later : List Text) :
    braceDepth depth (extendLast tail front ++ later) = braceDepth depth (tail :: later) := by
  induction front with
  | nil => exact absurd rfl hne
  | cons line more ih =>
    have hline := h line List.mem_cons_self
    cases more with
    | nil => exact braceDepth_append_text hline depth tail later
    | cons next more =>
      rw [extendLast, List.cons_append, braceDepth_cons hline]
      exact ih (List.cons_ne_nil _ _) fun line hmem => h line (List.mem_cons_of_mem _ hmem)

end Plain

/-- Lines that a body can stand behind. -/
structure IsHead (front : List Text) : Prop where
  ne_nil : front ≠ []
  tight : ∀ line ∈ front, line.IsTight
  plain : ∀ line ∈ front, IsPlain line

/-- Lines that can stand in a block: each is tight, and together they close every brace they
open. -/
structure IsWhole (lines : List Text) : Prop where
  tight : ∀ line ∈ lines, line.IsTight
  closed : ∀ depth, braceDepth depth lines = some depth

namespace IsWhole

variable {front lines more : List Text}

theorem nil : IsWhole [] := ⟨fun _ h => absurd h List.not_mem_nil, fun _ => rfl⟩

theorem append (hlines : IsWhole lines) (hmore : IsWhole more) : IsWhole (lines ++ more) where
  tight line hline := (List.mem_append.mp hline).elim (hlines.tight line) (hmore.tight line)
  closed depth := by rw [braceDepth_append, hlines.closed, Option.bind_some, hmore.closed]

theorem braces (h : IsWhole lines) : IsWhole (['{'] :: (lines ++ [['}']])) where
  tight line hline := by
    rcases List.mem_cons.mp hline with rfl | hline
    · exact IsTight.single rfl
    · rcases List.mem_append.mp hline with hline | hline
      · exact h.tight line hline
      · rw [List.mem_singleton.mp hline]
        exact IsTight.single rfl
  closed depth := by
    rw [braceDepth, show scanBraces depth ['{'] = .inside ['{'] (depth + 1) from rfl]
    simp only
    rw [braceDepth_append, h.closed]
    rfl

end IsWhole

namespace IsHead

variable {front : List Text}

theorem isWhole (h : IsHead front) : IsWhole front where
  tight := h.tight
  closed depth := by
    have := braceDepth_extendLast h.ne_nil h.plain depth [] []
    rwa [extendLast_nil h.ne_nil, List.append_nil] at this

/-- Lines that close their braces can stand behind a head, in either place. -/
theorem attach {lines : List Text} (hfront : IsHead front) (hlines : IsWhole lines)
    (place : Place) : IsWhole (place.attach front lines) := by
  match place, lines with
  | .sameLine, [] => exact hfront.isWhole
  | .nextLine, lines => exact hfront.isWhole.append hlines
  | .sameLine, first :: later =>
    refine ⟨fun line hline => ?_, fun depth => ?_⟩
    · rcases List.mem_append.mp hline with hline | hline
      · rcases mem_extendLast hline hfront.ne_nil with hline | ⟨last, hlast, rfl⟩
        · exact hfront.tight line hline
        · exact (hfront.tight last hlast).append_space (hlines.tight first List.mem_cons_self)
      · exact hlines.tight line (List.mem_cons_of_mem _ hline)
    · -- The braces of the first line are counted behind the last line of the head.
      rw [Place.attach, braceDepth_extendLast hfront.ne_nil hfront.plain]
      have hspace : IsPlain [' '] := by simp [IsPlain]
      exact (braceDepth_append_text hspace depth first later).trans (hlines.closed depth)

end IsHead

section Parts

variable {front : List Text} {broken : Broken} {tail : Text}

theorem isPlain_of_mem_pieces (h : IsPlain broken.text) {piece : Text}
    (hpiece : piece ∈ broken.pieces) : IsPlain piece :=
  fun c hc => h c (subset_joinedBy hpiece hc)

theorem not_brace_of_isDelimiter {c : Char} (h : isDelimiter c = false) : c ≠ '{' ∧ c ≠ '}' := by
  simp only [isDelimiter, Bool.or_eq_false_iff, decide_eq_false_iff_not] at h
  exact ⟨h.1.2, h.2⟩

theorem Sentence.isHead (sentence : Sentence) : IsHead sentence.lines where
  ne_nil := extendLast_ne_nil _ _
  tight line hline := by
    rcases mem_extendLast hline (List.cons_ne_nil _ _) with hline | ⟨last, hlast, rfl⟩
    · exact sentence.tight line hline
    · exact (sentence.tight last hlast).append_char rfl
  plain line hline := by
    have hplain : IsPlain sentence.text :=
      fun c hc => not_brace_of_isDelimiter (sentence.plain c hc)
    rcases mem_extendLast hline (List.cons_ne_nil _ _) with hline | ⟨last, hlast, rfl⟩
    · exact isPlain_of_mem_pieces hplain hline
    · intro c hc
      rcases List.mem_append.mp hc with hc | hc
      · exact isPlain_of_mem_pieces hplain hlast c hc
      · simp [List.mem_singleton.mp hc]

theorem Guard.isPlain (guard : Guard) : IsPlain guard.text := by
  intro c hc
  rw [guard.spells] at hc
  simp only [List.mem_cons, List.mem_append, List.not_mem_nil, or_false] at hc
  rcases hc with rfl | hc | rfl
  · decide
  · exact not_brace_of_isDelimiter (guard.plain c hc)
  · decide

/-- The lines up to the end of a guard. -/
theorem IsHead.behind_guard (h : IsHead front) (guard : Guard) :
    IsHead (Place.sameLine.attach front guard.pieces) where
  ne_nil hnil := extendLast_ne_nil _ _ (List.append_eq_nil_iff.mp hnil).1
  tight line hline := by
    rcases List.mem_append.mp hline with hline | hline
    · rcases mem_extendLast hline h.ne_nil with hline | ⟨last, hlast, rfl⟩
      · exact h.tight line hline
      · exact (h.tight last hlast).append_space (guard.tight _ List.mem_cons_self)
    · exact guard.tight line (List.mem_cons_of_mem _ hline)
  plain line hline := by
    rcases List.mem_append.mp hline with hline | hline
    · rcases mem_extendLast hline h.ne_nil with hline | ⟨last, hlast, rfl⟩
      · exact h.plain line hline
      · intro c hc
        rcases List.mem_append.mp hc with hc | hc
        · exact h.plain last hlast c hc
        · rcases List.mem_cons.mp hc with rfl | hc
          · decide
          · exact isPlain_of_mem_pieces guard.isPlain List.mem_cons_self c hc
    · exact isPlain_of_mem_pieces guard.isPlain (List.mem_cons_of_mem _ hline)

theorem isHead_if : IsHead ["IF".toList] where
  ne_nil := List.cons_ne_nil _ _
  tight := by decide
  plain := by simp [IsPlain]

theorem isHead_else : IsHead ["ELSE".toList] where
  ne_nil := List.cons_ne_nil _ _
  tight := by decide
  plain := by simp [IsPlain]

theorem Spelling.isHead (spelling : Spelling) : IsHead spelling.opening where
  ne_nil := by cases spelling <;> exact List.cons_ne_nil _ _
  tight := by cases spelling <;> decide
  plain := by cases spelling <;> simp [IsPlain, Spelling.opening]

end Parts

mutual

theorem Item.isWhole : (item : Item) → IsWhole item.lines
  | .sentence sentence => sentence.isHead.isWhole
  | .block items => (isWhole_linesOf items).braces
  | .choose first => first.isWhole isHead_if

theorem Arm.isWhole {opening : List Text} (h : IsHead opening) :
    (arm : Arm) → IsWhole (arm.lines opening)
  | .mk guard body otherwise =>
    ((h.behind_guard guard).attach body.isWhole body.place).append otherwise.isWhole

theorem Body.isWhole : (body : Body) → IsWhole body.lines
  | .braced items => (isWhole_linesOf items).braces
  | .sentence _ sentence => sentence.isHead.isWhole
  | .choose _ first => first.isWhole isHead_if

theorem Otherwise.isWhole : (otherwise : Otherwise) → IsWhole otherwise.lines
  | .done => .nil
  | .always body => isHead_else.attach body.isWhole body.place
  | .arm spelling next => next.isWhole spelling.isHead

/-- The lines of a program are tight and close every brace they open. -/
theorem isWhole_linesOf : (items : List Item) → IsWhole (linesOf items)
  | [] => .nil
  | item :: more => item.isWhole.append (isWhole_linesOf more)

end

end Written

end SignalScript
