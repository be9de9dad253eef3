import SignalScript.Proofs.Statement.Fragment
import SignalScript.Proofs.Statement.Guard
import SignalScript.Proofs.Statement.StatementForm

/-!
# The lines that statements go under

A body is read from fragments of its lines, one behind another, whatever blocks and arms they stand
in. A statement takes whole lines. The head of an arm takes whole lines and the beginning of a line,
and what is left of that line is put back under the number of the head. Nothing else is put back
under the number of another line.

## Main definitions

* `Taken.Covers` — what was taken is spelled by fragments of the lines it was taken from

## Main results

* `exists_takeStatement`, `exists_takeCondition`, `takeBlock_split` — the lines that a statement, a
  head and a block take
* `exists_fragments_readStatements` — the fragments of a body and the numbers they go under
* `exists_fragment_inexact` — a statement that does not go under the line it begins on
-/

namespace SignalScript

open Text

/-! ### Boundaries -/

section Statements

/-- A statement takes whole lines. -/
theorem exists_takeStatement {text : Text} {lines : List LogicalLine} (number : Nat)
    (htext : ∃ front : Text, ';' ∉ front ∧ (text = front ∨ text = front ++ [';']))
    (hlines : IsBody lines) :
    let taken := takeStatement text number lines
    IsBody taken.rest ∧ ∃ more : List PlacedChar,
      lines.flatMap LogicalLine.placed = more ++ taken.rest.flatMap LogicalLine.placed ∧
        withoutBlanks taken.value = withoutBlanks text ++ more.map Prod.fst := by
  fun_induction takeStatement text number lines with
  | case1 text lines statement behind hcut =>
    -- A semicolon stands at the end of its line, so nothing is left of the line.
    obtain ⟨front, hfront, rfl | rfl⟩ := htext
    · rw [cut?_eq_none_iff.mpr hfront] at hcut
      cases hcut
    · rw [cut?_append_cons hfront] at hcut
      obtain ⟨rfl, rfl⟩ := Prod.mk.inj (Option.some.inj hcut)
      exact ⟨hlines, [], rfl, (List.append_nil _).symm⟩
  | case2 text hcut next rest hnext => exact ⟨hlines, [], rfl, (List.append_nil _).symm⟩
  | case3 text hcut next rest hnext taken ih =>
    -- The next line is joined as a whole, and only it can bring the semicolon.
    have hsemicolon : ';' ∉ text := cut?_eq_none_iff.mp hcut
    have hjoined : ∃ front : Text, ';' ∉ front ∧
        (text ++ ' ' :: next.text = front ∨ text ++ ' ' :: next.text = front ++ [';']) := by
      obtain ⟨front, hfront, hline⟩ := hlines.head_isLine.semicolon
      refine ⟨text ++ ' ' :: front, by simp [hsemicolon, hfront], ?_⟩
      rcases hline with hline | hline <;> simp [hline]
    obtain ⟨hrest, more, hplaced, hvalue⟩ := ih hjoined hlines.tail
    refine ⟨hrest, next.placed ++ more, ?_, ?_⟩
    · rw [List.flatMap_cons, hplaced, List.append_assoc]
    · change withoutBlanks taken.value = _
      rw [hvalue, withoutBlanks_append, List.map_append, next.map_fst_placed, List.append_assoc]
      rfl
  | case4 text hcut => exact ⟨hlines, [], rfl, (List.append_nil _).symm⟩

end Statements

section Heads

variable {text head front behind : Text} {number : Nat} {lines : List LogicalLine}

/-- What closes no condition leaves it to the text behind to do so. -/
theorem exists_append_of_cutCondition? (h : cutCondition? front = none)
    (hcut : cutCondition? (front ++ text) = some (head, behind)) :
    ∃ part, text = part ++ ')' :: behind ∧ head = front ++ (part ++ [')']) := by
  rw [cutCondition?] at h hcut
  cases hfront : Text.cut? '(' front with
  | none =>
    -- The condition begins in the text, so all of it does.
    rw [cut?_append_of_not_mem (cut?_eq_none_iff.mp hfront)] at hcut
    cases htext : Text.cut? '(' text with
    | none =>
      rw [htext] at hcut
      cases hcut
    | some cut =>
      obtain ⟨before, inside⟩ := cut
      rw [htext] at hcut
      obtain ⟨⟨inner, after⟩, hclose, hpair⟩ := Option.map_eq_some_iff.mp hcut
      obtain ⟨rfl, rfl⟩ := Prod.mk.inj hpair
      refine ⟨before ++ '(' :: inner, ?_, by simp⟩
      have hinside : inside = inner ++ ')' :: after := closing?_eq_some hclose
      rw [cut?_eq_some htext, hinside]
      simp
  | some cut =>
    obtain ⟨before, inside⟩ := cut
    -- The condition begins in front and is still open there.
    rw [hfront] at h
    rw [cut?_append hfront] at hcut
    obtain ⟨⟨inner, after⟩, hclose, hpair⟩ := Option.map_eq_some_iff.mp hcut
    obtain ⟨rfl, rfl⟩ := Prod.mk.inj hpair
    obtain ⟨part, rfl, htext⟩ := exists_append_of_closing? (Option.map_eq_none_iff.mp h) hclose
    refine ⟨part, htext, ?_⟩
    rw [cut?_eq_some hfront]
    simp

theorem Fragment.ends_eq {fragment : Fragment} {number : Nat} {more : List PlacedChar}
    (hsuffix : more <:+ fragment.placed) (hne : more ≠ [])
    (h : ∀ placed ∈ more, placed.2 = number) : fragment.ends = number := by
  obtain ⟨front, hfront⟩ := hsuffix
  have hlast : fragment.placed.getLast fragment.ne_nil = more.getLast hne := by
    simp only [← hfront, List.getLast_append_of_ne_nil _ hne]
  rw [Fragment.ends, hlast]
  exact h _ (List.getLast_mem hne)

theorem flatMap_placed_pushRest (behind : Text) (number : Nat) (lines : List LogicalLine) :
    (pushRest behind number lines).flatMap LogicalLine.placed =
      onLine number (withoutBlanks behind) ++ lines.flatMap LogicalLine.placed := by
  rw [pushRest, ← withoutBlanks_trim behind]
  split
  · rename_i hempty
    rw [List.isEmpty_iff.mp hempty]
    rfl
  · rfl

section Tails

variable {line : LogicalLine} {part : Text}

theorem isBody_pushRest (hlines : IsBody (line :: lines)) (hsuffix : behind <:+ line.text) :
    IsBody (pushRest behind line.number lines) := by
  have htight := hlines.head_isLine.tight
  rw [pushRest]
  split
  · exact hlines.tail
  · rename_i hne
    exact hlines.of_suffix ((htight.trim_suffix hsuffix).trans hsuffix)
      ⟨by simpa using hne, trim_trim behind⟩

/-- What is left of the line on which a head ends goes under the number of the head. -/
theorem pushRest_eq_inHand {fragment : Fragment} (hlines : IsBody (line :: lines))
    (hbrace : ¬ line.text.IsBrace) (hline : line.text = part ++ ')' :: behind)
    (hcarries : fragment.Carries) (hends : fragment.ends = line.number) :
    pushRest behind fragment.number lines =
      inHand (some fragment) (pushRest behind line.number lines) := by
  have htight := hlines.head_isLine.tight
  have hwhole := hlines.head_isLine.brace.resolve_left hbrace
  have hsuffix : behind <:+ line.text := ⟨part ++ [')'], by rw [hline]; simp⟩
  rw [pushRest, pushRest]
  split
  · rename_i hempty
    -- The head ends with its line, which has no blanks there.
    have hbehind : behind = [] :=
      htight.eq_nil_of_suffix hsuffix (trim_eq_nil_iff.mp (List.isEmpty_iff.mp hempty))
    have hlast : line.text.getLast? = some ')' := by
      rw [hline, hbehind, List.getLast?_append]
      rfl
    refine (inHand_of_follows (List.isChain_cons.mp hlines.follows).1 hends hbrace ?_).symm
    rw [hlast]
    decide
  · have hsub : Text.trim behind ⊆ line.text :=
      ((trim_sublist behind).trans hsuffix.sublist).subset
    have hplain : startsWithBrace (Text.trim behind) = false :=
      startsWithBrace_eq_false fun c hc => hwhole c (hsub hc)
    have hnumber : ((LogicalLine.mk (Text.trim behind) line.number).behind (some fragment)).number =
        Fragment.numberBehind (some fragment) line.number := LogicalLine.number_behind hplain
    rw [Fragment.numberBehind_of_ends hcarries hends] at hnumber
    rw [inHand, ← hnumber]
    rfl

end Tails

theorem withoutBlanks_append_line (front : Text) (line : LogicalLine) :
    withoutBlanks (front ++ line.text) = withoutBlanks front ++ line.placed.map Prod.fst := by
  rw [withoutBlanks_append, line.map_fst_placed]

/-- A head takes whole lines and the beginning of a line. -/
theorem exists_takeCondition {line : LogicalLine} (number : Nat) (htext : text = front ++ line.text)
    (hfront : cutCondition? front = none) (hbrace : ¬ line.text.IsBrace)
    (hlines : IsBody (line :: lines)) :
    let taken := takeCondition text number lines
    ∃ (more : List PlacedChar) (left : List LogicalLine), more ≠ [] ∧
      (line :: lines).flatMap LogicalLine.placed = more ++ left.flatMap LogicalLine.placed ∧
      withoutBlanks taken.value = withoutBlanks front ++ more.map Prod.fst ∧ IsBody left ∧
      ∀ fragment : Fragment, fragment.Carries → fragment.number = number →
        more <:+ fragment.placed → taken.rest = inHand (some fragment) left := by
  have hne := line.placed_ne_nil hlines.head_isLine.tight
  fun_induction takeCondition text number lines generalizing front line with
  | case1 text lines head behind hcut =>
    -- The condition is closed on this line, and what is left of it is put back.
    subst htext
    obtain ⟨part, hline, rfl⟩ := exists_append_of_cutCondition? hfront hcut
    have hsplit : line.text = (part ++ [')']) ++ behind := by rw [hline]; simp
    let last : LogicalLine := ⟨part ++ [')'], line.number⟩
    have hlast : last.placed ≠ [] := by
      rw [LogicalLine.placed, withoutBlanks_append, onLine_append]
      exact List.append_ne_nil_of_right_ne_nil _ (List.cons_ne_nil _ _)
    refine ⟨last.placed, pushRest behind line.number lines, hlast, ?_,
      withoutBlanks_append_line front last, isBody_pushRest hlines ⟨_, hsplit.symm⟩, ?_⟩
    · rw [flatMap_placed_pushRest, List.flatMap_cons, LogicalLine.placed, hsplit,
        withoutBlanks_append, onLine_append, List.append_assoc]
      rfl
    · rintro fragment hcarries rfl hmore
      exact pushRest_eq_inHand hlines hbrace hline hcarries
        (fragment.ends_eq hmore hlast fun _ => LogicalLine.snd_of_mem_placed)
  | case2 text hcut next rest hnext =>
    -- The head is cut short by a brace, whose line goes under its own number.
    subst htext
    refine ⟨line.placed, next :: rest, hne, rfl, withoutBlanks_append_line front line,
      hlines.tail, fun fragment _ _ _ => ?_⟩
    rw [inHand, LogicalLine.behind_of_brace hnext]
  | case3 text hcut next rest hnext taken =>
    rename_i ih
    subst htext
    -- The blank between the lines closes no condition.
    have hspace : cutCondition? (front ++ line.text ++ [' ']) = none := by
      by_contra hsome
      obtain ⟨⟨head, behind⟩, hspace⟩ := Option.ne_none_iff_exists'.mp hsome
      obtain ⟨part, hpart, -⟩ := exists_append_of_cutCondition? hcut hspace
      have hclose : ')' ∈ [' '] := hpart ▸ List.mem_append_right _ List.mem_cons_self
      exact absurd hclose (by decide)
    have hbrace : ¬ next.text.IsBrace := fun h => hnext (startsWithBrace_of_isBrace h)
    obtain ⟨more, left, hmore, hplaced, hvalue, hleft, hrest⟩ :=
      ih (by simp) hspace hbrace hlines.tail (next.placed_ne_nil hlines.tail.head_isLine.tight)
    refine ⟨line.placed ++ more, left, List.append_ne_nil_of_right_ne_nil _ hmore, ?_, ?_, hleft,
      fun fragment hcarries hnumber hsuffix => ?_⟩
    · rw [List.flatMap_cons, hplaced, List.append_assoc]
    · have hblank : withoutBlanks [' '] = [] := rfl
      refine hvalue.trans ?_
      rw [withoutBlanks_append, hblank, List.append_nil, withoutBlanks_append_line,
        List.map_append, List.append_assoc]
    · exact hrest fragment hcarries hnumber ((List.suffix_append _ _).trans hsuffix)
  | case4 text hcut =>
    subst htext
    exact ⟨line.placed, [], hne, rfl, withoutBlanks_append_line front line, .nil,
      fun _ _ _ _ => rfl⟩

end Heads

section Blocks

variable {text kept after : Text} {depth number start : Nat} {lines : List LogicalLine}

/-- The only line that closes a block is a brace. -/
theorem closed_of_isLine (hline : text.IsLine) (h : scanBraces depth text = .closed kept after) :
    text = ['}'] ∧ kept = [] ∧ after = [] := by
  rcases hline.brace with (rfl | rfl) | hplain
  · cases h
  · cases depth with
    | zero =>
      obtain ⟨rfl, rfl⟩ := BraceScan.closed.inj h
      exact ⟨rfl, rfl, rfl⟩
    | succ depth => cases h
  · have hdepth : braceDepth depth [text] = some depth := Written.braceDepth_cons hplain depth []
    rw [braceDepth, h] at hdepth
    cases hdepth

theorem pushRest_append (text : Text) (number : Nat) (front back : List LogicalLine) :
    pushRest text number (front ++ back) = pushRest text number front ++ back := by
  rw [pushRest, pushRest]
  split <;> rfl

/-- A block holds whole lines, up to the brace that closes it or to the end. -/
theorem takeBlock_split (htext : text = [] ∨ text.IsLine)
    (hlines : ∀ line ∈ lines, line.text.IsLine) :
    let block := takeBlock start depth text number lines
    (∃ close : LogicalLine, close.text = ['}'] ∧
        pushRest text number lines = block.inner ++ close :: block.rest) ∨
      pushRest text number lines = block.inner ∧ block.rest = [] := by
  fun_induction takeBlock start depth text number lines with
  | case1 depth text number lines kept after hscan =>
    rcases htext with rfl | hline
    · cases hscan
    · -- A brace stands alone on its line, so the closing one is a line that is left out.
      obtain ⟨rfl, rfl, rfl⟩ := closed_of_isLine hline hscan
      exact .inl ⟨⟨['}'], number⟩, rfl, pushRest_of_isTight hline.tight number lines⟩
  | case2 depth text number kept depth' hscan =>
    obtain rfl := kept_of_scanBraces hscan
    exact .inr ⟨rfl, rfl⟩
  | case3 depth text number kept depth' hscan next rest block ih =>
    obtain ⟨hnext, hrest⟩ := List.forall_mem_cons.mp hlines
    have hblock := ih (.inr hnext) hrest
    rw [pushRest_of_isTight hnext.tight] at hblock
    obtain rfl := kept_of_scanBraces hscan
    rcases hblock with ⟨close, hclose, hsplit⟩ | ⟨hsplit, hend⟩
    · exact .inl ⟨close, hclose, (congrArg _ hsplit).trans (pushRest_append ..)⟩
    · exact .inr ⟨congrArg _ hsplit, hend⟩

end Blocks

/-! ### Readers -/

/-- What was taken from lines behind a fragment is spelled by fragments of them, and the rest lies
before the readers as the last of these demands. -/
def Taken.Covers {α : Type} {room : Nat} (locals : List Text) (points : α → List Point)
    (before : Option Fragment) (lines : List LogicalLine) (taken : Taken α room) : Prop :=
  ∃ fragments left, Layout locals before lines fragments (points taken.value) left ∧
    taken.rest = inHand (lastOf before fragments) left

theorem Taken.Covers.of_parts {α : Type} {room : Nat} {locals : List Text}
    {points : α → List Point} {before : Option Fragment} {lines left : List LogicalLine}
    {fragments : List Fragment} {taken : Taken α room} {value : α} {problems : List Problem}
    {rest : List LogicalLine} (h : taken.parts = (value, problems, rest))
    (hlayout : Layout locals before lines fragments (points value) left)
    (hrest : rest = inHand (lastOf before fragments) left) :
    taken.Covers locals points before lines := by
  obtain rfl : taken.value = value := congrArg Prod.fst h
  obtain rfl : taken.rest = rest := congrArg (fun parts => parts.2.2) h
  exact ⟨fragments, left, hlayout, hrest⟩

theorem Taken.weight_le {α : Type} {room : Nat} {taken : Taken α room} {before : Option Fragment}
    {left : List LogicalLine} (h : taken.rest = inHand before left) : weight left ≤ room := by
  have hfits := taken.fits
  rwa [h, weight_inHand] at hfits

theorem Taken.Covers.of_parts_eq {α : Type} {room room' : Nat} {locals : List Text}
    {points : α → List Point} {before : Option Fragment} {lines : List LogicalLine}
    {taken : Taken α room} {taken' : Taken α room'} (h : taken.parts = taken'.parts)
    (hcovers : taken'.Covers locals points before lines) :
    taken.Covers locals points before lines := by
  obtain ⟨fragments, left, hlayout, hrest⟩ := hcovers
  exact .of_parts h hlayout hrest

/-- What is taken behind a layout covers the lines together with it. -/
theorem Taken.Covers.behind {α β : Type} {room room' : Nat} {locals : List Text}
    {points : α → List Point} {points' : β → List Point} {before : Option Fragment}
    {lines middle : List LogicalLine} {fragments : List Fragment} {front : List Point}
    {taken : Taken α room} {taken' : Taken β room'} {value : α} {problems : List Problem}
    (hback : taken'.Covers locals points' (lastOf before fragments) middle)
    (hfront : Layout locals before lines fragments front middle)
    (h : taken.parts = (value, problems, taken'.rest))
    (hpoints : points value = front ++ points' taken'.value) :
    taken.Covers locals points before lines := by
  obtain ⟨later, left, hlater, hrest⟩ := hback
  refine .of_parts h (hpoints ▸ hfront.append hlater) ?_
  rwa [lastOf_append]

section Numbers

variable {before : Option Fragment} {first : LogicalLine} {lines : List LogicalLine}

theorem pointsOf_append (front back : List Statement) :
    pointsOf (front ++ back) = pointsOf front ++ pointsOf back := by
  induction front with
  | nil => rfl
  | cons statement front ih => rw [List.cons_append, pointsOf, pointsOf, ih, List.append_assoc]

theorem pointsOf_assign (assignment? : Option Assignment) :
    pointsOf (assignment?.toList.map .assign) = assignment?.toList.map .assign := by
  cases assignment? <;> rfl

/-- The characters of what begins with a line begin on it. -/
theorem Fragment.begins_eq {fragment : Fragment} {left : List PlacedChar}
    (htight : first.text.IsTight)
    (h : (first :: lines).flatMap LogicalLine.placed = fragment.placed ++ left) :
    fragment.begins = first.number := by
  have hne := first.placed_ne_nil htight
  rw [List.flatMap_cons] at h
  have hhead := congrArg List.head? h
  rw [List.head?_append_of_ne_nil _ hne, List.head?_append_of_ne_nil _ fragment.ne_nil,
    List.head?_eq_some_head hne, List.head?_eq_some_head fragment.ne_nil] at hhead
  rw [Fragment.begins, ← Option.some.inj hhead]
  exact LogicalLine.snd_of_mem_placed (List.head_mem hne)

theorem Fragment.isDue_of_plain {fragment : Fragment} (hrole : fragment.role ≠ .brace)
    (hplain : startsWithBrace first.text = false)
    (hnumber : fragment.number = (first.behind before).number)
    (hbegins : fragment.begins = first.number) : fragment.IsDue before := by
  rw [Fragment.IsDue, if_neg hrole, hbegins, hnumber, LogicalLine.number_behind hplain]

end Numbers

section Readers

variable (locals : List Text) (before : Option Fragment) {first : LogicalLine}
  {lines : List LogicalLine}

theorem covers_takeAssignment (hlines : IsBody (first :: lines))
    (hplain : isStructural first.text = false) :
    (takeAssignment locals (first.behind before) lines).Covers locals pointsOf before
      (first :: lines) := by
  obtain ⟨hrest, more, hplaced, hvalue⟩ := exists_takeStatement (first.behind before).number
    hlines.head_isLine.semicolon hlines.tail
  let taken := takeStatement first.text (first.behind before).number lines
  have htight := hlines.head_isLine.tight
  have hspells : (first.placed ++ more).map Prod.fst = withoutBlanks taken.value := by
    rw [List.map_append, first.map_fst_placed, hvalue]
  -- The fragment is the statement that was taken, with the characters it was taken from.
  let fragment : Fragment := ⟨.sentence, taken.value, (first.behind before).number,
    first.placed ++ more, hspells, List.append_ne_nil_of_left_ne_nil (first.placed_ne_nil htight) _⟩
  have hall : (first :: lines).flatMap LogicalLine.placed =
      fragment.placed ++ taken.rest.flatMap LogicalLine.placed := by
    rw [List.flatMap_cons, hplaced, ← List.append_assoc]
  have hbrace : startsWithBrace first.text = false := by
    rw [isStructural, Bool.or_eq_false_iff, Bool.or_eq_false_iff] at hplain
    exact hplain.1.1
  have hrole : Role.sentence ≠ .brace := by decide
  have hdue : fragment.IsDue before := Fragment.isDue_of_plain hrole hbrace rfl
    (Fragment.begins_eq htight hall)
  have hpoints : pointsOf (takeAssignment locals (first.behind before) lines).value =
      fragment.points locals := pointsOf_assign _
  refine ⟨[fragment], taken.rest, ?_, (inHand_of_not_carries fun last hlast => ?_).symm⟩
  · rw [hpoints]
    exact .single hall hdue hrest
  · obtain rfl := Option.some.inj hlast
    rintro (h | h) <;> cases h

theorem covers_takeGuard (hlines : IsBody (first :: lines))
    (hplain : startsWithBrace first.text = false) :
    (takeGuard locals (first.behind before) lines).Covers locals (fun guard => [.guard guard])
      before (first :: lines) := by
  have hbrace : ¬ first.text.IsBrace := fun h =>
    Bool.eq_false_iff.mp hplain (startsWithBrace_of_isBrace h)
  obtain ⟨more, left, hmore, hplaced, hvalue, hleft, hrest⟩ :=
    exists_takeCondition (first.behind before).number (List.nil_append first.text).symm rfl hbrace
      hlines
  let fragment : Fragment := ⟨.head,
    (takeCondition first.text (first.behind before).number lines).value,
    (first.behind before).number, more, hvalue.symm, hmore⟩
  have hrole : Role.head ≠ .brace := by decide
  have hdue : fragment.IsDue before := Fragment.isDue_of_plain hrole hplain rfl
    (Fragment.begins_eq hlines.head_isLine.tight hplaced)
  exact ⟨[fragment], left, .single hplaced hdue hleft,
    hrest fragment (.inl rfl) rfl List.suffix_rfl⟩

/-- A line that is taken by itself. -/
theorem layout_ofLine {role : Role} (hlines : IsBody (first :: lines))
    (hrole : role = .brace ↔ startsWithBrace first.text = true)
    (hpoints : role ≠ .sentence ∧ role ≠ .head) :
    Layout locals before (first :: lines)
      [.ofLine role (first.behind before).number first hlines.head_isLine.tight] [] lines := by
  have htight := hlines.head_isLine.tight
  let fragment := Fragment.ofLine role (first.behind before).number first htight
  have hbegins : fragment.begins = first.number := Fragment.begins_ofLine htight
  have hdue : fragment.IsDue before := by
    rw [Fragment.IsDue, hbegins]
    change (first.behind before).number = if role = .brace then _ else _
    simp only [LogicalLine.behind, hrole]
  have hnone : fragment.points locals = [] := by
    cases role with
    | sentence => exact absurd rfl hpoints.1
    | head => exact absurd rfl hpoints.2
    | otherwise | brace | stray => rfl
  have hlayout : Layout locals before (first :: lines) [fragment] (fragment.points locals) lines :=
    .single List.flatMap_cons hdue hlines.tail
  rwa [hnone] at hlayout

theorem not_carries_ofLine {role : Role} {number : Nat} {line : LogicalLine}
    (h : line.text.IsTight) (hrole : role = .brace ∨ role = .stray) :
    ∀ fragment ∈ some (Fragment.ofLine role number line h), ¬ fragment.Carries := by
  intro fragment hfragment
  obtain rfl := Option.some.inj hfragment
  rcases hrole with rfl | rfl <;> rintro (h | h) <;> cases h

/-- A line that is a brace, as a fragment. -/
theorem layout_brace (hlines : IsBody (first :: lines)) (hbrace : first.text.IsBrace) :
    Layout locals before (first :: lines)
      [.ofLine .brace (first.behind before).number first hlines.head_isLine.tight] [] lines :=
  layout_ofLine locals before hlines
    ⟨fun _ => startsWithBrace_of_isBrace hbrace, fun _ => rfl⟩ (by decide)

/-- A block is laid out with its braces, if the lines in it are. -/
theorem exists_layout_block {text : Text} (h : first.text = '{' :: text)
    (hlines : IsBody (first :: lines)) :
    let block := takeBlock first.number 0 text first.number lines
    (∀ opening : Option Fragment, IsBody block.inner → ∃ fragments,
      Layout locals opening block.inner fragments
        (pointsOf (readStatements locals (inHand opening block.inner)).value) []) →
      ∃ fragments, Layout locals before (first :: lines) fragments
          (pointsOf (readStatements locals block.inner).value) block.rest ∧
        inHand (lastOf before fragments) block.rest = block.rest := by
  have hbrace : first.text.IsBrace := isBrace_of_startsWithBrace hlines.head_isLine (by rw [h]; rfl)
  -- The opening brace is alone on its line.
  obtain rfl : text = [] := by
    rcases hbrace with hopen | hclose
    · exact (List.cons.inj (h.symm.trans hopen)).2
    · cases h.symm.trans hclose
  intro block hinner
  have hsplit : (∃ close : LogicalLine, close.text = ['}'] ∧
        pushRest [] first.number lines = block.inner ++ close :: block.rest) ∨
      pushRest [] first.number lines = block.inner ∧ block.rest = [] :=
    takeBlock_split (.inl rfl) hlines.tail.isLine
  rw [pushRest_nil] at hsplit
  let opening : Fragment :=
    .ofLine .brace (first.behind before).number first hlines.head_isLine.tight
  have hopen : Layout locals before (first :: lines) [opening] [] lines :=
    layout_brace locals before hlines hbrace
  have hsame : inHand (some opening) block.inner = block.inner :=
    inHand_of_not_carries (not_carries_ofLine _ (.inl rfl))
  have hinner := hinner (some opening)
  rw [hsame] at hinner
  rcases hsplit with ⟨close, hclose, hsplit⟩ | ⟨hsplit, hend⟩
  · -- With a closing brace, the fragments inside stand between those of the two braces.
    have hbody : IsBody (block.inner ++ close :: block.rest) := hsplit ▸ hlines.tail
    have hbehind : IsBody (close :: block.rest) :=
      hbody.of_infix (List.suffix_append _ _).isInfix
    obtain ⟨fragments, hinner⟩ := hinner (hbody.of_infix (List.prefix_append _ _).isInfix)
    have hinside := hinner.extend hbehind
    rw [← hsplit] at hinside
    have hclosed := layout_brace locals (lastOf (some opening) fragments) hbehind (.inr hclose)
    have hall := hopen.append (hinside.append hclosed)
    rw [List.nil_append, List.append_nil] at hall
    refine ⟨_, hall, inHand_of_not_carries ?_⟩
    rw [lastOf_append, lastOf_append]
    exact not_carries_ofLine _ (.inl rfl)
  · -- Without one, the block goes on to the end.
    obtain ⟨fragments, hinner⟩ := hinner (hsplit ▸ hlines.tail)
    have hinside : Layout locals (some opening) lines fragments
        (pointsOf (readStatements locals block.inner).value) [] :=
      { hinner with placed := (congrArg (List.flatMap _) hsplit).trans hinner.placed }
    have hall := hopen.append hinside
    rw [List.nil_append] at hall
    rw [hend]
    exact ⟨_, hall, rfl⟩

/-! ### What follows an arm -/

theorem startsWithBrace_of_isIf {text : Text} (h : isIf text = true) :
    startsWithBrace text = false := by
  obtain ⟨rest, rfl⟩ := List.isPrefixOf_iff_prefix.mp h
  rfl

theorem startsWithBrace_of_isElse {text : Text} (h : isElse text = true) :
    startsWithBrace text = false := by
  obtain ⟨rest, rfl⟩ := prefix_of_isElse h
  rfl

/-- An `ELSE` alone on its line leaves the lines behind it as they are. -/
theorem exists_layout_else (hlines : IsBody (first :: lines)) (h : first.text = "ELSE".toList) :
    ∃ fragments, Layout locals before (first :: lines) fragments [] lines ∧
      inHand (lastOf before fragments) lines = lines := by
  have hplain : startsWithBrace first.text = false := by rw [h]; rfl
  have hlast : first.text.getLast? ≠ some ';' := by rw [h]; decide
  have hbrace : ¬ first.text.IsBrace := fun hbrace =>
    Bool.eq_false_iff.mp hplain (startsWithBrace_of_isBrace hbrace)
  have hrole : Role.otherwise = .brace ↔ startsWithBrace first.text = true :=
    ⟨fun h => (by cases h), fun h => absurd h (Bool.eq_false_iff.mp hplain)⟩
  exact ⟨_, layout_ofLine locals before hlines hrole (by decide),
    inHand_of_follows (List.isChain_cons.mp hlines.follows).1
      (Fragment.ends_ofLine hlines.head_isLine.tight) hbrace hlast⟩

/-- What stands behind an `ELSE` on its line. -/
theorem of_afterElse? {line text : Text} (hline : line.IsLine) (h : afterElse? line = some text) :
    text <:+ line ∧ text.IsTight ∧ startsWithBrace text = false ∧
      withoutBlanks line = "ELSE".toList ++ withoutBlanks text := by
  obtain ⟨behind, hstem, rfl⟩ := Option.map_eq_some_iff.mp h
  have htext := dropStem?_eq_some hstem
  have hsuffix : trimStart behind <:+ line := (List.dropWhile_suffix _).trans ⟨_, htext.symm⟩
  have htrim : trim behind = trimStart behind := hline.tight.trimEnd_of_suffix hsuffix
  have hbehind : (trimStart behind).IsTight := by
    refine ⟨fun hnil => ?_, by rw [← htrim, trim_trim]⟩
    -- The line would end with blanks.
    have hblank := trim_eq_nil_iff.mp (htrim.trans hnil)
    have hspace : ' ' :: behind <:+ line := ⟨"ELSE".toList, htext.symm⟩
    have hblanks : ∀ c ∈ ' ' :: behind, isBlank c = true := List.forall_mem_cons.mpr ⟨rfl, hblank⟩
    cases hline.tight.eq_nil_of_suffix hspace hblanks
  have hwhole := hline.brace.resolve_left fun hbrace => by
    rw [htext] at hbrace
    rcases hbrace with hbrace | hbrace <;> cases hbrace
  refine ⟨hsuffix, hbehind, startsWithBrace_eq_false fun c hc => hwhole c (hsuffix.subset hc), ?_⟩
  rw [htext, withoutBlanks_append, ← withoutBlanks_trim behind, htrim]
  rfl

/-- What stands behind an `ELSE` on its line goes under its number. -/
theorem exists_layout_after {text : Text} (hlines : IsBody (first :: lines))
    (h : afterElse? first.text = some text) :
    ∃ fragments, Layout locals before (first :: lines) fragments []
        (⟨text, first.number⟩ :: lines) ∧
      inHand (lastOf before fragments) (⟨text, first.number⟩ :: lines) =
        ⟨text, (first.behind before).number⟩ :: lines ∧
      text.IsTight ∧ startsWithBrace text = false := by
  obtain ⟨hsuffix, htight, hplain', hspelled⟩ := of_afterElse? hlines.head_isLine h
  have hplain : startsWithBrace first.text = false := by
    obtain ⟨behind, hstem, -⟩ := Option.map_eq_some_iff.mp h
    rw [dropStem?_eq_some hstem]
    rfl
  let line : LogicalLine := ⟨"ELSE".toList, first.number⟩
  have hline : IsTight "ELSE".toList := by decide
  let fragment := Fragment.ofLine .otherwise (first.behind before).number line hline
  have hplaced : (first :: lines).flatMap LogicalLine.placed = fragment.placed ++
      (⟨text, first.number⟩ :: lines).flatMap LogicalLine.placed := by
    -- The word and what stands behind it share the characters of the line.
    have hfirst : first.placed = line.placed ++ onLine first.number (withoutBlanks text) := by
      rw [LogicalLine.placed, hspelled, onLine_append]
      rfl
    rw [List.flatMap_cons, List.flatMap_cons, hfirst, List.append_assoc]
    rfl
  have hrole : Role.otherwise ≠ .brace := by decide
  have hdue : fragment.IsDue before :=
    Fragment.isDue_of_plain hrole hplain rfl (Fragment.begins_ofLine hline)
  -- Text behind the word is put back under the number of the word.
  have hnumber : (LogicalLine.mk text first.number).behind (some fragment) =
      ⟨text, (first.behind before).number⟩ := by
    rw [LogicalLine.behind, if_neg (Bool.eq_false_iff.mp hplain'),
      Fragment.numberBehind_of_ends (.inr rfl) (Fragment.ends_ofLine hline)]
    rfl
  exact ⟨[fragment], .single hplaced hdue (hlines.of_suffix hsuffix htight),
    congrArg (· :: lines) hnumber, htight, hplain'⟩

/-! ### Bodies -/

/-- A brace without a block, or a line that is passed over, changes no number behind it. -/
theorem exists_layout_alone {role : Role} (hlines : IsBody (first :: lines))
    (hrole : role = .brace ∨ role = .stray)
    (hbrace : role = .brace ↔ startsWithBrace first.text = true) :
    ∃ fragments, Layout locals before (first :: lines) fragments [] lines ∧
      inHand (lastOf before fragments) lines = lines := by
  have hpoints : role ≠ .sentence ∧ role ≠ .head := by rcases hrole with rfl | rfl <;> decide
  exact ⟨_, layout_ofLine locals before hlines hbrace hpoints,
    inHand_of_not_carries (not_carries_ofLine hlines.head_isLine.tight hrole)⟩

mutual

/-- The lines of a body are laid out in fragments that spell its points. -/
theorem exists_layout_inHand (before : Option Fragment) (lines : List LogicalLine)
    (hlines : IsBody lines) : ∃ fragments, Layout locals before lines fragments
      (pointsOf (readStatements locals (inHand before lines)).value) [] := by
  match lines, hlines with
  | [], _ =>
    rw [inHand_nil, readStatements_nil]
    exact ⟨[], .nil .nil⟩
  | first :: lines, hlines =>
    rw [inHand]
    cases lineForm first.text with
    | opening text h =>
      have hfits := weight_takeBlock_lt h lines
      -- Text that is put back holds no brace, so a brace goes under its own number.
      have hfirst : first.behind before = first :=
        LogicalLine.behind_of_brace (by rw [h]; rfl)
      obtain ⟨fragments, hfront, hrest⟩ := exists_layout_block locals before h hlines
        fun opening hinner => exists_layout_inHand opening _ hinner
      obtain ⟨later, hback⟩ := exists_layout_inHand (lastOf before fragments) _ hfront.isBody
      rw [hrest] at hback
      rw [hfirst, readStatements_brace h, pointsOf_append]
      exact ⟨_, hfront.append hback⟩
    | closing text h =>
      have hbrace : first.text.IsBrace :=
        isBrace_of_startsWithBrace hlines.head_isLine (by rw [h]; rfl)
      obtain rfl : text = [] := by
        rcases hbrace with hopen | hclose
        · cases h.symm.trans hopen
        · exact (List.cons.inj (h.symm.trans hclose)).2
      obtain ⟨fragments, hfront, hrest⟩ := exists_layout_alone locals before hlines
        (.inl rfl) ⟨fun _ => startsWithBrace_of_isBrace hbrace, fun _ => rfl⟩
      obtain ⟨later, hback⟩ := exists_layout_inHand (lastOf before fragments) lines hfront.isBody
      rw [hrest] at hback
      have hagain : (first.behind before).text = ['}'] := h
      rw [readStatements_stray hagain, pushRest_nil]
      exact ⟨_, hfront.append hback⟩
    | choice hbrace hif _ =>
      obtain ⟨fragments, left, hfront, hrest⟩ := covers_takeArm before first lines hlines hbrace
      have hleft : weight left ≤ first.text.length + weight lines := Taken.weight_le hrest
      obtain ⟨later, hback⟩ := exists_layout_inHand (lastOf before fragments) left hfront.isBody
      rw [← hrest] at hback
      have hagain : startsWithBrace (first.behind before).text = false := hbrace
      rw [readStatements_if hagain hif]
      exact ⟨_, hfront.append hback⟩
    | alternative hbrace hif helse =>
      obtain ⟨fragments, hfront, hrest⟩ := exists_layout_alone locals before hlines
        (.inr rfl) ⟨fun h => (by cases h), fun h => absurd h (Bool.eq_false_iff.mp hbrace)⟩
      obtain ⟨later, hback⟩ := exists_layout_inHand (lastOf before fragments) lines hfront.isBody
      rw [hrest] at hback
      have hagain : startsWithBrace (first.behind before).text = false := hbrace
      rw [readStatements_else hagain hif helse]
      exact ⟨_, hfront.append hback⟩
    | sentence h =>
      obtain ⟨fragments, left, hfront, hrest⟩ :=
        covers_takeAssignment locals before hlines h
      have hleft : weight left ≤ first.text.length + weight lines := Taken.weight_le hrest
      obtain ⟨later, hback⟩ := exists_layout_inHand (lastOf before fragments) left hfront.isBody
      rw [← hrest] at hback
      have hagain : isStructural (first.behind before).text = false := h
      rw [readStatements_statement hagain, pointsOf_append]
      exact ⟨_, hfront.append hback⟩
termination_by 2 * weight lines + 1
decreasing_by
  all_goals
    simp only [weight_cons] at *
    omega

/-- The body of an arm is laid out in fragments of the lines it is taken from. -/
theorem covers_takeBody (owner : Nat) (before : Option Fragment) (lines : List LogicalLine)
    (hlines : IsBody lines) :
    (takeBody locals owner (inHand before lines)).Covers locals pointsOf before lines := by
  match lines, hlines with
  | [], _ => exact .of_parts takeBody_nil (.nil .nil) rfl
  | first :: lines, hlines =>
    rw [inHand]
    cases lineForm first.text with
    | opening text h =>
      have hfits := weight_takeBlock_lt h lines
      have hfirst : first.behind before = first :=
        LogicalLine.behind_of_brace (by rw [h]; rfl)
      obtain ⟨fragments, hfront, hrest⟩ := exists_layout_block locals before h hlines
        fun opening hinner => exists_layout_inHand opening _ hinner
      rw [hfirst]
      exact .of_parts (takeBody_brace h) hfront hrest.symm
    | closing text h =>
      have hopen (rest : Text) : first.text ≠ '{' :: rest := by simp [h]
      have hbrace : (startsWithBrace first.text || isElse first.text) = true := by
        simp [h, startsWithBrace]
      exact .of_parts (takeBody_missing hopen hbrace) (.nil hlines)
        rfl
    | choice hbrace hif helse =>
      obtain ⟨fragments, left, hfront, hrest⟩ := covers_takeArm before first lines hlines hbrace
      have hpoints (arm : Arm) : pointsOf [.choose arm] = arm.points := List.append_nil _
      rw [← hpoints] at hfront
      exact .of_parts (takeBody_if hbrace helse hif) hfront hrest
    | alternative hbrace hif helse =>
      have hopen (rest : Text) : first.text ≠ '{' :: rest := by
        intro h
        simp [h, startsWithBrace] at hbrace
      have helse : (startsWithBrace first.text || isElse first.text) = true := by simp [helse]
      exact .of_parts (takeBody_missing hopen helse) (.nil hlines)
        rfl
    | sentence h =>
      exact .of_parts_eq (takeBody_statement h)
        (covers_takeAssignment locals before hlines h)
termination_by 2 * weight lines + 1
decreasing_by
  all_goals
    simp only [weight_cons] at *
    omega

theorem covers_takeArm (before : Option Fragment) (first : LogicalLine) (lines : List LogicalLine)
    (hlines : IsBody (first :: lines)) (hbrace : startsWithBrace first.text = false) :
    (takeArm locals (first.behind before) lines).Covers locals Arm.points before
      (first :: lines) := by
  obtain ⟨heads, left, hguard, hguardRest⟩ :=
    covers_takeGuard locals before hlines hbrace
  have hleft : weight left ≤ first.text.length + weight lines := Taken.weight_le hguardRest
  -- Each part of the arm begins in what the part before it leaves in hand.
  have hbody := covers_takeBody (first.behind before).number (lastOf before heads) left
    hguard.isBody
  rw [← hguardRest] at hbody
  obtain ⟨inside, left', hbody, hbodyRest⟩ := hbody
  have hleft' : weight left' ≤ weight left := by
    have hfits := Taken.weight_le hbodyRest
    rwa [hguardRest, weight_inHand] at hfits
  have hother := covers_takeAlternative (lastOf (lastOf before heads) inside) left' hbody.isBody
  rw [← hbodyRest] at hother
  rw [← lastOf_append] at hother
  exact hother.behind (hguard.append hbody) takeArm_parts rfl
termination_by 2 * (first.text.length + 1 + weight lines)
decreasing_by
  all_goals omega

theorem covers_takeAlternative (before : Option Fragment) (lines : List LogicalLine)
    (hlines : IsBody lines) :
    (takeAlternative locals (inHand before lines)).Covers locals Alternative.points before
      lines := by
  match lines, hlines with
  | [], _ => exact .of_parts takeAlternative_nil (.nil .nil) rfl
  | first :: lines, hlines =>
    rw [inHand]
    cases helse : isElse first.text with
    | false =>
      exact .of_parts (takeAlternative_done helse) (.nil hlines) rfl
    | true =>
      rcases else_cases helse with h | h | ⟨text, h⟩
      · -- The `ELSE` stands alone, and its body begins on the next line.
        obtain ⟨fragments, hfront, hsame⟩ := exists_layout_else locals before hlines h
        match lines, hlines, hfront, hsame with
        | [], _, hfront, _ =>
          have hbody := covers_takeBody (first.behind before).number
            (lastOf before fragments) [] .nil
          rw [inHand_nil] at hbody
          exact hbody.behind hfront (takeAlternative_always_end h) rfl
        | next :: rest, hlines, hfront, hsame =>
          have hnext : next.behind (lastOf before fragments) = next := (List.cons.inj hsame).1
          cases hif : isIf next.text with
          | true =>
            have hplain := startsWithBrace_of_isIf hif
            have harm := covers_takeArm (lastOf before fragments) next rest hlines.tail hplain
            rw [hnext] at harm
            exact harm.behind hfront (takeAlternative_stacked h hif) rfl
          | false =>
            have hbody := covers_takeBody (first.behind before).number
              (lastOf before fragments) (next :: rest) hlines.tail
            rw [hsame] at hbody
            exact hbody.behind hfront (takeAlternative_always_next h hif) rfl
      · -- An `ELSEIF` is the head of an arm.
        obtain ⟨fragments, left, hfront, hrest⟩ :=
          covers_takeArm before first lines hlines (startsWithBrace_of_isElse helse)
        exact .of_parts (takeAlternative_joined h) hfront hrest
      · -- The body or arm begins behind the `ELSE`, on a line that was put back.
        obtain ⟨fragments, hfront, hsame, htight, hplain⟩ :=
          exists_layout_after locals before hlines h
        have hbehind := length_of_afterElse? h
        have hnext : (LogicalLine.mk text first.number).behind (lastOf before fragments) =
            ⟨text, (first.behind before).number⟩ := (List.cons.inj hsame).1
        have hparts : (takeAlternative locals (first.behind before :: lines)).parts = _ :=
          takeAlternative_after h
        cases hif : isIf text with
        | true =>
          have harm := covers_takeArm (lastOf before fragments) ⟨text, first.number⟩ lines
            hfront.isBody hplain
          rw [hnext] at harm
          exact harm.behind hfront (hparts.trans (if_pos hif)) rfl
        | false =>
          have hbody := covers_takeBody (first.behind before).number
            (lastOf before fragments) (⟨text, first.number⟩ :: lines) hfront.isBody
          have hpush : pushRest text (first.behind before).number lines =
              ⟨text, (first.behind before).number⟩ :: lines := pushRest_of_isTight htight _ _
          have hsentence : ¬ isIf text = true := Bool.eq_false_iff.mp hif
          rw [hsame, ← hpush] at hbody
          exact hbody.behind hfront (hparts.trans (if_neg hsentence)) rfl
termination_by 2 * weight lines + 1
decreasing_by
  all_goals
    simp only [weight_cons] at *
    omega

end

end Readers

/-- A body of lines of a file is laid out in fragments, one behind another, that spell its
assignments and conditions in order. Each goes under the line it begins on, unless it begins on the
last line of a head or an `ELSE` right in front of it; then it goes under the number of that one,
the number of its first line. So all numbers are exact where no head is broken over lines. -/
theorem exists_fragments_readStatements (locals : List Text) {bytes : List UInt8}
    {lines : List LogicalLine} (h : lines <:+: logicalLines bytes) :
    ∃ fragments : List Fragment,
      fragments.flatMap Fragment.placed = lines.flatMap LogicalLine.placed ∧
      pointsOf (readStatements locals lines).value = fragments.flatMap (Fragment.points locals) ∧
      Attributed none fragments ∧
      ((∀ fragment ∈ fragments, fragment.Carries → fragment.begins = fragment.ends) →
        ∀ fragment ∈ fragments, fragment.IsExact) := by
  have hlines : IsBody lines :=
    IsBody.of_infix ⟨isLine_of_mem_logicalLines, isChain_logicalLines bytes⟩ h
  obtain ⟨fragments, hlayout⟩ := exists_layout_inHand locals none lines hlines
  have hinHand : inHand none lines = lines :=
    inHand_of_not_carries fun _ hfragment => by cases hfragment
  rw [hinHand] at hlayout
  refine ⟨fragments, ?_, hlayout.points, hlayout.attributed,
    hlayout.attributed.isExact fun _ hfragment => by cases hfragment⟩
  rw [hlayout.placed, List.flatMap_nil, List.append_nil]

/-! ### A broken head -/

section Broken

/-- The bytes of a file with a head whose condition is closed on a second line. -/
def brokenHead : List UInt8 :=
  [73, 70, 32, 40, 65, 10, 41, 32, 83, 84, 65, 84, 69, 32, 61, 32, 49, 59]

/-- The lines of that file. -/
def brokenLines : List LogicalLine := [⟨"IF (A".toList, 1⟩, ⟨") STATE = 1;".toList, 2⟩]

theorem logicalLines_brokenHead : logicalLines brokenHead = brokenLines := by decide +kernel

theorem pointsOf_brokenLines : pointsOf (readStatements ["A".toList] brokenLines).value =
    [.guard [.test (.single ⟨false, .operand (.slot 0)⟩)],
      .assign ⟨.external .state, [⟨false, none, 0, .atom (.operand (.constant 1))⟩], 1⟩] := by
  have hread : readStatementsWithin 100 ["A".toList] brokenLines =
      .done ⟨[.choose (.mk [.test (.single ⟨false, .operand (.slot 0)⟩)]
        [.assign ⟨.external .state, [⟨false, none, 0, .atom (.operand (.constant 1))⟩], 1⟩]
        .done)], []⟩ := rfl
  have hsame := (readStatementsWithin_eq (by decide)).symm.trans hread
  rw [Option.some.inj hsame]
  rfl

theorem exists_fragments_readStatements_brokenLines : ∃ fragments : List Fragment,
    fragments.flatMap Fragment.placed = brokenLines.flatMap LogicalLine.placed ∧
      [Point.guard [.test (.single ⟨false, .operand (.slot 0)⟩)],
        .assign ⟨.external .state, [⟨false, none, 0, .atom (.operand (.constant 1))⟩], 1⟩] =
        fragments.flatMap (Fragment.points ["A".toList]) ∧
      Attributed none fragments := by
  have hlines : brokenLines <:+: logicalLines brokenHead := by rw [logicalLines_brokenHead]
  obtain ⟨fragments, hplaced, hpoints, hattributed, -⟩ :=
    exists_fragments_readStatements ["A".toList] hlines
  rw [pointsOf_brokenLines] at hpoints
  exact ⟨fragments, hplaced, hpoints, hattributed⟩

/-- What is read from a sentence goes under its number. -/
theorem Fragment.line_of_mem_points {fragment : Fragment} {assignment : Assignment}
    {locals : List Text} (h : .assign assignment ∈ fragment.points locals) :
    fragment.role = .sentence ∧ assignment.line = fragment.number ∧
      (Assignment.read locals fragment.number fragment.text).value = some assignment := by
  rw [points] at h
  split at h
  · rename_i hrole
    obtain ⟨found, hfound, hsame⟩ := List.mem_map.mp h
    obtain rfl := Point.assign.inj hsame
    have hread := Option.mem_toList.mp hfound
    refine ⟨hrole, ?_, hread⟩
    rw [read_line, Noted.value_map] at hread
    obtain ⟨plain, -, rfl⟩ := Option.map_eq_some_iff.mp hread
    rfl
  · cases List.mem_singleton.mp h
  all_goals cases h

theorem Target.name_of_named? {locals : List Text} {name : Text} {v : ExternalVariable}
    (h : named? locals name = some (.external v)) : name = v.name.toList := by
  rw [named?] at h
  split at h
  · rename_i found hfound
    obtain rfl := Target.external.inj (Option.some.inj h)
    have hname := List.find?_some hfound
    exact (of_decide_eq_true hname).symm
  · obtain ⟨slot, -, hslot⟩ := Option.map_eq_some_iff.mp h
    cases hslot

/-- A sentence that assigns to a variable of the signal begins with the name of that. -/
theorem Fragment.head_of_external {fragment : Fragment} {assignment : Assignment}
    {locals : List Text} {v : ExternalVariable}
    (h : (Assignment.read locals fragment.number fragment.text).value = some assignment)
    (htarget : assignment.target = .external v)
    (hsemicolon : (fragment.placed.head fragment.ne_nil).1 ≠ ';') :
    v.name.toList.head? = some (fragment.placed.head fragment.ne_nil).1 := by
  obtain ⟨before, after, hfilter, hnamed⟩ :=
    Assignment.exists_name_read h (by rw [htarget]; exact fun h => by cases h)
  rw [htarget] at hnamed
  -- The name of the variable stands in front of the equals sign, apart from blanks.
  have hname : withoutBlanks before = v.name.toList := by
    rw [← withoutBlanks_trim, Target.name_of_named? hnamed]
    cases v <;> rfl
  have hne : v.name.toList ≠ [] := by cases v <;> decide
  have hspells : withoutBlanks fragment.text =
      (fragment.placed.head fragment.ne_nil).1 :: (fragment.placed.tail.map Prod.fst) := by
    rw [← fragment.spells, ← List.map_cons, List.cons_head_tail]
  have hhead : (withoutBlanks (fragment.text.filter fun c => c ≠ ';')).head? =
      (withoutBlanks (before ++ '=' :: after)).head? :=
    congrArg (fun text => (withoutBlanks text).head?) hfilter
  rw [withoutBlanks_append, hname, List.head?_append_of_ne_nil _ hne] at hhead
  rw [← hhead, withoutBlanks, List.filter_comm, ← withoutBlanks, hspells,
    List.filter_cons_of_pos (by simpa using hsemicolon)]
  rfl

/-- There are scripts with statements that do not go under the line they begin on, however their
lines are laid out. -/
theorem exists_fragment_inexact : ¬ ∀ (locals : List Text) (bytes : List UInt8)
    (lines : List LogicalLine), lines <:+: logicalLines bytes → ∃ fragments : List Fragment,
      fragments.flatMap Fragment.placed = lines.flatMap LogicalLine.placed ∧
      pointsOf (readStatements locals lines).value = fragments.flatMap (Fragment.points locals) ∧
      ∀ fragment ∈ fragments, fragment.role = .sentence → fragment.IsExact := by
  intro h
  have hlines : brokenLines <:+: logicalLines brokenHead := by rw [logicalLines_brokenHead]
  obtain ⟨fragments, hplaced, hpoints, hexact⟩ := h ["A".toList] _ _ hlines
  rw [pointsOf_brokenLines] at hpoints
  have hmem := hpoints ▸ List.mem_cons_of_mem _ List.mem_cons_self
  obtain ⟨fragment, hfragment, hpoint⟩ := List.mem_flatMap.mp hmem
  obtain ⟨hrole, hline, hread⟩ := Fragment.line_of_mem_points hpoint
  have hbegins := hexact fragment hfragment hrole
  -- The statement is said to begin on the line of the head, and nothing on it is its first letter.
  have hhead : fragment.placed.head fragment.ne_nil ∈ brokenLines.flatMap LogicalLine.placed := by
    rw [← hplaced]
    exact List.mem_flatMap.mpr ⟨fragment, hfragment, List.head_mem _⟩
  have hnumber : (fragment.placed.head fragment.ne_nil).2 = 1 := hbegins.symm.trans hline.symm
  have hletters : ∀ placed ∈ brokenLines.flatMap LogicalLine.placed, placed.2 = 1 →
      placed.1 ≠ ';' ∧ ExternalVariable.state.name.toList.head? ≠ some placed.1 := by decide
  obtain ⟨hsemicolon, hletter⟩ := hletters _ hhead hnumber
  exact hletter (Fragment.head_of_external hread rfl hsemicolon)

end Broken

end SignalScript
