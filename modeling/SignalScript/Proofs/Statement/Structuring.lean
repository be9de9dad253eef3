import SignalScript.Proofs.Condition.Bracket
import SignalScript.Proofs.Statement.Lines

/-!
# Structuring is exact

However a program is laid out, the statements read from its lines are the ones it means, and
nothing is complained about but what stands in its sentences and guards. Only the line numbers of
the statements depend on the layout, so they are left aside here.

## Main definitions

* `Statement.unnumbered` — a statement with all line numbers set to zero
* `Taken.Means` — what was taken is what is meant, and it was taken from the lines in front

## Main results

* `readStatements_linesOf` — the statements read from the lines of a program
-/

namespace SignalScript

open Text Written

/-! ### Line numbers aside -/

mutual

/-- The statement with all line numbers set to zero. -/
def Statement.unnumbered : Statement → Statement
  | .assign assignment => .assign { assignment with line := 0 }
  | .choose first => .choose first.unnumbered

/-- The arm with all line numbers set to zero. -/
def Arm.unnumbered : Arm → Arm
  | .mk condition body otherwise =>
    .mk condition (Statement.allUnnumbered body) otherwise.unnumbered

/-- What follows an arm, with all line numbers set to zero. -/
def Alternative.unnumbered : Alternative → Alternative
  | .done => .done
  | .always body => .always (Statement.allUnnumbered body)
  | .arm next => .arm next.unnumbered

/-- The statements with all line numbers set to zero. -/
def Statement.allUnnumbered : List Statement → List Statement
  | [] => []
  | first :: later => first.unnumbered :: Statement.allUnnumbered later

end

/-- What was read, with all line numbers left out. -/
def Noted.unnumbered (reported : Reported (List Statement)) : Checked (List Statement) :=
  ⟨Statement.allUnnumbered reported.value, reported.notes.map Problem.cause⟩

theorem allUnnumbered_append (first later : List Statement) :
    Statement.allUnnumbered (first ++ later) =
      Statement.allUnnumbered first ++ Statement.allUnnumbered later := by
  induction first with
  | nil => rfl
  | cons statement rest ih =>
    rw [List.cons_append, Statement.allUnnumbered, Statement.allUnnumbered, ih, List.cons_append]

theorem map_cause_atLine (number : Nat) (causes : List Cause) :
    (causes.map (Problem.mk number)).map Problem.cause = causes := by
  rw [List.map_map]
  exact List.map_id causes

/-- What was taken is what is meant, up to line numbers, and the lines left have the texts
`more`. -/
structure Taken.Means {α : Type} {room : Nat} (taken : Taken α room) (unnumbered : α → α)
    (meaning : Checked α) (more : List Text) : Prop where
  value_eq : unnumbered taken.value = meaning.value
  causes_eq : taken.problems.map Problem.cause = meaning.notes
  rest_eq : taken.rest.map LogicalLine.text = more

section Reading

variable {locals : List Text} {lines : List LogicalLine} {first : LogicalLine} {more : List Text}

/-! ### Sentences -/

/-- A semicolon behind what follows an equals sign changes nothing about it. -/
theorem filter_dropDecoration_semicolon (after : Text) :
    (dropDecoration (after ++ [';'])).filter (fun c => c ≠ ';') =
      (dropDecoration after).filter fun c => c ≠ ';' := by
  have hfilter (text : Text) : (text ++ [';']).filter (fun c => c ≠ ';') =
      text.filter fun c => c ≠ ';' := by simp
  -- The cases are those of the definition.
  match after with
  | [] => rfl
  | ['='] => rfl
  | '=' :: '#' :: rest => exact hfilter rest
  | '#' :: rest => exact hfilter rest
  | '=' :: c :: rest =>
    by_cases hc : c = '#'
    · subst hc
      exact hfilter rest
    · simpa [dropDecoration, hc] using hfilter (c :: rest)
  | c :: rest =>
    by_cases hhash : c = '#'
    · subst hhash
      exact hfilter rest
    · by_cases hequals : c = '='
      · subst hequals
        cases rest with
        | nil => rfl
        | cons d rest =>
          by_cases hd : d = '#'
          · subst hd
            exact hfilter rest
          · simpa [dropDecoration, hd] using hfilter (d :: rest)
      · simpa [dropDecoration, hhash, hequals] using hfilter (c :: rest)

/-- A semicolon behind a statement changes nothing about it. -/
theorem read_semicolon (number : Nat) (text : Text) :
    Assignment.read locals number (text ++ [';']) = Assignment.read locals number text := by
  have hplain : (plainEquals (text ++ [';'])).filter (fun c => c ≠ ';') =
      (plainEquals text).filter fun c => c ≠ ';' := by
    cases hcut : cut? '=' text with
    | none =>
      have hnone : cut? '=' (text ++ [';']) = none := by
        rw [cut?_eq_none_iff] at hcut ⊢
        simp [hcut]
      simp [plainEquals, hcut, hnone]
    | some pair =>
      obtain ⟨before, after⟩ := pair
      simp only [plainEquals, hcut, cut?_append hcut, List.filter_append]
      rw [List.filter_cons, List.filter_cons, filter_dropDecoration_semicolon]
  rw [Assignment.read, Assignment.read, hplain]

/-- The line number goes into the assignment and nowhere else. -/
theorem read_line (number : Nat) (text : Text) :
    Assignment.read locals number text =
      Option.map (fun assignment => { assignment with line := number }) <$>
        Assignment.read locals 0 text := by
  simp only [Assignment.read, map_bind]
  -- Only the last step mentions the line.
  congr 1
  funext sides
  match sides with
  | none => rfl
  | some (target, chainText) =>
    simp only [map_bind]
    congr 1
    funext chain
    match chain with
    | none => rfl
    | some [] => rfl
    | some (term :: rest) => rfl

/-- Up to its number, the assignment read on any line is the one read on line zero. -/
theorem allUnnumbered_read (number : Nat) (text : Text) :
    Statement.allUnnumbered ((Assignment.read locals number text).value.toList.map .assign) =
      (Assignment.read locals 0 text).value.toList.map .assign := by
  rw [read_line number text]
  nth_rewrite 2 [read_line 0 text]
  rw [Noted.value_map, Noted.value_map]
  cases (Assignment.read locals 0 text).value <;> rfl

theorem notes_read (number : Nat) (text : Text) :
    (Assignment.read locals number text).notes = (Assignment.read locals 0 text).notes := by
  rw [read_line number text, Noted.notes_map]

/-- A stem without semicolon that begins a statement with its semicolon begins the statement. -/
theorem prefix_of_prefix_semicolon {stem text line : Text} (hstem : ';' ∉ stem)
    (hline : stem <+: line) (h : line <+: text ++ [';']) : stem <+: text := by
  rcases List.prefix_concat_iff.mp (hline.trans h) with rfl | h
  · exact absurd (List.mem_append_right _ (List.mem_singleton_self _)) hstem
  · exact h

theorem prefix_of_isElse {text : Text} (h : isElse text = true) : "ELSE".toList <+: text := by
  simp only [isElse, Bool.or_eq_true, decide_eq_true_eq, List.isPrefixOf_iff_prefix] at h
  rcases h with (rfl | h) | h
  · exact List.prefix_rfl
  · exact List.IsPrefix.trans ⟨" ".toList, rfl⟩ h
  · exact List.IsPrefix.trans ⟨"IF".toList, rfl⟩ h

theorem startsWithBrace_eq_false {line : Text} (h : IsPlain line) :
    startsWithBrace line = false := by
  cases line with
  | nil => rfl
  | cons c rest => simpa [startsWithBrace] using h c List.mem_cons_self

/-- No statement begins like a block or an arm. -/
theorem isStructural_sentence {sentence : Sentence} {line : Text} {back : List Text}
    (h : sentence.lines = line :: back) : isStructural line = false := by
  have hbegin : line <+: sentence.text ++ [';'] := prefix_extendLast h
  have hbrace : startsWithBrace line = false :=
    startsWithBrace_eq_false (sentence.isHead.plain line (h ▸ List.mem_cons_self))
  -- What begins the first line would begin the whole sentence, which is excluded.
  have hif : isIf line = false := by
    apply Bool.eq_false_iff.mpr
    intro hif
    have := prefix_of_prefix_semicolon (by decide) (List.isPrefixOf_iff_prefix.mp hif) hbegin
    exact absurd sentence.not_if (by simpa [isIf] using this)
  have helse : isElse line = false := by
    apply Bool.eq_false_iff.mpr
    intro helse
    have := prefix_of_prefix_semicolon (by decide) (prefix_of_isElse helse) hbegin
    exact absurd sentence.not_else (by simpa using this)
  simp only [isStructural, hbrace, hif, helse, Bool.or_self]

theorem Taken.means_of_parts {α : Type} {room : Nat} {taken : Taken α room} {unnumbered : α → α}
    {meaning : Checked α} {more : List Text} {value : α} {problems : List Problem}
    {rest : List LogicalLine} (h : taken.parts = (value, problems, rest))
    (hvalue : unnumbered value = meaning.value)
    (hcauses : problems.map Problem.cause = meaning.notes)
    (hrest : rest.map LogicalLine.text = more) : taken.Means unnumbered meaning more := by
  obtain ⟨rfl, hproblems⟩ := Prod.mk.inj h
  obtain ⟨rfl, rfl⟩ := Prod.mk.inj hproblems
  exact ⟨hvalue, hcauses, hrest⟩

/-- The assignment of a statement is read from its lines. -/
theorem takeAssignment_means (locals : List Text) (sentence : Sentence)
    (hlines : first.text :: lines.map LogicalLine.text = sentence.lines ++ more) :
    (takeAssignment locals first lines).Means Statement.allUnnumbered
      ((Item.sentence sentence).meaning locals) more := by
  -- The lines in hand begin with those of the sentence.
  obtain ⟨line, back, hsplit⟩ := List.exists_cons_of_ne_nil sentence.isHead.ne_nil
  rw [hsplit, List.cons_append] at hlines
  obtain ⟨rfl, hlater⟩ := List.cons.inj hlines
  obtain ⟨front, rest, rfl, rfl, rfl⟩ := List.map_eq_append_iff.mp hlater
  have hplain : ';' ∉ sentence.text := fun h => by
    have := sentence.plain _ h
    simp [isDelimiter] at this
  have htaken : (takeStatement first.text first.number (front ++ rest)).parts =
      (sentence.text ++ [';'], [], rest) :=
    takeStatement_lines hplain sentence.continues hsplit.symm
  obtain ⟨hvalue, htaken⟩ := Prod.mk.inj htaken
  obtain ⟨hproblems, hrest⟩ := Prod.mk.inj htaken
  refine Taken.means_of_parts takeAssignment_parts ?_ ?_ (by rw [hrest])
  · rw [hvalue, read_semicolon, allUnnumbered_read]
    rfl
  · rw [hproblems, hvalue, read_semicolon, notes_read, List.nil_append, map_cause_atLine]
    simp [Item.meaning]

/-! ### Guards -/

/-- Behind a head, a line in either place is left as a line of its own. -/
theorem exists_attach (place : Place) {line : Text} (hline : line.IsTight) {front : List Text}
    (hfront : front ≠ []) (later more : List Text) :
    ∃ tail behind, place.attach front (line :: later) = extendLast tail front ++ behind ∧
      ∀ number rest, rest.map LogicalLine.text = behind ++ more →
        (pushRest tail number rest).map LogicalLine.text = line :: later ++ more := by
  cases place with
  | sameLine =>
    refine ⟨' ' :: line, later, rfl, fun number rest h => ?_⟩
    rw [pushRest_space_cons hline, List.map_cons, h, List.cons_append]
  | nextLine =>
    refine ⟨[], line :: later, ?_, fun number rest h => h⟩
    rw [extendLast_nil hfront]
    rfl

theorem startsWithBrace_append {line : Text} (hne : line ≠ []) (h : IsPlain line) (tail : Text) :
    startsWithBrace (line ++ tail) = false := by
  obtain ⟨c, rest, rfl⟩ := List.exists_cons_of_ne_nil hne
  simpa [startsWithBrace] using h c List.mem_cons_self

/-- The condition of an arm is read from the lines up to the end of its guard. -/
theorem takeGuard_means (locals : List Text) {keyword line : Text} {later : List Text}
    (hkeyword : IsHead [keyword]) (hopening : '(' ∉ keyword) (guard : Guard) (place : Place)
    (hline : line.IsTight)
    (hlines : first.text :: lines.map LogicalLine.text =
      place.attach (Place.sameLine.attach [keyword] guard.pieces) (line :: later) ++ more) :
    (takeGuard locals first lines).Means id (Condition.read locals ("IF ".toList ++ guard.text))
      (line :: later ++ more) := by
  have hhead : IsHead ((keyword ++ ' ' :: guard.first) :: guard.later) :=
    hkeyword.behind_guard guard
  -- Put together, the pieces spell the keyword and the bracketed condition.
  have htext : joinedBy [' '] ((keyword ++ ' ' :: guard.first) :: guard.later) =
      (keyword ++ [' ']) ++ '(' :: (guard.condition ++ [')']) := by
    rw [← joinedBy_merge, joinedBy_cons_cons, List.append_assoc, List.singleton_append,
      ← guard.spells]
    rfl
  have hspace : '(' ∉ keyword ++ [' '] := by simpa using hopening
  have hcut := cutCondition?_of_isBalanced hspace guard.balanced
  rw [← htext] at hcut
  obtain ⟨tail, behind, hattach, hrest⟩ := exists_attach place hline hhead.ne_nil later more
  have hattach : place.attach (Place.sameLine.attach [keyword] guard.pieces) (line :: later) =
      extendLast tail ((keyword ++ ' ' :: guard.first) :: guard.later) ++ behind := hattach
  -- The lines in hand begin with those up to the end of the guard.
  obtain ⟨start, back, hsplit⟩ := List.exists_cons_of_ne_nil
    (extendLast_ne_nil tail ((keyword ++ ' ' :: guard.first) :: guard.later))
  rw [hattach, hsplit, List.append_assoc, List.cons_append] at hlines
  obtain ⟨rfl, hlater⟩ := List.cons.inj hlines
  obtain ⟨front, rest, rfl, rfl, hbehind⟩ := List.map_eq_append_iff.mp hlater
  -- None of the lines in between begins with a brace.
  have hcontinues :
      ∀ line ∈ (extendLast tail ((keyword ++ ' ' :: guard.first) :: guard.later)).tail,
        startsWithBrace line = false := by
    intro line hline
    rcases mem_extendLast (List.mem_of_mem_tail hline) hhead.ne_nil with h | ⟨last, h, rfl⟩
    · exact startsWithBrace_eq_false (hhead.plain line h)
    · exact startsWithBrace_append (hhead.tight last h).ne_nil (hhead.plain last h) tail
  have htaken : (takeCondition first.text first.number (front ++ rest)).parts =
      (joinedBy [' '] ((keyword ++ ' ' :: guard.first) :: guard.later), [],
        pushRest tail first.number rest) :=
    takeCondition_lines hcut hcontinues hsplit.symm
  rw [htext] at htaken
  obtain ⟨hvalue, htaken⟩ := Prod.mk.inj htaken
  obtain ⟨hproblems, hrest'⟩ := Prod.mk.inj htaken
  -- The keyword plays no part in how the condition is read.
  have hread : Condition.read locals ("IF ".toList ++ guard.text) =
      Condition.read locals ((keyword ++ [' ']) ++ '(' :: (guard.condition ++ [')'])) := by
    rw [guard.spells, Condition.read_brackets (by decide), Condition.read_brackets hspace]
  refine Taken.means_of_parts takeGuard_parts ?_ ?_ ?_
  · rw [hvalue, hread]
    rfl
  · rw [hproblems, hvalue, hread, List.nil_append, map_cause_atLine]
  · rw [hrest']
    exact hrest _ _ hbehind

/-! ### Blocks and heads -/

/-- The lines of a program in braces are read as a block. -/
theorem takeBlock_means (start number : Nat) (items : List Item)
    (hlines : lines.map LogicalLine.text = linesOf items ++ [['}']] ++ more) :
    ∃ inner rest, (takeBlock start 0 [] number lines).parts = (inner, [], rest) ∧
      inner.map LogicalLine.text = linesOf items ∧ rest.map LogicalLine.text = more := by
  rw [List.append_assoc] at hlines
  obtain ⟨front, back, rfl, hfront, hback⟩ := List.map_eq_append_iff.mp hlines
  obtain ⟨close, rest, rfl, hclose, hrest⟩ := List.map_eq_cons_iff.mp hback
  have hwhole := isWhole_linesOf items
  have hdepth : braceDepth 0 ([] :: front.map LogicalLine.text) = some 0 :=
    (congrArg (braceDepth 0) hfront).trans (hwhole.closed 0)
  have htight : ∀ line ∈ front, line.text.IsTight := fun line hline =>
    hwhole.tight line.text (hfront ▸ List.mem_map_of_mem hline)
  exact ⟨front, rest, takeBlock_lines hdepth htight hclose, hfront, hrest⟩

theorem attach_ne_nil (place : Place) {front : List Text} (h : front ≠ []) (back : List Text) :
    place.attach front back ≠ [] := by
  match place, back with
  | .sameLine, [] => exact h
  | .sameLine, line :: later =>
    exact fun hnil => extendLast_ne_nil _ _ (List.append_eq_nil_iff.mp hnil).1
  | .nextLine, back => exact fun hnil => h (List.append_eq_nil_iff.mp hnil).1

theorem exists_lines_of_body (body : Body) :
    ∃ line later, body.lines = line :: later ∧ line.IsTight := by
  have hne : body.lines ≠ [] := by
    cases body with
    | braced items => exact List.cons_ne_nil _ _
    | sentence place sentence => exact sentence.isHead.ne_nil
    | choose place first =>
      obtain ⟨guard, body, otherwise⟩ := first
      intro h
      have hhead : Place.sameLine.attach ["IF".toList] guard.pieces ≠ [] :=
        attach_ne_nil _ (List.cons_ne_nil _ _) _
      exact attach_ne_nil body.place hhead body.lines (List.append_eq_nil_iff.mp h).1
  obtain ⟨line, later, h⟩ := List.exists_cons_of_ne_nil hne
  exact ⟨line, later, h, body.isWhole.tight line (h ▸ List.mem_cons_self)⟩

/-- What stands behind the keyword of an arm does not depend on the keyword. -/
theorem exists_lines_of_arm (arm : Written.Arm) :
    ∃ line later, ∀ keyword, arm.lines [keyword] = (keyword ++ ' ' :: line) :: later := by
  obtain ⟨guard, body, otherwise⟩ := arm
  obtain ⟨line, later, hbody, -⟩ := exists_lines_of_body body
  simp only [Arm.lines, hbody]
  cases body.place with
  | nextLine => exact ⟨guard.first, _, fun _ => rfl⟩
  | sameLine =>
    cases hlater : guard.later with
    | nil =>
      refine ⟨guard.first ++ ' ' :: line, later ++ otherwise.lines, fun keyword => ?_⟩
      simp [Place.attach, Broken.pieces, hlater, extendLast]
    | cons next more =>
      refine ⟨guard.first, extendLast (' ' :: line) (next :: more) ++ later ++ otherwise.lines,
        fun keyword => ?_⟩
      simp [Place.attach, Broken.pieces, hlater, extendLast]

theorem lines_stacked (arm : Written.Arm) (front keyword : Text) :
    arm.lines [front, keyword] = front :: arm.lines [keyword] := by
  obtain ⟨guard, body, otherwise⟩ := arm
  obtain ⟨line, later, hbody, -⟩ := exists_lines_of_body body
  simp only [Arm.lines, hbody]
  cases body.place <;> rfl

/-- A body without braces that is no chain of arms does not begin like one. -/
theorem isIf_of_body {body : Body} {line : Text} {later : List Text}
    (hchoice : body.isChoice = false) (h : body.lines = line :: later) : isIf line = false := by
  cases body with
  | braced items =>
    obtain ⟨rfl, -⟩ := List.cons.inj h
    rfl
  | sentence place sentence =>
    have := isStructural_sentence h
    simp only [isStructural, Bool.or_eq_false_iff] at this
    exact this.1.2
  | choose place first => cases hchoice

/-- No arm goes on in the lines. -/
def IsFresh (lines : List Text) : Prop := ∀ line ∈ lines.head?, isElse line = false

theorem isFresh_linesOf (items : List Item) : IsFresh (linesOf items) := by
  intro line hline
  cases items with
  | nil => cases hline
  | cons item later =>
    cases item with
    | sentence sentence =>
      obtain ⟨start, back, hsplit⟩ := List.exists_cons_of_ne_nil sentence.isHead.ne_nil
      rw [linesOf, Item.lines, hsplit] at hline
      obtain rfl := Option.some.inj hline
      have := isStructural_sentence hsplit
      simp only [isStructural, Bool.or_eq_false_iff] at this
      exact this.2
    | block items =>
      obtain rfl := Option.some.inj hline
      rfl
    | choose first =>
      obtain ⟨start, back, hsplit⟩ := exists_lines_of_arm first
      rw [linesOf, Item.lines, hsplit] at hline
      obtain rfl := Option.some.inj hline
      rfl

end Reading

/-! ### Trees -/

section Trees

variable {locals : List Text}

/-- A further arm is meant where it is taken. -/
theorem means_furtherArm {room room' : Nat} {taken : Taken Alternative room}
    {arm : Taken Arm room'} {next : Written.Arm} {more : List Text}
    (h : taken.parts = (.arm arm.value, arm.problems, arm.rest))
    (harm : arm.Means Arm.unnumbered (next.meaning locals) more) (spelling : Spelling) :
    taken.Means Alternative.unnumbered ((Otherwise.arm spelling next).meaning locals) more := by
  refine Taken.means_of_parts h ?_ ?_ harm.rest_eq
  · rw [Alternative.unnumbered, harm.value_eq]
    rfl
  · rw [harm.causes_eq, Otherwise.meaning, Noted.notes_bind, Noted.notes_pure, List.append_nil]

/-- Statements are meant where each part of them is meant. -/
theorem unnumbered_append {first : List Statement} {problems : List Problem}
    {later : Reported (List Statement)} {meaning more : Checked (List Statement)}
    (hvalue : Statement.allUnnumbered first = meaning.value)
    (hcauses : problems.map Problem.cause = meaning.notes) (hlater : later.unnumbered = more) :
    Noted.unnumbered ⟨first ++ later.value, problems ++ later.notes⟩ =
      (do
        let first ← meaning
        let later ← more
        pure (first ++ later)) := by
  rw [← hlater]
  refine congrArg₂ Noted.mk ?_ ?_
  · rw [allUnnumbered_append, hvalue]
    rfl
  · simp [Noted.unnumbered, hcauses]

/-- The body behind an `ELSE` is meant where it is taken. -/
theorem means_always {room room' : Nat} {taken : Taken Alternative room}
    {body : Taken (List Statement) room'} {written : Body} {more : List Text}
    (h : taken.parts = (.always body.value, body.problems, body.rest))
    (hbody : body.Means Statement.allUnnumbered (written.meaning locals) more) :
    taken.Means Alternative.unnumbered ((Otherwise.always written).meaning locals) more := by
  refine Taken.means_of_parts h ?_ ?_ hbody.rest_eq
  · rw [Alternative.unnumbered, hbody.value_eq]
    rfl
  · rw [hbody.causes_eq, Otherwise.meaning, Noted.notes_bind, Noted.notes_pure, List.append_nil]

mutual

/-- An arm is read with everything that belongs to it, if no `ELSE` follows that it would take. -/
theorem takeArm_means : (arm : Written.Arm) → arm.isClear = true →
    ∀ (first : LogicalLine) (lines : List LogicalLine) {keyword : Text} {more : List Text},
      IsHead [keyword] → '(' ∉ keyword → (arm.endsWithElse = false → IsFresh more) →
      first.text :: lines.map LogicalLine.text = arm.lines [keyword] ++ more →
      (takeArm locals first lines).Means Arm.unnumbered (arm.meaning locals) more
  | .mk guard body otherwise, hclear, first, lines, keyword, more, hkeyword, hopening, hfresh,
      hlines => by
    simp only [Arm.isClear, Bool.and_eq_true, Bool.or_eq_true, Bool.not_eq_true'] at hclear
    obtain ⟨⟨hbody, hotherwise⟩, hdangling⟩ := hclear
    obtain ⟨line, later, hsplit, hline⟩ := exists_lines_of_body body
    have hguard : (takeGuard locals first lines).Means id
        (Condition.read locals ("IF ".toList ++ guard.text))
        (line :: later ++ (otherwise.lines ++ more)) :=
      takeGuard_means locals hkeyword hopening guard body.place hline
        (by rw [hlines, Arm.lines, hsplit, List.append_assoc])
    rw [← hsplit] at hguard
    -- What follows the body is an `ELSE` only if the body does not take it.
    have hbehind : body.takesElse = true → IsFresh (otherwise.lines ++ more) := by
      intro htakes
      rcases hdangling with hdone | hfree
      · cases otherwise with
        | done => exact hfresh rfl
        | always body => cases hdone
        | arm spelling next => cases hdone
      · rw [htakes] at hfree
        cases hfree
    have htaken := takeBody_means body hbody first.number _ hbehind hguard.rest_eq
    have hlast := takeAlternative_means otherwise hotherwise hfresh htaken.rest_eq
    refine Taken.means_of_parts takeArm_parts ?_ ?_ hlast.rest_eq
    · simp only [Arm.unnumbered, Arm.meaning, Noted.value_bind, Noted.value_pure,
        htaken.value_eq, hlast.value_eq]
      rw [← hguard.value_eq]
      rfl
    · simp only [List.map_append, hguard.causes_eq, htaken.causes_eq, hlast.causes_eq, Arm.meaning,
        Noted.notes_bind, Noted.notes_pure, List.append_nil, List.append_assoc]

theorem takeBody_means : (body : Body) → body.isClear = true →
    ∀ (owner : Nat) (lines : List LogicalLine) {more : List Text},
      (body.takesElse = true → IsFresh more) →
      lines.map LogicalLine.text = body.lines ++ more →
      (takeBody locals owner lines).Means Statement.allUnnumbered (body.meaning locals) more
  | .braced items, hclear, owner, lines, more, _, hlines => by
    obtain ⟨first, rest, rfl, hfirst, hrest⟩ := List.map_eq_cons_iff.mp hlines
    obtain ⟨inner, back, hblock, hinner, hback⟩ :=
      takeBlock_means first.number first.number items hrest
    -- The lines between the braces are read as a program of their own.
    have hread := readStatements_means items hclear inner hinner
    obtain ⟨hlinesIn, hblock⟩ := Prod.mk.inj hblock
    obtain ⟨hproblems, hrestOf⟩ := Prod.mk.inj hblock
    refine Taken.means_of_parts (takeBody_brace hfirst) ?_ ?_ ?_
    · rw [hlinesIn]
      exact congrArg Noted.value hread
    · rw [hproblems, hlinesIn]
      exact congrArg Noted.notes hread
    · rw [hrestOf, hback]
  | .sentence place sentence, _, owner, lines, more, _, hlines => by
    obtain ⟨line, later, hsplit⟩ := List.exists_cons_of_ne_nil sentence.isHead.ne_nil
    rw [Body.lines, hsplit] at hlines
    obtain ⟨first, rest, rfl, hfirst, hrest⟩ := List.map_eq_cons_iff.mp hlines
    have htaken : (takeAssignment locals first rest).Means Statement.allUnnumbered
        ((Item.sentence sentence).meaning locals) more :=
      takeAssignment_means locals sentence (by rw [hsplit, hfirst, hrest]; rfl)
    have hplain : isStructural first.text = false := hfirst ▸ isStructural_sentence hsplit
    exact Taken.means_of_parts (takeBody_statement hplain) htaken.value_eq htaken.causes_eq
      htaken.rest_eq
  | .choose place arm, hclear, owner, lines, more, hfresh, hlines => by
    obtain ⟨line, later, hsplit⟩ := exists_lines_of_arm arm
    have hlines' := hlines
    rw [Body.lines, hsplit] at hlines
    obtain ⟨first, rest, rfl, hfirst, -⟩ := List.map_eq_cons_iff.mp hlines
    have htaken := takeArm_means arm hclear first rest isHead_if (by decide)
      (fun hends => hfresh (by rw [Body.takesElse, hends]; rfl)) hlines'
    refine Taken.means_of_parts (takeBody_if (by rw [hfirst]; rfl) (by rw [hfirst]; rfl)
      (by rw [hfirst]; rfl)) ?_ ?_ htaken.rest_eq
    · rw [Statement.allUnnumbered, Statement.unnumbered, htaken.value_eq]
      rfl
    · rw [htaken.causes_eq, Body.meaning, Noted.notes_bind, Noted.notes_pure, List.append_nil]

theorem takeAlternative_means : (otherwise : Otherwise) → otherwise.isClear = true →
    ∀ {lines : List LogicalLine} {more : List Text},
      (otherwise.endsWithElse = false → IsFresh more) →
      lines.map LogicalLine.text = otherwise.lines ++ more →
      (takeAlternative locals lines).Means Alternative.unnumbered (otherwise.meaning locals) more
  | .done, _, lines, more, hfresh, hlines => by
    cases lines with
    | nil => exact Taken.means_of_parts takeAlternative_nil rfl rfl hlines
    | cons first rest =>
      have hfirst : isElse first.text = false := by
        refine hfresh rfl first.text ?_
        rw [← List.nil_append more, ← Otherwise.lines, ← hlines]
        rfl
      exact Taken.means_of_parts (takeAlternative_done hfirst) rfl rfl hlines
  | .always body, hclear, lines, more, _, hlines => by
    simp only [Otherwise.isClear, Bool.and_eq_true, Bool.not_eq_true'] at hclear
    obtain ⟨hbody, hchoice⟩ := hclear
    -- A body that would take a later `ELSE` is a choice, and those are excluded here.
    have htakes : body.takesElse = true → IsFresh more := by
      intro htakes
      cases body with
      | braced items => cases htakes
      | sentence place sentence => cases htakes
      | choose place first => cases hchoice
    obtain ⟨line, later, hsplit, hline⟩ := exists_lines_of_body body
    have hif := isIf_of_body hchoice hsplit
    rw [Otherwise.lines, hsplit] at hlines
    cases hplace : body.place with
    | sameLine =>
      rw [hplace] at hlines
      obtain ⟨first, rest, rfl, hfirst, hrest⟩ := List.map_eq_cons_iff.mp hlines
      -- The body begins behind the word, on a line that is put back.
      have hbehind : first.text = "ELSE ".toList ++ line := hfirst
      have htaken := takeBody_means body hbody first.number (⟨line, first.number⟩ :: rest) htakes
        (by rw [List.map_cons, hrest, hsplit]; rfl)
      refine means_always ((takeAlternative_behind hbehind hline).trans ?_) htaken
      rw [if_neg (by simp [hif])]
    | nextLine =>
      rw [hplace] at hlines
      obtain ⟨first, rest, rfl, hfirst, hrest⟩ := List.map_eq_cons_iff.mp hlines
      -- The word stands alone, and the next line is no `IF`, so it begins the body.
      obtain ⟨next, rest, rfl, hnext, -⟩ := List.map_eq_cons_iff.mp hrest
      have htaken := takeBody_means body hbody first.number _ htakes
        (hrest.trans (by rw [hsplit]; rfl))
      exact means_always (takeAlternative_always_next hfirst (by rw [hnext, hif])) htaken
  | .arm spelling next, hclear, lines, more, hfresh, hlines => by
    obtain ⟨line, later, hsplit⟩ := exists_lines_of_arm next
    cases spelling with
    | joined =>
      -- `ELSEIF` is itself the head of the arm.
      have hlines' := hlines
      rw [Otherwise.lines, Spelling.opening, hsplit] at hlines
      obtain ⟨first, rest, rfl, hfirst, -⟩ := List.map_eq_cons_iff.mp hlines
      have harm := takeArm_means next hclear first rest
        (Spelling.isHead .joined) (by decide) hfresh hlines'
      exact means_furtherArm (takeAlternative_joined (by rw [hfirst]; rfl)) harm _
    | spaced =>
      rw [Otherwise.lines, Spelling.opening, hsplit] at hlines
      obtain ⟨first, rest, rfl, hfirst, hrest⟩ := List.map_eq_cons_iff.mp hlines
      -- What is put back is the head of the arm.
      have hbehind : first.text = "ELSE ".toList ++ ("IF".toList ++ ' ' :: line) := hfirst
      have htight : IsTight ("IF".toList ++ ' ' :: line) :=
        (next.isWhole isHead_if).tight _ (by rw [hsplit]; exact List.mem_cons_self)
      have hif : isIf ("IF".toList ++ ' ' :: line) = true := rfl
      have harm := takeArm_means next hclear ⟨"IF".toList ++ ' ' :: line, first.number⟩ rest
        isHead_if (by decide) hfresh (by rw [hsplit, hrest]; rfl)
      refine means_furtherArm ((takeAlternative_behind hbehind htight).trans ?_) harm _
      rw [if_pos hif]
    | stacked =>
      rw [Otherwise.lines, Spelling.opening, lines_stacked] at hlines
      obtain ⟨first, rest, rfl, hfirst, hrest⟩ := List.map_eq_cons_iff.mp hlines
      -- The `IF` on the next line belongs to the `ELSE` on this one.
      have hrest' := hrest
      rw [hsplit] at hrest
      obtain ⟨second, rest, rfl, hsecond, -⟩ := List.map_eq_cons_iff.mp hrest
      have harm := takeArm_means next hclear second rest isHead_if (by decide) hfresh
        hrest'
      exact means_furtherArm (takeAlternative_stacked hfirst (by rw [hsecond]; rfl)) harm _

/-- The statements read from the lines of a program are the ones it means. -/
theorem readStatements_means : (items : List Item) → isClear items = true →
    ∀ lines : List LogicalLine, lines.map LogicalLine.text = linesOf items →
      (readStatements locals lines).unnumbered = meaningOf locals items
  | [], _, lines, hlines => by
    rw [List.map_eq_nil_iff.mp hlines, readStatements_nil]
    rfl
  | .sentence sentence :: later, hclear, lines, hlines => by
    simp only [isClear, Bool.and_eq_true] at hclear
    obtain ⟨line, back, hsplit⟩ := List.exists_cons_of_ne_nil sentence.isHead.ne_nil
    have hlines' := hlines
    rw [linesOf, Item.lines, hsplit] at hlines
    obtain ⟨first, rest, rfl, hfirst, -⟩ := List.map_eq_cons_iff.mp hlines
    have htaken := takeAssignment_means locals sentence hlines'
    -- What the sentence leaves is the text of the later items.
    have hlater := readStatements_means later hclear.2 _ htaken.rest_eq
    rw [readStatements_statement (by rw [hfirst]; exact isStructural_sentence hsplit)]
    exact unnumbered_append htaken.value_eq htaken.causes_eq hlater
  | .block items :: later, hclear, lines, hlines => by
    simp only [isClear, Bool.and_eq_true] at hclear
    obtain ⟨first, rest, rfl, hfirst, hrest⟩ := List.map_eq_cons_iff.mp hlines
    obtain ⟨inner, back, hblock, hinner, hback⟩ :=
      takeBlock_means first.number first.number items hrest
    obtain ⟨hinside, hblock⟩ := Prod.mk.inj hblock
    obtain ⟨hproblems, hbehind⟩ := Prod.mk.inj hblock
    have hread := readStatements_means items hclear.1 inner hinner
    have hlater := readStatements_means later hclear.2 back hback
    rw [readStatements_brace hfirst]
    simp only [hinside, hproblems, hbehind, List.nil_append]
    exact unnumbered_append (congrArg Noted.value hread) (congrArg Noted.notes hread) hlater
  | .choose arm :: later, hclear, lines, hlines => by
    simp only [isClear, Bool.and_eq_true] at hclear
    obtain ⟨line, back, hsplit⟩ := exists_lines_of_arm arm
    have hlines' := hlines
    rw [linesOf, Item.lines, hsplit] at hlines
    obtain ⟨first, rest, rfl, hfirst, -⟩ := List.map_eq_cons_iff.mp hlines
    have htaken := takeArm_means arm hclear.1 first rest isHead_if (by decide)
      -- No later item begins with an `ELSE` that the arm could take.
      (fun _ => isFresh_linesOf later) hlines'
    have hlater := readStatements_means later hclear.2 _ htaken.rest_eq
    rw [readStatements_if (by rw [hfirst]; rfl) (by rw [hfirst]; rfl)]
    have hvalue : Statement.allUnnumbered [.choose (takeArm locals first rest).value] =
        ((Item.choose arm).meaning locals).value := by
      rw [Statement.allUnnumbered, Statement.unnumbered, htaken.value_eq]
      rfl
    have hcauses : (takeArm locals first rest).problems.map Problem.cause =
        ((Item.choose arm).meaning locals).notes := by
      rw [htaken.causes_eq, Item.meaning, Noted.notes_bind, Noted.notes_pure, List.append_nil]
    exact unnumbered_append hvalue hcauses hlater

end

/-- However a program is laid out, the statements read from its lines are the ones it means, up to
line numbers, and the causes noted are those in its sentences and guards. -/
theorem readStatements_linesOf (locals : List Text) (items : List Item)
    (hclear : isClear items = true) (lines : List LogicalLine)
    (hlines : lines.map LogicalLine.text = linesOf items) :
    Statement.allUnnumbered (readStatements locals lines).value = (meaningOf locals items).value ∧
      (readStatements locals lines).notes.map Problem.cause = (meaningOf locals items).notes := by
  have hread : (readStatements locals lines).unnumbered = meaningOf locals items :=
    readStatements_means items hclear lines hlines
  exact ⟨congrArg Noted.value hread, congrArg Noted.notes hread⟩

/-- A chain of arms with a block, a bracketed condition that is broken over lines, and a statement
that is. -/
def sampleItems : List Item :=
  let guard : Guard :=
    { first := "(ENABLED &&".toList, later := ["(STATE || BLOCK_STATE()))".toList],
      tight := by decide, condition := "ENABLED && (STATE || BLOCK_STATE())".toList,
      spells := rfl, balanced := by decide, plain := plain_of_all rfl }
  let clear : Sentence :=
    { first := "STATE =".toList, later := ["7".toList], tight := by decide,
      plain := plain_of_all rfl, not_if := rfl, not_else := rfl, continues := by decide }
  let last : Sentence :=
    { first := "RETURN".toList, later := [], tight := by decide,
      plain := plain_of_all rfl, not_if := rfl, not_else := rfl, continues := by decide }
  [.choose (.mk guard (.braced [.sentence clear])
    (.arm .spaced (.mk guard (.sentence .sameLine clear) (.always (.sentence .nextLine last)))))]

theorem readStatements_linesOf_sample :
    let lines := ["IF (ENABLED &&", "(STATE || BLOCK_STATE()))", "\x7b", "STATE =", "7;", "\x7d",
      "ELSE IF (ENABLED &&", "(STATE || BLOCK_STATE())) STATE =", "7;", "ELSE", "RETURN;"].map
        fun line => LogicalLine.mk line.toList 1
    isClear sampleItems = true ∧ lines.map LogicalLine.text = linesOf sampleItems ∧
      Statement.allUnnumbered (readStatements [] lines).value = (meaningOf [] sampleItems).value ∧
      (readStatements [] lines).notes.map Problem.cause = (meaningOf [] sampleItems).notes :=
  ⟨rfl, rfl, readStatements_linesOf [] sampleItems rfl _ rfl⟩

end Trees

end SignalScript
