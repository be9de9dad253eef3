import SignalScript.Proofs.Listing.Condition
import SignalScript.Proofs.Statement.Gathering
import SignalScript.Proofs.Statement.Structuring

/-!
# Listings of statements

A statement begins a line at its own depth, and the lines of a body stand deeper than the `ELSE`,
`ELSEIF` or `ENDIF` behind it. So a body ends at the first line that is not as deep, and what that
line says shows what follows the arm.

## Main definitions

* `EndsBody` — a text that ends the body in front of it

## Main results

* `indented_unique` — the line that a text begins with is determined
* `listStatements_unique` — so is a body, except for its line numbers
-/

namespace SignalScript

open Text

/-- No line of the depth begins the text. -/
def EndsBody (depth : Nat) (text : Text) : Prop :=
  ∀ rest, text ≠ List.replicate (4 * depth) ' ' ++ rest

variable {locals : List Text}

/-! ### Lines -/

section Lines

variable {depth : Nat} {line other rest rest' : Text}

/-- An indented line, its end, and what stands behind it. -/
theorem indented_append (depth : Nat) (line rest : Text) :
    indented depth line ++ rest = List.replicate (4 * depth) ' ' ++ (line ++ '\n' :: rest) := by
  simp [indented]

theorem not_mem_of_isLineChar {c : Char} (h : ∀ d ∈ line, isLineChar d = true)
    (hc : isLineChar c = false) : c ∉ line := by
  intro hmem
  rw [h c hmem] at hc
  cases hc

/-- The line that a text begins with is determined. -/
theorem indented_unique (hline : '\n' ∉ line) (hother : '\n' ∉ other)
    (h : indented depth line ++ rest = indented depth other ++ rest') :
    line = other ∧ rest = rest' := by
  rw [indented_append, indented_append] at h
  have hcut := congrArg (cut? '\n') (List.append_cancel_left h)
  rw [cut?_append_cons hline, cut?_append_cons hother] at hcut
  exact Prod.mk.inj (Option.some.inj hcut)

/-- Where a line ends is clear from the text, so equal texts have equal lines and equal rests. -/
theorem indented_unique_of_isLineChar (hline : ∀ c ∈ line, isLineChar c = true)
    (hother : ∀ c ∈ other, isLineChar c = true)
    (h : indented depth line ++ rest = indented depth other ++ rest') :
    line = other ∧ rest = rest' :=
  indented_unique (not_mem_of_isLineChar hline rfl) (not_mem_of_isLineChar hother rfl) h

theorem endsBody_nil : EndsBody (depth + 1) [] := by
  intro rest h
  cases h

/-- A line further out ends a body. -/
theorem endsBody_indented {c : Char} (hc : c ≠ ' ') :
    EndsBody (depth + 1) (indented depth (c :: line) ++ rest) := by
  intro behind h
  have hdeeper : List.replicate (4 * (depth + 1)) ' ' =
      List.replicate (4 * depth) ' ' ++ List.replicate 4 ' ' := by
    rw [List.replicate_append_replicate, Nat.mul_succ]
  rw [indented_append, hdeeper, List.append_assoc] at h
  exact hc (List.cons.inj (List.append_cancel_left h)).1

end Lines

/-! ### Statements -/

section Statements

variable {condition condition' : Condition} {depth : Nat}
  {opening : String} {rest rest' : Text}

theorem Condition.IsRead.readsBack (h : condition.IsRead locals) :
    ∀ item ∈ condition, item.ReadsBack locals := by
  obtain ⟨head, rfl⟩ := h
  exact Condition.readsBack_read locals head

/-- The line that begins an arm. -/
def armLine (locals : List Text) (opening : String) (condition : Condition) : Text :=
  opening.toList ++ Condition.listing locals condition ++ [')']

/-- The line that opens an arm is one line. -/
theorem isLineChar_armLine (hlocals : AreListable locals)
    (hopening : ∀ c ∈ opening.toList, isLineChar c = true) (h : condition.IsRead locals) :
    ∀ c ∈ armLine locals opening condition, isLineChar c = true :=
  List.forall_mem_append.mpr ⟨List.forall_mem_append.mpr
    ⟨hopening, Condition.isLineChar_listing hlocals h.readsBack⟩, List.all_eq_true.mp rfl⟩

/-- The condition in the line of an arm is determined. -/
theorem armLine_injective (hlocals : AreListable locals) (h : condition.IsRead locals)
    (h' : condition'.IsRead locals)
    (heq : armLine locals opening condition = armLine locals opening condition') :
    condition = condition' := by
  rw [armLine, armLine, List.append_assoc, List.append_assoc] at heq
  exact (Condition.listing_unique hlocals h.readsBack h'.readsBack
    (List.append_cancel_left heq)).1

/-- An arm is listed as its line, its body and what stands behind it. -/
theorem Arm.listing_append (condition : Condition) (body : List Statement)
    (otherwise : Alternative) (rest : Text) :
    (Arm.mk condition body otherwise).listing locals depth opening ++ rest =
      indented depth (armLine locals opening condition) ++
        (listStatements locals (depth + 1) body ++ (otherwise.listing locals depth ++ rest)) := by
  simp [Arm.listing, armLine]

/-- The line that begins a statement. -/
def Statement.line (locals : List Text) : Statement → Text
  | .assign assignment => assignment.listing locals
  | .choose (.mk condition _ _) => armLine locals "IF (" condition

/-- The listing of a statement begins with its line. -/
theorem Statement.exists_line (statement : Statement) (depth : Nat) (rest : Text) :
    ∃ behind, statement.listing locals depth ++ rest =
      indented depth (statement.line locals) ++ behind := by
  match statement with
  | .assign assignment => exact ⟨rest, rfl⟩
  | .choose (.mk condition body otherwise) =>
    rw [Statement.listing, List.append_assoc, Arm.listing_append]
    exact ⟨_, rfl⟩

theorem Statement.isLineChar_line (hlocals : AreListable locals) {statement : Statement}
    (h : statement.IsRead locals) : ∀ c ∈ statement.line locals, isLineChar c = true := by
  have hopening : ∀ c ∈ "IF (".toList, isLineChar c = true := List.all_eq_true.mp rfl
  match statement, h with
  | .assign assignment, .assign h => exact Assignment.isLineChar_listing hlocals h
  | .choose (.mk condition body otherwise), .choose (.mk h _ _) =>
    exact isLineChar_armLine hlocals hopening h

/-- The line that follows the body of an arm. -/
def Alternative.line (locals : List Text) : Alternative → Text
  | .done => "ENDIF".toList
  | .always _ => "ELSE".toList
  | .arm (.mk condition _ _) => armLine locals "ELSEIF (" condition

/-- So does the listing of what stands behind an arm, up to `ENDIF`. -/
theorem Alternative.exists_line (otherwise : Alternative) (depth : Nat) (rest : Text) :
    ∃ behind, otherwise.listing locals depth ++ (indented depth "ENDIF".toList ++ rest) =
      indented depth (otherwise.line locals) ++ behind := by
  match otherwise with
  | .done => exact ⟨rest, rfl⟩
  | .always body => exact ⟨_, List.append_assoc _ _ _⟩
  | .arm (.mk condition body otherwise) => exact ⟨_, Arm.listing_append condition body otherwise _⟩

theorem Alternative.isLineChar_line (hlocals : AreListable locals) {otherwise : Alternative}
    (h : otherwise.IsRead locals) : ∀ c ∈ otherwise.line locals, isLineChar c = true := by
  match otherwise, h with
  | .done, _ => exact List.all_eq_true.mp rfl
  | .always body, _ => exact List.all_eq_true.mp rfl
  | .arm (.mk condition body otherwise), .arm (.mk h _ _) =>
    exact isLineChar_armLine hlocals (List.all_eq_true.mp rfl) h

/-- What follows an arm is further out than its body. -/
theorem Alternative.endsBody (otherwise : Alternative) (rest : Text) :
    EndsBody (depth + 1)
      (otherwise.listing locals depth ++ (indented depth "ENDIF".toList ++ rest)) := by
  have hspace : 'E' ≠ ' ' := by decide
  obtain ⟨behind, hline⟩ := otherwise.exists_line depth rest
  rw [hline]
  match otherwise with
  | .done => exact endsBody_indented hspace
  | .always body => exact endsBody_indented hspace
  | .arm (.mk condition body otherwise) => exact endsBody_indented hspace

mutual

/-- Except for its line numbers, the statement that a text begins with is determined. -/
theorem Statement.listing_unique (hlocals : AreListable locals) (depth : Nat)
    {statement other : Statement} (h : statement.IsRead locals) (hother : other.IsRead locals)
    {rest rest' : Text}
    (heq : statement.listing locals depth ++ rest = other.listing locals depth ++ rest') :
    statement.unnumbered = other.unnumbered ∧ rest = rest' := by
  -- The first lines are the same, and those of an assignment and of an arm never are.
  have hline : statement.line locals = other.line locals := by
    obtain ⟨behind, hbehind⟩ := statement.exists_line depth rest
    obtain ⟨behind', hbehind'⟩ := other.exists_line depth rest'
    rw [hbehind, hbehind'] at heq
    exact (indented_unique_of_isLineChar (Statement.isLineChar_line hlocals h)
      (Statement.isLineChar_line hlocals hother) heq).1
  match statement, other, h, hother with
  | .assign assignment, .assign other, .assign h, .assign hother =>
    obtain ⟨htarget, hchain⟩ := Assignment.listing_injective hlocals h hother hline
    have hsame : { assignment with line := 0 } = { other with line := 0 } := by
      rw [htarget, hchain]
    have hlisting : assignment.listing locals = other.listing locals := hline
    rw [Statement.listing, Statement.listing, hlisting] at heq
    exact ⟨congrArg Statement.assign hsame, List.append_cancel_left heq⟩
  | .assign assignment, .choose (.mk condition body otherwise), .assign h, _ =>
    exact absurd (hline.trans (List.append_assoc _ _ _)) (Assignment.listing_ne_if hlocals h)
  | .choose (.mk condition body otherwise), .assign assignment, _, .assign h =>
    exact absurd (hline.symm.trans (List.append_assoc _ _ _)) (Assignment.listing_ne_if hlocals h)
  | .choose first, .choose other, .choose h, .choose hother =>
    have hopening : ∀ c ∈ "IF (".toList, isLineChar c = true := List.all_eq_true.mp rfl
    rw [Statement.listing, Statement.listing, List.append_assoc, List.append_assoc] at heq
    obtain ⟨hsame, hbehind⟩ := Arm.listing_unique hlocals depth hopening h hother heq
    exact ⟨congrArg Statement.choose hsame, hbehind⟩
termination_by structural statement

/-- Except for its line numbers, the arm that a text begins with is determined. -/
theorem Arm.listing_unique (hlocals : AreListable locals) (depth : Nat) {opening : String}
    (hopening : ∀ c ∈ opening.toList, isLineChar c = true) {arm other : Arm} (h : arm.IsRead locals)
    (hother : other.IsRead locals) {rest rest' : Text}
    (heq : arm.listing locals depth opening ++ (indented depth "ENDIF".toList ++ rest) =
      other.listing locals depth opening ++ (indented depth "ENDIF".toList ++ rest')) :
    arm.unnumbered = other.unnumbered ∧ rest = rest' := by
  match arm, other, h, hother with
  | .mk condition body otherwise, .mk condition' body' otherwise', .mk hcondition hbody hotherwise,
    .mk hcondition' hbody' hotherwise' =>
    rw [Arm.listing_append, Arm.listing_append] at heq
    obtain ⟨hline, hbehind⟩ := indented_unique_of_isLineChar
      (isLineChar_armLine hlocals hopening hcondition)
      (isLineChar_armLine hlocals hopening hcondition') heq
    obtain rfl := armLine_injective hlocals hcondition hcondition' hline
    -- The bodies end where the first line further out begins, whatever that line is.
    obtain ⟨hbodies, hbehind⟩ := listStatements_unique hlocals (depth + 1) hbody hbody'
      (otherwise.endsBody rest) (otherwise'.endsBody rest') hbehind
    obtain ⟨hsame, hrest⟩ := Alternative.listing_unique hlocals depth hotherwise hotherwise' hbehind
    exact ⟨by rw [Arm.unnumbered, Arm.unnumbered, hbodies, hsame], hrest⟩
termination_by structural arm

/-- Except for its line numbers, what follows an arm is determined by a text that begins with it. -/
theorem Alternative.listing_unique (hlocals : AreListable locals) (depth : Nat)
    {otherwise other : Alternative} (h : otherwise.IsRead locals) (hother : other.IsRead locals)
    {rest rest' : Text}
    (heq : otherwise.listing locals depth ++ (indented depth "ENDIF".toList ++ rest) =
      other.listing locals depth ++ (indented depth "ENDIF".toList ++ rest')) :
    otherwise.unnumbered = other.unnumbered ∧ rest = rest' := by
  -- The line behind the body tells the three cases apart.
  have hline : otherwise.line locals = other.line locals := by
    obtain ⟨behind, hbehind⟩ := otherwise.exists_line depth rest
    obtain ⟨behind', hbehind'⟩ := other.exists_line depth rest'
    rw [hbehind, hbehind'] at heq
    exact (indented_unique_of_isLineChar (Alternative.isLineChar_line hlocals h)
      (Alternative.isLineChar_line hlocals hother) heq).1
  match otherwise, other, h, hother with
  | .done, .done, _, _ => exact ⟨rfl, List.append_cancel_left heq⟩
  | .done, .always body, _, _ => exact nomatch hline
  | .done, .arm (.mk condition body otherwise), _, _ => exact nomatch hline
  | .always body, .done, _, _ => exact nomatch hline
  | .always body, .always body', .always hbody, .always hbody' =>
    have hends (rest : Text) : EndsBody (depth + 1) (indented depth "ENDIF".toList ++ rest) :=
      endsBody_indented (by decide)
    rw [Alternative.listing, Alternative.listing, List.append_assoc, List.append_assoc] at heq
    obtain ⟨hbodies, hbehind⟩ := listStatements_unique hlocals (depth + 1) hbody hbody'
      (hends rest) (hends rest') (List.append_cancel_left heq)
    exact ⟨congrArg Alternative.always hbodies, List.append_cancel_left hbehind⟩
  | .always body, .arm (.mk condition body' otherwise), _, _ => exact nomatch hline
  | .arm (.mk condition body otherwise), .done, _, _ => exact nomatch hline
  | .arm (.mk condition body' otherwise), .always body, _, _ => exact nomatch hline
  | .arm next, .arm next', .arm h, .arm h' =>
    have hopening : ∀ c ∈ "ELSEIF (".toList, isLineChar c = true := List.all_eq_true.mp rfl
    obtain ⟨hsame, hbehind⟩ := Arm.listing_unique hlocals depth hopening h h' heq
    exact ⟨congrArg Alternative.arm hsame, hbehind⟩
termination_by structural otherwise

/-- Except for its line numbers, the body that a text begins with is determined. -/
theorem listStatements_unique (hlocals : AreListable locals) (depth : Nat)
    {body other : List Statement} (h : ∀ statement ∈ body, statement.IsRead locals)
    (hother : ∀ statement ∈ other, statement.IsRead locals) {rest rest' : Text}
    (hrest : EndsBody depth rest) (hrest' : EndsBody depth rest')
    (heq : listStatements locals depth body ++ rest = listStatements locals depth other ++ rest') :
    Statement.allUnnumbered body = Statement.allUnnumbered other ∧
      rest = rest' := by
  match body, other with
  | [], [] => exact ⟨rfl, heq⟩
  | [], first :: later =>
    obtain ⟨behind, hfirst⟩ := first.exists_line depth (listStatements locals depth later ++ rest')
    rw [listStatements, listStatements, List.append_assoc, hfirst, indented_append] at heq
    exact absurd heq (hrest _)
  | first :: later, [] =>
    obtain ⟨behind, hfirst⟩ := first.exists_line depth (listStatements locals depth later ++ rest)
    rw [listStatements, listStatements, List.append_assoc, hfirst, indented_append] at heq
    exact absurd heq.symm (hrest' _)
  | first :: later, first' :: later' =>
    obtain ⟨hfirst, hlater⟩ := List.forall_mem_cons.mp h
    obtain ⟨hfirst', hlater'⟩ := List.forall_mem_cons.mp hother
    rw [listStatements, listStatements, List.append_assoc, List.append_assoc] at heq
    obtain ⟨hsame, hbehind⟩ := Statement.listing_unique hlocals depth hfirst hfirst' heq
    obtain ⟨hrest, hbehind⟩ := listStatements_unique hlocals depth hlater hlater' hrest hrest'
      hbehind
    exact ⟨congrArg₂ List.cons hsame hrest, hbehind⟩
termination_by structural body

end

end Statements

end SignalScript
