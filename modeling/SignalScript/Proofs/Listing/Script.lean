import SignalScript.Proofs.Listing.Statement
import SignalScript.Proofs.Script.Isolation
import SignalScript.Proofs.Source.Characters
import SignalScript.Run.Execution

/-!
# The listing determines the script

The listing shows all of a script but its line numbers, and a run does not look at these. So scripts
with the same listing do the same, however differently they were written.

## Main definitions

* `Script.unnumbered` — a script with all line numbers set to zero

## Main results

* `Script.runWith_renumbered` — line numbers play no part in a run
* `listing_determines_script` — compiled scripts with the same listing are the same except for
  their line numbers
-/

namespace SignalScript

open Text

/-- The script with all line numbers set to zero. -/
def Script.unnumbered (script : Script) : Script :=
  { script with line := 0, body := Statement.allUnnumbered script.body }

theorem Script.renumbered_zero (script : Script) :
    script.renumbered (fun _ => 0) = script.unnumbered := by
  rw [Script.renumbered, Script.unnumbered, allRenumbered_zero]

/-! ### Line numbers -/

section Runs

variable {σ : Type} [SignalHost σ] (f : Nat → Nat)

mutual

/-- A run does not look at the lines of statements. -/
theorem Statement.run_renumbered (machine : Machine σ) (statement : Statement) :
    (statement.renumbered f).run machine = statement.run machine := by
  match statement with
  | .assign assignment => rfl
  | .choose first => exact Arm.run_renumbered machine first
termination_by structural statement

theorem Arm.run_renumbered (machine : Machine σ) (arm : Arm) :
    (arm.renumbered f).run machine = arm.run machine := by
  match arm with
  | .mk condition body otherwise =>
    rw [Arm.renumbered, Arm.run, Arm.run]
    simp only [runStatements_renumbered, Alternative.run_renumbered]
termination_by structural arm

theorem Alternative.run_renumbered (machine : Machine σ) (otherwise : Alternative) :
    (otherwise.renumbered f).run machine = otherwise.run machine := by
  match otherwise with
  | .done => rfl
  | .always body => exact runStatements_renumbered machine body
  | .arm next => exact Arm.run_renumbered machine next
termination_by structural otherwise

/-- Line numbers play no part in a run. -/
theorem runStatements_renumbered (machine : Machine σ) (body : List Statement) :
    runStatements machine (Statement.allRenumbered f body) = runStatements machine body := by
  match body with
  | [] => rfl
  | first :: later =>
    rw [Statement.allRenumbered, runStatements, runStatements]
    simp only [Statement.run_renumbered, runStatements_renumbered]
termination_by structural body

end

/-- A script on other lines runs as before. -/
theorem Script.runWith_renumbered (script : Script) (values : List Int32) (host : σ) :
    (script.renumbered f).runWith values host = script.runWith values host :=
  runStatements_renumbered f _ script.body

end Runs

section Listings

variable (f : Nat → Nat) {locals : List Text}

mutual

/-- Neither does the listing. -/
theorem Statement.listing_renumbered (depth : Nat) (statement : Statement) :
    (statement.renumbered f).listing locals depth = statement.listing locals depth := by
  match statement with
  | .assign assignment => rfl
  | .choose first =>
    rw [Statement.renumbered, Statement.listing, Statement.listing, Arm.listing_renumbered]
termination_by structural statement

theorem Arm.listing_renumbered (depth : Nat) (opening : String) (arm : Arm) :
    (arm.renumbered f).listing locals depth opening = arm.listing locals depth opening := by
  match arm with
  | .mk condition body otherwise =>
    rw [Arm.renumbered, Arm.listing, Arm.listing, listStatements_renumbered,
      Alternative.listing_renumbered]
termination_by structural arm

theorem Alternative.listing_renumbered (depth : Nat) (otherwise : Alternative) :
    (otherwise.renumbered f).listing locals depth = otherwise.listing locals depth := by
  match otherwise with
  | .done => rfl
  | .always body =>
    rw [Alternative.renumbered, Alternative.listing, Alternative.listing, listStatements_renumbered]
  | .arm next => exact Arm.listing_renumbered depth "ELSEIF (" next
termination_by structural otherwise

/-- Line numbers are not listed. -/
theorem listStatements_renumbered (depth : Nat) (body : List Statement) :
    listStatements locals depth (Statement.allRenumbered f body) =
      listStatements locals depth body := by
  match body with
  | [] => rfl
  | first :: later =>
    rw [Statement.allRenumbered, listStatements, listStatements, Statement.listing_renumbered,
      listStatements_renumbered]
termination_by structural body

end

/-- A script on other lines is listed as before. -/
theorem Script.listing_renumbered (script : Script) :
    (script.renumbered f).listing = script.listing := by
  rw [Script.listing, Script.listing, Script.renumbered, listStatements_renumbered]

end Listings

/-! ### Declarations -/

section Declarations

variable {locals others : List Text} {text text' : Text}

/-- The line that declares a local variable. -/
def declarationLine (name : Text) (slot : Nat) : Text :=
  "FLOAT ".toList ++ (name ++ ("  ; slot ".toList ++ Decimal.writeNat slot))

theorem listLocals_append (name : Text) (later : List Text) (slot : Nat) (rest : Text) :
    listLocals slot (name :: later) ++ rest =
      indented 1 (declarationLine name slot) ++ (listLocals (slot + 1) later ++ rest) := by
  have hline : "FLOAT ".toList ++ name ++ "  ; slot ".toList ++ Decimal.writeNat slot =
      declarationLine name slot := by
    rw [List.append_assoc, List.append_assoc]
    rfl
  rw [listLocals, hline, List.append_assoc]

/-- Every declaration is listed with a semicolon. -/
theorem semicolon_mem_declarationLine (name : Text) (slot : Nat) :
    ';' ∈ declarationLine name slot := by
  have hmem : ';' ∈ "  ; slot ".toList := by decide
  exact List.mem_append_right _ (List.mem_append_right _ (List.mem_append_left _ hmem))

theorem lineFeed_notMem_declarationLine {name : Text} (h : IsWord name) (slot : Nat) :
    '\n' ∉ declarationLine name slot := by
  have hslot : IsToken (Decimal.writeNat slot) := Operand.isToken_write (Int.ofNat slot)
  have hwords : '\n' ∉ "FLOAT ".toList ∧ '\n' ∉ "  ; slot ".toList := by decide
  intro hmem
  rcases List.mem_append.mp hmem with hmem | hmem
  · exact hwords.1 hmem
  · rcases List.mem_append.mp hmem with hmem | hmem
    · exact h.isToken.not_mem rfl hmem
    · exact (List.mem_append.mp hmem).elim hwords.2 (hslot.not_mem rfl)

/-- Different names are declared on different lines. -/
theorem declarationLine_injective {name other : Text} {slot : Nat} (h : IsWord name)
    (hother : IsWord other) (heq : declarationLine name slot = declarationLine other slot) :
    name = other :=
  (token_unique h.isToken hother.isToken (endsToken_cons rfl) (endsToken_cons rfl)
    (List.append_cancel_left heq)).1

/-- The names that a text begins with are determined, if no declaration follows them. -/
theorem listLocals_unique (hlocals : AreListable locals) (hothers : AreListable others) (slot : Nat)
    (htext : ∀ line rest, ';' ∈ line → '\n' ∉ line → text ≠ indented 1 line ++ rest)
    (htext' : ∀ line rest, ';' ∈ line → '\n' ∉ line → text' ≠ indented 1 line ++ rest)
    (h : listLocals slot locals ++ text = listLocals slot others ++ text') :
    locals = others ∧ text = text' := by
  induction locals generalizing others slot with
  | nil =>
    cases others with
    | nil => exact ⟨rfl, h⟩
    | cons name others =>
      -- One list has a declaration where the other has the text, which begins with none.
      have hname := hothers.isWord List.mem_cons_self
      rw [listLocals_append] at h
      exact absurd h (htext _ _ (semicolon_mem_declarationLine name slot)
        (lineFeed_notMem_declarationLine hname slot))
  | cons name locals ih =>
    have hname := hlocals.isWord List.mem_cons_self
    rw [listLocals_append] at h
    cases others with
    | nil =>
      exact absurd h.symm (htext' _ _ (semicolon_mem_declarationLine name slot)
        (lineFeed_notMem_declarationLine hname slot))
    | cons other others =>
      have hother := hothers.isWord List.mem_cons_self
      rw [listLocals_append] at h
      -- Both lists have a declaration here, and its line ends where it ends in the other.
      obtain ⟨hline, hbehind⟩ := indented_unique (lineFeed_notMem_declarationLine hname slot)
        (lineFeed_notMem_declarationLine hother slot) h
      obtain rfl := declarationLine_injective hname hother hline
      obtain ⟨rfl, hsame⟩ := ih (fun name hname => hlocals name (List.mem_cons_of_mem _ hname))
        (fun name hname => hothers name (List.mem_cons_of_mem _ hname)) (slot + 1) hbehind
      exact ⟨rfl, hsame⟩

/-- No statement is listed with a semicolon, as declarations are. -/
theorem listStatements_ne_declaration (hlocals : AreListable locals) {body : List Statement}
    (h : ∀ statement ∈ body, statement.IsRead locals) (depth : Nat) {line : Text}
    (hsemicolon : ';' ∈ line) (hline : '\n' ∉ line) (rest : Text) :
    listStatements locals depth body ≠ indented depth line ++ rest := by
  intro heq
  cases body with
  | nil => exact absurd (congrArg List.length heq) (by simp [listStatements, indented])
  | cons first later =>
    have hchars := Statement.isLineChar_line hlocals (h first List.mem_cons_self)
    obtain ⟨behind, hfirst⟩ := first.exists_line depth (listStatements locals depth later)
    rw [listStatements, hfirst] at heq
    obtain ⟨rfl, -⟩ := indented_unique (not_mem_of_isLineChar hchars rfl) hline heq
    exact not_mem_of_isLineChar hchars rfl hsemicolon

end Declarations

/-! ### Scripts -/

section Scripts

variable {file file' : String} {bytes bytes' : List UInt8} {script other : Script}

/-- The name of a compiled script stands on one line. -/
theorem lineFeed_notMem_markerLine (h : script ∈ (compile file bytes).value) :
    '\n' ∉ "SCRIPT ".toList ++ script.name := by
  obtain ⟨found, hfound, rfl⟩ := mem_compileSections h
  have hword : '\n' ∉ "SCRIPT ".toList := by decide
  exact fun hmem => (List.mem_append.mp hmem).elim hword (lineFeed_notMem_name hfound)

/-- Compiled scripts with the same listing are the same except for their line numbers, and do the
same in every run, if the names of their local variables can be told from the words of a listing. -/
theorem listing_determines_script (h : script ∈ (compile file bytes).value)
    (hother : other ∈ (compile file' bytes').value) (hlocals : AreListable script.locals)
    (hlocals' : AreListable other.locals) (hlisting : script.listing = other.listing) :
    script.unnumbered = other.unnumbered ∧
      ∀ (σ : Type) [SignalHost σ] (host : σ), script.run host = other.run host ∧
        ∀ values, script.runWith values host = other.runWith values host := by
  have hname := lineFeed_notMem_markerLine h
  have hname' := lineFeed_notMem_markerLine hother
  rw [Script.listing, Script.listing, List.append_assoc, List.append_assoc] at hlisting
  obtain ⟨hmarker, hbehind⟩ := indented_unique hname hname' hlisting
  have hnames : script.name = other.name := List.append_cancel_left hmarker
  -- A declaration has a semicolon and a statement none, so the names end where the body begins.
  obtain ⟨hlocal, hbodies⟩ := listLocals_unique hlocals hlocals' 0
    (fun line rest hsemicolon hline => listStatements_ne_declaration hlocals
      (isRead_of_mem_compile h) 1 hsemicolon hline rest)
    (fun line rest hsemicolon hline => listStatements_ne_declaration hlocals'
      (isRead_of_mem_compile hother) 1 hsemicolon hline rest) hbehind
  -- From here on both bodies are listed with the same names.
  have hread' := isRead_of_mem_compile hother
  rw [← hlocal] at hbodies hread'
  have hbody := (listStatements_unique hlocals 1 (isRead_of_mem_compile h) hread' endsBody_nil
    endsBody_nil (congrArg (· ++ []) hbodies)).1
  have hsame : script.unnumbered = other.unnumbered := by
    rw [Script.unnumbered, Script.unnumbered, hnames, hlocal, hbody]
  -- Neither run looks at a line number, and without these the scripts are the same.
  have hrun {σ : Type} [SignalHost σ] (values : List Int32) (host : σ) :
      script.runWith values host = other.runWith values host := by
    rw [← script.runWith_renumbered (fun _ => 0), ← other.runWith_renumbered (fun _ => 0),
      script.renumbered_zero, other.renumbered_zero, hsame]
  refine ⟨hsame, fun σ _ host => ⟨?_, fun values => hrun values host⟩⟩
  rw [Script.run, Script.run, Script.zeros, Script.zeros, hlocal]
  exact hrun _ host

/-- The bytes of a line that holds nothing but a comment. -/
def commentLine : List UInt8 := Utf8.encode "// Signals of the yard\n".toList

/-- A comment above the sample moves its script down and changes nothing else. -/
theorem listing_determines_script_sample :
    ∃ script ∈ (compile "A.TXT" sampleFile).value,
      ∃ other ∈ (compile "B.TXT" (commentLine ++ sampleFile)).value,
        script.line ≠ other.line ∧ script.unnumbered = other.unnumbered := by
  have hwhole : AreWholeLines commentLine := .inr ⟨commentLine.dropLast, rfl⟩
  have hbelow : sections (logicalLines (commentLine ++ sampleFile)) =
      [sampleSection.renumbered (· + 1)] := by
    rw [logicalLines_append hwhole (by decide) (by decide) hasUtf16Mark_sampleFile
      hasUtf8Mark_sampleFile, logicalLines_sampleFile]
    decide +kernel
  have hmem : sampleSection.compile.value.renumbered (· + 1) ∈
      (compile "B.TXT" (commentLine ++ sampleFile)).value := by
    rw [compile, hbelow, compileSections, sampleSection.compile_renumbered]
    exact List.mem_cons_self
  have hlocals : AreListable ["X".toList] := by
    intro name hname
    rw [List.mem_singleton.mp hname]
    decide
  exact ⟨_, mem_compile_sampleFile, _, hmem, by decide,
    (listing_determines_script mem_compile_sampleFile hmem hlocals hlocals
      (Script.listing_renumbered _ _).symm).1⟩

end Scripts

end SignalScript
