import SignalScript.Proofs.Route.ConfigForm
import SignalScript.Proofs.Text.Cutting

/-!
# Reading written configurations

The splitter of arguments undoes the quotation of every text, and the lines of a configuration are
read one by one: what a directive states is added to the configuration, a malformed line is reported
with its number and changes nothing, and the other lines are passed over.

## Main results

* `Written.splitArguments_quoted_append` — arguments in quotes are found as they were before
* `two_le_length_splitArguments` — what a blank outside quotes separates is several arguments
* `Config.parseLines_configLines` — what is read from lines, and what is reported, line by line
* `Config.parse_configText` — a configuration is read from its text, with the numbers of the
  malformed lines
-/

namespace SignalScript

open Text

namespace Written

/-! ### Splitting arguments -/

section Splitting

variable {c : Char} {held text rest : Text} {inQuotes quoted : Bool}

theorem ne_of_isAsciiBlank {d : Char} (h : isAsciiBlank c = true) (hd : isAsciiBlank d = false) :
    c ≠ d := by
  rintro rfl
  rw [h] at hd
  cases hd

/-- A quotation mark opens or closes a quotation, and even an empty argument is one behind it. -/
theorem splitArgumentsAfter_quote (held rest : Text) (inQuotes quoted : Bool) :
    splitArgumentsAfter held inQuotes quoted ('"' :: rest) =
      splitArgumentsAfter held (!inQuotes) true rest := by
  rw [splitArgumentsAfter.eq_def]
  simp only [if_pos]

/-- In a quotation, the character behind a backslash is taken as it is. -/
theorem splitArgumentsAfter_backslash (c : Char) (held rest : Text) (quoted : Bool) :
    splitArgumentsAfter held true quoted ('\\' :: c :: rest) =
      splitArgumentsAfter (c :: held) true quoted rest := by
  rw [splitArgumentsAfter.eq_def]
  rfl

/-- A character that means nothing else belongs to the argument. -/
theorem splitArgumentsAfter_char (hquote : c ≠ '"') (hbackslash : c = '\\' → inQuotes = false)
    (hblank : isAsciiBlank c = true → inQuotes = true) (held rest : Text) (quoted : Bool) :
    splitArgumentsAfter held inQuotes quoted (c :: rest) =
      splitArgumentsAfter (c :: held) inQuotes quoted rest := by
  have hescape : ¬ (c = '\\' ∧ inQuotes = true) := fun ⟨hc, hin⟩ => by
    rw [hbackslash hc] at hin
    cases hin
  have hinside : ¬ (isAsciiBlank c && !inQuotes) = true := by simpa using hblank
  rw [splitArgumentsAfter.eq_def]
  simp only [if_neg hquote, if_neg hescape, if_neg hinside]

/-- A blank outside quotes ends what is held. -/
theorem splitArgumentsAfter_blank (h : isAsciiBlank c = true) (held rest : Text) (quoted : Bool) :
    splitArgumentsAfter held false quoted (c :: rest) =
      emitArgument held quoted (splitArgumentsAfter [] false false rest) := by
  have hquote : c ≠ '"' := ne_of_isAsciiBlank h rfl
  rw [splitArgumentsAfter.eq_def]
  simp [hquote, h]

/-- So a character comes back as it was before it was escaped. -/
theorem splitArgumentsAfter_escaped (c : Char) (held rest : Text) (quoted : Bool) :
    splitArgumentsAfter held true quoted (escaped c ++ rest) =
      splitArgumentsAfter (c :: held) true quoted rest := by
  rw [escaped]
  split
  · rfl
  · rename_i hplain
    obtain ⟨hquote, hbackslash⟩ := not_or.mp hplain
    exact splitArgumentsAfter_char hquote (fun hc => absurd hc hbackslash) (fun _ => rfl) _ _ _

/-- In quotes the splitter takes what was escaped as it was before. -/
theorem splitArgumentsAfter_flatMap_escaped (text held rest : Text) (quoted : Bool) :
    splitArgumentsAfter held true quoted (text.flatMap escaped ++ rest) =
      splitArgumentsAfter (text.reverse ++ held) true quoted rest := by
  induction text generalizing held with
  | nil => rfl
  | cons c text ih =>
    rw [List.flatMap_cons, List.append_assoc, splitArgumentsAfter_escaped, ih,
      List.reverse_cons, List.append_assoc, List.singleton_append]

/-- Behind a quotation the splitter holds the text that was quoted. -/
theorem splitArgumentsAfter_quoted (text rest : Text) :
    splitArgumentsAfter [] false false (Written.quoted text ++ rest) =
      splitArgumentsAfter text.reverse false true rest := by
  rw [Written.quoted, List.cons_append, List.append_assoc, List.singleton_append,
    splitArgumentsAfter_quote, Bool.not_false, splitArgumentsAfter_flatMap_escaped,
    List.append_nil, splitArgumentsAfter_quote, Bool.not_true]

theorem splitArgumentsAfter_blanks {blanks : Text} (h : ∀ c ∈ blanks, isAsciiBlank c = true)
    (rest : Text) :
    splitArgumentsAfter [] false false (blanks ++ rest) =
      splitArgumentsAfter [] false false rest := by
  induction blanks with
  | nil => rfl
  | cons c blanks ih =>
    obtain ⟨hc, hblanks⟩ := List.forall_mem_cons.mp h
    rw [List.cons_append, splitArgumentsAfter_blank hc, ih hblanks]
    rfl

theorem splitArgumentsAfter_gap (gap : Gap) (held rest : Text) (quoted : Bool) :
    splitArgumentsAfter held false quoted (gap.text ++ rest) =
      emitArgument held quoted (splitArgumentsAfter [] false false rest) := by
  obtain ⟨c, blanks, hgap⟩ := List.exists_cons_of_ne_nil gap.ne_nil
  have hblanks := gap.isAsciiBlank_of_mem
  rw [hgap] at hblanks ⊢
  obtain ⟨hc, hblanks⟩ := List.forall_mem_cons.mp hblanks
  rw [List.cons_append, splitArgumentsAfter_blank hc, splitArgumentsAfter_blanks hblanks]

/-- Arguments are split at the blanks between them and come back unquoted. -/
theorem splitArgumentsAfter_flatMap (arguments : List QuotedArgument) (held : Text) :
    splitArgumentsAfter held false true (arguments.flatMap QuotedArgument.text) =
      held.reverse :: arguments.map fun argument => argument.value.text := by
  induction arguments generalizing held with
  | nil => simp [splitArgumentsAfter, emitArgument]
  | cons argument arguments ih =>
    rw [List.flatMap_cons, QuotedArgument.text, List.append_assoc, splitArgumentsAfter_gap,
      splitArgumentsAfter_quoted, ih, List.reverse_reverse]
    simp [emitArgument]

/-- Arguments in quotes are found as they were before. -/
theorem splitArguments_quoted_append (text : Text) (arguments : List QuotedArgument) :
    splitArguments (Written.quoted text ++ arguments.flatMap QuotedArgument.text) =
      text :: arguments.map fun argument => argument.value.text := by
  rw [splitArguments, splitArgumentsAfter_quoted, splitArgumentsAfter_flatMap,
    List.reverse_reverse]

/-! ### Several arguments -/

theorem emitArgument_eq_append (held : Text) (quoted : Bool) (more : List Text) :
    emitArgument held quoted more = emitArgument held quoted [] ++ more := by
  rw [emitArgument, emitArgument]
  split <;> rfl

theorem emitArgument_cons (c : Char) (held : Text) (quoted : Bool) :
    emitArgument (c :: held) quoted [] = [(c :: held).reverse] := rfl

theorem emitArgument_true (held : Text) : emitArgument held true [] = [held.reverse] := by
  simp [emitArgument]

theorem length_emitArgument_le (held : Text) (quoted : Bool) :
    (emitArgument held quoted []).length ≤ 1 := by
  rw [emitArgument]
  split <;> simp

/-- What is held, or stands outside quotes and is no blank, ends up in an argument. -/
theorem splitArgumentsAfter_ne_nil (h : emitArgument held quoted [] ≠ [] ∨
    inQuotes = false ∧ ∃ d ∈ text, isAsciiBlank d = false) :
    splitArgumentsAfter held inQuotes quoted text ≠ [] := by
  fun_induction splitArgumentsAfter held inQuotes quoted text with
  | case1 held inQuotes quoted => exact h.resolve_right fun ⟨_, _, hd, _⟩ => nomatch hd
  | case2 held inQuotes quoted rest ih =>
    exact ih (.inl (by simp [emitArgument_true]))
  | case3 held inQuotes quoted c hquote hescape =>
    exact h.resolve_right fun ⟨hin, _⟩ => nomatch hin.symm.trans hescape.2
  | case4 held inQuotes quoted c hquote hescape d rest ih =>
    exact ih (.inl (List.cons_ne_nil _ _))
  | case5 held inQuotes quoted c rest hquote hescape hblank ih =>
    obtain ⟨hc, hin⟩ := (Bool.and_eq_true _ _).mp hblank
    rw [emitArgument_eq_append]
    rcases h with hheld | ⟨-, d, hd, hplain⟩
    · exact List.append_ne_nil_of_left_ne_nil hheld _
    · -- The character that is no blank stands further behind.
      have hbehind : d ∈ rest := (List.mem_cons.mp hd).resolve_left fun heq => by
        rw [heq, hc] at hplain
        cases hplain
      exact List.append_ne_nil_of_right_ne_nil _
        (ih (.inr ⟨by simpa using hin, d, hbehind, hplain⟩))
  | case6 held inQuotes quoted c rest hquote hescape hblank ih =>
    exact ih (.inl (List.cons_ne_nil _ _))

/-- A blank outside quotes ends the arguments in front of it, and those behind it are others. -/
theorem le_length_splitArgumentsAfter (held : Text) (quoted : Bool) {front back : Text}
    (hc : isAsciiBlank c = true)
    (hopen : leavesQuoteOpen inQuotes front = false) :
    (emitArgument held quoted []).length + (splitArgumentsAfter [] false false back).length ≤
      (splitArgumentsAfter held inQuotes quoted (front ++ c :: back)).length := by
  have hheld := length_emitArgument_le held quoted
  fun_induction leavesQuoteOpen inQuotes front generalizing held quoted with
  | case1 d rest ih =>
    -- The escaped character is held, whatever it is.
    have hrest := ih (d :: held) quoted hopen (length_emitArgument_le _ _)
    rw [emitArgument_cons] at hrest
    rw [List.cons_append, List.cons_append, splitArgumentsAfter_backslash]
    exact Nat.le_trans (Nat.add_le_add_right hheld _) hrest
  | case2 inQuotes d rest hescape ih =>
    rw [List.cons_append]
    by_cases hquote : d = '"'
    · subst hquote
      rw [if_pos rfl] at hopen
      have hrest := ih held true hopen (length_emitArgument_le _ _)
      rw [if_pos rfl, emitArgument_true] at hrest
      rw [splitArgumentsAfter_quote]
      exact Nat.le_trans (Nat.add_le_add_right hheld _) hrest
    · rw [if_neg hquote] at hopen ih
      by_cases hblank : isAsciiBlank d = true ∧ inQuotes = false
      · -- A blank outside quotes ends what is held, so it can only add to the count.
        obtain ⟨hd, rfl⟩ := hblank
        have hrest := ih [] false hopen (length_emitArgument_le _ _)
        rw [splitArgumentsAfter_blank hd, emitArgument_eq_append held quoted
          (splitArgumentsAfter [] false false (rest ++ c :: back)), List.length_append]
        exact Nat.add_le_add_left (Nat.le_trans (Nat.le_add_left _ _) hrest) _
      · -- A backslash in quotes would stand at the end, and leave them open.
        have hbackslash : d = '\\' → inQuotes = false := by
          rintro rfl
          by_contra hin
          rw [Bool.not_eq_false] at hin
          cases rest with
          | nil => rw [hin] at hopen; cases hopen
          | cons e rest => exact hescape e rest hin rfl rfl
        have hrest := ih (d :: held) quoted hopen (length_emitArgument_le _ _)
        rw [emitArgument_cons] at hrest
        rw [splitArgumentsAfter_char hquote hbackslash fun hd => by simpa [hd] using hblank]
        exact Nat.le_trans (Nat.add_le_add_right hheld _) hrest
  | case3 inQuotes =>
    -- The blank in question is reached outside quotes.
    obtain rfl : inQuotes = false := hopen
    rw [List.nil_append, splitArgumentsAfter_blank hc, emitArgument_eq_append held quoted
      (splitArgumentsAfter [] false false back), List.length_append]

theorem isAsciiBlank_eq_false (h : isBlank c = false) : isAsciiBlank c = false := by
  by_contra hblank
  rw [isBlank_of_isAsciiBlank (Bool.not_eq_false _ ▸ hblank)] at h
  cases h

/-- A character that is no blank begins an argument. -/
theorem lt_length_splitArgumentsAfter {d : Char} {front : Text} (back : Text)
    (hc : isAsciiBlank c = true) (hd : isBlank d = false)
    (hopen : leavesQuoteOpen false (d :: front) = false) :
    (splitArgumentsAfter [] false false back).length <
      (splitArgumentsAfter [] false false (d :: (front ++ c :: back))).length := by
  rw [leavesQuoteOpen.eq_2 false d front fun _ _ h => nomatch h] at hopen
  rw [Nat.lt_iff_add_one_le, Nat.add_comm]
  by_cases hquote : d = '"'
  · subst hquote
    rw [if_pos rfl] at hopen
    rw [splitArgumentsAfter_quote]
    exact le_length_splitArgumentsAfter [] true hc hopen
  · rw [if_neg hquote] at hopen
    rw [splitArgumentsAfter_char hquote (fun _ => rfl) fun hblank => by
      rw [isAsciiBlank_eq_false hd] at hblank
      cases hblank]
    exact le_length_splitArgumentsAfter [d] false hc hopen

/-- What a blank outside quotes separates is several arguments. -/
theorem two_le_length_splitArguments (h : HoldsSeveral text) :
    2 ≤ (splitArguments (trim text)).length := by
  obtain ⟨front, c, back, htext, hc, hopen⟩ := h
  have hne : trim text ≠ [] := by
    rw [htext]
    exact List.append_ne_nil_of_right_ne_nil _ (List.cons_ne_nil _ _)
  have htight : IsTight (front ++ c :: back) := htext ▸ ⟨hne, trim_trim text⟩
  -- The first character is none of the blanks, nor is the last.
  cases front with
  | nil =>
    have hfirst := htight.head_not_blank
    rw [isBlank_of_isAsciiBlank hc] at hfirst
    cases hfirst
  | cons d front =>
    have hback : splitArgumentsAfter [] false false back ≠ [] := by
      have hsuffix : c :: back <:+ (d :: front) ++ c :: back := List.suffix_append _ _
      have hlast := htight.getLast_not_blank hsuffix (List.cons_ne_nil _ _)
      cases back with
      | nil =>
        rw [List.getLast_singleton, isBlank_of_isAsciiBlank hc] at hlast
        cases hlast
      | cons e back =>
        rw [List.getLast_cons (List.cons_ne_nil _ _)] at hlast
        exact splitArgumentsAfter_ne_nil
          (.inr ⟨rfl, _, List.getLast_mem _, isAsciiBlank_eq_false hlast⟩)
    have hfront := lt_length_splitArgumentsAfter back hc htight.head_not_blank hopen
    rw [htext, splitArguments]
    exact Nat.lt_of_le_of_lt (List.length_pos_iff.mpr hback) hfront

end Splitting

/-! ### Reading a line -/

section Lines

variable {line word behind : Text}

/-- The word behind the slash is the directive, and what follows it are the arguments. -/
theorem directive?_of_trim (h : trim line = '/' :: (word ++ behind))
    (hword : ∀ c ∈ word, isAsciiBlank c = false)
    (hbehind : ∀ c ∈ behind.head?, isAsciiBlank c = true) :
    Config.directive? line = some (asciiLower word, splitArguments (trim behind)) := by
  rw [Config.directive?, h]
  cases behind with
  | nil =>
    simp only [List.append_nil, cutWhere?_eq_none hword]
    rfl
  | cons c behind =>
    have hc := hbehind c rfl
    simp only [cutWhere?_append_cons hword hc, trim_cons_of_blank (isBlank_of_isAsciiBlank hc)]

theorem directive?_eq_none (h : (trim line).head? ≠ some '/') : Config.directive? line = none := by
  rw [Config.directive?]
  split
  · rename_i rest hrest
    rw [hrest] at h
    exact absurd rfl h
  · rfl

theorem isTight_opening {directive : Directive} (opening : Opening directive) :
    IsTight ('/' :: opening.spelling) := by
  have hall : ∀ c ∈ '/' :: opening.spelling, isBlank c = false :=
    List.forall_mem_cons.mpr ⟨rfl, fun _ => opening.isBlank_of_mem_spelling⟩
  have hne : '/' :: opening.spelling ≠ [] := List.cons_ne_nil _ _
  exact isTight_iff.mpr ⟨_, _, List.head?_eq_some_head hne, List.getLast?_eq_some_getLast hne,
    hall _ (List.head_mem hne), hall _ (List.getLast_mem hne)⟩

theorem directive?_bare {directive : Directive} (opening : Opening directive) (margin : Margin) :
    Config.directive? (opening.text ++ margin.text) = some (directive.word, []) := by
  have htrim : trim (opening.text ++ margin.text) = '/' :: (opening.spelling ++ []) := by
    rw [Opening.text, List.append_assoc,
      trim_pad opening.indent.isBlank_of_mem margin.isBlank_of_mem,
      (isTight_opening opening).trim_eq, List.append_nil]
  rw [directive?_of_trim htrim
    (fun _ hc => isAsciiBlank_eq_false (opening.isBlank_of_mem_spelling hc))
    (fun _ hc => absurd hc (Option.not_mem_none _)), opening.isSpelling]
  rfl

/-- What stands behind a directive and a gap, without the blanks around it, are the arguments. -/
theorem directive?_gap {directive : Directive} (opening : Opening directive) (gap : Gap)
    {rest : Text} (hrest : trim rest ≠ []) :
    Config.directive? (opening.text ++ (gap.text ++ rest)) =
      some (directive.word, splitArguments (trim rest)) := by
  obtain ⟨front, back, hfront, hback, hpad⟩ := exists_pad rest
  have hgap : ∀ c ∈ gap.text ++ front, isBlank c = true := List.forall_mem_append.mpr
    ⟨fun c hc => isBlank_of_isAsciiBlank (gap.isAsciiBlank_of_mem c hc), hfront⟩
  have htight : IsTight ('/' :: (opening.spelling ++ (gap.text ++ front ++ trim rest))) := by
    have hslash : IsTight ['/'] := IsTight.single rfl
    have hends := hslash.append ⟨hrest, trim_trim rest⟩ (opening.spelling ++ (gap.text ++ front))
    simpa using hends
  have htrim : trim (opening.text ++ (gap.text ++ rest)) =
      '/' :: (opening.spelling ++ (gap.text ++ front ++ trim rest)) := by
    -- The blanks at the ends of the line are those of the opening and of the rest.
    have hline : opening.text ++ (gap.text ++ rest) = opening.indent.text ++
        ('/' :: (opening.spelling ++ (gap.text ++ front ++ trim rest)) ++ back) := by
      nth_rewrite 1 [hpad]
      simp [Opening.text]
    rw [hline, trim_pad opening.indent.isBlank_of_mem hback, htight.trim_eq]
  have hbehind : trim (gap.text ++ front ++ trim rest) = trim rest := by
    have hnone : ∀ c ∈ ([] : Text), isBlank c = true := fun _ hc => absurd hc List.not_mem_nil
    rw [← List.append_nil (trim rest), trim_pad hgap hnone, trim_trim, List.append_nil]
  rw [directive?_of_trim htrim (fun _ hc => isAsciiBlank_eq_false
    (opening.isBlank_of_mem_spelling hc)) ?_, opening.isSpelling, hbehind]
  intro c hc
  obtain ⟨d, blanks, hgaps⟩ := List.exists_cons_of_ne_nil gap.ne_nil
  rw [hgaps] at hc
  obtain rfl := Option.some.inj hc
  exact gap.isAsciiBlank_of_mem _ (hgaps ▸ List.mem_cons_self)

theorem isTight_quoted_append (text : Text) (arguments : List QuotedArgument) :
    IsTight (quoted text ++ arguments.flatMap QuotedArgument.text) := by
  have hquoted (text : Text) : IsTight (quoted text) := by
    have hmark : IsTight ['"'] := IsTight.single rfl
    simpa [quoted] using hmark.append hmark (text.flatMap escaped)
  -- Behind a tight text, an argument is a gap and a quotation.
  have hbehind {front : Text} (hfront : IsTight front) :
      IsTight (front ++ arguments.flatMap QuotedArgument.text) := by
    induction arguments generalizing front with
    | nil => simpa using hfront
    | cons argument arguments ih =>
      have hnext := ih (hfront.append (hquoted argument.value.text) argument.gap.text)
      simpa [QuotedArgument.text] using hnext
  exact hbehind (hquoted text)

/-- The word of a directive and its arguments come back from a line that states them. -/
theorem directive?_stating {directive : Directive} (opening : Opening directive)
    (first : QuotedArgument) (more : List QuotedArgument) (margin : Margin) :
    Config.directive?
        (opening.text ++ ((first :: more).flatMap QuotedArgument.text ++ margin.text)) =
      some (directive.word, (first :: more).map fun argument => argument.value.text) := by
  have htight := isTight_quoted_append first.value.text more
  have htrim : trim (quoted first.value.text ++ more.flatMap QuotedArgument.text ++ margin.text) =
      quoted first.value.text ++ more.flatMap QuotedArgument.text := by
    have hnone : ∀ c ∈ ([] : Text), isBlank c = true := fun _ hc => absurd hc List.not_mem_nil
    exact (trim_pad hnone margin.isBlank_of_mem).trans htight.trim_eq
  have hline : opening.text ++ ((first :: more).flatMap QuotedArgument.text ++ margin.text) =
      opening.text ++ (first.gap.text ++
        (quoted first.value.text ++ more.flatMap QuotedArgument.text ++ margin.text)) := by
    simp [QuotedArgument.text]
  rw [hline, directive?_gap opening first.gap (by rw [htrim]; exact htight.ne_nil), htrim,
    splitArguments_quoted_append]
  rfl

end Lines

end Written

/-! ### Reading lines -/

namespace Config

open Written (ConfigLine Directive configText)

/-- The configuration after a line, or what is wrong with the line. -/
def after (config : Config) (line : Text) : Except ConfigCause Config :=
  match directive? line with
  | none => .ok config
  | some (directive, arguments) => config.apply directive arguments

/-- The configuration with what a line states. -/
def adding (config : Config) (line : ConfigLine) : Config :=
  ⟨(line.stated .routeDir).getLast?.or config.routeDir,
    config.signalTypes ++ line.stated .signalType, config.scriptFiles ++ line.stated .scriptFile⟩

section Steps

variable {config next : Config} {number : Nat} {line : Text} {rest : List Text}
  {cause : ConfigCause}

theorem parseLines_cons_of_ok (h : config.after line = .ok next) :
    parseLines config number (line :: rest) = parseLines next (number + 1) rest := by
  rw [parseLines]
  cases hline : directive? line with
  | none =>
    rw [after, hline] at h
    obtain rfl := Except.ok.inj h
    rfl
  | some pair =>
    simp only [after, hline] at h
    simp only [h]

/-- A malformed line is reported under its number and changes nothing. -/
theorem parseLines_cons_of_error (h : config.after line = .error cause) :
    parseLines config number (line :: rest) =
      ⟨(parseLines config (number + 1) rest).value,
        ⟨number, cause⟩ :: (parseLines config (number + 1) rest).notes⟩ := by
  rw [parseLines]
  cases hline : directive? line with
  | none =>
    rw [after, hline] at h
    cases h
  | some pair =>
    simp only [after, hline] at h
    simp only [h]
    rfl

/-- An unknown directive is passed over. -/
theorem apply_of_unknown {word : Text} (h : ∀ directive : Directive, word ≠ directive.word)
    (arguments : List Text) : config.apply word arguments = .ok config := by
  have hroute : word ≠ "routedir".toList := h .routeDir
  have htype : word ≠ "signaltype".toList := h .signalType
  have hfile : word ≠ "scriptfile".toList := h .scriptFile
  rw [apply.eq_def, if_neg hroute, if_neg htype, if_neg hfile]

/-- A malformed line is wrong whatever the configuration. -/
theorem exists_after_of_isMalformed (config : Config) {line : ConfigLine}
    (h : line.isMalformed = true) : ∃ cause, config.after line.text = .error cause := by
  cases line with
  | bare directive opening margin =>
    rw [ConfigLine.text, after, Written.directive?_bare]
    cases directive <;> exact ⟨_, rfl⟩
  | crowded opening gap arguments several =>
    have hlength := Written.two_le_length_splitArguments several
    -- Two arguments are not made of nothing.
    have hne : trim arguments.text ≠ [] := by
      intro hnil
      rw [hnil] at hlength
      cases hlength
    rw [ConfigLine.text, after, Written.directive?_gap opening gap hne]
    rcases harguments : splitArguments (trim arguments.text) with _ | ⟨_, _ | _⟩
    · rw [harguments] at hlength
      cases hlength
    · rw [harguments] at hlength
      exact absurd hlength (Nat.not_succ_le_self 1)
    · exact ⟨_, rfl⟩
  | _ => cases h

/-- Another line adds what it states. -/
theorem after_text {line : ConfigLine} (h : line.isMalformed = false) :
    config.after line.text = .ok (config.adding line) := by
  -- What states nothing adds nothing.
  have hnone {line : ConfigLine} (hline : ∀ directive, line.stated directive = []) :
      config.adding line = config := by
    simp [adding, hline]
  cases line with
  | blank margin =>
    have htrim : trim margin.text = [] := trim_eq_nil_iff.mpr margin.isBlank_of_mem
    rw [ConfigLine.text, after, Written.directive?_eq_none (by simp [htrim]), hnone fun _ => rfl]
  | comment indent behind =>
    have hstart : trimStart (';' :: behind.text) = ';' :: behind.text :=
      List.dropWhile_cons_of_neg (by decide)
    have hmark : isBlank ';' = false := rfl
    have htrim : trim (indent.text ++ ';' :: behind.text) = ';' :: trimEnd behind.text := by
      rw [trim, trimStart_append_of_blank indent.isBlank_of_mem, hstart, trimEnd_cons, hmark,
        Bool.and_false, if_neg Bool.false_ne_true]
    rw [ConfigLine.text, after, Written.directive?_eq_none (by simp [htrim]), hnone fun _ => rfl]
  | unknown line isUnknown =>
    rw [ConfigLine.text, hnone fun _ => rfl]
    obtain ⟨word, behind, htrim, hword, hbehind, hunknown⟩ := isUnknown
    rw [after, Written.directive?_of_trim htrim hword hbehind]
    exact apply_of_unknown hunknown _
  | stating directive opening first more single margin =>
    rw [ConfigLine.text, after, Written.directive?_stating]
    cases directive with
    | routeDir =>
      obtain rfl := single rfl
      have happly (directory : Text) : config.apply Directive.routeDir.word [directory] =
          .ok { config with routeDir := some directory } := rfl
      refine (happly _).trans ?_
      simp [adding, ConfigLine.stated]
    | signalType =>
      have happly (name : Text) (names : List Text) :
          config.apply Directive.signalType.word (name :: names) =
            .ok { config with signalTypes := config.signalTypes ++ name :: names } := rfl
      refine (happly _ _).trans ?_
      simp [adding, ConfigLine.stated]
    | scriptFile =>
      have happly (file : Text) (files : List Text) :
          config.apply Directive.scriptFile.word (file :: files) =
            .ok { config with scriptFiles := config.scriptFiles ++ file :: files } := rfl
      refine (happly _ _).trans ?_
      simp [adding, ConfigLine.stated]
  | _ => cases h

end Steps

/-- Every line adds what it states, and a malformed line is reported. -/
theorem parseLines_configLines (lines : List ConfigLine) (config : Config) (number : Nat) :
    (parseLines config number (lines.map ConfigLine.text)).value =
        ⟨(lines.flatMap (ConfigLine.stated .routeDir)).getLast?.or config.routeDir,
          config.signalTypes ++ lines.flatMap (ConfigLine.stated .signalType),
          config.scriptFiles ++ lines.flatMap (ConfigLine.stated .scriptFile)⟩ ∧
      (parseLines config number (lines.map ConfigLine.text)).notes.map ConfigError.line =
        ((lines.zipIdx number).filter fun line => line.1.isMalformed).map Prod.snd := by
  induction lines generalizing config number with
  | nil => simp [parseLines]
  | cons line lines ih =>
    rw [List.map_cons, List.zipIdx_cons]
    cases hline : line.isMalformed with
    | true =>
      obtain ⟨cause, hcause⟩ := exists_after_of_isMalformed config hline
      obtain ⟨hvalue, hnotes⟩ := ih config (number + 1)
      -- A malformed line states nothing.
      have hnone (directive : Directive) : line.stated directive = [] := by
        cases line <;> first | rfl | cases hline
      rw [parseLines_cons_of_error hcause, hvalue, List.map_cons, hnotes]
      simp [hnone, hline]
    | false =>
      obtain ⟨hvalue, hnotes⟩ := ih (config.adding line) (number + 1)
      rw [parseLines_cons_of_ok (after_text hline), hvalue, hnotes]
      simp [adding, hline, Option.or_assoc]

/-- A configuration is read from its lines, however they are written: the route directory, the
signal types and the script files that they state, in order, with one error for each malformed line,
in order, that has the number of the line. -/
theorem parse_configText {lines : List ConfigLine} {directory : Option Text}
    {names files : List Text}
    (hdirectory : lines.flatMap (ConfigLine.stated .routeDir) = directory.toList)
    (hnames : lines.flatMap (ConfigLine.stated .signalType) = names)
    (hfiles : lines.flatMap (ConfigLine.stated .scriptFile) = files) :
    (parse (configText lines)).value = ⟨directory, names, files⟩ ∧
      (parse (configText lines)).notes.map ConfigError.line =
        ((lines.zipIdx 1).filter fun line => line.1.isMalformed).map Prod.snd := by
  -- A text without lines is an empty line.
  have hparse : parse (configText lines) = parseLines empty 1 (lines.map ConfigLine.text) := by
    by_cases hnil : lines = []
    · rw [hnil]
      rfl
    · rw [parse, configText, pieces_joinedBy (by simpa using hnil)]
      simpa using fun line _ => line.lineFeed_notMem_text
  obtain ⟨hvalue, hnotes⟩ := parseLines_configLines lines empty 1
  rw [hparse, hvalue, hnotes, hdirectory, hnames, hfiles]
  cases directory <;> exact ⟨rfl, rfl⟩

section Sample

/-- A route directory with all that has to be escaped, two names, one of them empty, and a malformed
line of either kind. -/
def sampleLines : List ConfigLine :=
  let none : Written.Margin := ⟨⟨[], by decide⟩, List.forall_mem_nil _⟩
  let space : Written.Gap := ⟨⟨[' '], by decide⟩, by decide, List.forall_mem_singleton.mpr rfl⟩
  [.bare .signalType ⟨none, "SignalType".toList, by decide⟩
      ⟨⟨[' ', '\r'], by decide⟩, List.all_eq_true.mp rfl⟩,
    .stating .routeDir ⟨none, "ROUTEDIR".toList, by decide⟩
      ⟨space, ⟨"a \\\"b ".toList, by decide⟩⟩ [] (fun _ => rfl) none,
    .comment none ⟨" /scriptfile \"x\"".toList, by decide⟩,
    .crowded ⟨none, "routedir".toList, by decide⟩ space ⟨"c \"d".toList, by decide⟩
      ⟨['c'], ' ', "\"d".toList, by decide, rfl, rfl⟩,
    .stating .signalType ⟨none, "signaltype".toList, by decide⟩ ⟨space, ⟨[], by decide⟩⟩
      [⟨space, ⟨"UK Home".toList, by decide⟩⟩] (fun h => nomatch h) none]

theorem parse_configText_sampleLines :
    (parse (configText sampleLines)).value =
        ⟨some "a \\\"b ".toList, [[], "UK Home".toList], []⟩ ∧
      (parse (configText sampleLines)).notes.map ConfigError.line = [1, 4] :=
  parse_configText rfl rfl rfl

example : configText sampleLines =
    ("/SignalType \r\n/ROUTEDIR \"a \\\\\\\"b \"\n; /scriptfile \"x\"\n" ++
      "/routedir c \"d\n/signaltype \"\" \"UK Home\"").toList := by decide

end Sample

end Config

end SignalScript
