import Mathlib.Data.List.Basic
import SignalScript.Proofs.Text.CaseRuns

/-!
# The tables of letter case

The small letters with a single capital and the capitals with a single small letter, those of ASCII
among them, and what is true of all of them. Most small letters come back from their capitals; those
that share a capital with another letter do not.

## Main definitions

* `smallRuns`, `capitalRuns` — the small letters with a single capital, and the capitals
* `sharedLetters` — the small letters whose capital is that of another letter
* `capitalOf`, `smallOf` — the other case of a character that has one character for it

## Main results

* `upperOf_of_lookup`, `lowerOf_of_ne` — the tables give the other case of all characters
* `upperOf_eq_or_exists_run`, `shiftedAt_image` — what the capital of a letter is, and the small
  letter of the capital
* `inRanges_of_mem_upperOf` — where the capitals of a character may lie
* `not_mem_upper` — a text has the same lines in capitals as before
-/

namespace SignalScript.Text

/-! ### Runs of letters -/

/-- The small letters with a single capital. -/
def smallRuns : List CaseRun := ⟨0x61, 0x7A, 1, -32⟩ :: toUpperRuns

/-- The capitals with a single small letter. -/
def capitalRuns : List CaseRun := ⟨0x41, 0x5A, 1, 32⟩ :: toLowerRuns

/-- The small letters that share their only capital with another small letter, and are not the one
that it is written with; the final sigma, which is for some places, is left out. -/
def sharedLetters : List Nat :=
  [0x00B5, 0x0131, 0x017F, 0x0345, 0x03D0, 0x03D1, 0x03D5, 0x03D6, 0x03F0, 0x03F1, 0x03F5,
    0x1C80, 0x1C81, 0x1C82, 0x1C83, 0x1C84, 0x1C85, 0x1C86, 0x1C87, 0x1C88, 0x1E9B, 0x1FBE]

/-- The letters of the run are no capitals, and their capitals have them for small letters. -/
def CaseRun.isUndone (run : CaseRun) (table : List CaseRun) : Bool :=
  run.clears table &&
    (runAt (run.image run.first) capitalRuns).any fun capitals =>
      run.images.isPartOf capitals && capitals.shift == -run.shift

/-- The capitals of the run are capitals, and unless they are shared with other letters, the small
letters of both are the same. -/
def CaseRun.isPaired (run : CaseRun) : Bool :=
  run.points.all fun n =>
    (runAt (run.image n) capitalRuns).isSome && (sharedLetters.contains n || n == 0x3C2 ||
      shiftedAt capitalRuns (run.image n) == shiftedAt capitalRuns n)

/-- The capitals stand in ascending order, below the code points that are no characters. -/
theorem capitalRuns_checked : capitalRuns.IsChain CaseRun.Precedes ∧ ∀ run ∈ capitalRuns,
    run.last < 0xD800 ∨ 0xDFFF < run.first ∧ run.last < 0x110000 := by
  decide +kernel

/-- The small letters stand in ascending order, and all runs are undone but those of a few. -/
theorem smallRuns_checked : smallRuns.IsChain CaseRun.Precedes ∧
    (∀ run ∈ smallRuns, 0 ≤ run.first + run.shift) ∧
      sweep (fun run table => run.isUndone table || run.isPaired) smallRuns capitalRuns = true := by
  decide +kernel

section Letters

variable {run : CaseRun} {c d : Char} {n : Nat}

theorem isChain_capitalRuns : capitalRuns.IsChain CaseRun.Precedes := capitalRuns_checked.1

theorem isChain_smallRuns : smallRuns.IsChain CaseRun.Precedes := smallRuns_checked.1

/-- The capitals begin with those of ASCII. -/
theorem le_first_of_mem_capitalRuns (h : run ∈ capitalRuns) : 0x41 ≤ run.first := by
  rcases List.mem_cons.mp h with rfl | h
  · exact Nat.le_refl _
  · have hfirst := (CaseRun.precedes_of_mem isChain_capitalRuns h).2
    exact Nat.le_trans (by decide) hfirst.le

theorem shift_of_mem_smallRuns : ∀ run ∈ smallRuns, 0 ≤ run.first + run.shift :=
  smallRuns_checked.2.1

theorem isUndone_or_isPaired (hrun : run ∈ smallRuns) :
    run.isUndone capitalRuns = true ∨ run.isPaired = true := by
  have hp : IgnoresBelow fun run table => run.isUndone table || run.isPaired := by
    intro run table first hfirst h
    simp only [CaseRun.isUndone, Bool.or_eq_true, Bool.and_eq_true] at h ⊢
    exact h.imp_left (And.imp_left (ignoresBelow_clears run table first hfirst))
  exact (Bool.or_eq_true _ _).mp
    (all_of_sweep hp isChain_smallRuns smallRuns_checked.2.2 run hrun)

/-- The capital of a small letter is a capital. -/
theorem exists_capitalRun (hrun : run ∈ smallRuns) (hn : run.holds n = true) :
    ∃ capitals ∈ capitalRuns, capitals.holds (run.image n) = true := by
  rcases isUndone_or_isPaired hrun with h | h
  · rw [CaseRun.isUndone, Bool.and_eq_true] at h
    obtain ⟨capitals, hcapitals, hpart⟩ := (Option.any_eq_true _ _).mp h.2
    rw [Bool.and_eq_true] at hpart
    exact ⟨capitals, (mem_of_runAt hcapitals).1, CaseRun.holds_of_isPartOf hpart.1
      (CaseRun.holds_images (shift_of_mem_smallRuns run hrun) hn)⟩
  · have hpoint := List.all_eq_true.mp h n (CaseRun.mem_points_of_holds hn)
    rw [Bool.and_eq_true] at hpoint
    obtain ⟨capitals, hcapitals⟩ := Option.isSome_iff_exists.mp hpoint.1
    exact ⟨capitals, mem_of_runAt hcapitals⟩

/-- A letter that shares its capital with no other has the small letter of the capital. -/
theorem shiftedAt_image (hrun : run ∈ smallRuns) (hn : run.holds n = true)
    (hshared : n ∉ sharedLetters) (hsigma : n ≠ 0x3C2) :
    shiftedAt capitalRuns (run.image n) = shiftedAt capitalRuns n := by
  have hshift := shift_of_mem_smallRuns run hrun
  rcases isUndone_or_isPaired hrun with h | h
  · -- The capital is shifted back by as much, and the letter itself is no capital.
    rw [CaseRun.isUndone, Bool.and_eq_true] at h
    obtain ⟨capitals, hcapitals, hpart⟩ := (Option.any_eq_true _ _).mp h.2
    rw [Bool.and_eq_true, beq_iff_eq] at hpart
    have hholds := CaseRun.holds_of_isPartOf hpart.1 (CaseRun.holds_images hshift hn)
    have hself := not_holds_of_clears isChain_capitalRuns h.1 hn
    rw [shiftedAt_of_holds isChain_capitalRuns (mem_of_runAt hcapitals).1 hholds,
      shiftedAt_of_forall hself, CaseRun.image, CaseRun.image, hpart.2]
    have hfirst := (CaseRun.holds_iff.mp hn).1
    omega
  · have hpoint := List.all_eq_true.mp h n (CaseRun.mem_points_of_holds hn)
    simp only [Bool.and_eq_true, Bool.or_eq_true, List.contains_iff_mem, beq_iff_eq] at hpoint
    exact hpoint.2.resolve_left (not_or.mpr ⟨hshared, hsigma⟩)

/-! ### Characters -/

theorem toNat_ofNat_of_isValidChar (h : n.isValidChar) : (Char.ofNat n).toNat = n := by
  rw [Char.ofNat, dif_pos h]
  rfl

/-- A run of ASCII plays no part beyond. -/
theorem shiftedBy_cons_of_not_ascii {first : CaseRun} {runs : List CaseRun}
    (hfirst : first.last < 0x80) (h : ¬n < 0x80) :
    shiftedBy (first :: runs) n = shiftedBy runs n := by
  rw [shiftedBy, shiftedBy, List.find?_cons_of_neg]
  intro hholds
  have hhigh := (CaseRun.holds_iff.mp hholds).2.1
  omega

/-- The only capital of a character. -/
def capitalOf (c : Char) : Char := Char.ofNat (shiftedAt smallRuns c.toNat)

/-- The only small form of a character. -/
def smallOf (c : Char) : Char := Char.ofNat (shiftedAt capitalRuns c.toNat)

theorem upperOf_of_lookup (h : upperExpansions.lookup c.toNat = none) :
    upperOf c = [capitalOf c] := by
  rw [upperOf]
  split
  · rename_i hascii
    have hall : ∀ n < 0x80, (Char.ofNat n).toUpper = capitalOf (Char.ofNat n) := by decide
    have hupper := hall c.toNat hascii
    rw [Char.ofNat_toNat] at hupper
    rw [hupper]
  · rename_i hascii
    rw [h, capitalOf, ← shiftedBy_eq_shiftedAt isChain_smallRuns, smallRuns,
      shiftedBy_cons_of_not_ascii (by decide) hascii]

/-- A letter with several capitals has those that the table gives. -/
theorem upperOf_of_lookup_eq_some {capitals : List Nat}
    (h : upperExpansions.lookup c.toNat = some capitals) :
    (c.toNat, capitals) ∈ upperExpansions ∧ upperOf c = capitals.map Char.ofNat := by
  have hbeyond : ∀ entry ∈ upperExpansions, 0x80 ≤ entry.1 := by decide
  obtain ⟨before, after, hsplit, -⟩ := List.lookup_eq_some_iff.mp h
  have hentry : (c.toNat, capitals) ∈ upperExpansions := by simp [hsplit]
  have hnot : ¬c.toNat < 0x80 := Nat.not_lt.mpr (hbeyond _ hentry)
  exact ⟨hentry, by rw [upperOf, if_neg hnot, h]⟩

/-- Only one character has two for its small form. -/
theorem lowerOf_of_ne (h : c ≠ 'İ') : lowerOf c = [smallOf c] := by
  rw [lowerOf]
  split
  · rename_i hascii
    have hall : ∀ n < 0x80, (Char.ofNat n).toLower = smallOf (Char.ofNat n) := by decide
    have hlower := hall c.toNat hascii
    rw [Char.ofNat_toNat] at hlower
    rw [hlower]
  · rename_i hascii
    rw [smallOf, ← shiftedBy_eq_shiftedAt isChain_capitalRuns, capitalRuns,
      shiftedBy_cons_of_not_ascii (by decide) hascii]

theorem upper_cons (c : Char) (text : Text) : upper (c :: text) = upperOf c ++ upper text :=
  List.flatMap_cons

theorem upperOf_ne_nil (c : Char) : upperOf c ≠ [] := by
  cases hlookup : upperExpansions.lookup c.toNat with
  | some capitals =>
    have hall : ∀ entry ∈ upperExpansions, entry.2 ≠ [] := by decide
    obtain ⟨hentry, hupper⟩ := upperOf_of_lookup_eq_some hlookup
    simpa [hupper] using hall _ hentry
  | none =>
    rw [upperOf_of_lookup hlookup]
    exact List.cons_ne_nil _ _

theorem upper_ne_nil {text : Text} (h : text ≠ []) : upper text ≠ [] := by
  obtain ⟨c, text, rfl⟩ := List.exists_cons_of_ne_nil h
  rw [upper_cons]
  exact List.append_ne_nil_of_left_ne_nil (upperOf_ne_nil c) _

/-- A letter is its own capital, or it is in a run of letters with its capital at the distance of
the run. -/
theorem upperOf_eq_or_exists_run (h : upperExpansions.lookup c.toNat = none) :
    upperOf c = [c] ∨ ∃ run ∈ smallRuns, run.holds c.toNat = true ∧
      ∃ u : Char, upperOf c = [u] ∧ u.toNat = run.image c.toNat := by
  have hupper := upperOf_of_lookup h
  rw [capitalOf] at hupper
  rcases exists_run_or_shiftedAt_eq smallRuns c.toNat with ⟨run, hrun, hholds, himage⟩ | hself
  · refine .inr ⟨run, hrun, hholds, _, hupper, ?_⟩
    obtain ⟨capitals, hcapitals, hcapital⟩ := exists_capitalRun hrun hholds
    obtain ⟨hlow, hhigh, -⟩ := CaseRun.holds_iff.mp hcapital
    have hbounds := capitalRuns_checked.2 capitals hcapitals
    rw [himage]
    apply toNat_ofNat_of_isValidChar
    simp only [Nat.isValidChar]
    omega
  · rw [hself, Char.ofNat_toNat] at hupper
    exact .inl hupper

/-- The capitals of a character are those of a letter with several, the character itself, or in the
table. -/
theorem cases_of_mem_upperOf (h : d ∈ upperOf c) :
    (∃ entry ∈ upperExpansions, d ∈ entry.2.map Char.ofNat) ∨ d = c ∨
      ∃ capitals ∈ capitalRuns, capitals.holds d.toNat = true := by
  cases hlookup : upperExpansions.lookup c.toNat with
  | some capitals =>
    obtain ⟨hentry, hupper⟩ := upperOf_of_lookup_eq_some hlookup
    exact .inl ⟨_, hentry, hupper ▸ h⟩
  | none =>
    rcases upperOf_eq_or_exists_run hlookup with hself | ⟨run, hrun, hholds, u, hupper, hcode⟩
    · rw [hself, List.mem_singleton] at h
      exact .inr (.inl h)
    · rw [hupper, List.mem_singleton] at h
      exact .inr (.inr (h ▸ hcode ▸ exists_capitalRun hrun hholds))

/-- Ranges without capitals hold the capitals of a character only if they hold the character. -/
theorem inRanges_of_mem_upperOf {ranges : List CodeRange}
    (hranges : (rangeRuns ranges).IsChain CaseRun.Precedes)
    (hcapitals : sweep CaseRun.clears capitalRuns (rangeRuns ranges) = true)
    (hexpansions : ∀ entry ∈ upperExpansions, ∀ d ∈ entry.2.map Char.ofNat,
      inRanges ranges d = false)
    (h : inRanges ranges c = false) (hd : d ∈ upperOf c) : inRanges ranges d = false := by
  rcases cases_of_mem_upperOf hd with ⟨entry, hentry, hd⟩ | rfl | ⟨capitals, hmem, hcapital⟩
  · exact hexpansions entry hentry d hd
  · exact h
  · have hclears := all_of_sweep ignoresBelow_clears isChain_capitalRuns hcapitals capitals hmem
    exact inRanges_eq_false_iff.mpr (not_holds_of_clears hranges hclears hcapital)

end Letters

/-! ### Line feeds -/

section LineFeeds

variable {c : Char} {text : Text}

@[simp] theorem upper_append (front back : Text) :
    upper (front ++ back) = upper front ++ upper back :=
  List.flatMap_append

/-- The code point of a line feed belongs to no other character. -/
theorem eq_ten_of_ofNat {n : Nat} (h : Char.ofNat n = '\n') : n = 10 := by
  by_cases hn : n.isValidChar
  · rw [← toNat_ofNat_of_isValidChar hn, h]
    rfl
  · rw [Char.ofNat, dif_neg hn] at h
    cases h

/-- Only a line feed has a line feed as its capital form. -/
theorem not_mem_upperOf (h : c ≠ '\n') : '\n' ∉ upperOf c := by
  intro hmem
  have hexpansions : ∀ entry ∈ upperExpansions, 10 ∉ entry.2 := by decide
  rcases cases_of_mem_upperOf hmem with ⟨entry, hentry, hmem⟩ | hself | ⟨run, hrun, hholds⟩
  · obtain ⟨n, hn, hfeed⟩ := List.mem_map.mp hmem
    exact hexpansions entry hentry (eq_ten_of_ofNat hfeed ▸ hn)
  · exact h hself.symm
  · have hfirst := le_first_of_mem_capitalRuns hrun
    have hlow : run.first ≤ 10 := (CaseRun.holds_iff.mp hholds).1
    omega

/-- Capitals of a text without line feeds have none. -/
theorem not_mem_upper (h : '\n' ∉ text) : '\n' ∉ upper text := by
  intro hmem
  obtain ⟨c, hc, hupper⟩ := List.mem_flatMap.mp hmem
  exact not_mem_upperOf (fun heq => h (heq ▸ hc)) hupper

end LineFeeds

end SignalScript.Text
