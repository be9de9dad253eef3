import SignalScript.Proofs.Text.CaseTables

/-!
# From capitals back to small letters

A text in small letters comes back when it is put into capitals first, but not every text does:
some letters share their capital with another letter or have several capitals, and a small sigma
comes back in the form that its place in the word asks for. A text comes back if and only if it has
none of those letters and its small sigmas are in their places.

## Main definitions

* `oneWayLetters` — the letters that do not come back
* `sigmaAt` — the small sigma that a place asks for
* `comesBack` — every letter of a text comes back where it stands

## Main results

* `lowerOf_upperOf`, `exists_lowerOf_upperOf` — which letters come back, taken alone
* `lower_upper_iff` — which texts do
-/

namespace SignalScript.Text

/-! ### Letters -/

/-- The letters that do not come back from their capitals: those with several capitals, and those
whose capital is that of another letter. The final sigma is not among them: whether it comes back is
a matter of its place. -/
def oneWayLetters : List Nat := upperExpansions.map Prod.fst ++ sharedLetters

section Letters

variable {c : Char}

theorem lookup_of_not_mem_oneWayLetters {n : Nat} (h : n ∉ oneWayLetters) :
    upperExpansions.lookup n = none := by
  rw [List.lookup_eq_none_iff]
  intro entry hentry
  have hmem : entry.1 ∈ oneWayLetters :=
    List.mem_append_left _ (List.mem_map_of_mem hentry)
  simpa using fun heq : n = entry.1 => h (heq ▸ hmem)

/-- The capital with two characters for its small form is in no table. -/
theorem ne_of_holds {run : CaseRun} (hrun : run ∈ smallRuns ∨ run ∈ capitalRuns)
    (h : run.holds c.toNat = true) : c ≠ 'İ' := by
  rintro rfl
  have hnone : run.holds 0x130 = false := by
    rcases hrun with hrun | hrun
    · exact not_holds_of_runAt isChain_smallRuns (by decide) run hrun
    · exact not_holds_of_runAt isChain_capitalRuns (by decide) run hrun
  cases hnone.symm.trans h

/-- Most letters come back, taken alone. -/
theorem lowerOf_upperOf (h : c.toNat ∉ oneWayLetters) (hsigma : c ≠ 'ς') :
    (upperOf c).flatMap lowerOf = lowerOf c := by
  have hlookup := lookup_of_not_mem_oneWayLetters h
  rcases upperOf_eq_or_exists_run hlookup with hself | ⟨run, hrun, hholds, u, hupper, hcode⟩
  · rw [hself, List.flatMap_singleton]
  · obtain ⟨capitals, hcapitals, hcapital⟩ := exists_capitalRun hrun hholds
    have hne : c ≠ 'İ' := ne_of_holds (.inl hrun) hholds
    have hne' : u ≠ 'İ' := ne_of_holds (.inr hcapitals) (hcode ▸ hcapital)
    have hback := shiftedAt_image hrun hholds (fun hmem => h (List.mem_append_right _ hmem))
      fun heq => hsigma (Char.toNat_inj.mp heq)
    rw [hupper, List.flatMap_singleton, lowerOf_of_ne hne', lowerOf_of_ne hne, smallOf, smallOf,
      hcode, hback]

/-- The small letter of a first capital differs from a letter with several capitals, or with one
that is shared. -/
theorem oneWayLetters_checked :
    (∀ entry ∈ upperExpansions, 'Σ' ∉ entry.2.map Char.ofNat ∧
      (entry.2.head?.any fun m => Char.ofNat m != 'İ' &&
        smallOf (Char.ofNat m) != smallOf (Char.ofNat entry.1)) = true) ∧
    ∀ n ∈ sharedLetters, capitalOf (Char.ofNat n) ≠ 'İ' ∧
      smallOf (capitalOf (Char.ofNat n)) ≠ smallOf (Char.ofNat n) := by
  decide +kernel

/-- What does not come back differs from the small letter in its first character. -/
theorem exists_lowerOf_upperOf (h : c.toNat ∈ oneWayLetters) :
    ∃ d e rest, (upperOf c).flatMap lowerOf = d :: rest ∧ lowerOf c = [e] ∧ d ≠ e := by
  have hne : c ≠ 'İ' := by
    rintro rfl
    exact absurd h (by decide)
  cases hlookup : upperExpansions.lookup c.toNat with
  | some capitals =>
    obtain ⟨hentry, hupper⟩ := upperOf_of_lookup_eq_some hlookup
    obtain ⟨m, hm, hdiffer⟩ := (Option.any_eq_true _ _).mp (oneWayLetters_checked.1 _ hentry).2
    obtain ⟨more, rfl⟩ := List.head?_eq_some_iff.mp hm
    simp only [Bool.and_eq_true, bne_iff_ne, Char.ofNat_toNat] at hdiffer
    have hfirst : (upperOf c).flatMap lowerOf =
        smallOf (Char.ofNat m) :: (more.map Char.ofNat).flatMap lowerOf := by
      rw [hupper, List.map_cons, List.flatMap_cons, lowerOf_of_ne hdiffer.1, List.singleton_append]
    exact ⟨_, _, _, hfirst, lowerOf_of_ne hne, hdiffer.2⟩
  | none =>
    have hshared : c.toNat ∈ sharedLetters := by
      refine (List.mem_append.mp h).resolve_left fun hmem => ?_
      obtain ⟨entry, hentry, heq⟩ := List.mem_map.mp hmem
      have hnone := List.lookup_eq_none_iff.mp hlookup entry hentry
      simp [heq] at hnone
    obtain ⟨hcapital, hdiffer⟩ := oneWayLetters_checked.2 c.toNat hshared
    rw [Char.ofNat_toNat] at hcapital hdiffer
    refine ⟨_, _, [], ?_, lowerOf_of_ne hne, hdiffer⟩
    rw [upperOf_of_lookup hlookup, List.flatMap_singleton, lowerOf_of_ne hcapital]

/-- The letters that come back have case, and so have their capitals; neither are passed over. -/
theorem context_checked :
    (rangeRuns caseIgnorableRanges).IsChain CaseRun.Precedes ∧
      sweep CaseRun.liesIn smallRuns (rangeRuns casedRanges) = true ∧
      sweep CaseRun.liesIn capitalRuns (rangeRuns casedRanges) = true ∧
      sweep (fun run table => run.clears table || run.points == [0x345]) smallRuns
        (rangeRuns caseIgnorableRanges) = true ∧
      sweep CaseRun.clears capitalRuns (rangeRuns caseIgnorableRanges) = true := by
  decide +kernel

theorem context_of_capitalRun {run : CaseRun} (hrun : run ∈ capitalRuns)
    (h : run.holds c.toNat = true) : isCased c = true ∧ isCaseIgnorable c = false := by
  obtain ⟨hchain, -, hcased, -, hclears⟩ := context_checked
  constructor
  · exact inRanges_iff.mpr (exists_holds_of_liesIn
      (all_of_sweep ignoresBelow_liesIn isChain_capitalRuns hcased run hrun) h)
  · exact inRanges_eq_false_iff.mpr (not_holds_of_clears hchain
      (all_of_sweep ignoresBelow_clears isChain_capitalRuns hclears run hrun) h)

theorem context_of_smallRun {run : CaseRun} (hrun : run ∈ smallRuns)
    (h : run.holds c.toNat = true) (hone : c.toNat ∉ oneWayLetters) :
    isCased c = true ∧ isCaseIgnorable c = false := by
  obtain ⟨hchain, hcased, -, hclears, -⟩ := context_checked
  have hp : IgnoresBelow fun run table => run.clears table || run.points == [0x345] := by
    intro run table first hfirst hdropped
    rw [Bool.or_eq_true] at hdropped ⊢
    exact hdropped.imp_left (ignoresBelow_clears run table first hfirst)
  constructor
  · exact inRanges_iff.mpr (exists_holds_of_liesIn
      (all_of_sweep ignoresBelow_liesIn isChain_smallRuns hcased run hrun) h)
  · rcases (Bool.or_eq_true _ _).mp (all_of_sweep hp isChain_smallRuns hclears run hrun) with
      hclears | hpoints
    · exact inRanges_eq_false_iff.mpr (not_holds_of_clears hchain hclears h)
    · have hmem := CaseRun.mem_points_of_holds h
      rw [beq_iff_eq.mp hpoints, List.mem_singleton] at hmem
      exact absurd (hmem ▸ List.mem_append_right _ (by decide)) hone

/-- A letter that comes back means the same to a sigma as its capital. -/
theorem exists_upperOf_context (h : c.toNat ∉ oneWayLetters) :
    ∃ u, upperOf c = [u] ∧ isCased u = isCased c ∧ isCaseIgnorable u = isCaseIgnorable c := by
  have hlookup := lookup_of_not_mem_oneWayLetters h
  rcases upperOf_eq_or_exists_run hlookup with hself | ⟨run, hrun, hholds, u, hupper, hcode⟩
  · exact ⟨c, hself, rfl, rfl⟩
  · obtain ⟨capitals, hcapitals, hcapital⟩ := exists_capitalRun hrun hholds
    obtain ⟨hcased, hignored⟩ := context_of_smallRun hrun hholds h
    obtain ⟨hcased', hignored'⟩ := context_of_capitalRun hcapitals (hcode ▸ hcapital)
    exact ⟨u, hupper, hcased'.trans hcased.symm, hignored'.trans hignored.symm⟩

/-- Of the runs of small letters two reach the capital sigma, each with one letter. -/
theorem sigma_checked :
    (∀ run ∈ smallRuns, run.images.holds 0x3A3 = false ∨ run.shift = -31 ∨ run.shift = -32) ∧
      ['Σ', 'σ', 'ς'].all (fun c => upperOf c == ['Σ'] && isCased c && !isCaseIgnorable c) =
        true := by
  decide +kernel

/-- The capitals of other letters are no sigma. -/
theorem sigma_notMem_upperOf (hcapital : c ≠ 'Σ') (hsmall : c ≠ 'σ') (hfinal : c ≠ 'ς') :
    'Σ' ∉ upperOf c := by
  cases hlookup : upperExpansions.lookup c.toNat with
  | some capitals =>
    obtain ⟨hentry, hupper⟩ := upperOf_of_lookup_eq_some hlookup
    rw [hupper]
    exact (oneWayLetters_checked.1 _ hentry).1
  | none =>
    rcases upperOf_eq_or_exists_run hlookup with hself | ⟨run, hrun, hholds, u, hupper, hcode⟩
    · rw [hself, List.mem_singleton]
      exact Ne.symm hcapital
    · have hholds' := CaseRun.holds_images (shift_of_mem_smallRuns run hrun) hholds
      rw [hupper, List.mem_singleton]
      rintro rfl
      have hsigma : run.image c.toNat = 0x3A3 := hcode.symm
      rw [hsigma] at hholds'
      rcases sigma_checked.1 run hrun with hnot | hshift | hshift
      · cases hnot.symm.trans hholds'
      · rw [CaseRun.image, hshift] at hsigma
        exact hfinal (Char.toNat_inj.mp (show c.toNat = 0x3C2 by omega))
      · rw [CaseRun.image, hshift] at hsigma
        exact hsmall (Char.toNat_inj.mp (show c.toNat = 0x3C3 by omega))

end Letters

/-! ### Texts -/

/-- The small sigma that a place asks for, between two texts of which the first is given with its
last character first. -/
def sigmaAt (before behind : Text) : Char :=
  if meetsCased before && !meetsCased behind then 'ς' else 'σ'

/-- The character comes back in its place. -/
def comesBackAt (before : Text) (c : Char) (behind : Text) : Bool :=
  if c = 'σ' ∨ c = 'ς' then c = sigmaAt before behind else c.toNat ∉ oneWayLetters

/-- Every letter of the text comes back where it stands, when `before` stands in front of the text,
last character first. -/
def comesBackAfter (before : Text) : Text → Bool
  | [] => true
  | c :: rest => comesBackAt before c rest && comesBackAfter (c :: before) rest

/-- Every letter of the text comes back where it stands. -/
def comesBack (text : Text) : Bool := comesBackAfter [] text

section Texts

variable {c : Char} {before before' front text : Text}

theorem lowerAfter_append (h : 'Σ' ∉ front) (before text : Text) :
    lowerAfter before (front ++ text) =
      front.flatMap lowerOf ++ lowerAfter (front.reverse ++ before) text := by
  induction front generalizing before with
  | nil => rfl
  | cons c front ih =>
    obtain ⟨hc, hfront⟩ := List.ne_and_not_mem_of_not_mem_cons h
    rw [List.cons_append, lowerAfter, if_neg (Ne.symm hc), ih hfront, List.flatMap_cons,
      List.append_assoc, List.reverse_cons, List.append_assoc, List.singleton_append]

theorem meetsCased_cons (c : Char) (text : Text) :
    meetsCased (c :: text) = if isCaseIgnorable c then meetsCased text else isCased c := by
  rw [meetsCased, List.dropWhile_cons]
  by_cases h : isCaseIgnorable c = true
  · rw [if_pos h, if_pos h, meetsCased]
  · rw [if_neg h, if_neg h]

theorem not_mem_of_comesBackAfter (h : comesBackAfter before text = true) :
    ∀ c ∈ text, c.toNat ∉ oneWayLetters := by
  induction text generalizing before with
  | nil => exact fun _ hmem => absurd hmem List.not_mem_nil
  | cons c text ih =>
    rw [comesBackAfter, Bool.and_eq_true] at h
    refine List.forall_mem_cons.mpr ⟨?_, ih h.2⟩
    have hc := h.1
    rw [comesBackAt] at hc
    split at hc
    · rename_i hsigma
      rcases hsigma with rfl | rfl <;> decide
    · simpa using hc

/-- Capitals mean the same to a sigma in front of them. -/
theorem meetsCased_upper (h : ∀ c ∈ text, c.toNat ∉ oneWayLetters) :
    meetsCased (upper text) = meetsCased text := by
  induction text with
  | nil => rfl
  | cons c text ih =>
    obtain ⟨hc, htext⟩ := List.forall_mem_cons.mp h
    obtain ⟨u, hupper, hcased, hignored⟩ := exists_upperOf_context hc
    rw [upper_cons, hupper, List.singleton_append, meetsCased_cons, meetsCased_cons, ih htext,
      hcased, hignored]

/-- A letter that does not come back spoils the text. -/
theorem lowerAfter_upper_ne_of_oneWay (hone : c.toNat ∈ oneWayLetters)
    (before' before text : Text) :
    lowerAfter before' (upper (c :: text)) ≠ lowerAfter before (c :: text) := by
  have hne {d : Char} (hd : d.toNat ∉ oneWayLetters) : c ≠ d := fun heq => hd (heq ▸ hone)
  have hcapital : c ≠ 'Σ' := hne (by decide)
  have hsigma := sigma_notMem_upperOf hcapital (hne (by decide)) (hne (by decide))
  obtain ⟨d, e, rest, hcapitals, hsmall, hdiffer⟩ := exists_lowerOf_upperOf hone
  rw [upper_cons, lowerAfter_append hsigma, lowerAfter, if_neg hcapital, hcapitals, hsmall]
  exact fun heq => hdiffer (List.cons.inj heq).1

theorem context_of_sigma (h : c = 'Σ' ∨ c = 'σ' ∨ c = 'ς') :
    upperOf c = ['Σ'] ∧ isCased c = true ∧ isCaseIgnorable c = false := by
  simpa [and_assoc] using List.all_eq_true.mp sigma_checked.2 c (by simpa using h)

theorem meetsCased_cons_sigma (h : c = 'Σ' ∨ c = 'σ' ∨ c = 'ς') :
    meetsCased (c :: text) = true := by
  obtain ⟨-, hcased, hignored⟩ := context_of_sigma h
  rw [meetsCased_cons, hignored, if_neg Bool.false_ne_true, hcased]

theorem not_comesBackAt_of_oneWay (hone : c.toNat ∈ oneWayLetters) (before text : Text) :
    ¬comesBackAt before c text = true := by
  have hne {d : Char} (hd : d.toNat ∉ oneWayLetters) : c ≠ d := fun heq => hd (heq ▸ hone)
  have hsmall : c ≠ 'σ' := hne (by decide)
  have hfinal : c ≠ 'ς' := hne (by decide)
  simp [comesBackAt, hsmall, hfinal, hone]

theorem lowerAfter_cons_sigma (before text : Text) :
    lowerAfter before ('Σ' :: text) = sigmaAt before text :: lowerAfter ('Σ' :: before) text := by
  rw [lowerAfter, if_pos rfl, sigmaAt]
  split <;> rfl

/-- A sigma comes back if and only if it has the form that its place asks for; a capital has none of
its own. -/
theorem exists_lowerAfter_cons_sigma (h : c = 'Σ' ∨ c = 'σ' ∨ c = 'ς') (before text : Text) :
    ∃ d, lowerAfter before (c :: text) = d :: lowerAfter (c :: before) text ∧
      (comesBackAt before c text = true ↔ sigmaAt before text = d) := by
  rcases h with rfl | rfl | rfl
  · have hback : comesBackAt before 'Σ' text = true := by
      rw [comesBackAt, if_neg (by decide)]
      decide
    exact ⟨_, lowerAfter_cons_sigma before text, iff_of_true hback rfl⟩
  · exact ⟨'σ', rfl, by simp [comesBackAt, eq_comm]⟩
  · exact ⟨'ς', rfl, by simp [comesBackAt, eq_comm]⟩

/-- A text comes back from capitals if and only if each of its letters does where it stands. -/
theorem lowerAfter_upper_iff (h : meetsCased before' = meetsCased before) :
    lowerAfter before' (upper text) = lowerAfter before text ↔
      comesBackAfter before text = true := by
  induction text generalizing before before' with
  | nil => exact iff_of_true rfl rfl
  | cons c text ih =>
    rw [comesBackAfter, Bool.and_eq_true]
    by_cases hone : c.toNat ∈ oneWayLetters
    · -- Both sides fail, whatever stands behind.
      refine iff_of_false (lowerAfter_upper_ne_of_oneWay hone _ _ _) fun hback => ?_
      exact not_comesBackAt_of_oneWay hone before text hback.1
    · by_cases hsigma : c = 'Σ' ∨ c = 'σ' ∨ c = 'ς'
      · have hcontext : meetsCased ('Σ' :: before') = meetsCased (c :: before) := by
          rw [meetsCased_cons_sigma (.inl rfl), meetsCased_cons_sigma hsigma]
        obtain ⟨d, hlower, hback⟩ := exists_lowerAfter_cons_sigma hsigma before text
        rw [upper_cons, (context_of_sigma hsigma).1, List.singleton_append, lowerAfter_cons_sigma,
          hlower, List.cons.injEq, ih hcontext, hback]
        refine and_congr_left fun hrest => ?_
        -- The place asks for the same sigma: what stands around has case in capitals as before.
        rw [sigmaAt, sigmaAt, h, meetsCased_upper (not_mem_of_comesBackAfter hrest)]
      · -- Other letters come back in every place, so all hangs on what stands behind.
        obtain ⟨hcapital, hsmall, hfinal⟩ := (not_or.trans (and_congr_right' not_or)).mp hsigma
        obtain ⟨u, hupper, hcased, hignored⟩ := exists_upperOf_context hone
        have hcontext : meetsCased (u :: before') = meetsCased (c :: before) := by
          rw [meetsCased_cons, meetsCased_cons, hcased, hignored, h]
        have hnot := sigma_notMem_upperOf hcapital hsmall hfinal
        have hback : comesBackAt before c text = true := by simp [comesBackAt, hsmall, hfinal, hone]
        have hreverse : (upperOf c).reverse ++ before' = u :: before' := by rw [hupper]; rfl
        rw [upper_cons, lowerAfter_append hnot, lowerOf_upperOf hone hfinal, lowerAfter,
          if_neg hcapital, hreverse, List.append_cancel_left_eq, ih hcontext, hback]
        exact (and_iff_right rfl).symm

/-- A text comes back from capitals if and only if each of its letters does where it stands. -/
theorem lower_upper_iff : lower (upper text) = lower text ↔ comesBack text = true :=
  lowerAfter_upper_iff rfl

end Texts

end SignalScript.Text
