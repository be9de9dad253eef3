import Mathlib.Data.List.Chain
import SignalScript.Text.LetterCase

/-!
# Runs of letters

The tables of letter case are runs of letters in the order of their code points, and so are the
tables of character properties if their ranges are taken as runs. What has to be known of a table is
checked run by run, on the ends of the runs alone, and holds of every letter in them.

## Main definitions

* `CaseRun.images` — the other cases of the letters of a run, as a run
* `CaseRun.isPartOf`, `CaseRun.clears`, `CaseRun.liesIn` — how a run lies to a run, to a table
* `runAt`, `shiftedAt` — the search in a table in ascending order, which can stop early
* `sweep` — a check of one table against another, in one pass over both

## Main results

* `shiftedBy_eq_shiftedAt` — what a table makes of a code point
* `not_holds_of_clears`, `exists_holds_of_liesIn` — what was checked of a run holds of its letters
* `all_of_sweep` — what was checked in one pass holds of every run
-/

namespace SignalScript.Text

namespace CaseRun

variable {run other : CaseRun} {n : Nat}

theorem holds_iff :
    run.holds n = true ↔
      run.first ≤ n ∧ n ≤ run.last ∧ (n - run.first) % run.step = 0 := by
  simp [holds, and_assoc]

/-! ### Single runs -/

/-- The other cases of the letters of a run. -/
def images (run : CaseRun) : CaseRun :=
  ⟨run.image run.first, run.image run.last, run.step, -run.shift⟩

theorem holds_images (hshift : 0 ≤ run.first + run.shift) (h : run.holds n = true) :
    run.images.holds (run.image n) = true := by
  obtain ⟨hfirst, hlast, hstep⟩ := holds_iff.mp h
  have hdistance : run.image n - run.image run.first = n - run.first := by
    simp only [image]
    omega
  refine holds_iff.mpr ⟨?_, ?_, hdistance.symm ▸ hstep⟩ <;> simp only [images, image] <;> omega

/-- Every code point of the run is one of the other run. -/
def isPartOf (run other : CaseRun) : Bool :=
  other.first.ble run.first && run.last.ble other.last && run.step % other.step == 0 &&
    (run.first - other.first) % other.step == 0

theorem holds_of_isPartOf (h : run.isPartOf other = true) (hn : run.holds n = true) :
    other.holds n = true := by
  simp only [isPartOf, Bool.and_eq_true, Nat.ble_eq, beq_iff_eq] at h
  obtain ⟨⟨⟨hfirst, hlast⟩, hstep⟩, hoffset⟩ := h
  obtain ⟨hlow, hhigh, hn⟩ := holds_iff.mp hn
  have hdvd : other.step ∣ (n - run.first) + (run.first - other.first) :=
    Nat.dvd_add (Nat.dvd_trans (Nat.dvd_of_mod_eq_zero hstep) (Nat.dvd_of_mod_eq_zero hn))
      (Nat.dvd_of_mod_eq_zero hoffset)
  have hsum : (n - run.first) + (run.first - other.first) = n - other.first := by omega
  exact holds_iff.mpr ⟨by omega, by omega, Nat.mod_eq_zero_of_dvd (hsum ▸ hdvd)⟩

/-- The code points of the run. -/
def points (run : CaseRun) : List Nat :=
  (List.range ((run.last - run.first) / run.step + 1)).map fun k => run.first + run.step * k

theorem mem_points_of_holds (h : run.holds n = true) : n ∈ run.points := by
  obtain ⟨hlow, hhigh, hn⟩ := holds_iff.mp h
  refine List.mem_map.mpr ⟨(n - run.first) / run.step, ?_, ?_⟩
  · exact List.mem_range.mpr (Nat.lt_succ_of_le (Nat.div_le_div_right (by omega)))
  · rw [Nat.mul_div_cancel' (Nat.dvd_of_mod_eq_zero hn)]
    omega

/-- The other run lies further up. -/
def Precedes (run other : CaseRun) : Prop := run.first ≤ run.last ∧ run.last < other.first

instance : DecidableRel Precedes := fun _ _ => inferInstanceAs (Decidable (_ ∧ _))

instance : IsTrans CaseRun Precedes where
  trans _ _ _ h h' := ⟨h.1, h.2.trans_le (h'.1.trans h'.2.le)⟩

theorem precedes_of_mem {table : List CaseRun} (h : (run :: table).IsChain Precedes)
    (hother : other ∈ table) : run.Precedes other :=
  (List.pairwise_cons.mp (List.isChain_iff_pairwise.mp h)).1 other hother

end CaseRun

/-! ### Tables -/

section Tables

open CaseRun

variable {table : List CaseRun} {run : CaseRun} {n : Nat}

/-- The run of a table in ascending order that holds a code point. -/
def runAt (n : Nat) : List CaseRun → Option CaseRun
  | [] => none
  | run :: later =>
    bif run.last.blt n then runAt n later else bif run.holds n then some run else none

theorem mem_of_runAt (h : runAt n table = some run) : run ∈ table ∧ run.holds n = true := by
  induction table with
  | nil => cases h
  | cons first later ih =>
    rw [runAt] at h
    cases hbelow : first.last.blt n with
    | true =>
      rw [hbelow, cond_true] at h
      exact (ih h).imp_left (List.mem_cons_of_mem _)
    | false =>
      cases hholds : first.holds n with
      | true =>
        rw [hbelow, hholds, cond_false, cond_true] at h
        obtain rfl := Option.some.inj h
        exact ⟨List.mem_cons_self, hholds⟩
      | false =>
        rw [hbelow, hholds] at h
        cases h

/-- Of runs in ascending order, at most one holds a code point. -/
theorem runAt_of_holds (htable : table.IsChain Precedes) (hrun : run ∈ table)
    (h : run.holds n = true) : runAt n table = some run := by
  obtain ⟨hlow, hhigh, -⟩ := holds_iff.mp h
  induction table with
  | nil => cases hrun
  | cons first later ih =>
    rw [runAt]
    rcases List.mem_cons.mp hrun with rfl | hlater
    · have hnot : run.last.blt n = false := by
        rw [Bool.eq_false_iff, Ne, Nat.blt_eq]
        omega
      rw [hnot, h, cond_false, cond_true]
    · have hbelow : first.last.blt n = true := by
        rw [Nat.blt_eq]
        exact (precedes_of_mem htable hlater).2.trans_le hlow
      rw [hbelow, cond_true, ih htable.tail hlater]

theorem not_holds_of_runAt (htable : table.IsChain Precedes) (h : runAt n table = none) :
    ∀ run ∈ table, run.holds n = false := by
  intro run hrun
  refine Bool.eq_false_iff.mpr fun hholds => ?_
  rw [runAt_of_holds htable hrun hholds] at h
  cases h

/-- The code point of the other case, in a table in ascending order. -/
def shiftedAt (table : List CaseRun) (n : Nat) : Nat :=
  match runAt n table with
  | some run => run.image n
  | none => n

theorem shiftedAt_of_holds (htable : table.IsChain Precedes) (hrun : run ∈ table)
    (h : run.holds n = true) : shiftedAt table n = run.image n := by
  rw [shiftedAt, runAt_of_holds htable hrun h]

theorem shiftedAt_of_forall (h : ∀ run ∈ table, run.holds n = false) : shiftedAt table n = n := by
  cases hrun : runAt n table with
  | none => rw [shiftedAt, hrun]
  | some run =>
    obtain ⟨hmem, hholds⟩ := mem_of_runAt hrun
    rw [h run hmem] at hholds
    cases hholds

/-- The search may stop early. -/
theorem shiftedBy_eq_shiftedAt (htable : table.IsChain Precedes) (n : Nat) :
    shiftedBy table n = shiftedAt table n := by
  rw [shiftedBy]
  cases hfind : table.find? (·.holds n) with
  | some run =>
    have hholds : run.holds n = true := by simpa using List.find?_some hfind
    exact (shiftedAt_of_holds htable (List.mem_of_find?_eq_some hfind) hholds).symm
  | none =>
    refine (shiftedAt_of_forall fun run hrun => ?_).symm
    simpa using List.find?_eq_none.mp hfind run hrun

/-- A code point is in one of the runs, or it is left as it is. -/
theorem exists_run_or_shiftedAt_eq (table : List CaseRun) (n : Nat) :
    (∃ run ∈ table, run.holds n = true ∧ shiftedAt table n = run.image n) ∨
      shiftedAt table n = n := by
  cases hrun : runAt n table with
  | none => exact .inr (by rw [shiftedAt, hrun])
  | some run =>
    obtain ⟨hmem, hholds⟩ := mem_of_runAt hrun
    exact .inl ⟨run, hmem, hholds, by rw [shiftedAt, hrun]⟩

/-! ### A run and a table -/

/-- No code point of the run is in the table. Where the run lies among the letters of another, the
two hold every other code point in turn. -/
def CaseRun.clears (run : CaseRun) : List CaseRun → Bool
  | [] => true
  | other :: later =>
    bif other.last.blt run.first then run.clears later
    else run.last.blt other.first ||
      run.step == 2 && other.step == 2 && (run.first + other.first) % 2 == 1 && run.clears later

theorem not_holds_of_clears (htable : table.IsChain Precedes) (h : run.clears table = true)
    (hn : run.holds n = true) : ∀ other ∈ table, other.holds n = false := by
  obtain ⟨hlow, hhigh, hstep⟩ := holds_iff.mp hn
  have hfalse {other : CaseRun} (hne : ¬other.holds n = true) : other.holds n = false :=
    Bool.eq_false_iff.mpr hne
  induction table with
  | nil => exact fun _ hmem => absurd hmem List.not_mem_nil
  | cons other later ih =>
    rw [clears] at h
    cases hbelow : other.last.blt run.first with
    | true =>
      -- A run that lies further down holds nothing of this one, and the check goes on behind it.
      rw [hbelow, cond_true] at h
      rw [Nat.blt_eq] at hbelow
      refine List.forall_mem_cons.mpr ⟨hfalse fun hother => ?_, ih htable.tail h⟩
      have hlast := (holds_iff.mp hother).2.1
      omega
    | false =>
      rw [hbelow, cond_false] at h
      simp only [Bool.or_eq_true, Bool.and_eq_true, Nat.blt_eq, beq_iff_eq] at h
      rcases h with habove | ⟨⟨⟨htwo, htwo'⟩, hparity⟩, hrest⟩
      · -- The runs that follow lie further up still.
        intro found hfound
        refine hfalse fun hholds => ?_
        have hfirst := (holds_iff.mp hholds).1
        rcases List.mem_cons.mp hfound with rfl | hfound
        · omega
        · obtain ⟨hother, hbehind⟩ := precedes_of_mem htable hfound
          omega
      · -- Both runs hold every other code point, one the even and one the odd ones.
        refine List.forall_mem_cons.mpr ⟨hfalse fun hother => ?_, ih htable.tail hrest⟩
        obtain ⟨hlow', -, hstep'⟩ := holds_iff.mp hother
        rw [htwo] at hstep
        rw [htwo'] at hstep'
        omega

/-- Every code point of the run is in the table; most runs are part of one run as a whole. -/
def CaseRun.liesIn (run : CaseRun) (table : List CaseRun) : Bool :=
  (runAt run.first table).any run.isPartOf || run.points.all fun n => (runAt n table).isSome

theorem exists_holds_of_liesIn (h : run.liesIn table = true) (hn : run.holds n = true) :
    ∃ other ∈ table, other.holds n = true := by
  rw [liesIn, Bool.or_eq_true] at h
  rcases h with hwhole | hpoints
  · obtain ⟨other, hother, hpart⟩ := (Option.any_eq_true _ _).mp hwhole
    exact ⟨other, (mem_of_runAt hother).1, holds_of_isPartOf hpart hn⟩
  · have hpoint := List.all_eq_true.mp hpoints n (mem_points_of_holds hn)
    obtain ⟨other, hother⟩ := Option.isSome_iff_exists.mp hpoint
    exact ⟨other, mem_of_runAt hother⟩

/-! ### Two tables -/

/-- A condition on the runs of one table and another table, checked in one pass over both: the runs
of the other table that one run lies behind are not looked at again. -/
def sweep (p : CaseRun → List CaseRun → Bool) : List CaseRun → List CaseRun → Bool
  | [], _ => true
  | run :: later, table =>
    match table.dropWhile fun other => other.last.blt run.first with
    | [] => p run [] && sweep p later []
    | other :: ahead => p run (other :: ahead) && sweep p later (other :: ahead)

theorem sweep_cons (p : CaseRun → List CaseRun → Bool) (run : CaseRun)
    (later table : List CaseRun) :
    sweep p (run :: later) table =
      (p run (table.dropWhile fun other => other.last.blt run.first) &&
        sweep p later (table.dropWhile fun other => other.last.blt run.first)) := by
  rw [sweep]
  split <;> rename_i hahead <;> rw [hahead]

/-- The condition is one that runs further down have no part in. -/
def IgnoresBelow (p : CaseRun → List CaseRun → Bool) : Prop :=
  ∀ run table first, first ≤ run.first →
    p run (table.dropWhile fun other => other.last.blt first) = true → p run table = true

theorem all_of_sweep {p : CaseRun → List CaseRun → Bool} (hp : IgnoresBelow p)
    {runs : List CaseRun} (hruns : runs.IsChain Precedes) (h : sweep p runs table = true) :
    ∀ run ∈ runs, p run table = true := by
  induction runs generalizing table with
  | nil => exact fun _ hmem => absurd hmem List.not_mem_nil
  | cons run later ih =>
    rw [sweep_cons, Bool.and_eq_true] at h
    refine List.forall_mem_cons.mpr ⟨hp run table run.first (Nat.le_refl _) h.1, ?_⟩
    intro other hother
    obtain ⟨hfirst, hlast⟩ := precedes_of_mem hruns hother
    exact hp other table run.first (hfirst.trans hlast.le) (ih hruns.tail h.2 other hother)

theorem ignoresBelow_clears : IgnoresBelow clears := by
  intro run table first hfirst h
  induction table with
  | nil => exact h
  | cons other later ih =>
    rw [List.dropWhile_cons] at h
    split at h
    · rename_i hbelow
      rw [Nat.blt_eq] at hbelow
      rw [clears, (Nat.blt_eq ..).mpr (hbelow.trans_le hfirst), cond_true]
      exact ih h
    · exact h

theorem runAt_dropWhile {first : Nat} (h : first ≤ n) :
    runAt n (table.dropWhile fun other => other.last.blt first) = runAt n table := by
  induction table with
  | nil => rfl
  | cons other later ih =>
    rw [List.dropWhile_cons]
    split
    · rename_i hbelow
      rw [Nat.blt_eq] at hbelow
      rw [runAt, (Nat.blt_eq ..).mpr (hbelow.trans_le h), cond_true]
      exact ih
    · rfl

theorem ignoresBelow_liesIn : IgnoresBelow liesIn := by
  intro run table first hfirst h
  rw [liesIn, Bool.or_eq_true, runAt_dropWhile hfirst] at h
  rw [liesIn, Bool.or_eq_true]
  refine h.imp_right fun hpoints => List.all_eq_true.mpr fun n hn => ?_
  have hpoint := List.all_eq_true.mp hpoints n hn
  obtain ⟨k, -, rfl⟩ := List.mem_map.mp hn
  rwa [runAt_dropWhile (hfirst.trans (Nat.le_add_right _ _))] at hpoint

end Tables

/-! ### Ranges as runs -/

/-- Ranges of code points, as a table. -/
def rangeRuns (ranges : List CodeRange) : List CaseRun :=
  ranges.map fun range => ⟨range.1, range.2, 1, 0⟩

section Ranges

variable {ranges : List CodeRange} {c : Char}

theorem inRanges_iff : inRanges ranges c = true ↔
    ∃ run ∈ rangeRuns ranges, run.holds c.toNat = true := by
  simp [inRanges, rangeRuns, CaseRun.holds, Nat.mod_one]

theorem inRanges_eq_false_iff : inRanges ranges c = false ↔
    ∀ run ∈ rangeRuns ranges, run.holds c.toNat = false := by
  rw [Bool.eq_false_iff, Ne, inRanges_iff]
  simp

end Ranges

end SignalScript.Text
