import Mathlib.Data.List.DropRight
import SignalScript.Text.Basic

/-!
# Tight texts

A text is tight if it holds something and has no blanks at its ends. Trimming takes the blanks
around a tight text away and leaves the text alone, and texts that are joined by anything in
between stay tight.

## Main definitions

* `Text.IsTight` — a text that trimming leaves alone
* `Text.spaces` — a row of ASCII spaces

## Main results

* `Text.isTight_iff` — tightness is a matter of the first and the last character
* `Text.trim_pad` — blanks around a text are trimmed away
-/

namespace SignalScript.Text

/-- The text holds something and has no blanks at its ends. -/
def IsTight (text : Text) : Prop := text ≠ [] ∧ trim text = text

instance (text : Text) : Decidable (IsTight text) := inferInstanceAs (Decidable (_ ∧ _))

/-- A row of ASCII spaces. -/
def spaces (n : Nat) : Text := List.replicate n ' '

@[simp] theorem spaces_zero : spaces 0 = [] := rfl

theorem isBlank_of_mem_spaces {n : Nat} {c : Char} (h : c ∈ spaces n) : isBlank c = true := by
  rw [List.eq_of_mem_replicate h]
  rfl

theorem not_mem_spaces {c : Char} (h : c ≠ ' ') (n : Nat) : c ∉ spaces n :=
  fun hmem => h (List.eq_of_mem_replicate hmem)

theorem trimEnd_eq_rdropWhile (text : Text) : trimEnd text = text.rdropWhile isBlank := by
  induction text using List.reverseRecOn with
  | nil => rfl
  | append_singleton text c ih =>
    -- `trimEnd` works from the front, so what it does to a last character is shown first.
    have fold (front : Text) : trimEnd (front ++ [c]) =
        if isBlank c then trimEnd front else front ++ [c] := by
      induction front with
      | nil => by_cases h : isBlank c <;> simp [trimEnd_cons, h]
      | cons d front ihFront =>
        rw [List.cons_append, trimEnd_cons, ihFront, trimEnd_cons]
        by_cases h : isBlank c <;> simp [h]
    rw [fold, List.rdropWhile_concat, ih]

@[simp] theorem trim_nil : trim [] = [] := rfl

theorem trim_cons_of_blank {c : Char} (h : isBlank c = true) (text : Text) :
    trim (c :: text) = trim text := by
  rw [trim, trimStart, List.dropWhile_cons_of_pos h]
  rfl

section Padding

variable {front text back : Text}

theorem trimStart_append_of_blank (h : ∀ c ∈ front, isBlank c = true) :
    trimStart (front ++ text) = trimStart text :=
  List.dropWhile_append_of_pos h

theorem trimEnd_append_of_blank (h : ∀ c ∈ back, isBlank c = true) :
    trimEnd (text ++ back) = trimEnd text := by
  rw [trimEnd_eq_rdropWhile, trimEnd_eq_rdropWhile, List.rdropWhile, List.rdropWhile,
    List.reverse_append, List.dropWhile_append_of_pos]
  simpa using h

/-- Blanks around a text are trimmed away. -/
theorem trim_pad (hfront : ∀ c ∈ front, isBlank c = true) (hback : ∀ c ∈ back, isBlank c = true) :
    trim (front ++ (text ++ back)) = trim text := by
  rw [trim, trim, trimStart_append_of_blank hfront]
  -- A blank text leaves nothing to stop at, and then the blanks behind it go as well.
  by_cases hall : text.dropWhile isBlank = []
  · have hblank : (text ++ back).dropWhile isBlank = [] := by
      rw [List.dropWhile_append, hall, List.isEmpty_nil, if_pos rfl]
      exact List.dropWhile_eq_nil_iff.mpr hback
    rw [trimStart, trimStart, hblank, hall]
  · have hsome : ¬ (text.dropWhile isBlank).isEmpty = true := by simpa using hall
    rw [trimStart, trimStart, List.dropWhile_append, if_neg hsome]
    exact trimEnd_append_of_blank hback

theorem trim_append_of_blank (hback : ∀ c ∈ back, isBlank c = true) :
    trim (text ++ back) = trim text := by
  have hpad : trim ([] ++ (text ++ back)) = trim text := trim_pad (List.forall_mem_nil _) hback
  rwa [List.nil_append] at hpad

/-- What is trimmed off in front is blank. -/
theorem exists_append_trimStart (text : Text) :
    ∃ front : Text, (∀ c ∈ front, isBlank c = true) ∧ text = front ++ trimStart text :=
  ⟨text.takeWhile isBlank, fun _ hc => List.mem_takeWhile_imp hc,
    (List.takeWhile_append_dropWhile (p := isBlank)).symm⟩

/-- What is trimmed off at the end is blank. -/
theorem exists_trimEnd_append (text : Text) :
    ∃ back : Text, (∀ c ∈ back, isBlank c = true) ∧ text = trimEnd text ++ back := by
  refine ⟨text.rtakeWhile isBlank, fun _ hc => List.mem_rtakeWhile_imp hc, ?_⟩
  rw [trimEnd_eq_rdropWhile, List.rdropWhile_append_rtakeWhile]

theorem trim_trimEnd (text : Text) : trim (trimEnd text) = trim text := by
  obtain ⟨back, hback, htext⟩ := exists_trimEnd_append text
  calc trim (trimEnd text) = trim (trimEnd text ++ back) := (trim_append_of_blank hback).symm
    _ = trim text := by rw [← htext]

theorem trimStart_trimStart (text : Text) : trimStart (trimStart text) = trimStart text :=
  List.dropWhile_idempotent isBlank text

theorem trim_trimStart (text : Text) : trim (trimStart text) = trim text := by
  rw [trim, trim, trimStart_trimStart]

theorem trim_trim (text : Text) : trim (trim text) = trim text := by
  calc trim (trim text) = trim (trimStart text) := trim_trimEnd (trimStart text)
    _ = trim text := trim_trimStart text

/-- A text trimmed at both ends is no longer than one trimmed in front only. -/
theorem trimStart_trim (text : Text) : trimStart (trim text) = trim text := by
  refine (List.dropWhile_suffix _).eq_of_length_le ?_
  calc (trim text).length = (trim (trim text)).length := by rw [trim_trim]
    _ ≤ (trimStart (trim text)).length := length_trimEnd_le _

/-- What is trimmed off at both ends is blank. -/
theorem exists_pad (text : Text) : ∃ front back : Text, (∀ c ∈ front, isBlank c = true) ∧
    (∀ c ∈ back, isBlank c = true) ∧ text = front ++ (trim text ++ back) := by
  obtain ⟨front, hfront, htext⟩ := exists_append_trimStart text
  obtain ⟨back, hback, hstart⟩ := exists_trimEnd_append (trimStart text)
  exact ⟨front, back, hfront, hback, htext.trans (congrArg (front ++ ·) hstart)⟩

theorem trim_eq_nil_iff {text : Text} : trim text = [] ↔ ∀ c ∈ text, isBlank c = true := by
  constructor
  · intro h
    obtain ⟨front, back, hfront, hback, htext⟩ := exists_pad text
    rw [htext, h, List.nil_append]
    exact List.forall_mem_append.mpr ⟨hfront, hback⟩
  · intro h
    have hpad : trim ([] ++ text) = trim [] := trim_append_of_blank h
    rwa [List.nil_append] at hpad

theorem trimStart_ne_nil_iff {text : Text} : trimStart text ≠ [] ↔ trim text ≠ [] := by
  rw [Ne, Ne, trim_eq_nil_iff]
  exact List.dropWhile_eq_nil_iff.not

theorem trim_isInfix (text : Text) : trim text <:+: text := by
  obtain ⟨front, back, -, -, htext⟩ := exists_pad text
  exact ⟨front, back, by rw [List.append_assoc, ← htext]⟩

theorem trim_sublist (text : Text) : (trim text).Sublist text := (trim_isInfix text).sublist

theorem mem_of_mem_trim {c : Char} (h : c ∈ trim text) : c ∈ text := (trim_isInfix text).subset h

theorem not_mem_of_blank {blanks : Text} {c : Char} (h : ∀ d ∈ blanks, isBlank d = true)
    (hc : isBlank c = false) : c ∉ blanks := fun hmem => by
  rw [h c hmem] at hc
  cases hc

/-- Trimming keeps what is not blank. -/
theorem mem_trim {c : Char} (hc : isBlank c = false) (h : c ∈ text) : c ∈ trim text := by
  obtain ⟨front, back, hfront, hback, htext⟩ := exists_pad text
  rw [htext] at h
  simpa [not_mem_of_blank hfront hc, not_mem_of_blank hback hc] using h

end Padding

/-- Tightness is a matter of the first and the last character. -/
theorem isTight_iff {text : Text} : IsTight text ↔
    ∃ c d, text.head? = some c ∧ text.getLast? = some d ∧ isBlank c = false ∧
      isBlank d = false := by
  constructor
  · rintro ⟨hne, htrim⟩
    -- Trimming only shortens, so a text that keeps its length keeps all its characters.
    have hlength : text.length ≤ (trimStart text).length :=
      (congrArg List.length htrim).ge.trans (length_trimEnd_le _)
    have hstart : trimStart text = text := (List.dropWhile_suffix _).eq_of_length_le hlength
    have hend : trimEnd text = text := by rwa [trim, hstart] at htrim
    rw [trimEnd_eq_rdropWhile, List.rdropWhile_eq_self_iff] at hend
    refine ⟨text.head hne, text.getLast hne, List.head?_eq_some_head hne,
      List.getLast?_eq_some_getLast hne, ?_, by simpa using hend hne⟩
    -- The first character is where the blanks in front would end.
    have hkept : text.dropWhile isBlank ≠ [] := fun h => hne (hstart.symm.trans h)
    have hhead := List.head_dropWhile_not isBlank hkept
    simpa [show text.dropWhile isBlank = text from hstart] using hhead
  · rintro ⟨c, d, hhead, hlast, hc, hd⟩
    have hne : text ≠ [] := by
      rintro rfl
      simp at hhead
    have hstart : trimStart text = text := by
      obtain ⟨rest, rfl⟩ := List.head?_eq_some_iff.mp hhead
      exact List.dropWhile_cons_of_neg (by simp [hc])
    have hend : text.getLast hne = d := by
      rw [List.getLast?_eq_some_getLast hne] at hlast
      exact Option.some.inj hlast
    refine ⟨hne, ?_⟩
    rw [trim, hstart, trimEnd_eq_rdropWhile, List.rdropWhile_eq_self_iff]
    exact fun _ => by simp [hend, hd]

namespace IsTight

variable {text front back : Text} {c : Char}

theorem ne_nil (h : IsTight text) : text ≠ [] := h.1

theorem trim_eq (h : IsTight text) : trim text = text := h.2

theorem trimStart_eq (h : IsTight text) : trimStart text = text := by
  rw [← h.trim_eq, trimStart_trim]

theorem isEmpty_eq (h : IsTight text) : text.isEmpty = false := by simpa using h.ne_nil

theorem head_not_blank (h : IsTight (c :: text)) : isBlank c = false := by
  obtain ⟨d, -, hhead, -, hd, -⟩ := isTight_iff.mp h
  rwa [Option.some.inj hhead]

/-- No end of a tight text ends with a blank. -/
theorem getLast_not_blank (h : IsTight text) (hsuffix : back <:+ text) (hne : back ≠ []) :
    isBlank (back.getLast hne) = false := by
  obtain ⟨-, d, -, hlast, -, hd⟩ := isTight_iff.mp h
  obtain ⟨front, rfl⟩ := hsuffix
  rw [List.getLast?_append, List.getLast?_eq_some_getLast hne, Option.some_or] at hlast
  rwa [Option.some.inj hlast]

theorem eq_nil_of_suffix (h : IsTight text) (hsuffix : back <:+ text)
    (hblank : ∀ c ∈ back, isBlank c = true) : back = [] := by
  by_contra hne
  have hlast := h.getLast_not_blank hsuffix hne
  rw [hblank _ (List.getLast_mem hne)] at hlast
  cases hlast

theorem trimEnd_of_suffix (h : IsTight text) (hsuffix : back <:+ text) : trimEnd back = back := by
  rw [trimEnd_eq_rdropWhile, List.rdropWhile_eq_self_iff]
  intro hne
  rw [Bool.not_eq_true]
  exact h.getLast_not_blank hsuffix hne

theorem trim_suffix (h : IsTight text) (hsuffix : back <:+ text) : trim back <:+ back := by
  have hstart : trimStart back <:+ back := List.dropWhile_suffix _
  rw [trim, h.trimEnd_of_suffix (hstart.trans hsuffix)]
  exact hstart

/-- What stands between two tight texts does not matter. -/
theorem append (hfront : IsTight front) (hback : IsTight back) (between : Text) :
    IsTight (front ++ between ++ back) := by
  obtain ⟨c, -, hhead, -, hc, -⟩ := isTight_iff.mp hfront
  obtain ⟨-, d, -, hlast, -, hd⟩ := isTight_iff.mp hback
  exact isTight_iff.mpr ⟨c, d, by simp [hhead], by simp [hlast], hc, hd⟩

theorem single (h : isBlank c = false) : IsTight [c] :=
  isTight_iff.mpr ⟨c, c, rfl, rfl, h, h⟩

/-- Brackets around a text leave no blanks at its ends. -/
theorem brackets (text : Text) : IsTight ('(' :: (text ++ [')'])) := by
  have hopen : IsTight ['('] := single rfl
  have hclose : IsTight [')'] := single rfl
  simpa using hopen.append hclose text

theorem append_char (h : IsTight text) (hc : isBlank c = false) : IsTight (text ++ [c]) := by
  simpa using h.append (single hc) []

theorem append_space (hfront : IsTight front) (hback : IsTight back) :
    IsTight (front ++ ' ' :: back) := by
  simpa using hfront.append hback [' ']

end IsTight

theorem trimStart_spaces {c : Char} (h : isBlank c = false) (gap : Nat) (rest : Text) :
    trimStart (spaces gap ++ c :: rest) = c :: rest := by
  rw [trimStart_append_of_blank fun _ => isBlank_of_mem_spaces]
  exact List.dropWhile_cons_of_neg (by simp [h])

theorem trim_spaces {text : Text} (h : IsTight text) (before after : Nat) :
    trim (spaces before ++ (text ++ spaces after)) = text := by
  rw [trim_pad (fun _ => isBlank_of_mem_spaces) (fun _ => isBlank_of_mem_spaces), h.trim_eq]

end SignalScript.Text
