import SignalScript.Proofs.Signal.Loading
import SignalScript.Proofs.Source.ScriptLine
import SignalScript.Proofs.Source.Utf8Encoding
import SignalScript.Proofs.Text.ComingBack

/-!
# Scripts under the own name of a type

The reader of scripts puts everything into capitals, and the keys of types are in small letters. So
a script that is written under the very name of a type is registered for it if and only if the name
comes back from its capitals.

## Main results

* `typeKey_upper_iff` — which names keep their key in capitals
* `Registry.get?_loadSource_ownName` — what becomes of a script under the own name of a type
-/

namespace SignalScript

open Text

/-! ### Keys in capitals -/

/-- A word keeps its key in capitals if and only if it comes back from them. -/
theorem typeKey_upper_iff {name : Text} (hne : name ≠ [])
    (hname : ∀ c ∈ name, isPlain c = true) :
    typeKey (upper name) = typeKey name ↔ comesBack name = true := by
  have htight := isTight_of_isPlain hne hname
  have htight' := isTight_of_isPlain (upper_ne_nil hne) (isPlain_upper hname)
  rw [typeKey, typeKey, htight.trim_eq, htight'.trim_eq, lower_upper_iff]

/-! ### Known types -/

namespace SignalTypes

variable {types : SignalTypes} {names : List Text} {name : Text}

/-- A type that is known stays known. -/
theorem isSome_resolve?_insert (h : (types.resolve? name).isSome = true) (other : Text) :
    ((types.insert other).resolve? name).isSome = true := by
  rw [insert]
  split
  · rw [resolve?, SortedMap.get?_insert]
    split
    · rfl
    · exact h
  · exact h

theorem isSome_resolve?_insert_self (types : SignalTypes) (h : trim name ≠ []) :
    ((types.insert name).resolve? name).isSome = true := by
  rw [insert]
  split
  · rw [resolve?, SortedMap.get?_insert, if_pos rfl]
    rfl
  · rename_i hadmits
    have hname : (trim name).isEmpty = false := by simpa using h
    simpa [admits, hname, Option.isSome_iff_ne_none] using hadmits

theorem isSome_resolve?_foldl_insert (h : (types.resolve? name).isSome = true)
    (names : List Text) : ((names.foldl insert types).resolve? name).isSome = true := by
  induction names generalizing types with
  | nil => exact h
  | cons other names ih => exact ih (isSome_resolve?_insert h other)

/-- Every name that is not blank is known. -/
theorem isSome_resolve?_ofNames (hname : name ∈ names) (h : trim name ≠ []) :
    ((ofNames names).resolve? name).isSome = true := by
  obtain ⟨front, back, rfl⟩ := List.append_of_mem hname
  rw [ofNames, List.foldl_append, List.foldl_cons]
  exact isSome_resolve?_foldl_insert (isSome_resolve?_insert_self _ h) back

end SignalTypes

namespace Registry

variable {types : SignalTypes} {registry : Registry} {script : Script} {file : String}
  {type : Text}

/-! ### One script among others -/

/-- A script that is written for the type is taken if the type is known and has none. -/
theorem register_of_free (htypes : types.KeysAgree)
    (hknown : (types.resolve? type).isSome = true) (hfree : registry.get? type = none)
    (hkey : typeKey script.name = typeKey type) :
    registry.register types file script =
      ⟨⟨registry.scripts.insert (typeKey type) script⟩, []⟩ := by
  have hrefusal : registry.refusal? types script = none := by
    obtain ⟨canonical, hcanonical⟩ := Option.isSome_iff_exists.mp hknown
    have hnone : registry.contains canonical = false := by
      rw [contains, get?, htypes.typeKey_eq hcanonical, ← get?, hfree]
      rfl
    rw [refusal?, typeFor, SignalTypes.resolve?_congr hkey, hcanonical]
    simp only [hnone]
    rfl
  rw [register_of_taken htypes hrefusal, hkey]

/-- What is registered for other types changes nothing for a type. -/
theorem get?_register_of_ne (htypes : types.KeysAgree) (h : typeKey script.name ≠ typeKey type) :
    (registry.register types file script).value.get? type = registry.get? type := by
  cases hrefusal : registry.refusal? types script with
  | some cause => rw [register_of_refusal? hrefusal]
  | none =>
    rw [register_of_taken htypes hrefusal, get?, SortedMap.get?_insert, if_neg h]
    rfl

/-- A type that has a script keeps it. -/
theorem get?_register_of_some (htypes : types.KeysAgree) {kept : Script}
    (h : registry.get? type = some kept) :
    (registry.register types file script).value.get? type = some kept := by
  cases hrefusal : registry.refusal? types script with
  | some cause => rwa [register_of_refusal? hrefusal]
  | none =>
    have hnone := get?_of_taken htypes hrefusal
    refine (get?_register_of_ne htypes fun hkey => ?_).trans h
    rw [get?, hkey, ← get?, h] at hnone
    cases hnone

/-- A script that is registered stays, whatever is offered later. -/
theorem get?_registerAll_of_some (htypes : types.KeysAgree) {kept : Script}
    (h : registry.get? type = some kept) (scripts : List Script) :
    (registry.registerAll types file scripts).value.get? type = some kept := by
  induction scripts generalizing registry with
  | nil => exact h
  | cons script scripts ih => exact ih (get?_register_of_some htypes h)

/-! ### The first script of a file -/

section Source

variable {bytes : List UInt8} {later : List Script}

theorem value_loadSource_cons (h : (compile file bytes).value = script :: later) :
    (registry.loadSource types file bytes).value =
      ((registry.register types file script).value.registerAll types file later).value := by
  rw [loadSource, Noted.value_bind, h]
  rfl

/-- The first script of a file is registered if it is written for a known type without a script. -/
theorem get?_loadSource_of_free (htypes : types.KeysAgree)
    (hknown : (types.resolve? type).isSome = true) (hfree : registry.get? type = none)
    (h : (compile file bytes).value = script :: later) (hkey : typeKey script.name = typeKey type) :
    (registry.loadSource types file bytes).value.get? type = some script := by
  rw [value_loadSource_cons h]
  refine get?_registerAll_of_some htypes ?_ later
  rw [register_of_free htypes hknown hfree hkey, get?, SortedMap.get?_insert, if_pos rfl]

/-- And if there is no other, nothing is refused. -/
theorem not_isRegistration_loadSource_of_free (htypes : types.KeysAgree)
    (hknown : (types.resolve? type).isSome = true) (hfree : registry.get? type = none)
    (h : (compile file bytes).value = [script]) (hkey : typeKey script.name = typeKey type) :
    ∀ diagnostic ∈ (registry.loadSource types file bytes).notes,
      diagnostic.isRegistration = false := by
  have hnone : (registry.registerAll types file [script]).notes = [] := by
    change (registry.register types file script).notes ++ [] = []
    rw [register_of_free htypes hknown hfree hkey]
    rfl
  intro diagnostic hmem
  rw [loadSource, Noted.notes_bind, h, hnone, List.append_nil] at hmem
  exact not_isRegistration_of_mem_compile hmem

/-- A file with one script leaves other types alone. -/
theorem get?_loadSource_of_ne (htypes : types.KeysAgree)
    (h : (compile file bytes).value = [script])
    (hkey : typeKey script.name ≠ typeKey type) :
    (registry.loadSource types file bytes).value.get? type = registry.get? type :=
  (congrArg (get? · type) (value_loadSource_cons h)).trans (get?_register_of_ne htypes hkey)

end Source

end Registry

/-! ### A file that begins with a script line -/

section File

variable {name rest : Text}

/-- The first script of a file that begins with a script line has that name in capitals. -/
theorem exists_compile_scriptLine (hne : name ≠ []) (hname : ∀ c ∈ name, isPlain c = true)
    (hrest : ∀ c ∈ rest.head?, c = '\n') (file : String) :
    ∃ script later,
      (compile file (Utf8.encode ("SCRIPT ".toList ++ name ++ rest))).value = script :: later ∧
        script.name = upper name ∧ script.line = 1 := by
  have hfeed : '\n' ∉ "SCRIPT ".toList ++ name := by
    rw [List.mem_append, not_or]
    exact ⟨by decide, fun hmem => ne_of_isPlain (hname _ hmem) rfl rfl⟩
  have hbody : ∃ body, physicalLines ("SCRIPT ".toList ++ name ++ rest) =
      ("SCRIPT ".toList ++ name) :: body := by
    cases rest with
    | nil =>
      rw [List.append_nil]
      exact ⟨[], pieces_of_not_mem hfeed⟩
    | cons c rest =>
      obtain rfl := hrest c rfl
      exact ⟨_, pieces_append_cons hfeed rest⟩
  obtain ⟨body, hbody⟩ := hbody
  have hhead : ("SCRIPT ".toList ++ name ++ rest).head? = some 'S' := rfl
  rw [compile, logicalLines_encode (by rw [hhead]; decide), hbody, sections_scriptLine hne hname]
  exact ⟨_, _, rfl, rfl, rfl⟩

end File

namespace Registry

variable {names : List Text} {name rest : Text} {registry : Registry}

/-- A file begins with the script line of a known type that has no script. If the name comes back
from capitals, the script is registered for the type, whatever else the file holds, and nothing is
refused unless the file holds other scripts; if not, the type gets no script from it. -/
theorem get?_loadSource_ownName (file : String) (hknown : name ∈ names) (hne : name ≠ [])
    (hword : ∀ c ∈ name, isWordCharacter c = true) (hrest : ∀ c ∈ rest.head?, c = '\n')
    (hfree : registry.get? name = none) :
    let bytes := Utf8.encode ("SCRIPT ".toList ++ name ++ rest)
    let loaded := registry.loadSource (.ofNames names) file bytes
    ∃ script later, (compile file bytes).value = script :: later ∧
      script.name = upper name ∧ script.line = 1 ∧
      (comesBack name = true →
        loaded.value.get? name = some script ∧ loaded.value.contains name = true ∧
          (later = [] → ∀ diagnostic ∈ loaded.notes, diagnostic.isRegistration = false)) ∧
      (later = [] → (loaded.value.contains name = true ↔ comesBack name = true)) := by
  intro bytes loaded
  have hname : ∀ c ∈ name, isPlain c = true := fun c hc => isPlain_of_isWordCharacter (hword c hc)
  have htypes := SignalTypes.keysAgree_ofNames names
  obtain ⟨script, later, hcompile, hupper, hline⟩ := exists_compile_scriptLine hne hname hrest file
  -- The name was put into capitals, and the type is found by small letters.
  have hkey : typeKey script.name = typeKey name ↔ comesBack name = true := by
    rw [hupper]
    exact typeKey_upper_iff hne hname
  have hresolves : ((SignalTypes.ofNames names).resolve? name).isSome = true :=
    SignalTypes.isSome_resolve?_ofNames hknown ((isTight_of_isPlain hne hname).trim_eq.symm ▸ hne)
  have hget (hcomes : comesBack name = true) : loaded.value.get? name = some script :=
    get?_loadSource_of_free htypes hresolves hfree hcompile (hkey.mpr hcomes)
  have hcontains (hcomes : comesBack name = true) : loaded.value.contains name = true := by
    rw [contains, hget hcomes]
    rfl
  refine ⟨script, later, hcompile, hupper, hline, fun hcomes => ⟨hget hcomes, hcontains hcomes, ?_⟩,
    ?_⟩
  · rintro rfl
    exact not_isRegistration_loadSource_of_free htypes hresolves hfree hcompile (hkey.mpr hcomes)
  · rintro rfl
    refine ⟨fun hcontained => ?_, hcontains⟩
    -- The only script in the file is for another name.
    by_contra hcomes
    have hnone : loaded.value.get? name = none :=
      (get?_loadSource_of_ne htypes hcompile fun h => hcomes (hkey.mp h)).trans hfree
    rw [contains, hnone] at hcontained
    cases hcontained

/-- A name with both small sigmas, each in its place. -/
theorem get?_loadSource_ownName_sigma :
    ∃ script, (empty.loadSource (.ofNames ["HomeUk".toList, "Κόσμος_1".toList]) "a.dat"
        (Utf8.encode "SCRIPT Κόσμος_1\nSTATE = 1;\n".toList)).value.get? "Κόσμος_1".toList =
          some script ∧ script.name = "ΚΌΣΜΟΣ_1".toList := by
  obtain ⟨script, later, -, hupper, -, hback, -⟩ :=
    get?_loadSource_ownName "a.dat" (show "Κόσμος_1".toList ∈ ["HomeUk".toList, "Κόσμος_1".toList]
      by decide) (by decide) (List.all_eq_true.mp (by decide +kernel))
      (show ∀ c ∈ ("\nSTATE = 1;\n".toList).head?, c = '\n' by simp)
      (show empty.get? "Κόσμος_1".toList = none from rfl)
  exact ⟨script, (hback (by decide +kernel)).1, hupper.trans (by decide +kernel)⟩

/-- A script under the very name of a known type without a script is refused: the capitals of the
name are read as another name. -/
theorem exists_ownName_refused :
    ∃ names name rest, name ∈ names ∧ (∀ c ∈ name, isWordCharacter c = true) ∧
      rest.head? = some '\n' ∧ empty.get? name = none ∧
      let loaded := empty.loadSource (.ofNames names) "a.dat"
        (Utf8.encode ("SCRIPT ".toList ++ name ++ rest))
      loaded.value.contains name = false ∧
        loaded.notes = [⟨"a.dat", 1, "STRASSE".toList, .unknownType "STRASSE".toList⟩] :=
  ⟨["straße".toList], "straße".toList, "\nSTATE = 1;\n".toList, by decide,
    List.all_eq_true.mp (by decide +kernel), rfl, rfl, by decide +kernel⟩

end Registry

end SignalScript
