import SignalScript.Proofs.Text.Trimming
import SignalScript.Signal.Registry

/-!
# The first script of a type is taken

Scripts are offered to a registry one after another, and each is taken or refused. What a registry
holds is determined by the scripts that were offered so far: under every known type, the first of
them that is written for it.

## Main definitions

* `SignalTypes.pick?` — the script of a type among those offered
* `Registry.Holds` — the registry holds what these scripts leave in it
* `Registry.offerAll` — scripts of several files offered in order

## Main results

* `Registry.refusal?_eq_none_iff` — what is taken: the first script of each known type
* `Registry.holds_register`, `Registry.holds_offerAll` — what a registry holds, step by step
* `Registry.length_notes_offerAll` — every script offered is in the registry or reported
-/

namespace SignalScript

/-! ### Keys of types -/

@[simp] theorem typeKey_trim (name : Text) : typeKey (Text.trim name) = typeKey name := by
  rw [typeKey, typeKey, Text.trim_trim]

namespace SignalTypes

/-- Every type is known under its own key. -/
def KeysAgree (types : SignalTypes) : Prop :=
  ∀ key canonical, types.byKey.get? key = some canonical → typeKey canonical = key

theorem keysAgree_insert {types : SignalTypes} (h : types.KeysAgree) (name : Text) :
    (types.insert name).KeysAgree := by
  rw [insert]
  split
  · intro key canonical hget
    rw [SortedMap.get?_insert] at hget
    split at hget
    · rename_i hkey
      obtain rfl := Option.some.inj hget
      rw [typeKey_trim, hkey]
    · exact h key canonical hget
  · exact h

/-- Every catalogue that is made of names knows its types under their own keys. -/
theorem keysAgree_ofNames (names : List Text) : (ofNames names).KeysAgree := by
  have hfold {types : SignalTypes} (h : types.KeysAgree) :
      (names.foldl insert types).KeysAgree := by
    induction names generalizing types with
    | nil => exact h
    | cons name names ih => exact ih (keysAgree_insert h name)
  exact hfold fun key canonical hget => by cases hget

variable {types : SignalTypes} {name other canonical : Text}

/-- The spelling under which a type is known is a name of the type. -/
theorem KeysAgree.typeKey_eq (h : types.KeysAgree)
    (hresolve : types.resolve? name = some canonical) :
    typeKey canonical = typeKey name := h _ _ hresolve

/-- Names with the same key resolve alike. -/
theorem resolve?_congr (h : typeKey name = typeKey other) :
    types.resolve? name = types.resolve? other := by
  rw [resolve?, resolve?, h]

/-- The script that a type has when `scripts` were offered in order: the first that is written for
it, if the type is known. -/
def pick? (types : SignalTypes) (scripts : List Script) (type : Text) : Option Script :=
  if (types.resolve? type).isSome then
    scripts.find? fun script => typeKey script.name = typeKey type
  else none

variable {scripts : List Script} {type : Text}

/-- A type that no script is written for has none. -/
theorem pick?_eq_none (h : ∀ script ∈ scripts, typeKey script.name ≠ typeKey type) :
    types.pick? scripts type = none := by
  rw [pick?, List.find?_eq_none.mpr (by simpa using h), ite_self]

theorem forall_of_pick? (hknown : (types.resolve? type).isSome = true)
    (h : types.pick? scripts type = none) :
    ∀ script ∈ scripts, typeKey script.name ≠ typeKey type := by
  rw [pick?, if_pos hknown] at h
  simpa using List.find?_eq_none.mp h

/-- One more script is picked if it is the first that is written for the type. -/
theorem pick?_append (types : SignalTypes) (scripts : List Script) (script : Script) (type : Text) :
    types.pick? (scripts ++ [script]) type =
      (types.pick? scripts type).or
        (if (types.resolve? type).isSome ∧ typeKey script.name = typeKey type then some script
        else none) := by
  simp only [pick?, List.find?_append, List.find?_singleton, decide_eq_true_eq]
  cases (types.resolve? type).isSome <;> simp

end SignalTypes

namespace Registry

/-- The registry holds what is left in it by `scripts`, offered in order. -/
def Holds (registry : Registry) (types : SignalTypes) (scripts : List Script) : Prop :=
  ∀ type, registry.get? type = types.pick? scripts type

variable {types : SignalTypes} {registry : Registry} {scripts : List Script} {script : Script}
  {file : String}

theorem holds_empty (types : SignalTypes) : empty.Holds types [] := by
  intro type
  simp only [SignalTypes.pick?, List.find?_nil, ite_self]
  rfl

/-- A script of a known type is refused if the type has a script. -/
theorem refusal?_of_resolve? {canonical : Text}
    (h : types.resolve? script.name = some canonical) :
    registry.refusal? types script =
      if registry.contains canonical then some (.duplicateScript canonical) else none := by
  simp only [refusal?, typeFor, h]
  cases registry.contains canonical <;> rfl

/-- A script of an unknown type is refused, whatever the registry holds. -/
theorem refusal?_of_unknown (h : types.resolve? script.name = none) :
    registry.refusal? types script = some (.unknownType (Text.trim script.name)) := by
  simp only [refusal?, typeFor, h]

/-- A script is taken if its type is known and no earlier script is written for it. -/
theorem refusal?_eq_none_iff (htypes : types.KeysAgree) (h : registry.Holds types scripts) :
    registry.refusal? types script = none ↔
      (types.resolve? script.name).isSome = true ∧
        ∀ earlier ∈ scripts, typeKey earlier.name ≠ typeKey script.name := by
  cases hresolve : types.resolve? script.name with
  | none => simp [refusal?_of_unknown hresolve]
  | some canonical =>
    have hkey := htypes.typeKey_eq hresolve
    have hcanonical : types.resolve? canonical = some canonical :=
      (SignalTypes.resolve?_congr hkey).trans hresolve
    rw [refusal?_of_resolve? hresolve]
    simp [contains, h canonical, SignalTypes.pick?, hcanonical, hkey]

/-- Refusals are reported as such. -/
theorem kind_of_refusal? {cause : Cause} (h : registry.refusal? types script = some cause) :
    cause.kind = .registration := by
  cases hresolve : types.resolve? script.name with
  | none =>
    rw [refusal?_of_unknown hresolve] at h
    obtain rfl := Option.some.inj h
    rfl
  | some canonical =>
    rw [refusal?_of_resolve? hresolve] at h
    obtain ⟨-, hcause⟩ := Option.ite_none_right_eq_some.mp h
    obtain rfl := Option.some.inj hcause
    rfl

/-- A script is taken if nothing speaks against it. -/
theorem snd_offer : (registry.offer types file script).value.2 = true ↔
    registry.refusal? types script = none := by
  rw [offer, refusal?]
  cases registry.typeFor types script with
  | ok canonical => exact ⟨fun _ => rfl, fun _ => rfl⟩
  | error cause => exact ⟨fun h => (by cases h), fun h => (by cases h)⟩

/-- A script that is refused leaves the registry as it is, and one diagnostic. -/
theorem register_of_refusal? {cause : Cause} (h : registry.refusal? types script = some cause) :
    registry.register types file script =
      ⟨registry, [⟨file, script.line, script.name, cause⟩]⟩ := by
  rw [refusal?] at h
  rw [register, offer]
  cases htype : registry.typeFor types script with
  | ok canonical =>
    rw [htype] at h
    cases h
  | error reason =>
    rw [htype] at h
    obtain rfl := Option.some.inj h
    rfl

/-- A script that is taken is filed under the spelling by which its type is known, which had no
script. -/
theorem exists_of_taken (h : registry.refusal? types script = none) (file : String) :
    ∃ canonical, types.resolve? script.name = some canonical ∧ registry.get? canonical = none ∧
      registry.register types file script =
        ⟨⟨registry.scripts.insert (typeKey canonical) script⟩, []⟩ := by
  cases hresolve : types.resolve? script.name with
  | none =>
    rw [refusal?_of_unknown hresolve] at h
    cases h
  | some canonical =>
    have hfree : registry.contains canonical = false := by
      simpa [refusal?_of_resolve? hresolve] using h
    refine ⟨canonical, rfl, by simpa [contains] using hfree, ?_⟩
    simp only [register, offer, typeFor, hresolve, hfree]
    rfl

/-- In a catalogue whose keys agree, the key of the known spelling is that of the script's own
name. -/
theorem register_of_taken (htypes : types.KeysAgree) (h : registry.refusal? types script = none) :
    registry.register types file script =
      ⟨⟨registry.scripts.insert (typeKey script.name) script⟩, []⟩ := by
  obtain ⟨canonical, hresolve, -, hregister⟩ := exists_of_taken h file
  rw [hregister, htypes.typeKey_eq hresolve]

/-- A type that has a script takes no other. -/
theorem get?_of_taken (htypes : types.KeysAgree) (h : registry.refusal? types script = none) :
    registry.get? script.name = none := by
  obtain ⟨canonical, hresolve, hnone, -⟩ := exists_of_taken h ""
  rwa [get?, ← htypes.typeKey_eq hresolve]

/-- One more script changes what is held as it should. -/
theorem holds_register (htypes : types.KeysAgree) (h : registry.Holds types scripts) (file : String)
    (script : Script) :
    (registry.register types file script).value.Holds types (scripts ++ [script]) := by
  intro type
  have htaken : registry.refusal? types script = none ↔ _ := refusal?_eq_none_iff htypes h
  rw [SignalTypes.pick?_append, ← h type]
  cases hrefusal : registry.refusal? types script with
  | none =>
    obtain ⟨hknown, hfirst⟩ := htaken.mp hrefusal
    have hget : (registry.register types file script).value.get? type =
        if typeKey script.name = typeKey type then some script else registry.get? type := by
      rw [register_of_taken htypes hrefusal]
      exact SortedMap.get?_insert _ _ _ _
    rw [hget]
    by_cases hkey : typeKey script.name = typeKey type
    · have hnone : registry.get? type = none := by
        rw [h type]
        refine SignalTypes.pick?_eq_none fun earlier hearlier => ?_
        exact hkey ▸ hfirst earlier hearlier
      rw [if_pos hkey, hnone, if_pos ⟨SignalTypes.resolve?_congr hkey ▸ hknown, hkey⟩]
      rfl
    · rw [if_neg hkey, if_neg (fun h => hkey h.2), Option.or_none]
  | some cause =>
    rw [register_of_refusal? hrefusal]
    by_cases hnew : (types.resolve? type).isSome = true ∧ typeKey script.name = typeKey type
    · -- The type is known, so an earlier script is written for it.
      obtain ⟨hknown, hkey⟩ := hnew
      have hsome : (registry.get? type).isSome = true := by
        rw [h type, Option.isSome_iff_ne_none]
        intro hnone
        have hfree := htaken.mpr
          ⟨SignalTypes.resolve?_congr hkey ▸ hknown,
            hkey ▸ SignalTypes.forall_of_pick? hknown hnone⟩
        rw [hrefusal] at hfree
        cases hfree
      rw [Option.or_of_isSome hsome]
    · rw [if_neg hnew, Option.or_none]

/-! ### Scripts offered in order -/

/-- The registry after scripts are offered in order, each with the name of its file. -/
def offerAll (registry : Registry) (types : SignalTypes) (offers : List (String × Script)) :
    Noted Diagnostic Registry :=
  offers.foldlM (fun registry offer => registry.register types offer.1 offer.2) registry

variable {offers front back : List (String × Script)}

theorem offerAll_cons (registry : Registry) (types : SignalTypes) (file : String)
    (script : Script) (later : List (String × Script)) :
    registry.offerAll types ((file, script) :: later) =
      registry.register types file script >>= fun registry => registry.offerAll types later := rfl

theorem offerAll_append (registry : Registry) (types : SignalTypes)
    (front back : List (String × Script)) :
    registry.offerAll types (front ++ back) =
      registry.offerAll types front >>= fun registry => registry.offerAll types back :=
  List.foldlM_append

/-- The scripts of one file are offered like those of several. -/
theorem registerAll_eq_offerAll (registry : Registry) (types : SignalTypes) (file : String)
    (scripts : List Script) :
    registry.registerAll types file scripts = registry.offerAll types (scripts.map (file, ·)) := by
  rw [registerAll, offerAll, List.foldlM_map]

/-- What a registry holds is what all scripts offered so far leave in it. -/
theorem holds_offerAll (htypes : types.KeysAgree) (h : registry.Holds types scripts)
    (offers : List (String × Script)) :
    (registry.offerAll types offers).value.Holds types (scripts ++ offers.map Prod.snd) := by
  induction offers generalizing registry scripts with
  | nil =>
    rw [List.map_nil, List.append_nil]
    exact h
  | cons offer later ih =>
    have hlater := ih (holds_register htypes h offer.1 offer.2)
    rwa [List.append_assoc] at hlater

/-- A script that is offered makes one script more, or one diagnostic. -/
theorem length_notes_register (htypes : types.KeysAgree) (registry : Registry) (file : String)
    (script : Script) :
    (registry.register types file script).notes.length +
      (registry.register types file script).value.size = registry.size + 1 := by
  cases hrefusal : registry.refusal? types script with
  | some cause =>
    rw [register_of_refusal? hrefusal]
    exact Nat.add_comm 1 _
  | none =>
    rw [register_of_taken htypes hrefusal]
    exact (Nat.zero_add _).trans (SortedMap.size_insert (get?_of_taken htypes hrefusal) script)

/-- Every script that is offered is in the registry or reported. -/
theorem length_notes_offerAll (htypes : types.KeysAgree) (registry : Registry)
    (offers : List (String × Script)) :
    (registry.offerAll types offers).notes.length + (registry.offerAll types offers).value.size =
      registry.size + offers.length := by
  induction offers generalizing registry with
  | nil => simp [offerAll]
  | cons offer later ih =>
    have hfirst := length_notes_register htypes registry offer.1 offer.2
    have hlater := ih (registry.register types offer.1 offer.2).value
    rw [offerAll_cons, Noted.notes_bind, Noted.value_bind, List.length_append, List.length_cons]
    omega

theorem kind_of_mem_register {diagnostic : Diagnostic}
    (h : diagnostic ∈ (registry.register types file script).notes) :
    diagnostic.kind = .registration := by
  cases hrefusal : registry.refusal? types script with
  | none =>
    obtain ⟨canonical, -, -, hregister⟩ := exists_of_taken hrefusal file
    rw [hregister] at h
    cases h
  | some cause =>
    rw [register_of_refusal? hrefusal] at h
    rw [List.mem_singleton.mp h]
    exact kind_of_refusal? hrefusal

/-- All that is noted when scripts are offered are refusals. -/
theorem kind_of_mem_offerAll {diagnostic : Diagnostic}
    (h : diagnostic ∈ (registry.offerAll types offers).notes) :
    diagnostic.kind = .registration := by
  induction offers generalizing registry with
  | nil => cases h
  | cons offer later ih =>
    rw [offerAll_cons, Noted.notes_bind] at h
    exact (List.mem_append.mp h).elim kind_of_mem_register ih

end Registry

end SignalScript
