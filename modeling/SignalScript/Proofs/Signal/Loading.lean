import SignalScript.Proofs.Signal.Registration
import SignalScript.Proofs.Statement.Gathering

/-!
# Loading the scripts of a route

To load files is to offer their scripts one after another, file by file. The compiler reports what
lies in the text of a script, the registry what it refuses, and a file that cannot be read is
reported in its place; so every script is accounted for, and no file disturbs another.

## Main definitions

* `ScriptFile.offers`, `offersOf` — the scripts that files offer, each with the name of its file
* `Diagnostic.isRegistration` — a script was refused

## Main results

* `Registry.load_first` — what a load leaves in the registry and what it reports
-/

namespace SignalScript

/-! ### Diagnostics of the compiler -/

/-- What the compiler reports lies in the text of a script. -/
theorem isOfText_of_mem_compileSections {file : String} {sections : List Section}
    {diagnostic : Diagnostic} (h : diagnostic ∈ (compileSections file sections).notes) :
    diagnostic.cause.IsOfText := by
  induction sections with
  | nil => cases h
  | cons first later ih =>
    rw [compileSections, Noted.notes_bind, Noted.notes_bind, Noted.notes_pure,
      List.append_nil] at h
    rcases List.mem_append.mp h with h | h
    · obtain ⟨problem, hproblem, rfl⟩ := List.mem_map.mp h
      exact isOfText_readStatements _ _ problem hproblem
    · exact ih h

/-- The diagnostic says that a script was refused. -/
def Diagnostic.isRegistration (diagnostic : Diagnostic) : Bool :=
  diagnostic.kind = .registration

theorem not_isRegistration_of_mem_compile {file : String} {bytes : List UInt8}
    {diagnostic : Diagnostic} (h : diagnostic ∈ (compile file bytes).notes) :
    diagnostic.isRegistration = false := by
  have hcause := isOfText_of_mem_compileSections h
  rcases hcause with hkind | hkind <;> simp [Diagnostic.isRegistration, Diagnostic.kind, hkind]

/-! ### Files -/

/-- The scripts that a file offers, each with the name of the file. -/
def ScriptFile.offers (file : ScriptFile) : List (String × Script) :=
  match file.content with
  | .ok bytes => (compile file.path bytes).value.map (file.path, ·)
  | .error _ => []

/-- The scripts that files offer, in order. -/
def offersOf (files : List ScriptFile) : List (String × Script) := files.flatMap ScriptFile.offers

theorem offersOf_cons (file : ScriptFile) (later : List ScriptFile) :
    offersOf (file :: later) = file.offers ++ offersOf later := List.flatMap_cons

/-- The file can be read. -/
def ScriptFile.isReadable (file : ScriptFile) : Bool :=
  match file.content with
  | .ok _ => true
  | .error _ => false

theorem offersOf_readable (files : List ScriptFile) :
    offersOf (files.filter ScriptFile.isReadable) = offersOf files := by
  induction files with
  | nil => rfl
  | cons file files ih =>
    rw [List.filter_cons]
    cases hcontent : file.content with
    | ok bytes =>
      have hreadable : file.isReadable = true := by rw [ScriptFile.isReadable, hcontent]
      rw [if_pos hreadable, offersOf_cons, offersOf_cons, ih]
    | error error =>
      have hreadable : file.isReadable = false := by rw [ScriptFile.isReadable, hcontent]
      have hoffers : file.offers = [] := by rw [ScriptFile.offers, hcontent]
      rw [hreadable, if_neg Bool.false_ne_true, ih, offersOf_cons, hoffers, List.nil_append]

namespace Registry

variable {types : SignalTypes} {registry : Registry}

/-- The registry after the scripts of several files are offered in order. -/
def loadFrom (registry : Registry) (types : SignalTypes) (files : List ScriptFile) :
    Noted Diagnostic Registry :=
  files.foldlM (fun registry file => registry.loadFile types file) registry

theorem load_eq_loadFrom (types : SignalTypes) (files : List ScriptFile) :
    load types files = empty.loadFrom types files := rfl

theorem loadFrom_cons (registry : Registry) (types : SignalTypes) (file : ScriptFile)
    (later : List ScriptFile) :
    registry.loadFrom types (file :: later) =
      registry.loadFile types file >>= fun registry => registry.loadFrom types later := rfl

theorem loadFrom_append (registry : Registry) (types : SignalTypes) (front back : List ScriptFile) :
    registry.loadFrom types (front ++ back) =
      registry.loadFrom types front >>= fun registry => registry.loadFrom types back :=
  List.foldlM_append

/-- A file that cannot be read leaves the registry as it is, and one diagnostic. -/
theorem loadFile_of_error {file : ScriptFile} {error : ReadError} (h : file.content = .error error)
    (registry : Registry) (types : SignalTypes) :
    registry.loadFile types file =
      ⟨registry, [⟨file.path, 0, [], .unreadable file.path error⟩]⟩ := by
  rw [loadFile, h]
  rfl

/-- A file is loaded by offering its scripts. -/
theorem value_loadFile (registry : Registry) (types : SignalTypes) (file : ScriptFile) :
    (registry.loadFile types file).value = (registry.offerAll types file.offers).value := by
  cases hcontent : file.content with
  | ok bytes =>
    rw [loadFile, ScriptFile.offers, hcontent, ← registerAll_eq_offerAll]
    rfl
  | error error =>
    rw [loadFile_of_error hcontent, ScriptFile.offers, hcontent]
    rfl

/-- To load files is to offer their scripts. -/
theorem value_loadFrom (registry : Registry) (types : SignalTypes) (files : List ScriptFile) :
    (registry.loadFrom types files).value =
      (registry.offerAll types (offersOf files)).value := by
  induction files generalizing registry with
  | nil => rfl
  | cons file later ih =>
    rw [loadFrom_cons, Noted.value_bind, ih, value_loadFile, offersOf_cons, offerAll_append,
      Noted.value_bind]

/-- The compiler refuses no script, and the registry reports nothing else. -/
theorem countP_loadFile (registry : Registry) (types : SignalTypes) (file : ScriptFile) :
    (registry.loadFile types file).notes.countP Diagnostic.isRegistration =
      (registry.offerAll types file.offers).notes.length := by
  cases hcontent : file.content with
  | ok bytes =>
    rw [loadFile, ScriptFile.offers, hcontent]
    have hcompile : (compile file.path bytes).notes.countP Diagnostic.isRegistration = 0 :=
      List.countP_eq_zero.mpr fun diagnostic hmem => by
        simp [not_isRegistration_of_mem_compile hmem]
    have hoffered (offers : List (String × Script)) :
        (registry.offerAll types offers).notes.countP Diagnostic.isRegistration =
          (registry.offerAll types offers).notes.length :=
      List.countP_eq_length.mpr fun diagnostic hmem => decide_eq_true (kind_of_mem_offerAll hmem)
    simp only [loadSource, Noted.notes_bind, List.countP_append, hcompile, registerAll_eq_offerAll,
      hoffered, Nat.zero_add]
  | error error =>
    rw [loadFile_of_error hcontent, ScriptFile.offers, hcontent]
    rfl

/-- Every script that files offer is in the registry or reported. -/
theorem countP_loadFrom (htypes : types.KeysAgree) (registry : Registry) (files : List ScriptFile) :
    (registry.loadFrom types files).notes.countP Diagnostic.isRegistration +
      (registry.loadFrom types files).value.size = registry.size + (offersOf files).length := by
  induction files generalizing registry with
  | nil => exact Nat.zero_add _
  | cons file later ih =>
    have hfile := length_notes_offerAll htypes registry file.offers
    have hlater := ih (registry.loadFile types file).value
    rw [loadFrom_cons, Noted.notes_bind, Noted.value_bind, List.countP_append, countP_loadFile,
      offersOf_cons, List.length_append]
    rw [value_loadFile] at hlater ⊢
    omega

/-- A file that cannot be read is reported in its place, and does nothing else. -/
theorem loadFrom_unreadable {file : ScriptFile} {error : ReadError}
    (h : file.content = .error error) (registry : Registry) (types : SignalTypes)
    (front back : List ScriptFile) :
    (registry.loadFrom types (front ++ file :: back)).value =
        (registry.loadFrom types (front ++ back)).value ∧
      ∃ later, (registry.loadFrom types (front ++ back)).notes =
          (registry.loadFrom types front).notes ++ later ∧
        (registry.loadFrom types (front ++ file :: back)).notes =
          (registry.loadFrom types front).notes ++
            ⟨file.path, 0, [], .unreadable file.path error⟩ :: later := by
  simp only [loadFrom_append, loadFrom_cons, loadFile_of_error h, Noted.value_bind,
    Noted.notes_bind]
  exact ⟨trivial, _, rfl, rfl⟩

/-- Files are loaded by offering the scripts in them one after another. Afterwards every known type
has the first script that is written for it, and no other name has any; each script was taken if it
was the first for a known type, and otherwise changed nothing and was reported once. A file that
cannot be read is reported in its place and does nothing else. -/
theorem load_first (names : List Text) (files : List ScriptFile) :
    let types := SignalTypes.ofNames names
    let offers := offersOf files
    (load types files).value = (empty.offerAll types offers).value ∧
      (∀ type, (load types files).value.get? type = types.pick? (offers.map Prod.snd) type) ∧
      (∀ front file script back, offers = front ++ (file, script) :: back →
        let before := (empty.offerAll types front).value
        ((before.offer types file script).value.2 = true ↔
            before.refusal? types script = none) ∧
          (before.refusal? types script = none ↔
            (types.resolve? script.name).isSome = true ∧
              ∀ earlier ∈ front.map Prod.snd, typeKey earlier.name ≠ typeKey script.name) ∧
          (before.refusal? types script = none →
            (before.register types file script).notes = []) ∧
          ∀ cause, before.refusal? types script = some cause →
            cause.kind = .registration ∧
              before.register types file script =
                ⟨before, [⟨file, script.line, script.name, cause⟩]⟩) ∧
      (load types files).notes.countP Diagnostic.isRegistration + (load types files).value.size =
        offers.length ∧
      (∀ front file back error, files = front ++ file :: back → file.content = .error error →
        (load types files).value = (load types (front ++ back)).value ∧
          ∃ later, (load types (front ++ back)).notes = (load types front).notes ++ later ∧
            (load types files).notes = (load types front).notes ++
              ⟨file.path, 0, [], .unreadable file.path error⟩ :: later) ∧
      (load types files).value = (load types (files.filter ScriptFile.isReadable)).value := by
  intro types offers
  have htypes : types.KeysAgree := SignalTypes.keysAgree_ofNames names
  have hvalue (files : List ScriptFile) :
      (load types files).value = (empty.offerAll types (offersOf files)).value :=
    (congrArg Noted.value (load_eq_loadFrom types files)).trans (value_loadFrom empty types files)
  refine ⟨hvalue files, ?_, ?_, ?_, ?_, ?_⟩
  · rw [hvalue]
    exact holds_offerAll htypes (holds_empty types) offers
  · intro front file script back _ before
    have hbefore : before.Holds types (front.map Prod.snd) :=
      holds_offerAll htypes (holds_empty types) front
    exact ⟨snd_offer, refusal?_eq_none_iff htypes hbefore,
      fun htaken => congrArg Noted.notes (register_of_taken htypes htaken),
      fun cause hrefusal => ⟨kind_of_refusal? hrefusal, register_of_refusal? hrefusal⟩⟩
  · exact (countP_loadFrom htypes empty files).trans (Nat.zero_add _)
  · rintro front file back error rfl herror
    exact loadFrom_unreadable herror empty types front back
  · rw [hvalue, hvalue, offersOf_readable]

end Registry

end SignalScript
