import Mathlib.Data.List.Induction
import Refit.Config.File
import Refit.Proofs.Exec
import Refit.Proofs.Files.Actions
import Refit.Proofs.Json.Entries

open List

namespace Refit.OptionsOf

variable {disk : Disk} {config : Config} {overrides : List (String × Json.Value)} {made : OptionsOf Json.Value}

def isGiven : Json.Value → Bool
  | .null => false
  | _ => true

/-- The value that overrides a setting. -/
def override? (overrides : List (String × Json.Value)) (name : String) : Option Json.Value :=
  Json.lookup (overrides.reverse.filter (isGiven ·.2)) name

/-- The value of a setting in a project. -/
def configured? (config : Config) (name : String) : Option Json.Value :=
  ((config.outputPath.filter (fun text => name = "output_path" && !text.isEmpty)).map .string).or
    (Json.lookup config.options name)

/-- The value that counts for a setting. -/
def effective (config : Config) (overrides : List (String × Json.Value)) (name : String) (fallback : Json.Value) :
    Json.Value :=
  ((override? overrides name).or (configured? config name)).getD fallback

def merged (config : Config) (overrides : List (String × Json.Value)) : List (String × Json.Value) :=
  settings config.options ((config.outputPath.map .string).getD .null) overrides

theorem override?_concat (key : String) (value : Json.Value) (name : String) :
    override? (overrides ++ [(key, value)]) name =
      if isGiven value ∧ key = name then some value else override? overrides name := by
  cases given : isGiven value <;> by_cases same : key = name <;> simp [override?, Json.lookup, given, same]

theorem merged_concat (key : String) (value : Json.Value) :
    merged config (overrides ++ [(key, value)]) =
      if isGiven value then Json.insert (merged config overrides) key value else merged config overrides := by
  simp only [merged, settings, foldl_append, foldl_cons, foldl_nil]
  cases value <;> rfl

theorem lookup_merged (config : Config) (overrides : List (String × Json.Value)) (name : String) :
    Json.lookup (merged config overrides) name = (override? overrides name).or (configured? config name) := by
  induction overrides using List.reverseRecOn with
  | nil =>
    rw [merged, settings, foldl_nil, configured?, show override? [] name = none from rfl, Option.none_or]
    cases config.outputPath with
    | none => rfl
    | some text =>
      have true : (Json.Value.string text).isTrue = !text.isEmpty := rfl
      by_cases same : name = "output_path" <;> cases empty : text.isEmpty <;>
        simp [true, empty, same, Json.lookup_insert, Option.filter]
  | append_singleton overrides last ih =>
    rw [merged_concat, override?_concat]
    cases given : isGiven last.2 with
    | false => simpa using ih
    | true =>
      by_cases same : last.1 = name
      · simp [Json.lookup_insert, same]
      · simp [Json.lookup_insert, same, Ne.symm same, ih]

/-- A word without blanks around it, in lower case. -/
def normal (value : Json.Value) : String := Text.lower (Text.trim (Json.plain value))

theorem choose_ok {name text : String} {choices : List String} {value : Json.Value} :
    Config.choose name choices value = .ok text ↔ normal value ∈ choices ∧ text = normal value := by
  unfold Config.choose
  dsimp only
  rw [← normal]
  split <;> simp_all [eq_comm]

/-- Options with these values: the flags as they are, the choices normalised. -/
def settle (value : String → Json.Value → Json.Value) (path : Path) : OptionsOf Json.Value :=
  { outputPath := path.toString
    preserveStructure := value "preserve_structure" (.bool false)
    createBackup := value "create_backup" (.bool false)
    migrateTests := value "migrate_tests" (.bool false)
    migrateStories := value "migrate_stories" (.bool false)
    convertToTypescript := value "convert_to_typescript" (.bool false)
    addLocalization := value "add_localization" (.bool false)
    addCompliance := value "add_compliance" (.bool false)
    platform := .ofName (normal (value "target_platform" (.string "react")))
    styling := .ofName (normal (value "target_styling" (.string "tailwind")))
    dryRun := value "dry_run" (.bool false) }

/-- The output path is that which the user means, and the choices are among those allowed. -/
structure Settles (disk : Disk) (value : String → Json.Value → Json.Value) (made : OptionsOf Json.Value) : Prop where
  output : ∃ text path, value "output_path" .null = .string text ∧ text ≠ "" ∧
    disk.resolveUser (Path.ofString text) = .ok path ∧ made = settle value path
  platform : normal (value "target_platform" (.string "react")) ∈ Platform.choices
  styling : normal (value "target_styling" (.string "tailwind")) ∈ TargetStyling.choices

theorem ofSettings_ok_iff {settings : List (String × Json.Value)} :
    ofSettings disk settings = .ok made ↔ (∀ key ∈ settings.map Prod.fst, key ∈ names) ∧
      Settles disk (fun name fallback => (Json.lookup settings name).getD fallback) made := by
  have known : (!((settings.map (·.1)).filter (fun name => !names.contains name)).isEmpty) = true ↔
      ¬ ∀ key ∈ settings.map Prod.fst, key ∈ names := by
    simp
  unfold ofSettings
  dsimp only
  constructor
  · intro done
    split at done
    · cases done
    · next all =>
      split at done
      · cases done
      · next nonempty =>
        obtain ⟨_, first, done⟩ := bind_ok done
        obtain ⟨_, second, done⟩ := bind_ok done
        obtain ⟨text, third, done⟩ := bind_ok done
        obtain ⟨path, resolved, done⟩ := bind_ok done
        cases done
        obtain ⟨allowed, rfl⟩ := choose_ok.1 first
        obtain ⟨permitted, rfl⟩ := choose_ok.1 second
        have output : (Json.lookup settings "output_path").getD .null = .string text := by
          revert third
          cases (Json.lookup settings "output_path").getD .null <;> simp [outputPath?]
        have filled : text ≠ "" := by
          rw [output] at nonempty
          simpa [Json.Value.isTrue] using nonempty
        exact ⟨not_not.1 (mt known.2 all), ⟨text, path, output, filled, resolved, by dsimp only [settle]⟩, allowed, permitted⟩
  · rintro ⟨all, ⟨text, path, output, filled, resolved, rfl⟩, allowed, permitted⟩
    have nonempty : ¬ (!((Json.lookup settings "output_path").getD .null).isTrue) = true := by
      rw [output]
      simpa [Json.Value.isTrue] using filled
    have third : outputPath? (.string text) = .ok text := rfl
    rw [if_neg (mt known.1 (not_not.2 all)), if_neg nonempty, output, choose_ok.2 ⟨allowed, rfl⟩,
      choose_ok.2 ⟨permitted, rfl⟩, third]
    dsimp only [bind, Except.bind]
    rw [resolved]
    dsimp only [settle, pure, Except.pure]

/-- What settings must be for options to be made of them. -/
structure Acceptable (disk : Disk) (config : Config) (overrides : List (String × Json.Value)) : Prop where
  configured : ∀ entry ∈ config.options, entry.1 ∈ names
  overriding : ∀ entry ∈ overrides, isGiven entry.2 = true → entry.1 ∈ names
  output : ∃ text expanded, effective config overrides "output_path" .null = .string text ∧ text ≠ "" ∧
    disk.expandUser (Path.ofString text) = some expanded ∧ ∀ name ∈ expanded.names, '\x00' ∉ name.toList
  platform : normal (effective config overrides "target_platform" (.string "react")) ∈ Platform.choices
  styling : normal (effective config overrides "target_styling" (.string "tailwind")) ∈ TargetStyling.choices

theorem keys_merged (config : Config) (overrides : List (String × Json.Value)) :
    (∀ key ∈ (merged config overrides).map Prod.fst, key ∈ names) ↔
      (∀ entry ∈ config.options, entry.1 ∈ names) ∧
        ∀ entry ∈ overrides, isGiven entry.2 = true → entry.1 ∈ names := by
  have listed : "output_path" ∈ names := by decide
  induction overrides using List.reverseRecOn with
  | nil =>
    rw [merged, settings, foldl_nil]
    split
    · simp only [Json.mem_keys_insert, forall_eq_or_imp, listed, true_and]
      simp
    · simp
  | append_singleton overrides last ih =>
    rw [merged_concat, forall_mem_append, forall_mem_singleton, ← and_assoc]
    split
    · next given =>
      simp only [Json.mem_keys_insert, forall_eq_or_imp, given, forall_const, ih]
      exact and_comm
    · next absent => simpa [absent] using ih

theorem resolveUser_ok_iff {path resolved : Path} :
    disk.resolveUser path = .ok resolved ↔ ∃ expanded, disk.expandUser path = some expanded ∧
      (∀ name ∈ expanded.names, '\x00' ∉ name.toList) ∧ resolved = disk.resolve expanded := by
  unfold Disk.resolveUser
  cases disk.expandUser path with
  | none => simp
  | some expanded =>
    have clear : expanded.names.any (·.toList.contains '\x00') = true ↔
        ¬ ∀ name ∈ expanded.names, '\x00' ∉ name.toList := by simp
    simp only [clear, Option.some.injEq, exists_eq_left']
    split
    · next null => simp [null]
    · next none =>
      rw [and_iff_right (not_not.1 none), Except.ok.injEq]
      exact eq_comm

theorem ofConfig_ok_iff : ofConfig disk config overrides = .ok made ↔
    ((∀ entry ∈ config.options, entry.1 ∈ names) ∧ ∀ entry ∈ overrides, isGiven entry.2 = true → entry.1 ∈ names) ∧
      Settles disk (effective config overrides) made := by
  have value : (fun name fallback => (Json.lookup (merged config overrides) name).getD fallback) =
      effective config overrides := by
    funext name fallback
    rw [lookup_merged, effective]
  rw [← keys_merged, ← value]
  exact ofSettings_ok_iff

theorem ofConfig_accepts :
    (∃ made, ofConfig disk config overrides = .ok made) ↔ Acceptable disk config overrides := by
  refine ⟨fun ⟨made, done⟩ => ?_, fun accepts => ?_⟩
  · obtain ⟨⟨configured, overriding⟩, ⟨text, path, output, filled, resolved, _⟩, platform, styling⟩ := ofConfig_ok_iff.1 done
    obtain ⟨expanded, found, clear, _⟩ := resolveUser_ok_iff.1 resolved
    exact ⟨configured, overriding, ⟨text, expanded, output, filled, found, clear⟩, platform, styling⟩
  · obtain ⟨configured, overriding, ⟨text, expanded, output, filled, found, clear⟩, platform, styling⟩ := accepts
    have resolved := resolveUser_ok_iff.2 ⟨expanded, found, clear, rfl⟩
    exact ⟨_, ofConfig_ok_iff.2 ⟨⟨configured, overriding⟩, ⟨text, _, output, filled, resolved, rfl⟩, platform, styling⟩⟩

theorem override?_of_mem {name : String} {value : Json.Value} (once : (overrides.map Prod.fst).Nodup)
    (member : (name, value) ∈ overrides) (given : isGiven value = true) : override? overrides name = some value := by
  have part : ((overrides.reverse.filter (isGiven ·.2)).map Prod.fst).Sublist (overrides.map Prod.fst).reverse :=
    map_reverse ▸ filter_sublist.map Prod.fst
  exact Json.lookup_of_mem ((nodup_reverse.2 once).sublist part) (by simp [member, given])

theorem given_of_override? {name : String} {value : Json.Value} (found : override? overrides name = some value) :
    (name, value) ∈ overrides ∧ isGiven value = true := by
  simpa using Json.mem_of_lookup found

theorem effective_again {entries : List (String × Json.Value)} {name : String} {fallback : Json.Value}
    (once : (entries.map Prod.fst).Nodup) (member : (name, effective config overrides name fallback) ∈ entries) :
    effective config entries name fallback = effective config overrides name fallback := by
  cases given : isGiven (effective config overrides name fallback) with
  | true => rw [effective, override?_of_mem once member given, Option.some_or, Option.getD_some]
  | false =>
    have none : override? entries name = .none := by
      refine Option.eq_none_iff_forall_ne_some.2 (fun value found => ?_)
      obtain ⟨there, is⟩ := given_of_override? found
      obtain ⟨_, same⟩ := Prod.mk.inj (inj_on_of_nodup_map once there member rfl)
      simp [same, given] at is
    cases found : override? overrides name with
    | none => rw [effective, effective, none, found]
    | some value =>
      have is := (given_of_override? found).2
      simp [effective, found, is] at given

theorem clear_resolve {path : Path} (start : ∀ name ∈ disk.workingDirectory, '\x00' ∉ name.toList)
    (clear : ∀ name ∈ path.names, '\x00' ∉ name.toList) : ∀ name ∈ (disk.resolve path).names, '\x00' ∉ name.toList := by
  intro name member
  rcases Disk.mem_of_mem_flatten member with impossible | member
  · cases impossible
  · unfold Disk.absoluteNames at member
    split at member
    · exact clear name member
    · exact (mem_append.1 member).elim (start name) (clear name)

/-- All fields of options, with their names. -/
def fields (made : OptionsOf Json.Value) : List (String × Json.Value) :=
  [("output_path", .string made.outputPath),
   ("preserve_structure", made.preserveStructure),
   ("create_backup", made.createBackup),
   ("migrate_tests", made.migrateTests),
   ("migrate_stories", made.migrateStories),
   ("convert_to_typescript", made.convertToTypescript),
   ("add_localization", made.addLocalization),
   ("add_compliance", made.addCompliance),
   ("target_platform", .string made.platform.name),
   ("target_styling", .string made.styling.name),
   ("dry_run", made.dryRun)]

theorem fields_keys (made : OptionsOf Json.Value) :
    (made.fields.map Prod.fst).Nodup ∧ ∀ entry ∈ made.fields, entry.1 ∈ names := by
  rw [← forall_mem_map (P := (· ∈ names))]
  have keys : made.fields.map Prod.fst = ["output_path", "preserve_structure", "create_backup", "migrate_tests",
      "migrate_stories", "convert_to_typescript", "add_localization", "add_compliance", "target_platform",
      "target_styling", "dry_run"] := rfl
  rw [keys]
  decide

theorem fields_texts (config : Config) (made : OptionsOf Json.Value) (fallback : Json.Value) :
    effective config made.fields "output_path" fallback = .string made.outputPath ∧
      effective config made.fields "target_platform" fallback = .string made.platform.name ∧
      effective config made.fields "target_styling" fallback = .string made.styling.name := by
  have text {name text : String} (member : (name, .string text) ∈ made.fields) :
      effective config made.fields name fallback = .string text := by
    rw [effective, override?_of_mem made.fields_keys.1 member rfl]
    rfl
  refine ⟨text ?_, text ?_, text ?_⟩ <;> simp [fields]

theorem settle_congr {value other : String → Json.Value → Json.Value} (path : Path)
    (flags : ∀ name ∈ Config.flagNames, value name (.bool false) = other name (.bool false))
    (platform : normal (value "target_platform" (.string "react")) = normal (other "target_platform" (.string "react")))
    (styling : normal (value "target_styling" (.string "tailwind")) =
      normal (other "target_styling" (.string "tailwind"))) : settle value path = settle other path := by
  simp only [Config.flagNames, forall_mem_cons] at flags
  simp only [settle, flags, platform, styling]

theorem ofConfig_again (start : ∀ name ∈ disk.workingDirectory, Path.ValidName name ∧ '\x00' ∉ name.toList)
    (done : ofConfig disk config overrides = .ok made) : ofConfig disk config made.fields = .ok made := by
  obtain ⟨⟨configured, _⟩, ⟨text, path, _, _, resolved, is⟩, platform, styling⟩ := ofConfig_ok_iff.1 done
  have upright := Disk.resolved_of_resolveUser (fun name member => (start name member).1) (Path.ofString_valid text) resolved
  have again : disk.resolveUser (Path.ofString path.toString) = .ok path := by
    obtain ⟨expanded, _, clear, rfl⟩ := resolveUser_ok_iff.1 resolved
    rw [Path.ofString_toString upright.valid, Disk.resolveUser_resolved disk upright, if_neg]
    simpa using clear_resolve (fun name member => (start name member).2) clear
  have filled : path.toString ≠ "" := by
    have absolute : path.isAbsolute = true := by simp [Path.isAbsolute, upright.root]
    simpa using Path.toString_isEmpty absolute
  have output : effective config made.fields "output_path" .null = .string path.toString := by
    rw [(fields_texts config made _).1, is]
    dsimp only [settle]
  have flags : ∀ name ∈ Config.flagNames, effective config overrides name (.bool false) =
      effective config made.fields name (.bool false) := by
    have listed : ∀ name ∈ Config.flagNames,
        (name, effective config overrides name (.bool false)) ∈ made.fields := by
      simp [is, Config.flagNames, fields, settle]
    exact fun name flag => (effective_again made.fields_keys.1 (listed name flag)).symm
  have first : normal (effective config overrides "target_platform" (.string "react")) =
      normal (effective config made.fields "target_platform" (.string "react")) := by
    have kept : ∀ text ∈ Platform.choices, text = normal (.string (Platform.ofName text).name) := by decide +kernel
    rw [(fields_texts config made _).2.1, is]
    dsimp only [settle]
    exact kept _ platform
  have second : normal (effective config overrides "target_styling" (.string "tailwind")) =
      normal (effective config made.fields "target_styling" (.string "tailwind")) := by
    have kept : ∀ text ∈ TargetStyling.choices, text = normal (.string (TargetStyling.ofName text).name) := by
      decide +kernel
    rw [(fields_texts config made _).2.2, is]
    dsimp only [settle]
    exact kept _ styling
  refine ofConfig_ok_iff.2 ⟨⟨configured, fun entry member _ => made.fields_keys.2 entry member⟩,
    ⟨path.toString, path, output, filled, again, ?_⟩, first ▸ platform, second ▸ styling⟩
  exact is.trans (settle_congr path flags first second)

/-- Options are made of exactly the acceptable settings. They hold what counts for each setting, and override
    themselves with no change. -/
theorem ofConfig_merges (start : ∀ name ∈ disk.workingDirectory, Path.ValidName name ∧ '\x00' ∉ name.toList) :
    ((∃ made, ofConfig disk config overrides = .ok made) ↔ Acceptable disk config overrides) ∧
      ∀ made, ofConfig disk config overrides = .ok made →
        Settles disk (effective config overrides) made ∧ ofConfig disk config made.fields = .ok made :=
  ⟨ofConfig_accepts, fun _ done => ⟨(ofConfig_ok_iff.1 done).2, ofConfig_again start done⟩⟩

def desk : Disk := { root := .directory [], workingDirectory := ["work"], homes := [("", "/home/ada")] }

def shop : Config := { root := ⟨.slash, ["work"]⟩, outputPath := some "~/shop", options := [("dry_run", .bool true)] }

theorem ofConfig_merges_shop :
    ∃ made, ofConfig desk shop [("target_platform", .string " NextJS "), ("dry_run", .null)] = .ok made ∧
      Settles desk (effective shop [("target_platform", .string " NextJS "), ("dry_run", .null)]) made ∧
      ofConfig desk shop made.fields = .ok made := by
  have merges := @ofConfig_merges desk shop [("target_platform", .string " NextJS "), ("dry_run", .null)] (by decide +kernel)
  obtain ⟨made, done⟩ := merges.1.2 ⟨by decide, by decide, ⟨"~/shop", ⟨.slash, ["home", "ada", "shop"]⟩, rfl, by decide,
    by decide +kernel, by decide⟩, by decide +kernel, by decide +kernel⟩
  exact ⟨made, done, merges.2 made done⟩

def astray : Config := { shop with outputPath := some "~bob/shop" }

/-- Known settings, a path and allowed choices are not enough: the home that the path begins at may be unknown. -/
theorem ofConfig_without_home :
    (∀ made, ofConfig desk astray [] ≠ .ok made) ∧ (∀ entry ∈ astray.options, entry.1 ∈ names) ∧
      effective astray [] "output_path" .null = .string "~bob/shop" ∧
      normal (effective astray [] "target_platform" (.string "react")) ∈ Platform.choices ∧
      normal (effective astray [] "target_styling" (.string "tailwind")) ∈ TargetStyling.choices := by
  have unknown : desk.expandUser (Path.ofString "~bob/shop") = none := by decide +kernel
  refine ⟨fun made done => ?_, by decide, rfl, by decide +kernel, by decide +kernel⟩
  obtain ⟨_, _, output, _, found, _⟩ := (ofConfig_accepts.1 ⟨made, done⟩).output
  cases output
  cases unknown.symm.trans found

end Refit.OptionsOf
