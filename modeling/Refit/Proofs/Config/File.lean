import Refit.Proofs.Config.Merging

namespace Refit.Config

open OptionsOf

variable {disk : Disk} {path base : Path} {text : String} {config : Config}

/-- The output path in the file of a project, with the directory of the file. -/
def writtenOutput? (disk : Disk) (path : Path) : Option (Path × String) := do
  let file ← (locate disk path).toOption
  if disk.exists? file then
    let text ← (disk.readText file).toOption
    match entry (entries (← (parse text).toOption)) "output_path" with
    | .string output => some (file.parent, output)
    | _ => none
  else none

/-- What it is taken for. -/
def startingAt (base : Path) (text : String) : String :=
  if (Path.ofString text).isAbsolute then text else (base.join (Path.ofString text)).toString

theorem ofValue_output {value : Yaml.Value} (output : entry (entries value) "output_path" = .string text)
    (done : ofValue base value = .ok config) : config.outputPath = some (startingAt base text) := by
  cases value with
  | table listed =>
    obtain ⟨settings, chosen, done⟩ := bind_ok done
    cases chosen
    obtain ⟨_, _, done⟩ := bind_ok done
    obtain ⟨_, _, done⟩ := bind_ok done
    obtain ⟨_, read, done⟩ := bind_ok done
    rw [show entry listed "output_path" = .string text from output] at read
    cases read
    obtain ⟨_, _, done⟩ := bind_ok done
    obtain ⟨_, _, done⟩ := bind_ok done
    cases done
    rfl
  | _ => cases output

theorem locate_root {file : Path} (found : locate disk path = .ok file) : file.root = .slash := by
  unfold locate at found
  split at found
  · cases found
  · extract_lets file at found
    split at found <;> cases found
    rfl

theorem load_output (written : writtenOutput? disk path = some (base, text)) (loaded : load disk path = .ok config) :
    config.outputPath = some (startingAt base text) ∧ base.root = .slash := by
  unfold load at loaded
  unfold writtenOutput? at written
  obtain ⟨file, found, loaded⟩ := bind_ok loaded
  rw [found] at written
  dsimp only [Except.toOption, Option.bind_eq_bind, Option.bind_some] at written
  split at written
  · next there =>
    rw [if_pos there] at loaded
    obtain ⟨content, read, loaded⟩ := bind_ok loaded
    obtain ⟨value, parsed, loaded⟩ := bind_ok loaded
    rw [read] at written
    dsimp only [Option.bind_some] at written
    rw [parsed] at written
    dsimp only [Option.bind_some] at written
    split at written
    · next output =>
      cases written
      exact ⟨ofValue_output output loaded, @locate_root disk path file found⟩
    · cases written
  · cases written

theorem startingAt_absolute (text : String) (root : base.root = .slash) :
    (Path.ofString (startingAt base text)).isAbsolute = true := by
  unfold startingAt
  split
  · assumption
  · next relative =>
    have joined : (base.join (Path.ofString text)).root = .slash := by
      rw [Path.join, if_neg relative]
      exact root
    have chars := @Path.toList_toString (base.join (Path.ofString text)) (.inl (by simp [Path.isAbsolute, joined]))
    have slash (rest : List Char) : Path.rootOf (PathRoot.slash.text.toList ++ rest) ≠ .relative := by
      unfold Path.rootOf
      split <;> simp_all [PathRoot.text]
    rw [Path.isAbsolute, decide_eq_true_iff, Path.ofString, chars, joined]
    exact slash _

theorem resolveUser_absolute (absolute : path.isAbsolute = true) {place : Path}
    (done : disk.resolveUser path = .ok place) : place = disk.resolve path := by
  have same : disk.expandUser path = some path := by
    unfold Disk.expandUser
    split
    · next root _ => simp [Path.isAbsolute, root] at absolute
    · rfl
  obtain ⟨expanded, found, _, rfl⟩ := resolveUser_ok_iff.1 done
  rw [same] at found
  cases found
  rfl

theorem outputPath_of_ofSettings {settings : List (String × Json.Value)} {made : OptionsOf Json.Value}
    (named : Json.lookup settings "output_path" = some (.string text)) (absolute : (Path.ofString text).isAbsolute = true)
    (done : ofSettings disk settings = .ok made) : made.outputPath = (disk.resolve (Path.ofString text)).toString := by
  obtain ⟨_, ⟨_, place, is, _, resolved, rfl⟩, _⟩ := ofSettings_ok_iff.1 done
  rw [named] at is
  cases is
  exact congrArg Path.toString (resolveUser_absolute absolute resolved)

/-- Options from the file of a project are those that its output path would give as an override once it starts at
    the directory of the file. Such a path begins at the root, so no home is put in it. -/
theorem load_output_means (written : writtenOutput? disk path = some (base, text)) (old : Option String) :
    (do ofConfig disk (← load disk path) []) =
        (do ofConfig disk { ← load disk path with outputPath := old } [("output_path", .string (startingAt base text))]) ∧
      ∀ made, (do ofConfig disk (← load disk path) []) = .ok made →
        made.outputPath = (disk.resolve (Path.ofString (startingAt base text))).toString := by
  cases loaded : load disk path with
  | error fault => exact ⟨rfl, fun _ done => nomatch done⟩
  | ok config =>
    obtain ⟨output, root⟩ := load_output written loaded
    have absolute := startingAt_absolute text root
    have filled : (Json.Value.string (startingAt base text)).isTrue = true := by
      refine Bool.not_eq_true' _ ▸ Bool.eq_false_iff.2 (fun empty => ?_)
      rw [String.isEmpty_iff.1 empty] at absolute
      cases absolute
    have settled : settings config.options ((config.outputPath.map .string).getD .null) [] =
        Json.insert config.options "output_path" (.string (startingAt base text)) := by
      rw [output]
      exact if_pos filled
    dsimp only [bind, Except.bind, ofConfig]
    rw [settled]
    refine ⟨congrArg _ ?_, fun made done => ?_⟩
    · dsimp only [settings, List.foldl_cons, List.foldl_nil]
      split
      · rw [Json.insert_insert]
      · rfl
    · exact outputPath_of_ofSettings (by simp [Json.lookup_insert]) absolute done

/-- A project whose file names an output path. -/
def homely (output : String) : Disk :=
  { root := .directory [("work", .directory [(".uimigrate.yml", .file ("output_path: " ++ output).toUTF8.data.toList)])]
    workingDirectory := ["work"], homes := [("", "/home/ada")] }

theorem load_output_means_absolute :
    writtenOutput? (homely "/out") (Path.ofString ".") = some (⟨.slash, ["work"]⟩, "/out") ∧
      ∃ made, (do ofConfig (homely "/out") (← load (homely "/out") (Path.ofString ".")) []) = .ok made ∧
        made.outputPath = "/out" := by
  have written : writtenOutput? (homely "/out") (Path.ofString ".") = some (⟨.slash, ["work"]⟩, "/out") := by
    decide +kernel
  have same : ((homely "/out").resolve (Path.ofString (startingAt ⟨.slash, ["work"]⟩ "/out"))).toString = "/out" := by
    decide +kernel
  have succeeds : (do ofConfig (homely "/out") (← load (homely "/out") (Path.ofString ".")) []).toBool = true := by
    decide +kernel
  have means := (load_output_means written none).2
  generalize (do ofConfig (homely "/out") (← load (homely "/out") (Path.ofString ".")) []) = result at succeeds means ⊢
  cases result with
  | error fault => cases succeeds
  | ok made => exact ⟨written, made, rfl, (means made rfl).trans same⟩

/-- A home is put in a path that overrides, not in the same path in a file. -/
theorem load_output_unexpanded :
    (do
      let config ← load (homely "~/out") (Path.ofString ".")
      pure ((ofConfig (homely "~/out") config []).toOption.map OptionsOf.outputPath,
        (ofConfig (homely "~/out") config [("output_path", .string "~/out")]).toOption.map OptionsOf.outputPath)).toOption =
      some (some "/work/~/out", some "/home/ada/out") := by
  decide +kernel

end Refit.Config
