import Refit.Proofs.Run.Marks

namespace Refit.Survey

variable {label text before rest literal : List Char} {quote : Char} {found : String}

/-- At its first occurrence in a text a label is followed by blanks and a literal in quotes. -/
def Labels (label : List Char) (quote : Char) (literal text : List Char) : Prop :=
  ∃ before blanks after, text = before ++ label ++ (blanks ++ quote :: (literal ++ quote :: after)) ∧
    (∀ c ∈ blanks, Text.isBlank c = true) ∧
    ∀ start stop, text = start ++ label ++ stop → before.length ≤ start.length

/-- A literal up to its first quote. -/
def unquoted (literal : List Char) : List Char := literal.takeWhile (fun c => !isQuote c)

theorem unquoted_eq_self (plain : ∀ c ∈ literal, isQuote c = false) : unquoted literal = literal := by
  refine List.takeWhile_eq_self_iff.2 (fun c member => ?_)
  rw [plain c member]
  rfl

theorem unquoted_append (quoted : isQuote quote = true) (after : List Char) :
    unquoted (literal ++ quote :: after) = unquoted literal := by
  induction literal with
  | nil => simp [unquoted, quoted]
  | cons c literal ih =>
    cases own : isQuote c with
    | true => simp [unquoted, own]
    | false => simpa [unquoted, own] using ih

theorem isBlank_quote (quoted : isQuote quote = true) : Text.isBlank quote = false := by
  rcases Bool.or_eq_true_iff.1 quoted with double | single
  · rw [of_decide_eq_true double]
    rfl
  · rw [of_decide_eq_true single]
    rfl

theorem literalHere_quoted {blanks after : List Char} (blank : ∀ c ∈ blanks, Text.isBlank c = true)
    (quoted : isQuote quote = true) (some : unquoted literal ≠ []) :
    literalHere (blanks ++ quote :: (literal ++ quote :: after)) = Option.some (String.ofList (unquoted literal)) := by
  have short : (unquoted literal).length < (literal ++ quote :: after).length := by
    have start : unquoted literal <+: literal := List.takeWhile_prefix _
    have := start.length_le
    simp only [List.length_append, List.length_cons]
    omega
  unfold literalHere
  rw [List.dropWhile_append_of_pos blank, List.dropWhile_cons_of_neg (by simp [isBlank_quote quoted])]
  dsimp only
  rw [← unquoted, unquoted_append quoted, if_pos]
  simpa [quoted, some] using short

theorem literalAfter_first (named : label ≠ [])
    (first : ∀ start stop, before ++ label ++ rest = start ++ label ++ stop → before.length ≤ start.length)
    (here : literalHere rest = some found) : literalAfter label (before ++ label ++ rest) = some found := by
  induction before with
  | nil =>
    obtain ⟨c, more, rfl⟩ := List.exists_cons_of_ne_nil named
    have start : (c :: more).isPrefixOf (c :: (more ++ rest)) = true :=
      List.isPrefixOf_iff_prefix.2 ⟨rest, rfl⟩
    simp [literalAfter, start, here]
  | cons c before ih =>
    have other : label.isPrefixOf (c :: (before ++ label ++ rest)) = false := by
      refine Bool.eq_false_iff.2 (fun start => ?_)
      obtain ⟨stop, same⟩ := List.isPrefixOf_iff_prefix.1 start
      exact absurd (first [] stop same.symm) (by simp)
    rw [List.cons_append, List.cons_append, literalAfter, other, if_neg Bool.false_ne_true]
    refine ih (fun start stop same => ?_)
    exact Nat.le_of_succ_le_succ (first (c :: start) stop (congrArg (c :: ·) same))

theorem literalHere_plain (here : literalHere text = some found) : ∀ c ∈ found.toList, isQuote c = false := by
  unfold literalHere at here
  split at here
  · dsimp only at here
    split at here
    · cases here
      intro c member
      rw [String.toList_ofList] at member
      simpa using List.mem_takeWhile_imp member
    · cases here
  · cases here

theorem literalAfter_plain (after : literalAfter label text = some found) :
    ∀ c ∈ found.toList, isQuote c = false := by
  induction text with
  | nil => cases after
  | cons c rest ih =>
    unfold literalAfter at after
    split at after
    · split at after
      · next here =>
        cases after
        exact literalHere_plain here
      · exact ih after
    · exact ih after

/-- What is found after a label is the literal there if it has no quotes inside, and what stands before the
    first of them if that is not empty. -/
def Cites (label text : List Char) (found : Option String) : Prop :=
  ∀ quote literal, isQuote quote = true → literal ≠ [] → Labels label quote literal text →
    (found = some (String.ofList literal) ↔ ∀ c ∈ literal, isQuote c = false) ∧
      (unquoted literal ≠ [] → found = some (String.ofList (unquoted literal)))

theorem cites_literalAfter (named : label ≠ []) (text : List Char) : Cites label text (literalAfter label text) := by
  intro quote literal quoted some labels
  have cut (part : unquoted literal ≠ []) :
      literalAfter label text = Option.some (String.ofList (unquoted literal)) := by
    obtain ⟨before, blanks, after, rfl, blank, first⟩ := labels
    exact literalAfter_first named first (literalHere_quoted blank quoted part)
  refine ⟨⟨fun found => by simpa using literalAfter_plain found, fun plain => ?_⟩, cut⟩
  have whole := unquoted_eq_self plain
  rw [cut (whole.symm ▸ some), whole]

theorem first_of_drop (clear : ∀ n < before.length, label.isPrefixOf (text.drop n) = false) (start stop : List Char)
    (same : text = start ++ label ++ stop) : before.length ≤ start.length := by
  refine Nat.le_of_not_lt (fun early => ?_)
  have none := clear start.length early
  rw [same, List.append_assoc, List.drop_left, List.isPrefixOf_iff_prefix.2 (List.prefix_append _ _)] at none
  cases none

variable {survey : Survey} {directory path : Path} {names below : List String} {page : String}

theorem pageOf_about (inside : path.relativeTo? survey.root = some names)
    (under : path.relativeTo? directory = some below) (read : survey.disk.readText path = .ok page) :
    ∃ made reading, survey.pageOf directory path = .ok (made, reading) ∧ made.about = aboutPage page := by
  have told : ∃ reading, survey.readUnit path (Path.ofNames names) = .ok reading ∧ reading.text = some page := by
    unfold readUnit
    rw [read]
    dsimp only
    split <;> exact ⟨_, rfl, rfl⟩
  obtain ⟨reading, unit, same⟩ := told
  unfold pageOf relative seenFrom
  rw [inside, under]
  dsimp only [bind, Except.bind]
  rw [unit]
  refine ⟨_, reading, rfl, ?_⟩
  rw [same]
  rfl

/-- A page has the literal after the label for its title, and if it mentions metadata, its description likewise; a
    literal with a quote inside is cut there. -/
theorem pageOf_cites (inside : path.relativeTo? survey.root = some names)
    (under : path.relativeTo? directory = some below) (read : survey.disk.readText path = .ok page) :
    ∃ made reading, survey.pageOf directory path = .ok (made, reading) ∧
      Cites "title:".toList page.toList made.about.title ∧
      (Text.contains page "meta" = true → Cites "description:".toList page.toList made.about.description) := by
  obtain ⟨made, reading, run, about⟩ := pageOf_about inside under read
  refine ⟨made, reading, run, fun quote literal quoted some labels => ?_, fun mentioned => ?_⟩
  · have mentioned : Text.contains page "title:" = true := by
      obtain ⟨before, blanks, after, same, _⟩ := labels
      exact Text.occursIn_iff.2 ⟨before, _, same.symm⟩
    rw [about, aboutPage, mentioned, Bool.or_true, if_pos rfl]
    exact cites_literalAfter (by decide) _ quote literal quoted some labels
  · rw [about, aboutPage, mentioned, Bool.true_or, if_pos rfl]
    exact cites_literalAfter (by decide) _

def homeText : String := "export const meta = \x7b title: 'Home', description: \"It's here\" \x7d;"

def home : Survey :=
  { disk :=
      { root := .directory [("project", .directory [("Home.tsx", .file (Text.Utf8.encode homeText))])]
        workingDirectory := []
        homes := [] }
    root := ⟨.slash, ["project"]⟩
    layout := { source := "" }
    rules := [] }

theorem home_title : Labels "title:".toList '\'' "Home".toList homeText.toList :=
  ⟨(homeText.toList.take 22), [' '], homeText.toList.drop 35, by decide +kernel, List.all_eq_true.1 rfl,
    first_of_drop (by decide +kernel)⟩

theorem home_description : Labels "description:".toList '"' "It's here".toList homeText.toList :=
  ⟨homeText.toList.take 37, [' '], homeText.toList.drop 61, by decide +kernel, List.all_eq_true.1 rfl,
    first_of_drop (by decide +kernel)⟩

def homePath : Path := ⟨.slash, ["project", "Home.tsx"]⟩

theorem home_read : home.disk.readText homePath = .ok homeText := by
  have told : (home.disk.readText homePath).toOption = some homeText := by decide +kernel
  cases read : home.disk.readText homePath with
  | error fault =>
    rw [read] at told
    cases told
  | ok text =>
    rw [read] at told
    exact congrArg Except.ok (Option.some.inj told)

theorem home_inside : homePath.relativeTo? home.root = some ["Home.tsx"] := by decide

theorem pageOf_cites_home :
    homePath.relativeTo? home.root = some ["Home.tsx"] ∧ home.disk.readText homePath = .ok homeText ∧
      ∃ made reading, home.pageOf home.root homePath = .ok (made, reading) ∧ made.about.title = some "Home" := by
  obtain ⟨made, reading, run, title, _⟩ := pageOf_cites home_inside home_inside home_read
  refine ⟨home_inside, home_read, made, reading, run, ?_⟩
  exact (title '\'' "Home".toList rfl (by decide) home_title).1.2 (by simp [isQuote])

/-- A literal is cut at a quote of the other kind. -/
theorem pageOf_cuts_description :
    Labels "description:".toList '"' "It's here".toList homeText.toList ∧ Text.contains homeText "meta" = true ∧
      ∃ made reading, home.pageOf home.root homePath = .ok (made, reading) ∧ made.about.description = some "It" := by
  have mentioned : Text.contains homeText "meta" = true := by decide +kernel
  obtain ⟨made, reading, run, about⟩ := pageOf_about home_inside home_inside home_read
  refine ⟨home_description, mentioned, made, reading, run, ?_⟩
  rw [about, aboutPage, mentioned, Bool.true_or, if_pos rfl]
  exact (cites_literalAfter (by decide) _ _ _ rfl (by decide) home_description).2 (by decide)

end Refit.Survey
