import Mathlib.Data.List.Forall2
import Mathlib.Data.List.TakeWhile
import Refit.Proofs.Files.Path

open List

namespace Refit.Text

variable {c : Char} {text low : List Char}

variable {separator : Char → Bool}

theorem splitChars_ne_nil (text : List Char) : splitChars separator text ≠ [] := by
  cases text with
  | nil => simp [splitChars]
  | cons c rest =>
    simp only [splitChars]
    split
    · simp
    · split <;> simp

theorem splitChars_plain {letters text piece : List Char} {others : List (List Char)}
    (plain : ∀ c ∈ letters, separator c = false) (pieces : splitChars separator text = piece :: others) :
    splitChars separator (letters ++ text) = (letters ++ piece) :: others := by
  induction letters with
  | nil => exact pieces
  | cons c rest ih =>
    simp only [cons_append, splitChars, plain c (by simp), ih (fun d member => plain d (by simp [member]))]
    rfl

theorem splitChars_at (first second : List Char) (is : separator c = true) :
    splitChars separator (first ++ c :: second) = splitChars separator first ++ splitChars separator second := by
  induction first with
  | nil => simp [splitChars, is]
  | cons head rest ih =>
    simp only [cons_append, splitChars]
    by_cases cut : separator head = true
    · simp [cut, ih]
    · cases pieces : splitChars separator rest with
      | nil => exact absurd pieces (splitChars_ne_nil rest)
      | cons piece others => simp [cut, ih, pieces]

theorem exists_mem_splitChars {text : List Char} {c : Char} (member : c ∈ text) (plain : separator c = false) :
    ∃ piece ∈ splitChars separator text, c ∈ piece := by
  induction text with
  | nil => cases member
  | cons d rest ih =>
    simp only [splitChars]
    cases pieces : splitChars separator rest with
    | nil => exact absurd pieces (splitChars_ne_nil rest)
    | cons piece others =>
      rw [pieces] at ih
      rcases mem_cons.1 member with rfl | later
      · simp [plain]
      · obtain ⟨found, listed, inside⟩ := ih later
        split
        · exact ⟨found, mem_cons_of_mem _ listed, inside⟩
        · rcases mem_cons.1 listed with rfl | listed
          · exact ⟨d :: found, by simp, mem_cons_of_mem _ inside⟩
          · exact ⟨found, mem_cons_of_mem _ listed, inside⟩

/-- Where a piece of a text stands: between separators, unless it is the first or the last one. -/
theorem around_piece {text piece : List Char} {earlier later : List (List Char)}
    (pieces : splitChars separator text = earlier ++ piece :: later) :
    ∃ before after, text = before ++ piece ++ after ∧
      (if earlier = [] then before = [] else ∃ front c, separator c = true ∧ before = front ++ [c]) ∧
      (if later = [] then after = [] else ∃ c back, separator c = true ∧ after = c :: back) := by
  induction text generalizing earlier piece with
  | nil =>
    have single : [[]] = earlier ++ piece :: later := pieces
    cases earlier with
    | nil =>
      obtain ⟨rfl, rfl⟩ := List.cons.inj single
      exact ⟨[], [], rfl, rfl, rfl⟩
    | cons head rest => simp at single
  | cons c rest ih =>
    simp only [splitChars] at pieces
    split at pieces
    · next cut =>
        cases earlier with
        | nil =>
          obtain ⟨rfl, rfl⟩ := List.cons.inj pieces
          refine ⟨[], c :: rest, rfl, rfl, ?_⟩
          rw [if_neg (splitChars_ne_nil rest)]
          exact ⟨c, rest, cut, rfl⟩
        | cons head others =>
          obtain ⟨rfl, tail⟩ := List.cons.inj pieces
          obtain ⟨before, after, same, left, right⟩ := ih tail
          refine ⟨c :: before, after, by rw [same]; rfl, ?_, right⟩
          split at left
          · exact ⟨[], c, cut, by rw [left]; rfl⟩
          · obtain ⟨front, d, is, rfl⟩ := left
            exact ⟨c :: front, d, is, rfl⟩
    · cases inner : splitChars separator rest with
      | nil => exact absurd inner (splitChars_ne_nil rest)
      | cons first others =>
        rw [inner] at pieces ih
        cases earlier with
        | nil =>
          obtain ⟨rfl, rfl⟩ := List.cons.inj pieces
          obtain ⟨before, after, same, left, right⟩ := @ih first [] rfl
          obtain rfl : before = [] := left
          exact ⟨[], after, by rw [same]; rfl, rfl, right⟩
        | cons head tail =>
          obtain ⟨rfl, rfl⟩ := List.cons.inj pieces
          obtain ⟨before, after, same, left, right⟩ := @ih piece (first :: tail) rfl
          obtain ⟨front, d, is, rfl⟩ := left
          refine ⟨c :: (front ++ [d]), after, by rw [same]; rfl, ?_, right⟩
          exact ⟨c :: front, d, is, rfl⟩

theorem inner_piece {text piece : List Char} {earlier later : List (List Char)} (some : earlier ≠ []) (more : later ≠ [])
    (pieces : splitChars (· = '/') text = earlier ++ piece :: later) : '/' :: piece ++ ['/'] <:+: text := by
  obtain ⟨before, after, rfl, left, right⟩ := around_piece pieces
  rw [if_neg some] at left
  rw [if_neg more] at right
  obtain ⟨front, c, isLeft, rfl⟩ := left
  obtain ⟨d, back, isRight, rfl⟩ := right
  obtain rfl : c = '/' := by simpa using isLeft
  obtain rfl : d = '/' := by simpa using isRight
  exact ⟨front, back, by simp⟩

theorem dots_mem_splitChars (member : ['.', '.'] ∈ splitChars (· = '/') text) :
    ['.', '.', '/'] <+: text ∨ ['/', '.', '.', '/'] <:+: text ∨ ['.', '.'] <:+ text := by
  obtain ⟨earlier, later, pieces⟩ := append_of_mem member
  obtain ⟨before, after, rfl, left, right⟩ := around_piece pieces
  split at right
  · subst right
    exact .inr (.inr ⟨before, by simp⟩)
  · obtain ⟨d, back, isRight, rfl⟩ := right
    obtain rfl : d = '/' := by simpa using isRight
    split at left
    · subst left
      exact .inl ⟨back, by simp⟩
    · obtain ⟨front, c, isLeft, rfl⟩ := left
      obtain rfl : c = '/' := by simpa using isLeft
      exact .inr (.inl ⟨front, back, by simp⟩)

theorem exists_dropEnd_append (property : Char → Bool) (text : List Char) :
    ∃ ending, dropEnd property text ++ ending = text ∧ ∀ c ∈ ending, property c = true := by
  refine ⟨(text.reverse.takeWhile property).reverse, ?_, fun c member => ?_⟩
  · rw [dropEnd, ← reverse_append, takeWhile_append_dropWhile, reverse_reverse]
  · exact mem_takeWhile_imp (mem_reverse.1 member)

/-- Characters that the names of routes and files are made up with. -/
def marks : List Char := ['.', '/', '\\', '[', ']', '$', '_']

/-- How the characters of a text become small: marks stay, and nothing else becomes one. -/
inductive Lowers : List Char → List Char → Prop
  | nil : Lowers [] []
  | mark {c : Char} {text low : List Char} (is : c ∈ marks) (rest : Lowers text low) : Lowers (c :: text) (c :: low)
  | letter {c : Char} {letters text low : List Char} (isNot : c ∉ marks) (some : letters ≠ [])
      (plain : ∀ d ∈ letters, d ∉ marks) (rest : Lowers text low) : Lowers (c :: text) (letters ++ low)

theorem ofNat_ne {n : Nat} (large : 97 ≤ n) (small : 0 < c.toNat ∧ c.toNat < 97) : Char.ofNat n ≠ c := by
  rintro rfl
  by_cases valid : n.isValidChar
  · have code : (Char.ofNat n).toNat = n := congrArg Char.toNat (dif_pos valid)
    omega
  · have code : (Char.ofNat n).toNat = 0 := congrArg Char.toNat (dif_neg valid)
    omega

/-- A property of the characters of ASCII can be tried on their codes. -/
@[elab_as_elim]
theorem forall_ascii {property : Char → Prop} (c : Char) (ascii : c.toNat < 128)
    (all : ∀ n < 128, property (Char.ofNat n)) : property c := by
  have own := all c.toNat ascii
  rwa [Char.ofNat_toNat] at own

theorem ascii_of_isAlphanum (letter : c.isAlphanum = true) : c.toNat < 128 := by
  obtain alpha | digit := Bool.or_eq_true_iff.1 letter
  · obtain upper | lower := Bool.or_eq_true_iff.1 alpha
    · exact Nat.lt_of_le_of_lt (of_decide_eq_true upper).2 (by decide)
    · exact Nat.lt_of_le_of_lt (of_decide_eq_true (Bool.and_eq_true_iff.1 lower).2) (by decide)
  · exact Nat.lt_of_le_of_lt (of_decide_eq_true (Bool.and_eq_true_iff.1 digit).2) (by decide)

theorem lowercaseRuns_large : ∀ run ∈ lowercaseRuns, (97 : Int) ≤ run.1 + run.2.2.2 := by decide +kernel

/-- Outside of ASCII no character becomes one before the small letters. -/
theorem lowerChar_large (foreign : ¬ c.toNat < 128) : ∃ n, 97 ≤ n ∧ lowerChar c = Char.ofNat n := by
  unfold lowerChar
  rw [if_neg foreign]
  split
  · next first last step distance found =>
      have large := lowercaseRuns_large _ (mem_of_find?_eq_some found)
      have within := List.find?_some found
      simp only [Bool.and_eq_true, decide_eq_true_eq] at within large
      exact ⟨_, by omega, rfl⟩
  · exact ⟨c.toNat, by omega, (Char.ofNat_toNat c).symm⟩

theorem lowerChar_marks (c : Char) : c ∈ marks ∧ lowerChar c = c ∨ c ∉ marks ∧ lowerChar c ∉ marks := by
  by_cases ascii : c.toNat < 128
  · exact forall_ascii c ascii (by decide +kernel)
  · have small : ∀ c ∈ marks, 0 < c.toNat ∧ c.toNat < 97 := by simp [marks]
    obtain ⟨n, large, low⟩ := lowerChar_large ascii
    refine .inr ⟨fun mark => ?_, fun mark => ofNat_ne large (small _ mark) low.symm⟩
    have bound := (small c mark).2
    omega

theorem colon_of_lowerChar (low : lowerChar c = ':') : c = ':' := by
  by_cases ascii : c.toNat < 128
  · revert low
    exact forall_ascii c ascii (by decide +kernel)
  · obtain ⟨n, large, same⟩ := lowerChar_large ascii
    exact absurd (same.symm.trans low) (ofNat_ne large (by decide))

theorem colon_of_lowerChars {before : List Char} (starts : (lowerChars before text).head? = some ':') :
    text.head? = some ':' := by
  cases text with
  | nil => cases starts
  | cons c rest =>
    simp only [lowerChars] at starts
    split at starts
    · split at starts <;> simp at starts
    · split at starts
      · simp at starts
      · have low : lowerChar c = ':' := by simpa using starts
        simp [colon_of_lowerChar low]

theorem lowers_lowerChars (before text : List Char) : Lowers text (lowerChars before text) := by
  induction text generalizing before with
  | nil => exact .nil
  | cons c rest ih =>
    simp only [lowerChars]
    by_cases sigma : c = 'Σ'
    · subst sigma
      rw [if_pos rfl]
      split <;> exact .letter (by simp [marks]) (by simp) (by simp [marks]) (ih _)
    · rw [if_neg sigma]
      by_cases dotted : c = 'İ'
      · subst dotted
        exact .letter (by simp [marks]) (by simp) (by simp [marks]) (ih _)
      · rw [if_neg dotted]
        rcases lowerChar_marks c with ⟨mark, same⟩ | ⟨plain, low⟩
        · rw [same]
          exact .mark mark (ih _)
        · exact .letter plain (by simp) (by simpa using low) (ih _)

theorem Lowers.refl (text : List Char) : Lowers text text := by
  induction text with
  | nil => exact .nil
  | cons c rest ih =>
    by_cases mark : c ∈ marks
    · exact .mark mark ih
    · exact .letter mark (cons_ne_nil c []) (by simpa using mark) ih

theorem Lowers.filter (lowers : Lowers text low) : low.filter (· ∈ marks) = text.filter (· ∈ marks) := by
  induction lowers with
  | nil => rfl
  | mark is _ ih => simp [is, ih]
  | @letter c letters text low isNot _ plain _ ih =>
    have none : letters.filter (· ∈ marks) = [] := filter_eq_nil_iff.2 (by simpa using plain)
    rw [filter_append, none, filter_cons_of_neg (by simpa using isNot), ih, nil_append]

theorem Lowers.head (lowers : Lowers text low) (mark : c ∈ marks) (starts : low.head? = some c) :
    text.head? = some c := by
  cases lowers with
  | nil => cases starts
  | mark _ _ => exact starts
  | @letter d letters text low _ some plain _ =>
    cases letters with
    | nil => exact absurd rfl some
    | cons first others =>
      obtain rfl : first = c := by simpa using starts
      exact absurd mark (plain first (by simp))

theorem Lowers.eq_nil (lowers : Lowers text []) : text = [] := by
  generalize same : ([] : List Char) = low at lowers
  cases lowers with
  | nil => rfl
  | mark => cases same
  | letter _ some => exact absurd (append_eq_nil_iff.1 same.symm).1 some

theorem Lowers.getLast (lowers : Lowers text low) (mark : c ∈ marks) (ends : low.getLast? = some c) :
    text.getLast? = some c := by
  induction lowers with
  | nil => cases ends
  | @mark d text low _ rest ih =>
    cases last : low.getLast? with
    | none =>
      obtain rfl := List.getLast?_eq_none_iff.1 last
      obtain rfl := rest.eq_nil
      exact ends
    | some e =>
      have same : e = c := by simpa [List.getLast?_cons, last] using ends
      simp [List.getLast?_cons, ih (last.trans (congrArg some same))]
  | @letter d letters text low _ _ plain _ ih =>
    cases last : low.getLast? with
    | none =>
      rw [List.getLast?_append, last] at ends
      exact absurd mark (plain c (mem_of_getLast? ends))
    | some e =>
      have same : e = c := by simpa [last] using ends
      simp [List.getLast?_cons, ih (last.trans (congrArg some same))]

theorem Lowers.dots (lowers : Lowers text ['.', '.']) : text = ['.', '.'] := by
  have first {text low : List Char} (lowers : Lowers text ('.' :: low)) :
      ∃ rest, text = '.' :: rest ∧ Lowers rest low := by
    generalize same : '.' :: low = all at lowers
    cases lowers with
    | nil => cases same
    | mark _ rest =>
      cases same
      exact ⟨_, rfl, rest⟩
    | @letter c letters text lowRest _ some plain rest =>
      cases letters with
      | nil => exact absurd rfl some
      | cons d others =>
        cases same
        exact absurd (by decide) (plain '.' (by simp))
  obtain ⟨rest, rfl, second⟩ := first lowers
  obtain ⟨others, rfl, last⟩ := first second
  rw [last.eq_nil]

theorem Lowers.splitChars {text low : List Char} (lowers : Lowers text low) :
    List.Forall₂ Lowers (splitChars (· = '/') text) (splitChars (· = '/') low) := by
  have front {first second text low : List Char} (plain : ∀ c ∈ first, c ≠ '/') (plainSecond : ∀ c ∈ second, c ≠ '/')
      (added : ∀ {piece lowPiece}, Lowers piece lowPiece → Lowers (first ++ piece) (second ++ lowPiece))
      (pieces : List.Forall₂ Lowers (Text.splitChars (· = '/') text) (Text.splitChars (· = '/') low)) :
      List.Forall₂ Lowers (Text.splitChars (· = '/') (first ++ text)) (Text.splitChars (· = '/') (second ++ low)) := by
    generalize same : Text.splitChars (· = '/') text = some at pieces
    generalize lowSame : Text.splitChars (· = '/') low = lowered at pieces
    cases pieces with
    | nil => exact absurd same (splitChars_ne_nil text)
    | cons head tail =>
      rw [splitChars_plain (by simpa using plain) same, splitChars_plain (by simpa using plainSecond) lowSame]
      exact .cons (added head) tail
  have slash {c : Char} (isNot : c ∉ marks) : c ≠ '/' := by
    rintro rfl
    exact isNot (by decide)
  induction lowers with
  | nil => exact .cons .nil .nil
  | @mark c text low is _ ih =>
    by_cases cuts : c = '/'
    · subst cuts
      exact .cons .nil ih
    · exact @front [c] [c] text low (by simpa using cuts) (by simpa using cuts) (fun rest => .mark is rest) ih
  | @letter c letters text low isNot some plain _ ih =>
    exact @front [c] letters text low (by simpa using slash isNot) (fun d member => slash (plain d member))
      (fun rest => .letter isNot some plain rest) ih

theorem dots_of_lower (member : ['.', '.'] ∈ Text.splitChars (· = '/') (lowerChars [] text)) :
    ['.', '.'] ∈ Text.splitChars (· = '/') text := by
  have pieces := (lowers_lowerChars [] text).splitChars
  generalize Text.splitChars (· = '/') text = all at pieces ⊢
  generalize Text.splitChars (· = '/') (lowerChars [] text) = lows at pieces member
  induction pieces with
  | nil => cases member
  | cons head _ ih =>
    rcases mem_cons.1 member with same | member
    · exact (same ▸ head).dots ▸ mem_cons_self
    · exact mem_cons_of_mem _ (ih member)

end Refit.Text
