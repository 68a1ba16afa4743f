import Mathlib.Algebra.BigOperators.Group.List.Basic
import Mathlib.Algebra.Ring.Int.Defs
import Refit.Proofs.Text.Utf8
import Refit.Source.Edit

open List

namespace Refit.Edit

open Text.Utf8

variable {edit : Edit} {text : String} {edits : List Edit}

/-- An edit of whole characters of a text. -/
structure Fits (text : List Char) (edit : Edit) : Prop where
  nonnegative : 0 ≤ edit.start
  forwards : edit.start ≤ edit.stop
  start : Boundary text edit.start.toNat
  stop : Boundary text edit.stop.toNat

theorem inRange_iff {size : Nat} :
    edit.inRange size = true ↔ 0 ≤ edit.start ∧ edit.start ≤ edit.stop ∧ edit.stop ≤ size := by
  simp [inRange, and_assoc]

theorem Fits.inRange {text : List Char} (fits : edit.Fits text) :
    edit.inRange (encodeChars text).length = true := by
  have nonnegative := fits.nonnegative
  have forwards := fits.forwards
  have bound := fits.stop.le_length
  rw [inRange_iff]
  omega

/-- One edit ends before the other begins. -/
def Apart (left right : Edit) : Prop := left.stop ≤ right.start ∨ right.stop ≤ left.start

theorem Apart.symm {left right : Edit} (apart : left.Apart right) : right.Apart left := Or.symm apart

theorem precedes_iff {left right : Edit} :
    left.precedes right = true ↔
      left.start < right.start ∨ left.start = right.start ∧ left.stop ≤ right.stop := by
  simp [precedes]

theorem precedes_trans (first second third : Edit) (left : first.precedes second = true)
    (right : second.precedes third = true) : first.precedes third = true := by
  rw [precedes_iff] at *
  omega

theorem precedes_total (left right : Edit) : (left.precedes right || right.precedes left) = true := by
  rw [Bool.or_eq_true, precedes_iff, precedes_iff]
  omega

theorem mergeSort_inOrder (forwards : ∀ edit ∈ edits, edit.start ≤ edit.stop)
    (apart : edits.Pairwise Apart) :
    (edits.mergeSort precedes).Pairwise (fun left right => left.stop ≤ right.start) := by
  have permuted := edits.mergeSort_perm precedes
  have sorted := pairwise_mergeSort precedes_trans precedes_total edits
  have stillApart := permuted.symm.pairwise apart Apart.symm
  refine (sorted.and stillApart).imp_of_mem ?_
  intro left right leftMember rightMember both
  have rightForwards := forwards right (permuted.mem_iff.1 rightMember)
  have ordered := precedes_iff.1 both.1
  rcases both.2 with before | after
  · exact before
  · omega

theorem splice_inOrder {text : List Char} {cursor : Nat}
    (boundary : Boundary text cursor) (fits : ∀ edit ∈ edits, edit.Fits text)
    (ahead : ∀ edit ∈ edits, cursor ≤ edit.start)
    (inOrder : edits.Pairwise (fun left right => left.stop ≤ right.start)) :
    ∃ result, splice (encodeChars text) cursor edits = .ok (encodeChars result) := by
  induction edits generalizing cursor with
  | nil =>
    obtain ⟨rest, bytes⟩ := boundary.drop
    exact ⟨rest, by rw [splice, bytes]⟩
  | cons edit rest ih =>
    have fit := fits edit (by simp)
    have here := ahead edit (by simp)
    have forwards := fit.forwards
    obtain ⟨later, laterInOrder⟩ := pairwise_cons.1 inOrder
    obtain ⟨ending, spliced⟩ := ih fit.stop (fun other member => fits other (by simp [member]))
      (fun other member => by have := later other member; omega) laterInOrder
    obtain ⟨kept, bytes⟩ := boundary.between fit.start (by omega)
    refine ⟨kept ++ edit.replacement.toList ++ ending, ?_⟩
    rw [splice, fit.inRange, if_neg (by simp), if_neg (by omega), spliced, bytes, encode_eq]
    simp [bind, Except.bind, pure, Except.pure]

section

variable {edits : List Edit} (fits : ∀ edit ∈ edits, edit.Fits text.toList) (apart : edits.Pairwise Apart)
include fits apart

theorem applyBytes_apart : ∃ result, applyBytes (encode text) edits = .ok (encodeChars result) := by
  have permuted := edits.mergeSort_perm precedes
  have start : Boundary text.toList 0 := ⟨[], text.toList, rfl, rfl⟩
  rw [encode_eq]
  exact splice_inOrder start (fun edit member => fits edit (permuted.mem_iff.1 member))
    (fun edit member => (fits edit (permuted.mem_iff.1 member)).nonnegative)
    (mergeSort_inOrder (fun edit member => (fits edit member).forwards) apart)

theorem applyAll_apart : ∃ result, applyAll text edits = .ok result := by
  obtain ⟨result, spliced⟩ := applyBytes_apart fits apart
  rw [applyAll, spliced]
  simp [bind, Except.bind, pure, Except.pure, decode_encodeChars]

end

theorem applyBytes_of_applyAll {result : String}
    (fits : ∀ edit ∈ edits, edit.Fits text.toList) (apart : edits.Pairwise Apart)
    (applied : applyAll text edits = .ok result) : applyBytes (encode text) edits = .ok (encode result) := by
  obtain ⟨chars, spliced⟩ := applyBytes_apart fits apart
  simp only [applyAll, spliced, bind, Except.bind, decode_encodeChars, pure, Except.pure, Except.ok.injEq] at applied
  rw [spliced, ← applied, encode_eq, String.toList_ofList]

/-- By how many bytes an edit makes a text longer. -/
def growth (edit : Edit) : Int := (encode edit.replacement).length - (edit.stop - edit.start)

def moved (edits : List Edit) (offset : Nat) : Int :=
  offset + ((edits.filter (fun edit : Edit => edit.stop ≤ (offset : Int))).map growth).sum

theorem moved_perm {others : List Edit} (permuted : edits.Perm others) (offset : Nat) :
    moved edits offset = moved others offset := by
  unfold moved
  rw [((permuted.filter _).map growth).sum_eq]

variable {bytes out : List UInt8} {edits early late : List Edit} {cursor offset : Nat}

theorem splice_cons (spliced : splice bytes cursor (edit :: late) = .ok out) :
    0 ≤ edit.start ∧ edit.start ≤ edit.stop ∧ edit.stop ≤ bytes.length ∧ cursor ≤ edit.start ∧
      ∃ ending, splice bytes edit.stop.toNat late = .ok ending ∧
        out = (bytes.drop cursor).take (edit.start.toNat - cursor) ++ encode edit.replacement ++ ending := by
  rw [splice] at spliced
  split at spliced
  · cases spliced
  · next fits =>
      split at spliced
      · cases spliced
      · next ahead =>
          rw [Bool.not_eq_true', Bool.not_eq_false, inRange_iff] at fits
          cases rest : splice bytes edit.stop.toNat late with
          | error fault => simp [rest] at spliced
          | ok ending =>
            simp only [rest, bind, Except.bind, pure, Except.pure, Except.ok.injEq] at spliced
            exact ⟨fits.1, fits.2.1, fits.2.2, by omega, ending, rfl, spliced.symm⟩

theorem splice_later (spliced : splice bytes cursor late = .ok out) (ahead : cursor ≤ offset)
    (later : ∀ edit ∈ late, offset ≤ edit.start) :
    ∃ after, splice bytes offset late = .ok after ∧
      out = (bytes.drop cursor).take (offset - cursor) ++ after := by
  have reach : bytes.drop cursor = (bytes.drop cursor).take (offset - cursor) ++ bytes.drop offset := by
    conv => lhs; rw [← take_append_drop (offset - cursor) (bytes.drop cursor), drop_drop]
    congr 2
    omega
  cases late with
  | nil =>
    cases spliced
    exact ⟨bytes.drop offset, rfl, reach⟩
  | cons edit rest =>
    have here := later edit (by simp)
    obtain ⟨nonnegative, forwards, bound, _, ending, more, rfl⟩ := splice_cons spliced
    have fits : edit.inRange bytes.length = true := inRange_iff.2 (by omega)
    refine ⟨(bytes.drop offset).take (edit.start.toNat - offset) ++ encode edit.replacement ++ ending, ?_, ?_⟩
    · rw [splice, fits, if_neg (by simp), if_neg (by omega), more]
      rfl
    · have gap : edit.start.toNat - cursor = (offset - cursor) + (edit.start.toNat - offset) := by omega
      rw [gap, take_add, drop_drop, show cursor + (offset - cursor) = offset by omega]
      simp

theorem splice_append (spliced : splice bytes cursor (early ++ late) = .ok out) (ahead : cursor ≤ offset)
    (inside : offset ≤ bytes.length) (before : ∀ edit ∈ early, edit.stop ≤ offset)
    (later : ∀ edit ∈ late, offset ≤ edit.start) :
    ∃ front after, splice bytes offset late = .ok after ∧ out = front ++ after ∧
      (front.length : Int) = offset - cursor + (early.map growth).sum := by
  induction early generalizing cursor out with
  | nil =>
    obtain ⟨after, rest, rfl⟩ := splice_later spliced ahead later
    refine ⟨_, after, rest, rfl, ?_⟩
    simp only [length_take, length_drop, map_nil, sum_nil]
    omega
  | cons edit others ih =>
    obtain ⟨nonnegative, forwards, bound, passed, ending, more, rfl⟩ := splice_cons spliced
    have stop := before edit (by simp)
    obtain ⟨front, after, rest, rfl, size⟩ := ih more (by omega)
      (fun other member => before other (by simp [member]))
    refine ⟨(bytes.drop cursor).take (edit.start.toNat - cursor) ++ encode edit.replacement ++ front, after, rest,
      by simp, ?_⟩
    simp only [length_append, length_take, length_drop, map_cons, sum_cons, growth]
    omega

theorem mergeSort_split {start stop : Nat} (span : start ≤ stop) (forwards : ∀ edit ∈ edits, edit.start ≤ edit.stop)
    (apart : ∀ edit ∈ edits, edit.stop ≤ start ∨ stop ≤ edit.start) :
    ∃ early late, edits.mergeSort precedes = early ++ late ∧
      moved edits start = start + (early.map growth).sum ∧ (∀ edit ∈ early, edit.stop ≤ start) ∧
      ∀ edit ∈ late, stop ≤ edit.start := by
  have permuted := edits.mergeSort_perm precedes
  have sorted := pairwise_mergeSort precedes_trans precedes_total edits
  rw [← moved_perm permuted]
  replace forwards := fun edit member => forwards edit (permuted.mem_iff.1 member)
  replace apart := fun edit member => apart edit (permuted.mem_iff.1 member)
  generalize edits.mergeSort precedes = ordered at sorted forwards apart ⊢
  refine ⟨ordered.filter (fun edit => edit.stop ≤ (start : Int)),
    ordered.filter (fun edit => (start : Int) < edit.stop), ?_, rfl, by simp, ?_⟩
  · induction ordered with
    | nil => rfl
    | cons edit rest ih =>
      obtain ⟨first, sorted⟩ := pairwise_cons.1 sorted
      by_cases before : edit.stop ≤ start
      · have same := ih sorted (fun other member => forwards other (by simp [member]))
          (fun other member => apart other (by simp [member]))
        simpa [before] using same
      · -- Once an edit ends after the start of the span, so do all that follow it.
        have after : ∀ other ∈ rest, (start : Int) < other.stop := by
          intro other member
          have ordered := precedes_iff.1 (first other member)
          have ahead := apart edit (by simp)
          have own := forwards other (by simp [member])
          omega
        have none : rest.filter (fun edit => edit.stop ≤ (start : Int)) = [] :=
          filter_eq_nil_iff.2 (fun other member => by simpa using after other member)
        have all : rest.filter (fun edit => (start : Int) < edit.stop) = rest :=
          filter_eq_self.2 (fun other member => by simpa using after other member)
        simp [none, all, Int.not_le.1 before]
  · intro edit member
    obtain ⟨present, after⟩ := mem_filter.1 member
    have ends : (start : Int) < edit.stop := by simpa using after
    exact (apart edit present).resolve_left (by omega)

theorem applyBytes_keeps {start stop : Nat} (applied : applyBytes bytes edits = .ok out) (span : start ≤ stop)
    (inside : stop ≤ bytes.length) (forwards : ∀ edit ∈ edits, edit.start ≤ edit.stop)
    (apart : ∀ edit ∈ edits, edit.stop ≤ start ∨ stop ≤ edit.start) :
    ∃ before after, out = before ++ (bytes.drop start).take (stop - start) ++ after ∧
      (before.length : Int) = moved edits start := by
  obtain ⟨early, late, ordered, place, before, after⟩ := mergeSort_split span forwards apart
  rw [applyBytes, ordered] at applied
  obtain ⟨front, rest, spliced, rfl, size⟩ := splice_append applied (Nat.zero_le start) (by omega) before
    (fun edit member => by have := after edit member; omega)
  obtain ⟨ending, _, rfl⟩ := splice_later spliced span after
  exact ⟨front, ending, by rw [append_assoc], by rw [place]; omega⟩

theorem replacement_of_applyBytes (applied : applyBytes bytes edits = .ok out) (member : edit ∈ edits) :
    encode edit.replacement <:+: out := by
  have ordered : edit ∈ edits.mergeSort precedes := (edits.mergeSort_perm precedes).mem_iff.2 member
  rw [applyBytes] at applied
  generalize edits.mergeSort precedes = some at applied ordered
  generalize 0 = cursor at applied
  induction some generalizing cursor out with
  | nil => cases ordered
  | cons next rest ih =>
    obtain ⟨_, _, _, _, ending, spliced, rfl⟩ := splice_cons applied
    rcases mem_cons.1 ordered with rfl | later
    · exact infix_append _ _ _
    · exact (ih later _ spliced).trans (suffix_append _ _).isInfix

end Refit.Edit
