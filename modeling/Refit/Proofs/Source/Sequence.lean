import Refit.Proofs.Source.Edited

/-!
The order of edits. Edits may be given in any order, as long as no two of them insert something at the
same offset. Applied one at a time, from the last one to the first, they make the same text as when they
are applied together, provided that what each of them leaves is a text.
-/

open List

namespace Refit.Edit

open Text.Utf8

variable {bytes out : List UInt8} {edits rest others : List Edit} {edit : Edit} {text : String} {fault : EditFault}

/-- Applies edits one at a time, each to the text that the one before has left. -/
def applyEach (text : String) (edits : List Edit) : Except EditFault String :=
  edits.foldlM (fun text edit => applyAll text [edit]) text

/-- Applies edits one at a time, each to the bytes that the one before has left. -/
def applyEachBytes (bytes : List UInt8) (edits : List Edit) : Except EditFault (List UInt8) :=
  edits.foldlM (fun bytes edit => applyBytes bytes [edit]) bytes

/-- The edits from the last to the first. -/
def lastFirst (edits : List Edit) : List Edit := (edits.mergeSort precedes).reverse

theorem applyEach_concat (text : String) (edits : List Edit) (edit : Edit) :
    applyEach text (edits ++ [edit]) = applyEach text edits >>= fun text => applyAll text [edit] := by
  simp [applyEach]

theorem applyEachBytes_concat (bytes : List UInt8) (edits : List Edit) (edit : Edit) :
    applyEachBytes bytes (edits ++ [edit]) = applyEachBytes bytes edits >>= fun bytes => applyBytes bytes [edit] := by
  simp [applyEachBytes]

theorem applyBytes_single (fits : edit.inRange bytes.length = true) :
    applyBytes bytes [edit] =
      .ok (bytes.take edit.start.toNat ++ encode edit.replacement ++ bytes.drop edit.stop.toNat) := by
  have span := inRange_iff.1 fits
  have ahead : ¬ edit.start < ((0 : Nat) : Int) := by omega
  rw [applyBytes, mergeSort_singleton, splice, fits, if_neg ahead]
  rfl

/-- The edits after an edit leave everything as it is up to where the edit ends, so that it can still be applied. -/
theorem applyBytes_last (fits : edit.inRange bytes.length = true) (later : ∀ other ∈ rest, edit.stop ≤ other.start) :
    applyBytes (edited bytes rest) [edit] = .ok (edited bytes (edit :: rest)) := by
  obtain ⟨nonnegative, forwards, bound⟩ := inRange_iff.1 fits
  have reach : edited bytes rest = bytes.take edit.stop.toNat ++ editedFrom bytes rest edit.stop.toNat := by
    have kept := @editedFrom_reach bytes rest 0 edit.stop.toNat (by omega) (by omega)
      (fun other member => by have := later other member; omega)
    simpa [edited] using kept
  have size : (bytes.take edit.stop.toNat).length = edit.stop.toNat := by
    rw [length_take]
    omega
  have still : edit.inRange (edited bytes rest).length = true := by
    rw [inRange_iff, reach, length_append]
    omega
  have first := @editedFrom_first bytes rest edit 0 fits (by omega) later
  rw [drop_zero, Nat.sub_zero] at first
  rw [applyBytes_single still, edited, edited, first, ← edited, reach, take_append_of_le_length (by omega),
    take_take, Nat.min_eq_left (by omega), drop_left' size]

theorem applyEachBytes_reverse (within : ∀ edit ∈ edits, edit.inRange bytes.length = true)
    (inOrder : edits.Pairwise (fun left right => left.stop ≤ right.start)) :
    applyEachBytes bytes edits.reverse = .ok (edited bytes edits) := by
  induction edits with
  | nil =>
    rw [edited, editedFrom_nil]
    rfl
  | cons edit rest ih =>
    obtain ⟨later, inOrder⟩ := pairwise_cons.1 inOrder
    rw [reverse_cons, applyEachBytes_concat, ih (fun other member => within other (by simp [member])) inOrder]
    exact applyBytes_last (within edit (by simp)) later

theorem applyEach_cons {left : String} (fits : edit.inRange (encode text).length = true)
    (later : ∀ other ∈ rest, edit.stop ≤ other.start) (done : applyEach text rest.reverse = .ok left)
    (same : encode left = edited (encode text) rest) :
    applyEach text (edit :: rest).reverse = (decode (edited (encode text) (edit :: rest))).mapError .undecodable := by
  have last : applyBytes (encode left) [edit] = .ok (edited (encode text) (edit :: rest)) :=
    same ▸ applyBytes_last fits later
  rw [reverse_cons, applyEach_concat, done]
  exact applyAll_of_applyBytes last

theorem applyEach_reverse (within : ∀ edit ∈ edits, edit.inRange (encode text).length = true)
    (inOrder : edits.Pairwise (fun left right => left.stop ≤ right.start)) :
    (∃ fault, applyEach text edits.reverse = .error (.undecodable fault)) ∨
      ∃ result, applyEach text edits.reverse = .ok result ∧ encode result = edited (encode text) edits := by
  induction edits with
  | nil =>
    refine .inr ⟨text, rfl, ?_⟩
    rw [edited, editedFrom_nil, drop_zero]
  | cons edit rest ih =>
    obtain ⟨later, inOrder⟩ := pairwise_cons.1 inOrder
    have others := ih (fun other member => within other (by simp [member])) inOrder
    rcases others with ⟨fault, failed⟩ | ⟨left, done, same⟩
    · refine .inl ⟨fault, ?_⟩
      rw [reverse_cons, applyEach_concat, failed]
      rfl
    · rw [applyEach_cons (within edit (by simp)) later done same]
      cases read : decode (edited (encode text) (edit :: rest)) with
      | error fault => exact .inl ⟨fault, rfl⟩
      | ok result => exact .inr ⟨result, rfl, (decode_ok_iff.1 read).symm⟩

section

variable (fits : ∀ edit ∈ edits, edit.Fits text.toList)
  (inOrder : edits.Pairwise (fun left right => left.stop ≤ right.start))
include fits inOrder

theorem edited_fits :
    ∃ result, edited (encode text) edits = encode result := by
  have start : Boundary text.toList 0 := ⟨[], text.toList, rfl, rfl⟩
  obtain ⟨result, spliced⟩ := splice_inOrder start fits (fun edit member => (fits edit member).nonnegative) inOrder
  have whole := @splice_eq_edited (encodeChars text.toList) edits 0 (fun edit member => (fits edit member).inRange)
    (fun edit member => (fits edit member).nonnegative) (Nat.zero_le _) inOrder
  refine ⟨String.ofList result, ?_⟩
  rw [encode_eq, encode_eq, String.toList_ofList]
  exact Except.ok.inj (whole.symm.trans spliced)

theorem applyEach_fits :
    ∃ result, applyEach text edits.reverse = .ok result ∧ encode result = edited (encode text) edits := by
  induction edits with
  | nil =>
    refine ⟨text, rfl, ?_⟩
    rw [edited, editedFrom_nil, drop_zero]
  | cons edit rest ih =>
    have inRange : edit.inRange (encode text).length = true := encode_eq text ▸ (fits edit (by simp)).inRange
    obtain ⟨result, made⟩ := edited_fits fits inOrder
    obtain ⟨later, inOrder⟩ := pairwise_cons.1 inOrder
    obtain ⟨left, done, same⟩ := ih (fun other member => fits other (by simp [member])) inOrder
    refine ⟨result, ?_, made.symm⟩
    rw [applyEach_cons inRange later done same, decode_ok_iff.2 made]
    rfl

end

/-- Two edits insert something at the same offset. -/
def Twins (left right : Edit) : Prop :=
  left.start = left.stop ∧ right.start = right.stop ∧ left.start = right.start

instance (left right : Edit) : Decidable (left.Twins right) := inferInstanceAs (Decidable (_ ∧ _))

theorem edited_perm (permuted : others.Perm edits) (apart : edits.Pairwise Apart)
    (single : edits.Pairwise (fun left right => ¬ left.Twins right)) (bytes : List UInt8) :
    edited bytes others = edited bytes edits := by
  refine flatMap_congr (fun offset _ => bytesAt_perm permuted apart (eq_of_perm_alone ?_ (permuted.filter _)))
  refine (single.filter _).imp_of_mem (fun {left right} leftMember rightMember different => different ?_)
  have leftSpan := (mem_filter.1 leftMember).2
  have rightSpan := (mem_filter.1 rightMember).2
  simp only [insertsAt, Bool.and_eq_true, decide_eq_true_eq] at leftSpan rightSpan
  exact ⟨by omega, by omega, by omega⟩

theorem clash_perm {size : Nat} (permuted : others.Perm edits) : Clash size others ↔ Clash size edits := by
  have members (edit : Edit) : edit ∈ others ↔ edit ∈ edits := permuted.mem_iff
  have pairs : others.Pairwise Apart ↔ edits.Pairwise Apart := permuted.pairwise_iff Apart.symm
  simp only [Clash, members, pairs]

def span (edit : Edit) : Int × Int := (edit.start, edit.stop)

theorem splice_refused_congr {left right : List Edit} {cursor : Nat}
    (spans : left.map span = right.map span) (refused : splice bytes cursor left = .error fault) :
    splice bytes cursor right = .error fault := by
  induction left generalizing right cursor with
  | nil => cases refused
  | cons edit rest ih =>
    cases right with
    | nil => cases spans
    | cons other more =>
      obtain ⟨same, spans⟩ := List.cons.inj spans
      obtain ⟨start, stop⟩ := Prod.mk.inj same
      have range : other.inRange bytes.length = edit.inRange bytes.length := by simp only [inRange, start, stop]
      rw [splice] at refused
      rw [splice, range, ← start, ← stop]
      split at refused
      · next outside =>
          rw [if_pos outside]
          exact refused
      · next inside =>
          rw [if_neg inside]
          split at refused
          · next behind =>
              rw [if_pos behind]
              exact refused
          · next ahead =>
              rw [if_neg ahead]
              cases ending : splice bytes edit.stop.toNat rest with
              | ok ending => simp [ending, bind, Except.bind, pure, Except.pure] at refused
              | error reason =>
                obtain rfl : reason = fault := by simpa [ending] using refused
                rw [ih spans ending]
                rfl

theorem spans_mergeSort (permuted : others.Perm edits) :
    (others.mergeSort precedes).map span = (edits.mergeSort precedes).map span := by
  have sorted (edits : List Edit) : ((edits.mergeSort precedes).map span).Pairwise
      (fun left right => left.1 < right.1 ∨ left.1 = right.1 ∧ left.2 ≤ right.2) :=
    pairwise_map.2 ((pairwise_mergeSort precedes_trans precedes_total edits).imp precedes_iff.1)
  have same := (others.mergeSort_perm precedes).trans (permuted.trans (edits.mergeSort_perm precedes).symm)
  refine (same.map span).eq_of_pairwise (fun left right _ _ before after => ?_) (sorted others) (sorted edits)
  exact Prod.ext (by omega) (by omega)

theorem refused_perm (permuted : others.Perm edits)
    (refused : applyBytes bytes others = .error fault) : applyBytes bytes edits = .error fault :=
  splice_refused_congr (spans_mergeSort permuted) refused

theorem applyAll_ok_iff {result : String} :
    applyAll text edits = .ok result ↔
      ¬ Clash (encode text).length edits ∧ edited (encode text) edits = encode result := by
  by_cases clash : Clash (encode text).length edits
  · obtain ⟨fault, refused, _⟩ := applyBytes_of_clash clash
    simp [applyAll_of_refused refused, clash]
  · rw [applyAll_of_applyBytes (applyBytes_eq_edited clash), ← decode_ok_iff]
    cases decode (edited (encode text) edits) <;> simp [Except.mapError, clash]

/-- Edits that are accepted make the same text in every order, if no two of them insert something at the same offset.
Applied one at a time, from the last to the first, they make the same bytes, and the same text unless the bytes on
the way are none; edits of whole characters leave texts on the way. Whether edits are refused, and why, does not
depend on their order. -/
theorem applyAll_in_sequence (text : String) (edits : List Edit) :
    (∀ result, applyAll text edits = .ok result →
      (edits.Pairwise (fun left right => ¬ left.Twins right) →
        ∀ others, others.Perm edits → applyAll text others = .ok result) ∧
      applyEachBytes (encode text) (lastFirst edits) = .ok (encode result) ∧
      (applyEach text (lastFirst edits) = .ok result ∨
        ∃ fault, applyEach text (lastFirst edits) = .error (.undecodable fault)) ∧
      ((∀ edit ∈ edits, Boundary text.toList edit.start.toNat ∧ Boundary text.toList edit.stop.toNat) →
        applyEach text (lastFirst edits) = .ok result)) ∧
      ∀ others, others.Perm edits → ∀ fault : EditFault, fault.isRefusal = true →
        (applyAll text others = .error fault ↔ applyAll text edits = .error fault) := by
  refine ⟨fun result applied => ?_, fun others permuted fault refusal => ?_⟩
  · obtain ⟨fine, made⟩ := applyAll_ok_iff.1 applied
    obtain ⟨within, apart⟩ := not_clash_iff.1 fine
    have sorted := edits.mergeSort_perm precedes
    have stillWithin : ∀ edit ∈ edits.mergeSort precedes, edit.inRange (encode text).length = true :=
      fun edit member => within edit (sorted.mem_iff.1 member)
    have inOrder := mergeSort_inOrder (fun edit member => (inRange_iff.1 (within edit member)).2.1) apart
    rw [← edited_mergeSort apart] at made
    refine ⟨fun single others permuted => ?_, ?_, ?_, fun bounded => ?_⟩
    · refine applyAll_ok_iff.2 ⟨fun clash => fine ((clash_perm permuted).1 clash), ?_⟩
      rw [edited_perm permuted apart single, ← edited_mergeSort apart, made]
    · rw [lastFirst, applyEachBytes_reverse stillWithin inOrder, made]
    · rcases applyEach_reverse stillWithin inOrder with failed | ⟨other, done, same⟩
      · exact .inr failed
      · exact .inl (encode_inj (same.trans made) ▸ done)
    · have fits : ∀ edit ∈ edits.mergeSort precedes, edit.Fits text.toList :=
        fun edit member => Fits.of_inRange (stillWithin edit member) (bounded edit (sorted.mem_iff.1 member))
      obtain ⟨other, done, same⟩ := applyEach_fits fits inOrder
      exact encode_inj (same.trans made) ▸ done
  · rw [applyAll_refused_iff refusal, applyAll_refused_iff refusal]
    exact ⟨refused_perm permuted, refused_perm permuted.symm⟩

/-- An insertion where a span starts, a span that follows it, and an insertion at the end. -/
def adjoiningEdits : List Edit := [⟨3, 6, "E"⟩, ⟨1, 3, "e"⟩, ⟨6, 6, "!"⟩, ⟨1, 1, "ß"⟩]

theorem applyAll_in_sequence_adjoining :
    applyAll "aé€" adjoiningEdits = .ok "aßeE!" ∧ applyAll "aé€" adjoiningEdits.reverse = .ok "aßeE!" ∧
      applyEach "aé€" (lastFirst adjoiningEdits) = .ok "aßeE!" := by
  have one : Boundary "aé€".toList 1 := ⟨['a'], ['é', '€'], rfl, by decide +kernel⟩
  have three : Boundary "aé€".toList 3 := ⟨['a', 'é'], ['€'], rfl, by decide +kernel⟩
  have six : Boundary "aé€".toList 6 := ⟨['a', 'é', '€'], [], rfl, by decide +kernel⟩
  have bounded : ∀ edit ∈ adjoiningEdits,
      Boundary "aé€".toList edit.start.toNat ∧ Boundary "aé€".toList edit.stop.toNat := by
    simp only [adjoiningEdits, forall_mem_cons]
    exact ⟨⟨three, six⟩, ⟨one, three⟩, ⟨six, six⟩, ⟨one, one⟩, by simp⟩
  have applied : applyAll "aé€" adjoiningEdits = .ok "aßeE!" :=
    applyAll_ok_iff.2 ⟨by decide +kernel, by decide +kernel⟩
  obtain ⟨free, _, _, sequential⟩ := (applyAll_in_sequence "aé€" adjoiningEdits).1 _ applied
  exact ⟨applied, free (by decide) _ (reverse_perm _), sequential bounded⟩

/-- One byte is taken out of each of two characters, and the bytes that are left make a character. -/
def halvingEdits : List Edit := [⟨1, 2, ""⟩, ⟨2, 3, ""⟩]

theorem applyEach_undecodable :
    halvingEdits.Pairwise (fun left right => ¬ left.Twins right) ∧ applyAll "éé" halvingEdits = .ok "é" ∧
      applyEach "éé" (lastFirst halvingEdits) = .error (.undecodable ⟨0xa9, 2, 3, .invalidStart⟩) := by
  have last : applyAll "éé" [⟨2, 3, ""⟩] = .error (.undecodable ⟨0xa9, 2, 3, .invalidStart⟩) := by
    have fine : ¬ Clash (encode "éé").length [⟨2, 3, ""⟩] := by decide +kernel
    have broken : decode (edited (encode "éé") [⟨2, 3, ""⟩]) = .error ⟨0xa9, 2, 3, .invalidStart⟩ := by decide +kernel
    rw [applyAll_of_applyBytes (applyBytes_eq_edited fine), broken]
    rfl
  refine ⟨by decide, applyAll_ok_iff.2 ⟨by decide +kernel, by decide +kernel⟩, ?_⟩
  rw [lastFirst, mergeSort_of_pairwise (by decide), halvingEdits, reverse_cons, reverse_singleton,
    applyEach_concat, applyEach, foldlM_cons, last]
  rfl

end Refit.Edit
