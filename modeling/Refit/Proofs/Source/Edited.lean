import Refit.Proofs.Source.Edit

/-!
What edits make of a text. Edits are refused exactly when one of them lies outside the text or two of
them overlap. All others have a result that can be told offset by offset, without putting the edits
in order.
-/

open List

namespace Refit

/-- Whether an edit was refused for its span, on its own or beside another one. -/
def EditFault.isRefusal : EditFault → Bool
  | outside _ _ => true
  | overlap _ _ _ => true
  | undecodable _ => false

namespace Edit

open Text.Utf8

variable {fault : EditFault} {text : String} {size : Nat} {others : List Edit}

def insertsAt (edit : Edit) (offset : Nat) : Bool := edit.start = offset && edit.stop = offset

def replacesFrom (edit : Edit) (offset : Nat) : Bool := edit.start = offset && offset < edit.stop

def covers (edit : Edit) (offset : Nat) : Bool := edit.start ≤ offset && offset < edit.stop

/-- What stands at an offset after the edits: what is inserted there, in the order of the edits, then what replaces a
span that starts there, then the byte itself, unless it is in a span. -/
def bytesAt (bytes : List UInt8) (edits : List Edit) (offset : Nat) : List UInt8 :=
  (edits.filter (·.insertsAt offset)).flatMap (fun edit => encode edit.replacement)
    ++ (edits.filter (·.replacesFrom offset)).flatMap (fun edit => encode edit.replacement)
    ++ if edits.any (·.covers offset) then [] else bytes[offset]?.toList

def editedFrom (bytes : List UInt8) (edits : List Edit) (offset : Nat) : List UInt8 :=
  (List.range' offset (bytes.length + 1 - offset)).flatMap (bytesAt bytes edits)

/-- The bytes with each span replaced and all other bytes kept. -/
def edited (bytes : List UInt8) (edits : List Edit) : List UInt8 := editedFrom bytes edits 0

variable {bytes out : List UInt8} {edits rest : List Edit} {edit : Edit} {cursor offset : Nat}

def touches (edit : Edit) (offset : Nat) : Bool := edit.insertsAt offset || edit.covers offset

theorem touches_eq_false : edit.touches offset = false ↔
    (offset : Int) < edit.start ∨ edit.stop < offset ∨ edit.stop = offset ∧ edit.start ≠ offset := by
  simp only [touches, insertsAt, covers, Bool.or_eq_false_iff, Bool.and_eq_false_iff, decide_eq_false_iff_not]
  omega

theorem bytesAt_filter (bytes : List UInt8) (edits : List Edit) (offset : Nat) :
    bytesAt bytes (edits.filter (·.touches offset)) offset = bytesAt bytes edits offset := by
  have inserts (edit : Edit) : (edit.insertsAt offset && edit.touches offset) = edit.insertsAt offset := by
    cases here : edit.insertsAt offset <;> simp [touches, here]
  have replaces (edit : Edit) : (edit.replacesFrom offset && edit.touches offset) = edit.replacesFrom offset := by
    cases here : edit.replacesFrom offset with
    | false => rfl
    | true =>
      simp only [replacesFrom, Bool.and_eq_true, decide_eq_true_eq] at here
      simp [touches, covers, here]
  have covered (edit : Edit) : (edit.touches offset && edit.covers offset) = edit.covers offset := by
    cases here : edit.covers offset <;> simp [touches, here]
  simp only [bytesAt, filter_filter, any_filter, inserts, replaces, covered]

theorem bytesAt_nil (bytes : List UInt8) (offset : Nat) : bytesAt bytes [] offset = bytes[offset]?.toList := by
  simp [bytesAt]

theorem bytesAt_elsewhere (elsewhere : ∀ edit ∈ edits, edit.touches offset = false) :
    bytesAt bytes edits offset = bytes[offset]?.toList := by
  have none : edits.filter (·.touches offset) = [] :=
    filter_eq_nil_iff.2 (fun edit member => by simp [elsewhere edit member])
  rw [← bytesAt_filter, none, bytesAt_nil]

theorem bytesAt_cons (elsewhere : edit.touches offset = false) :
    bytesAt bytes (edit :: rest) offset = bytesAt bytes rest offset := by
  rw [← bytesAt_filter, filter_cons, elsewhere, if_neg (by simp), bytesAt_filter]

theorem bytesAt_insertion (inserts : edit.insertsAt offset = true) :
    bytesAt bytes (edit :: rest) offset = encode edit.replacement ++ bytesAt bytes rest offset := by
  have span := inserts
  simp only [insertsAt, Bool.and_eq_true, decide_eq_true_eq] at span
  have replaces : edit.replacesFrom offset = false := by simp [replacesFrom, span.2]
  have covered : edit.covers offset = false := by simp [covers, span.2]
  simp [bytesAt, inserts, replaces, covered]

theorem bytesAt_covered (covered : edit.covers offset = true)
    (elsewhere : ∀ other ∈ rest, other.touches offset = false) :
    bytesAt bytes (edit :: rest) offset = if edit.start = offset then encode edit.replacement else [] := by
  have alone : (edit :: rest).filter (·.touches offset) = [edit] := by
    have none : rest.filter (·.touches offset) = [] :=
      filter_eq_nil_iff.2 (fun other member => by simp [elsewhere other member])
    rw [filter_cons, none, if_pos (by simp [touches, covered])]
  have span := covered
  simp only [covers, Bool.and_eq_true, decide_eq_true_eq] at span
  have inserts : edit.insertsAt offset = false := by simp [insertsAt]; omega
  rw [← bytesAt_filter, alone]
  by_cases here : edit.start = offset <;> simp [bytesAt, replacesFrom, inserts, covered, here, span.2]

theorem flatMap_range' (bytes : List UInt8) (start count : Nat) :
    (List.range' start count).flatMap (fun offset => bytes[offset]?.toList) = (bytes.drop start).take count := by
  induction count generalizing start with
  | zero => simp
  | succ count ih =>
    rw [List.range'_succ, flatMap_cons, ih]
    by_cases inside : start < bytes.length
    · have byte : bytes[start]?.toList = [bytes[start]] := by simp
      rw [byte, drop_eq_getElem_cons inside]
      rfl
    · have byte : bytes[start]?.toList = [] := by simp [Nat.le_of_not_lt inside]
      rw [byte, drop_eq_nil_of_le (by omega), drop_eq_nil_of_le (by omega)]
      simp

theorem editedFrom_nil (bytes : List UInt8) (offset : Nat) : editedFrom bytes [] offset = bytes.drop offset := by
  have untouched : bytesAt bytes [] = fun offset => bytes[offset]?.toList := funext (bytesAt_nil bytes)
  rw [editedFrom, untouched, flatMap_range', take_of_length_le (by rw [length_drop]; omega)]

theorem range'_split {start middle stop : Nat} (first : start ≤ middle) (second : middle ≤ stop) :
    List.range' start (stop - start) = List.range' start (middle - start) ++ List.range' middle (stop - middle) := by
  have sizes : stop - start = (middle - start) + (stop - middle) := by omega
  rw [sizes, ← List.range'_append_1, show start + (middle - start) = middle by omega]

theorem editedFrom_reach (ahead : cursor ≤ offset) (inside : offset ≤ bytes.length)
    (elsewhere : ∀ edit ∈ edits, (offset : Int) ≤ edit.start) :
    editedFrom bytes edits cursor = (bytes.drop cursor).take (offset - cursor) ++ editedFrom bytes edits offset := by
  rw [editedFrom, range'_split ahead (by omega), flatMap_append, ← flatMap_range']
  congr 1
  refine flatMap_congr (fun place member => bytesAt_elsewhere (fun edit listed => touches_eq_false.2 ?_))
  have later := elsewhere edit listed
  have bounds := mem_range'_1.1 member
  omega

theorem editedFrom_past (begun : edit.start < offset) (ended : edit.stop ≤ offset) :
    editedFrom bytes (edit :: rest) offset = editedFrom bytes rest offset := by
  refine flatMap_congr (fun place member => bytesAt_cons (touches_eq_false.2 ?_))
  have bounds := mem_range'_1.1 member
  omega

/-- An edit puts in its replacement where it starts; what follows is found where it ends. -/
theorem editedFrom_cons {start stop : Nat} (starts : edit.start = start) (stops : edit.stop = stop)
    (forwards : start ≤ stop) (inside : stop ≤ bytes.length) (later : ∀ other ∈ rest, (stop : Int) ≤ other.start) :
    editedFrom bytes (edit :: rest) start = encode edit.replacement ++ editedFrom bytes rest stop := by
  have head (edits : List Edit) : editedFrom bytes edits start =
      bytesAt bytes edits start ++ editedFrom bytes edits (start + 1) := by
    rw [editedFrom, show bytes.length + 1 - start = (bytes.length + 1 - (start + 1)) + 1 by omega, List.range'_succ,
      flatMap_cons]
    rfl
  rcases Nat.eq_or_lt_of_le forwards with rfl | wide
  · have inserts : edit.insertsAt start = true := by simp [insertsAt, starts, stops]
    rw [head, bytesAt_insertion inserts, editedFrom_past (by omega) (by omega), append_assoc, ← head]
  · have covered : edit.covers start = true := by simp [covers, starts, stops, wide]
    have elsewhere : ∀ other ∈ rest, ∀ place : Nat, place < stop → other.touches place = false := by
      intro other member place before
      have after := later other member
      exact touches_eq_false.2 (by omega)
    have hole : (List.range' (start + 1) (stop - (start + 1))).flatMap (bytesAt bytes (edit :: rest)) = [] := by
      refine flatMap_eq_nil_iff.2 (fun place member => ?_)
      have bounds := mem_range'_1.1 member
      have within : edit.covers place = true := by simp [covers]; omega
      rw [bytesAt_covered within (fun other listed => elsewhere other listed place (by omega)), if_neg (by omega)]
    rw [head, bytesAt_covered covered (fun other listed => elsewhere other listed start wide), if_pos starts,
      editedFrom, range'_split (show start + 1 ≤ stop from wide) (by omega), flatMap_append, hole, nil_append]
    congr 1
    exact editedFrom_past (by omega) (by omega)

theorem editedFrom_first (fits : edit.inRange bytes.length = true) (passed : cursor ≤ edit.start)
    (later : ∀ other ∈ rest, edit.stop ≤ other.start) :
    editedFrom bytes (edit :: rest) cursor =
      (bytes.drop cursor).take (edit.start.toNat - cursor) ++ encode edit.replacement
        ++ editedFrom bytes rest edit.stop.toNat := by
  rw [inRange_iff] at fits
  obtain ⟨start, starts⟩ := Int.eq_ofNat_of_zero_le fits.1
  obtain ⟨stop, stops⟩ := Int.eq_ofNat_of_zero_le (show 0 ≤ edit.stop by omega)
  have elsewhere : ∀ other ∈ edit :: rest, (start : Int) ≤ other.start := by
    intro other member
    rcases mem_cons.1 member with rfl | member
    · omega
    · have := later other member
      omega
  rw [editedFrom_reach (show cursor ≤ start by omega) (by omega) elsewhere,
    editedFrom_cons starts stops (by omega) (by omega) (fun other member => stops ▸ later other member), starts,
    stops, append_assoc]
  rfl

theorem splice_eq_edited (within : ∀ edit ∈ edits, edit.inRange bytes.length = true)
    (ahead : ∀ edit ∈ edits, cursor ≤ edit.start) (inside : cursor ≤ bytes.length)
    (inOrder : edits.Pairwise (fun left right => left.stop ≤ right.start)) :
    splice bytes cursor edits = .ok (editedFrom bytes edits cursor) := by
  induction edits generalizing cursor with
  | nil =>
    rw [splice, editedFrom_nil]
  | cons edit rest ih =>
    obtain ⟨later, inOrder⟩ := pairwise_cons.1 inOrder
    have fits := within edit (by simp)
    have passed := ahead edit (by simp)
    have span := inRange_iff.1 fits
    have more := @ih edit.stop.toNat (fun other member => within other (by simp [member]))
      (fun other member => by have := later other member; omega) (by omega) inOrder
    rw [splice, fits, if_neg (by simp), if_neg (by omega), more, editedFrom_first fits passed later]
    rfl

theorem inOrder_of_splice (spliced : splice bytes cursor edits = .ok out) :
    (∀ edit ∈ edits, edit.inRange bytes.length = true ∧ cursor ≤ edit.start) ∧
      edits.Pairwise (fun left right => left.stop ≤ right.start) := by
  induction edits generalizing cursor out with
  | nil => simp
  | cons edit rest ih =>
    obtain ⟨nonnegative, forwards, bound, passed, ending, more, _⟩ := splice_cons spliced
    obtain ⟨each, inOrder⟩ := ih more
    refine ⟨fun other member => ?_, pairwise_cons.2 ⟨fun other member => ?_, inOrder⟩⟩
    · rcases mem_cons.1 member with rfl | member
      · exact ⟨inRange_iff.2 ⟨nonnegative, forwards, bound⟩, passed⟩
      · have := (each other member).2
        exact ⟨(each other member).1, by omega⟩
    · have := (each other member).2
      omega

theorem isRefusal_of_splice (refused : splice bytes cursor edits = .error fault) :
    fault.isRefusal = true := by
  induction edits generalizing cursor with
  | nil => cases refused
  | cons edit rest ih =>
    rw [splice] at refused
    split at refused
    · cases refused
      rfl
    · split at refused
      · cases refused
        rfl
      · cases more : splice bytes edit.stop.toNat rest with
        | error other =>
          simp only [more, bind, Except.bind] at refused
          exact ih (refused ▸ more)
        | ok ending => simp [more, bind, Except.bind, pure, Except.pure] at refused

instance (left right : Edit) : Decidable (left.Apart right) := inferInstanceAs (Decidable (_ ∨ _))

/-- The edits cannot be applied together to a text of the given size: one is outside, or two overlap. -/
def Clash (size : Nat) (edits : List Edit) : Prop :=
  (∃ edit ∈ edits, edit.start < 0 ∨ edit.stop < edit.start ∨ (size : Int) < edit.stop) ∨ ¬ edits.Pairwise Apart

instance (size : Nat) (edits : List Edit) : Decidable (Clash size edits) := inferInstanceAs (Decidable (_ ∨ _))

theorem not_clash_iff :
    ¬ Clash size edits ↔ (∀ edit ∈ edits, edit.inRange size = true) ∧ edits.Pairwise Apart := by
  unfold Clash
  rw [not_or, not_not]
  refine and_congr_left' ?_
  simp only [inRange_iff, not_exists, not_and]
  refine forall₂_congr (fun edit _ => ?_)
  omega

theorem eq_of_perm_alone {items : List Edit} (alone : items.Pairwise (fun _ _ => False))
    (permuted : others.Perm items) : others = items :=
  permuted.eq_of_pairwise (fun _ _ _ _ never => never.elim) (permuted.symm.pairwise alone (fun never => never)) alone

theorem bytesAt_perm (permuted : others.Perm edits) (apart : edits.Pairwise Apart)
    (inserted : others.filter (·.insertsAt offset) = edits.filter (·.insertsAt offset)) :
    bytesAt bytes others offset = bytesAt bytes edits offset := by
  have alone : (edits.filter (·.replacesFrom offset)).Pairwise (fun _ _ => False) := by
    refine (apart.filter _).imp_of_mem (fun left right apart => ?_)
    have leftSpan := (mem_filter.1 left).2
    have rightSpan := (mem_filter.1 right).2
    simp only [replacesFrom, Bool.and_eq_true, decide_eq_true_eq] at leftSpan rightSpan
    rcases apart with before | after <;> omega
  have replaced := eq_of_perm_alone alone (permuted.filter (·.replacesFrom offset))
  rw [bytesAt, inserted, replaced, permuted.any_eq, bytesAt]

theorem filter_mergeSort (edits : List Edit) (offset : Nat) :
    (edits.mergeSort precedes).filter (·.insertsAt offset) = edits.filter (·.insertsAt offset) := by
  have ordered : (edits.filter (·.insertsAt offset)).Pairwise (fun left right => left.precedes right = true) := by
    refine pairwise_of_forall_mem_list (fun left leftMember right rightMember => precedes_iff.2 ?_)
    have leftSpan := (mem_filter.1 leftMember).2
    have rightSpan := (mem_filter.1 rightMember).2
    simp only [insertsAt, Bool.and_eq_true, decide_eq_true_eq] at leftSpan rightSpan
    omega
  have kept := (sublist_mergeSort precedes_trans precedes_total ordered filter_sublist).filter
    (·.insertsAt offset)
  rw [filter_filter, show (fun edit : Edit => edit.insertsAt offset && edit.insertsAt offset) =
    (·.insertsAt offset) by funext edit; exact Bool.and_self _] at kept
  exact (kept.eq_of_length ((edits.mergeSort_perm precedes).filter _).length_eq.symm).symm

theorem edited_mergeSort (apart : edits.Pairwise Apart) (bytes : List UInt8) :
    edited bytes (edits.mergeSort precedes) = edited bytes edits :=
  flatMap_congr (fun offset _ =>
    bytesAt_perm (edits.mergeSort_perm precedes) apart (filter_mergeSort edits offset))

theorem applyBytes_eq_edited (fine : ¬ Clash bytes.length edits) :
    applyBytes bytes edits = .ok (edited bytes edits) := by
  obtain ⟨within, apart⟩ := not_clash_iff.1 fine
  have permuted := edits.mergeSort_perm precedes
  rw [applyBytes, splice_eq_edited (fun edit member => within edit (permuted.mem_iff.1 member))
    (fun edit member => (inRange_iff.1 (within edit (permuted.mem_iff.1 member))).1) (Nat.zero_le _)
    (mergeSort_inOrder (fun edit member => (inRange_iff.1 (within edit member)).2.1) apart), ← edited_mergeSort apart]
  rfl

theorem applyBytes_of_clash (clash : Clash bytes.length edits) :
    ∃ fault, applyBytes bytes edits = .error fault ∧ fault.isRefusal = true := by
  cases applied : applyBytes bytes edits with
  | error fault => exact ⟨fault, rfl, isRefusal_of_splice applied⟩
  | ok out =>
    obtain ⟨each, inOrder⟩ := inOrder_of_splice applied
    have permuted := edits.mergeSort_perm precedes
    refine absurd clash (not_clash_iff.2 ⟨fun edit member => (each edit (permuted.mem_iff.2 member)).1, ?_⟩)
    exact permuted.pairwise (inOrder.imp Or.inl) Apart.symm

theorem applyAll_of_applyBytes (applied : applyBytes (encode text) edits = .ok out) :
    applyAll text edits = (decode out).mapError .undecodable := by
  rw [applyAll, applied]
  cases read : decode out <;> simp [bind, Except.bind, read, Except.mapError, pure, Except.pure, throw, throwThe,
    MonadExceptOf.throw]

theorem applyAll_of_refused (refused : applyBytes (encode text) edits = .error fault) :
    applyAll text edits = .error fault := by
  rw [applyAll, refused]
  rfl

theorem edited_of_applyAll {result : String} (applied : applyAll text edits = .ok result) :
    ¬ Clash (encode text).length edits ∧ applyBytes (encode text) edits = .ok (encode result) ∧
      encode result = edited (encode text) edits := by
  have fine : ¬ Clash (encode text).length edits := by
    intro clash
    obtain ⟨fault, refused, _⟩ := applyBytes_of_clash clash
    rw [applyAll_of_refused refused] at applied
    cases applied
  have spliced := applyBytes_eq_edited fine
  rw [applyAll_of_applyBytes spliced] at applied
  cases read : decode (edited (encode text) edits) with
  | error fault => simp [read, Except.mapError] at applied
  | ok found =>
    obtain rfl : found = result := by simpa [read, Except.mapError] using applied
    have same := decode_ok_iff.1 read
    exact ⟨fine, same ▸ spliced, same.symm⟩

/-- Only the span of an edit is a reason to refuse it; whether the result can be read is asked later. -/
theorem applyAll_refused_iff (refusal : fault.isRefusal = true) :
    applyAll text edits = .error fault ↔ applyBytes (encode text) edits = .error fault := by
  refine ⟨fun failed => ?_, applyAll_of_refused⟩
  cases applied : applyBytes (encode text) edits with
  | error reason =>
    rw [applyAll_of_refused applied] at failed
    rw [Except.error.inj failed]
  | ok out =>
    rw [applyAll_of_applyBytes applied] at failed
    cases read : decode out with
    | ok result => simp [read, Except.mapError] at failed
    | error wrong =>
      simp only [read, Except.mapError, Except.error.injEq] at failed
      subst failed
      cases refusal

theorem Fits.of_inRange (within : edit.inRange size = true)
    (bounded : Boundary text.toList edit.start.toNat ∧ Boundary text.toList edit.stop.toNat) :
    edit.Fits text.toList :=
  ⟨(inRange_iff.1 within).1, (inRange_iff.1 within).2.1, bounded.1, bounded.2⟩

/-- Edits are refused exactly when one of them is outside the text or two of them overlap. Otherwise every span is
replaced and every other byte stays, and what comes out is a text if the spans are made of whole characters. -/
theorem applyAll_meets (text : String) (edits : List Edit) :
    ((∃ fault, applyAll text edits = .error fault ∧ fault.isRefusal = true) ↔ Clash (encode text).length edits) ∧
      (¬ Clash (encode text).length edits →
        applyBytes (encode text) edits = .ok (edited (encode text) edits) ∧
          applyAll text edits = (decode (edited (encode text) edits)).mapError .undecodable ∧
          ((∀ edit ∈ edits, Boundary text.toList edit.start.toNat ∧ Boundary text.toList edit.stop.toNat) →
            ∃ result, applyAll text edits = .ok result ∧ encode result = edited (encode text) edits)) := by
  constructor
  · constructor
    · rintro ⟨fault, failed, refusal⟩
      by_contra fine
      rw [applyAll_refused_iff refusal, applyBytes_eq_edited fine] at failed
      cases failed
    · intro clash
      obtain ⟨fault, refused, refusal⟩ := applyBytes_of_clash clash
      exact ⟨fault, applyAll_of_refused refused, refusal⟩
  · intro fine
    have applied := applyBytes_eq_edited fine
    refine ⟨applied, applyAll_of_applyBytes applied, fun bounded => ?_⟩
    obtain ⟨within, apart⟩ := not_clash_iff.1 fine
    have fits : ∀ edit ∈ edits, edit.Fits text.toList :=
      fun edit member => Fits.of_inRange (within edit member) (bounded edit member)
    obtain ⟨result, done⟩ := applyAll_apart fits apart
    exact ⟨result, done, Except.ok.inj ((applyBytes_of_applyAll fits apart done).symm.trans applied)⟩

/-- Two insertions where a span starts, a span that follows it, and an insertion at the end. -/
def touchingEdits : List Edit := [⟨3, 6, "E"⟩, ⟨1, 1, "ß"⟩, ⟨1, 3, "e"⟩, ⟨1, 1, "-"⟩, ⟨6, 6, "!"⟩]

theorem applyAll_meets_touching :
    ¬ Clash (encode "aé€").length touchingEdits ∧ applyAll "aé€" touchingEdits = .ok "aß-eE!" := by
  have fine : ¬ Clash (encode "aé€").length touchingEdits := by decide +kernel
  have decoded : decode (edited (encode "aé€") touchingEdits) = .ok "aß-eE!" := by decide +kernel
  refine ⟨fine, ?_⟩
  rw [((applyAll_meets "aé€" touchingEdits).2 fine).2.1, decoded]
  rfl

end Edit
end Refit
