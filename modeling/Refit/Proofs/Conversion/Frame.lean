import Refit.Adapter.Detect
import Refit.Proofs.Conversion.Edits
import Refit.Proofs.Source.Edited

/-!
What a conversion leaves alone. The converted text is the source with its replaced imports, the names of
tags and the callees of hooks changed, and nothing else. An import that passes through keeps its text,
unless a name that is changed stands inside it.
-/

open List

namespace Refit

open Syntax Text.Utf8 Source

variable {decl : ImportDecl}

theorem Syntax.Node.Nested.inside_or_apart {tree child node : Node} {k : Nat} {address : List Nat}
    (nested : tree.Nested) (present : tree.children[k]? = some child) (reached : tree.descend address = some node)
    (below : address ≠ []) :
    child.start ≤ node.start ∧ node.stop ≤ child.stop ∨ child.span.Apart node.span := by
  cases address with
  | nil => exact absurd rfl below
  | cons i rest =>
    by_cases same : i = k
    · subst same
      rw [descend, present] at reached
      have member := mem_of_getElem? present
      exact .inl ((nested.below (mem_walk_of_child member child.self_mem_walk)).within reached)
    · have there : tree.descend [k] = some child := by simp [descend, present]
      refine .inr (nested.apart there reached ?_ ?_)
      · intro above
        exact same (cons_prefix_cons.1 above).1.symm
      · intro above
        exact same (cons_prefix_cons.1 above).1

namespace Source

variable {source : Source} {span : Span}

/-- The span of a node below the root. -/
def Lower (source : Source) (span : Span) : Prop :=
  ∃ address node, address ≠ [] ∧ source.tree.descend address = some node ∧ node.span = span

theorem lower_child {parent child : Node} (member : parent ∈ source.nodes) (present : child ∈ parent.children) :
    source.Lower child.span := by
  obtain ⟨address, reached⟩ := Node.exists_descend member
  obtain ⟨index, there⟩ := List.getElem?_of_mem present
  exact ⟨address ++ [index], child, by simp, Node.descend_child reached there, rfl⟩

theorem lower_tagName {node name : Node} {category : Category} (member : node ∈ source.nodes)
    (named : tagName (node.firstOf? category) = some name) : source.Lower name.span := by
  obtain ⟨tag, found, present⟩ := Option.bind_eq_some_iff.1 named
  have inside := Node.mem_walk_trans (Node.mem_walk_of_child (mem_of_find?_eq_some found) tag.self_mem_walk) member
  exact lower_child inside (mem_of_find?_eq_some present)

theorem lower_element {element : ElementRef} (member : element ∈ source.elements)
    (present : span ∈ element.opening :: element.closing.toList) : source.Lower span := by
  obtain ⟨node, inside, found⟩ := mem_filterMap.1 member
  unfold elementOf at found
  split at found
  · obtain ⟨name, opens, rfl⟩ := Option.map_eq_some_iff.1 found
    rcases mem_cons.1 present with rfl | closes
    · exact lower_tagName inside opens
    · obtain ⟨last, named, rfl⟩ := Option.map_eq_some_iff.1 (Option.mem_toList.1 closes)
      exact lower_tagName inside named
  · split at found
    · obtain ⟨name, named, rfl⟩ := Option.map_eq_some_iff.1 found
      obtain rfl : span = name.span := by simpa using present
      exact lower_child inside (mem_of_find?_eq_some named)
    · cases found

theorem lower_hookCall {call : HookCall} (member : call ∈ source.hookCalls) : source.Lower call.span := by
  obtain ⟨node, inside, found⟩ := mem_filterMap.1 member
  obtain ⟨_, callee, present, _, same⟩ := hookCallOf_eq found
  rw [same]
  exact lower_child inside (mem_of_find?_eq_some present)

theorem import_inside_or_apart (parsed : source.Parsed) (member : decl ∈ source.imports)
    (lower : source.Lower span) :
    decl.span.start ≤ span.start ∧ span.stop ≤ decl.span.stop ∨ decl.span.Apart span := by
  obtain ⟨statement, child, _, same⟩ := mem_imports member
  obtain ⟨k, present⟩ := List.getElem?_of_mem (mem_filter.1 child).1
  obtain ⟨address, node, below, reached, rfl⟩ := lower
  rw [same]
  exact parsed.nested.inside_or_apart present reached below

theorem import_text (parsed : source.Parsed) (member : decl ∈ source.imports) :
    decl.span.start ≤ decl.span.stop ∧ decl.span.stop ≤ (encode source.text).length ∧
      encode decl.text = sliceBytes (encode source.text) decl.span := by
  obtain ⟨statement, listed, rfl⟩ := mem_map.1 member
  have child := (mem_filter.1 (mem_filter.1 listed).1).1
  obtain ⟨orderly, start, stop⟩ := parsed.placed statement (Node.mem_walk_of_child child statement.self_mem_walk)
  obtain ⟨inner, bytes⟩ := start.between stop orderly.forwards
  refine ⟨orderly.forwards, encode_eq source.text ▸ stop.le_length, ?_⟩
  have cut : sliceBytes (encode source.text) statement.span = encodeChars inner := by
    rw [encode_eq]
    exact bytes
  have text : (source.importOf statement).text = String.ofList inner := by
    simp only [importOf, textOf, slice]
    rw [cut, decodeLossy_encodeChars]
  rw [text, encode_eq, String.toList_ofList]
  exact cut.symm

end Source

namespace Conversion

/-- How the name of a tag or the callee of a hook changes. The opening and the closing tag of an element get the
    same name. -/
inductive Rename (rules : Rules) (plan : ImportPlan) (source : Source) : Edit → Prop
  | tag {element : ElementRef} (member : element ∈ source.elements) {target : String} {own : Bool}
      (named : tagTarget? rules plan element.name = some (target, own)) (other : target ≠ element.name)
      {span : Span} (present : span ∈ element.opening :: element.closing.toList) :
      Rename rules plan source ⟨span.start, span.stop, target⟩
  | hook {call : HookCall} (member : call ∈ source.hookCalls) (other : hookTarget rules plan call.name ≠ call.name) :
      Rename rules plan source ⟨call.span.start, call.span.stop, hookTarget rules plan call.name⟩

/-- What changes in a source. The first replaced import becomes the new imports; without any, and for all
    others, an import disappears together with a line break that follows it directly. -/
inductive Change (rules : Rules) (plan : ImportPlan) (source : Source) : Edit → Prop
  | first {decl : ImportDecl} {others : List ImportDecl} (replaced : plan.replaced = decl :: others)
      (some : plan.runtimeImports ++ plan.targetImport?.toList ≠ []) :
      Change rules plan source ⟨decl.span.start, decl.span.stop,
        String.intercalate "\n" (plan.runtimeImports ++ plan.targetImport?.toList)⟩
  | removed {earlier later : List ImportDecl} {decl : ImportDecl} (replaced : plan.replaced = earlier ++ decl :: later)
      (rest : earlier ≠ [] ∨ plan.runtimeImports ++ plan.targetImport?.toList = []) {stop : Nat}
      (ends : stop = decl.span.stop + if (encode source.text)[decl.span.stop]? = some 10 then 1 else 0) :
      Change rules plan source ⟨decl.span.start, stop, ""⟩
  | rename {edit : Edit} (renames : Rename rules plan source edit) : Change rules plan source edit

variable {rules : Rules} {plan : ImportPlan} {platform : String} {source : Source} {converted : Converted}
  {edit : Edit}

theorem mem_renames_iff : edit ∈ tagEdits rules plan source.elements ++ source.hookCalls.filterMap (hookEdit? rules plan) ↔
    Rename rules plan source edit := by
  constructor
  · intro member
    rcases mem_append.1 member with tag | hook
    · obtain ⟨element, isElement, edited⟩ := mem_flatMap.1 tag
      unfold elementEdits at edited
      split at edited
      · cases edited
      · next target own named =>
          split at edited
          · cases edited
          · next other =>
              obtain ⟨span, present, rfl⟩ := mem_map.1 edited
              exact .tag isElement named other present
    · obtain ⟨call, isCall, edited⟩ := mem_filterMap.1 hook
      simp only [hookEdit?] at edited
      split at edited
      · cases edited
      · next other =>
          cases edited
          exact .hook isCall other
  · rintro (⟨member, named, other, present⟩ | ⟨member, other⟩)
    · refine mem_append_left _ (mem_flatMap.2 ⟨_, member, ?_⟩)
      simp only [elementEdits, named, if_neg other]
      exact mem_map.2 ⟨_, present, rfl⟩
    · refine mem_append_right _ (mem_filterMap.2 ⟨_, member, ?_⟩)
      simp only [hookEdit?, if_neg other]
      rfl

theorem removal_eq (bytes : List UInt8) (decl : ImportDecl) :
    removal bytes decl =
      ⟨decl.span.start, (decl.span.stop + if bytes[decl.span.stop]? = some 10 then 1 else 0 : Nat), ""⟩ := by
  unfold removal
  split <;> simp_all

theorem mem_edits_iff : edit ∈ edits rules plan source ↔ Change rules plan source edit := by
  rw [edits, append_assoc, mem_append, mem_renames_iff]
  constructor
  · rintro (imported | renames)
    · unfold importEdits at imported
      split at imported
      · cases imported
      · next first others replaced =>
          rcases mem_cons.1 imported with rfl | later
          · split
            · next none =>
                rw [removal_eq]
                exact .removed (show _ = [] ++ _ from replaced) (.inr (List.isEmpty_iff.1 none)) rfl
            · next some => exact .first replaced (fun none => some (List.isEmpty_iff.2 none))
          · obtain ⟨decl, present, rfl⟩ := mem_map.1 later
            obtain ⟨earlier, later, rfl⟩ := append_of_mem present
            rw [removal_eq]
            exact .removed (show _ = (first :: earlier) ++ _ from replaced) (.inl (by simp)) rfl
    · exact .rename renames
  · intro change
    cases change with
    | first replaced some =>
      refine .inl ?_
      have filled : plan.lines.isEmpty = false := by simpa [ImportPlan.lines] using some
      simp only [importEdits, replaced, filled]
      exact mem_cons_self
    | @removed earlier later decl replaced rest stop ends =>
      refine .inl ?_
      rw [ends, ← removal_eq]
      cases earlier with
      | nil =>
        have none : plan.lines.isEmpty = true :=
          List.isEmpty_iff.2 (rest.resolve_left (fun some => some rfl))
        simp only [importEdits, replaced, none]
        exact mem_cons_self
      | cons head others =>
        simp only [importEdits, replaced]
        exact mem_cons_of_mem _ (mem_map_of_mem (by simp))
    | rename renames => exact .inr renames

theorem Rename.lower (renames : Rename rules plan source edit) :
    ∃ span : Span, source.Lower span ∧ edit.start = span.start ∧ edit.stop = span.stop := by
  cases renames with
  | @tag element member target own named other span present =>
    exact ⟨span, Source.lower_element member present, rfl, rfl⟩
  | @hook call member other => exact ⟨call.span, Source.lower_hookCall member, rfl, rfl⟩

theorem importEdits_spare (parsed : source.Parsed) (begins : source.ImportsBegin)
    (passed : decl ∈ (rules.planImports platform source.imports).passedThrough)
    (imported : edit ∈ importEdits (encode source.text) (rules.planImports platform source.imports)) :
    edit.stop ≤ decl.span.start ∨ decl.span.stop ≤ edit.start := by
  obtain ⟨other, replaced, covers⟩ := mem_importEdits imported
  obtain ⟨present, kind⟩ := mem_filter.1 passed
  obtain ⟨otherPresent, otherKind⟩ := mem_filter.1 replaced
  have ordered := pairwise_iff_getElem.1 (imports_inOrder parsed begins)
  obtain ⟨i, bound, rfl⟩ := getElem_of_mem present
  obtain ⟨j, otherBound, rfl⟩ := getElem_of_mem otherPresent
  have different : i ≠ j := by
    rintro rfl
    simp [kind] at otherKind
  rcases Nat.lt_or_gt_of_ne different with before | after
  · rw [covers.1]
    exact .inr (Int.ofNat_le.2 (ordered i j bound otherBound before).1)
  · obtain ⟨ends, begins⟩ := ordered j i otherBound bound after
    exact .inl (covers.before (show (replaceSpan source.imports[i].span "").start = _ from rfl) ends begins)

/-- The changes that make a source into what it is converted to: each of them is called for, no two overlap, and all
    other bytes stay in their order. -/
structure Framed (rules : Rules) (platform : String) (source : Source) (converted : Converted) (changes : List Edit) :
    Prop where
  plan : converted.plan = rules.planImports platform source.imports
  each : ∀ edit, edit ∈ changes ↔ Change rules converted.plan source edit
  within : ∀ edit ∈ changes, edit.inRange (encode source.text).length = true
  apart : changes.Pairwise Edit.Apart
  made : encode converted.text = Edit.edited (encode source.text) changes
  passed : ∀ decl ∈ converted.plan.passedThrough,
    (∀ edit, Rename rules converted.plan source edit →
      ¬ ((decl.span.start : Int) ≤ edit.start ∧ edit.stop ≤ decl.span.stop)) →
    ∃ before after, encode converted.text = before ++ encode decl.text ++ after ∧
      (before.length : Int) = Edit.moved changes decl.span.start

theorem framed_of_parsed (parsed : source.Parsed) (begins : source.ImportsBegin)
    (done : convert rules platform source = .ok converted) :
    ∃ changes, Framed rules platform source converted changes := by
  obtain ⟨plan, applied⟩ := convert_eq done
  obtain ⟨fine, spliced, made⟩ := Edit.edited_of_applyAll applied
  obtain ⟨within, apart⟩ := Edit.not_clash_iff.mp fine
  refine ⟨edits rules converted.plan source, plan, fun edit => mem_edits_iff, within, apart, made, ?_⟩
  intro decl passed unnamed
  have present : decl ∈ source.imports := (mem_filter.mp (plan ▸ passed)).1
  obtain ⟨forwards, inside, whole⟩ := Source.import_text parsed present
  rw [whole]
  refine Edit.applyBytes_keeps spliced forwards inside
    (fun edit member => (Edit.inRange_iff.mp (within edit member)).2.1) (fun edit member => ?_)
  rw [edits, append_assoc, mem_append, mem_renames_iff] at member
  rcases member with imported | renames
  · rw [plan] at imported passed
    exact importEdits_spare parsed begins passed imported
  · have outside := unnamed edit renames
    obtain ⟨span, lower, starts, stops⟩ := renames.lower
    rw [starts, stops] at outside ⊢
    rcases Source.import_inside_or_apart parsed present lower with within | before | after
    · exact absurd ⟨Int.ofNat_le.mpr within.1, Int.ofNat_le.mpr within.2⟩ outside
    · exact .inr (Int.ofNat_le.mpr before)
    · exact .inl (Int.ofNat_le.mpr after)

/-- A conversion changes the replaced imports, the names of tags and the callees of hooks, and nothing else. An import
    that passes through is found again whole, if no name inside it changes. -/
theorem convert_framed {path text : String} (accepted : parse path text = .ok source)
    (done : convert rules platform source = .ok converted) :
    source.text = text ∧ ∃ changes, Framed rules platform source converted changes := by
  obtain ⟨same, parsed⟩ := parsed_of_parse accepted
  exact ⟨same, framed_of_parsed parsed (importsBegin_of_parse accepted) done⟩

/-- A source with imports of both kinds in turn, a hook, and an element of which only one tag has the name. -/
def framedText : String :=
  "import \x7b useNavigation, Link as L \x7d from '@remix-run/react';\nimport a from './a' with \x7b k: 1 \x7d;\n" ++
    "import '@bolt/core';\nimport b from './b';import \x7b Text \x7d from 'bolt-ui';\n" ++
    "export const A = () => <Text a=\x7buseNavigation()\x7d><L/></Other>;\n"

def framedResult : String :=
  "import Link from 'next/link';\nimport \x7b Typography \x7d from '@xala-technologies/ui-system';\n" ++
    "import a from './a' with \x7b k: 1 \x7d;\nimport b from './b';" ++
    "export const A = () => <Typography a=\x7buseLoading()\x7d><Link/></Typography>;\n"

theorem convert_framed_turned :
    ∃ source converted, parse "a.tsx" framedText = .ok source ∧
      convert Dialect.bolt.rules "nextjs" source = .ok converted ∧ converted.text = framedResult ∧
      ∃ changes, Framed Dialect.bolt.rules "nextjs" source converted changes := by
  obtain ⟨source, accepted, editable, result⟩ := exists_parse "a.tsx" framedText
    (fun source => source.Editable ∧ Edit.edited (encode source.text) (edits Dialect.bolt.rules
      (Dialect.bolt.rules.planImports "nextjs" source.imports) source) = encode framedResult)
    (by decide +kernel)
  obtain ⟨converted, done⟩ := convert_ok Dialect.bolt.rules "nextjs" (parsed_of_parse accepted).2 editable
  obtain ⟨plan, applied⟩ := convert_eq done
  rw [← plan] at result
  exact ⟨source, converted, accepted, done, encode_inj ((Edit.edited_of_applyAll applied).2.2.trans result),
    (convert_framed accepted done).2⟩

/-- An import that passes through, with an element among its attributes. -/
def markedImport : String := "import x from 'y' with \x7b a: <LovableButton/> \x7d;"

/-- The element in an import that passes through is renamed like any other. -/
theorem convert_renames_in_import :
    ∃ source converted, parse "a.tsx" markedImport = .ok source ∧
      convert Dialect.lovable.rules "react" source = .ok converted ∧
      converted.plan.passedThrough.map (·.text) = [markedImport] ∧
      converted.text = "import x from 'y' with \x7b a: <Button/> \x7d;" := by
  obtain ⟨source, accepted, passed, found⟩ := exists_parse "a.tsx" markedImport
    (fun source =>
      (Dialect.lovable.rules.planImports "react" source.imports).passedThrough.map (·.text) = [markedImport] ∧
        (convert Dialect.lovable.rules "react" source).toOption.map (·.text) =
          some "import x from 'y' with \x7b a: <Button/> \x7d;")
    (by decide +kernel)
  obtain ⟨converted, done, text⟩ := exists_convert found
  exact ⟨source, converted, accepted, done, (convert_eq done).1 ▸ passed, text⟩

end Conversion
end Refit
