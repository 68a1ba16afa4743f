import Refit.Proofs.Conversion.Bindings
import Refit.Proofs.Conversion.Edits

/-!
Names that the framework does not own. A tag or a hook that no import of the vendor or the runtime binds
is found again in the converted text as it was, unless a table lists its name whatever the source imports.
-/

open List

namespace Refit.Conversion

open Syntax Text.Utf8 Source

variable {converted : Converted} {element : ElementRef} {call : HookCall} {edit : Edit} {span : Span}

def nodeEdits (rules : Rules) (plan : ImportPlan) (source : Source) (node : Node) : List Edit :=
  (source.elementOf node).toList.flatMap (elementEdits rules plan) ++
    ((source.hookCallOf node).bind (hookEdit? rules plan)).toList

/-- What stands in a span is found again in the converted text, where the edits before it have moved it. -/
def Keeps (rules : Rules) (source : Source) (converted : Converted) (span : Span) : Prop :=
  ∃ before after, encode converted.text = before ++ sliceBytes (encode source.text) span ++ after ∧
    (before.length : Int) = Edit.moved (edits rules converted.plan source) span.start

variable {rules : Rules} {plan : ImportPlan} {platform : String} {source : Source} {place : List Nat} {node : Node}

theorem exists_nodeEdits
    (member : edit ∈ tagEdits rules plan source.elements ++ source.hookCalls.filterMap (hookEdit? rules plan)) :
    ∃ place node, source.tree.descend place = some node ∧ edit ∈ nodeEdits rules plan source node := by
  rcases mem_append.1 member with tag | hook
  · obtain ⟨element, isElement, edited⟩ := mem_flatMap.1 tag
    obtain ⟨node, inside, found⟩ := mem_filterMap.1 isElement
    obtain ⟨place, reached⟩ := Node.exists_descend inside
    exact ⟨place, node, reached, by simp [nodeEdits, found, edited]⟩
  · obtain ⟨call, isCall, edited⟩ := mem_filterMap.1 hook
    obtain ⟨node, inside, found⟩ := mem_filterMap.1 isCall
    obtain ⟨place, reached⟩ := Node.exists_descend inside
    exact ⟨place, node, reached, by simp [nodeEdits, found, edited]⟩

theorem nodeEdits_renamable (parsed : source.Parsed) (editable : source.Editable)
    (reached : source.tree.descend place = some node) (member : edit ∈ nodeEdits rules plan source node) :
    ∃ span target, source.Renamable place span ∧ edit = replaceSpan span target := by
  rcases mem_append.1 member with tag | hook
  · obtain ⟨element, found, edited⟩ := mem_flatMap.1 tag
    obtain ⟨spans, target, equal, listed⟩ := elementEdits_eq rules plan element
    rw [equal] at edited
    obtain ⟨span, inside, rfl⟩ := mem_map.1 edited
    exact ⟨span, target, (elementOf_renamable parsed editable reached (Option.mem_toList.1 found)).1 span
      (listed.mem inside), rfl⟩
  · obtain ⟨call, found, edited⟩ := Option.bind_eq_some_iff.1 (Option.mem_toList.1 hook)
    obtain ⟨target, rfl⟩ := hookEdit?_eq edited
    exact ⟨call.span, target, hookCallOf_renamable parsed editable reached found, rfl⟩

theorem edits_spare (parsed : source.Parsed) (editable : source.Editable)
    (reached : source.tree.descend place = some node)
    (untouched : nodeEdits rules (rules.planImports platform source.imports) source node = [])
    (renamable : source.Renamable place span) :
    ∀ edit ∈ edits rules (rules.planImports platform source.imports) source,
      edit.stop ≤ span.start ∨ span.stop ≤ edit.start := by
  intro edit member
  rw [edits, append_assoc] at member
  rcases mem_append.1 member with isImport | renames
  · obtain ⟨decl, present, covers⟩ := mem_importEdits isImport
    rcases imports_apart parsed editable ((replaced_sublist rules platform _).mem present) renamable with
      before | after
    · obtain ⟨target, _, inside, rfl⟩ := renamable
      exact .inl (covers.before (show (replaceSpan target.span "").start = target.start from rfl) before inside)
    · exact .inr (by rw [covers.1]; exact Int.ofNat_le.2 after)
  · obtain ⟨other, found, otherReached, edited⟩ := exists_nodeEdits renames
    obtain ⟨otherSpan, target, otherRenamable, rfl⟩ := nodeEdits_renamable parsed editable otherReached edited
    have different : other ≠ place := by
      rintro rfl
      cases reached.symm.trans otherReached
      simp [untouched] at edited
    rcases otherRenamable.apart parsed renamable different with before | after
    · exact .inl (Int.ofNat_le.2 before)
    · exact .inr (Int.ofNat_le.2 after)

theorem keeps_of_untouched (parsed : source.Parsed) (editable : source.Editable)
    (done : convert rules platform source = .ok converted) (reached : source.tree.descend place = some node)
    (untouched : nodeEdits rules (rules.planImports platform source.imports) source node = [])
    (renamable : source.Renamable place span) : Keeps rules source converted span := by
  have fit := edits_fit rules platform parsed editable
  have bounds := renamable_fits parsed renamable ""
  obtain ⟨plan, applied⟩ := convert_eq done
  rw [Keeps, plan]
  rw [plan] at applied
  have bytes := Edit.applyBytes_of_applyAll fit (edits_apart rules platform parsed editable) applied
  obtain ⟨forwards, inside⟩ : span.start ≤ span.stop ∧ span.stop ≤ (encode source.text).length := by
    simpa [Edit.inRange, replaceSpan, encode_eq] using bounds.inRange
  exact Edit.applyBytes_keeps bytes forwards inside (fun edit member => (fit edit member).forwards)
    (edits_spare parsed editable reached untouched renamable)

/-- Only declarations of unrelated modules bind the name. -/
def Rules.Foreign (rules : Rules) (decls : List ImportDecl) (name : String) : Prop :=
  ∀ decl ∈ decls, decl.Binds name → rules.isUnrelated decl = true

/-- What the table of components calls a tag in every source. -/
def Rules.tagName (rules : Rules) (name : String) : String := (Json.lookup rules.mapping name).getD name

instance (decl : ImportDecl) (name : String) : Decidable (decl.Binds name) :=
  inferInstanceAs (Decidable (_ ∨ _ ∨ _))

instance (rules : Rules) (decls : List ImportDecl) (name : String) : Decidable (rules.Foreign decls name) :=
  inferInstanceAs (Decidable (∀ _ ∈ _, _))

variable {decls : List ImportDecl} {name : String}

theorem Rules.Foreign.vendorLocals (foreign : rules.Foreign decls name) (platform : String) :
    Json.lookup (rules.planImports platform decls).vendorLocals name = none := by
  refine Option.eq_none_iff_forall_not_mem.2 (fun target found => ?_)
  obtain ⟨_, decl, member, isVendor, binds⟩ := vendorLocals_origin found
  simpa [Rules.isUnrelated, isVendor] using foreign decl member binds

theorem Rules.Foreign.runtimeLocals (foreign : rules.Foreign decls name)
    (single : SingleDefaults (rules.targetsOn platform)) :
    Json.lookup (rules.planImports platform decls).runtimeLocals name = none := by
  refine Option.eq_none_iff_forall_not_mem.2 (fun target found => ?_)
  obtain ⟨⟨decl, member, isRuntime, binds⟩, _⟩ := runtimeLocals_origin single found
  simpa [Rules.isUnrelated, isRuntime] using foreign decl member binds

theorem elementEdits_foreign (foreign : rules.Foreign decls element.name)
    (single : SingleDefaults (rules.targetsOn platform)) :
    elementEdits rules (rules.planImports platform decls) element =
      if rules.tagName element.name = element.name then []
      else (element.opening :: element.closing.toList).map (replaceSpan · (rules.tagName element.name)) := by
  unfold elementEdits tagTarget?
  rw [foreign.vendorLocals platform, foreign.runtimeLocals single]
  cases found : Json.lookup rules.mapping element.name <;> simp [Rules.tagName, found]

theorem hookEdit?_foreign (foreign : rules.Foreign decls call.name)
    (single : SingleDefaults (rules.targetsOn platform)) :
    hookEdit? rules (rules.planImports platform decls) call =
      if rules.hookName call.name = call.name then none
      else some (replaceSpan call.span (rules.hookName call.name)) := by
  simp only [hookEdit?, hookTarget, foreign.runtimeLocals single]

theorem nodeEdits_element (found : source.elementOf node = some element) :
    nodeEdits rules plan source node = elementEdits rules plan element := by
  have noCall : source.hookCallOf node = none := by
    refine Option.eq_none_iff_forall_not_mem.2 (fun call isCall => ?_)
    have kind := (hookCallOf_eq isCall).1
    rcases elementOf_kind found with other | other <;> simp [kind] at other
  simp [nodeEdits, found, noCall]

theorem nodeEdits_call (found : source.hookCallOf node = some call) :
    nodeEdits rules plan source node = (hookEdit? rules plan call).toList := by
  have noElement : source.elementOf node = none := by
    refine Option.eq_none_iff_forall_not_mem.2 (fun element isElement => ?_)
    have kind := (hookCallOf_eq found).1
    rcases elementOf_kind isElement with other | other <;> simp [kind] at other
  simp [nodeEdits, found, noElement]

section

variable (parsed : source.Parsed) (editable : source.Editable) (done : convert rules platform source = .ok converted)
include parsed editable done

theorem keeps_element (member : element ∈ source.elements)
    (unedited : elementEdits rules (rules.planImports platform source.imports) element = []) :
    ∀ span ∈ element.opening :: element.closing.toList, Keeps rules source converted span := by
  intro span present
  obtain ⟨node, inside, found⟩ := mem_filterMap.1 member
  obtain ⟨place, reached⟩ := Node.exists_descend inside
  exact keeps_of_untouched parsed editable done reached ((nodeEdits_element found).trans unedited)
    ((elementOf_renamable parsed editable reached found).1 span present)

theorem keeps_call (member : call ∈ source.hookCalls)
    (unedited : hookEdit? rules (rules.planImports platform source.imports) call = none) :
    Keeps rules source converted call.span := by
  obtain ⟨node, inside, found⟩ := mem_filterMap.1 member
  obtain ⟨place, reached⟩ := Node.exists_descend inside
  exact keeps_of_untouched parsed editable done reached (by rw [nodeEdits_call found, unedited]; rfl)
    (hookCallOf_renamable parsed editable reached found)

theorem element_foreign (single : SingleDefaults (rules.targetsOn platform)) (member : element ∈ source.elements)
    (foreign : rules.Foreign source.imports element.name) (present : span ∈ element.opening :: element.closing.toList) :
    (rules.tagName element.name = element.name → Keeps rules source converted span) ∧
      (rules.tagName element.name ≠ element.name →
        replaceSpan span (rules.tagName element.name) ∈ edits rules converted.plan source) := by
  have edited := elementEdits_foreign foreign single
  constructor
  · intro same
    rw [if_pos same] at edited
    exact keeps_element parsed editable done member edited span present
  · intro other
    rw [if_neg other] at edited
    have listed : replaceSpan span (rules.tagName element.name) ∈ tagEdits rules
        (rules.planImports platform source.imports) source.elements :=
      mem_flatMap.mpr ⟨element, member, edited ▸ mem_map_of_mem present⟩
    simp [edits, (convert_eq done).1, listed]

theorem call_foreign (single : SingleDefaults (rules.targetsOn platform)) (member : call ∈ source.hookCalls)
    (foreign : rules.Foreign source.imports call.name) :
    (rules.hookName call.name = call.name → Keeps rules source converted call.span) ∧
      (rules.hookName call.name ≠ call.name →
        replaceSpan call.span (rules.hookName call.name) ∈ edits rules converted.plan source) := by
  have edited := hookEdit?_foreign foreign single
  constructor
  · intro same
    rw [if_pos same] at edited
    exact keeps_call parsed editable done member edited
  · intro other
    rw [if_neg other] at edited
    exact mem_append_right _ (mem_filterMap.mpr ⟨call, member, (convert_eq done).1 ▸ edited⟩)

end

/-- A tag or a hook of a foreign name stays in the converted text, unless the table of components or the
table of hooks has another name for it: these are asked whatever the source imports. -/
theorem convert_keeps_foreign {dialect : Dialect} (builtin : dialect ∈ Registry.builtin) (platform : String)
    {path text : String} {source : Source} (accepted : parse path text = .ok source)
    (bare : source.ImportsBare) :
    ∃ converted, convert dialect.rules platform source = .ok converted ∧
      (∀ element ∈ source.elements, dialect.rules.Foreign source.imports element.name →
        ∀ span ∈ element.opening :: element.closing.toList,
          (dialect.rules.tagName element.name = element.name → Keeps dialect.rules source converted span) ∧
          (dialect.rules.tagName element.name ≠ element.name →
            replaceSpan span (dialect.rules.tagName element.name) ∈ edits dialect.rules converted.plan source)) ∧
      ∀ call ∈ source.hookCalls, dialect.rules.Foreign source.imports call.name →
        (dialect.rules.hookName call.name = call.name → Keeps dialect.rules source converted call.span) ∧
        (dialect.rules.hookName call.name ≠ call.name →
          replaceSpan call.span (dialect.rules.hookName call.name) ∈
            edits dialect.rules converted.plan source) := by
  have editable := editable_of_bare accepted bare
  obtain ⟨rfl, parsed⟩ := parsed_of_parse accepted
  have single := builtin_singleDefaults builtin platform
  obtain ⟨converted, done⟩ := convert_ok dialect.rules platform parsed editable
  exact ⟨converted, done,
    fun element member foreign span present => element_foreign parsed editable done single member foreign present,
    fun call member foreign => call_foreign parsed editable done single member foreign⟩

/-- Names of other libraries beside a name of the runtime. -/
def mixedText : String :=
  "import \x7b useState \x7d from 'react'\nimport \x7b NavLink \x7d from '@remix-run/react'\nimport \x7b Text \x7d " ++
    "from 'react-native'\nuseState(<NavLink><Text/></NavLink>)"

theorem convert_keeps_foreign_mixed :
    ∃ source, parse "page.tsx" mixedText = .ok source ∧ source.ImportsBare ∧
      ⟨"useState", ⟨112, 120⟩⟩ ∈ source.hookCalls ∧ Dialect.bolt.rules.Foreign source.imports "useState" ∧
      ⟨"Text", ⟨131, 135⟩, none⟩ ∈ source.elements ∧ Dialect.bolt.rules.Foreign source.imports "Text" ∧
      ∃ converted, convert Dialect.bolt.rules "nextjs" source = .ok converted ∧
        Keeps Dialect.bolt.rules source converted ⟨112, 120⟩ ∧
        replaceSpan ⟨131, 135⟩ "Typography" ∈ edits Dialect.bolt.rules converted.plan source := by
  obtain ⟨source, accepted, bare, isCall, callForeign, isElement, elementForeign⟩ :=
    exists_parse "page.tsx" mixedText (fun source => source.ImportsBare ∧
      ⟨"useState", ⟨112, 120⟩⟩ ∈ source.hookCalls ∧ Dialect.bolt.rules.Foreign source.imports "useState" ∧
      ⟨"Text", ⟨131, 135⟩, none⟩ ∈ source.elements ∧ Dialect.bolt.rules.Foreign source.imports "Text")
      (by decide +kernel)
  obtain ⟨converted, done, elements, calls⟩ :=
    convert_keeps_foreign (mem_cons_of_mem _ (mem_singleton_self Dialect.bolt)) "nextjs" accepted bare
  exact ⟨source, accepted, bare, isCall, callForeign, isElement, elementForeign, converted, done,
    (calls _ isCall callForeign).1 (by decide),
    (elements _ isElement elementForeign _ (mem_singleton_self _)).2 (by decide)⟩

/-- The hook of another library that has the name of one of the runtime's hooks. -/
def borrowedText : String :=
  "import \x7b useTransition \x7d from 'react';\nexport const A = () => useTransition();\n"

/-- The import of the hook stays as it is, and the call is renamed all the same. -/
theorem convert_renames_borrowed :
    ∃ source converted, parse "page.tsx" borrowedText = .ok source ∧ source.ImportsBare ∧
      Dialect.bolt.rules.Foreign source.imports "useTransition" ∧
      (∃ decl ∈ source.imports, decl.Binds "useTransition") ∧
      convert Dialect.bolt.rules "react" source = .ok converted ∧
      converted.text = "import \x7b useTransition \x7d from 'react';\nexport const A = () => useLoading();\n" := by
  obtain ⟨source, accepted, bare, foreign, bound, renamed⟩ :=
    exists_parse "page.tsx" borrowedText (fun source => source.ImportsBare ∧
      Dialect.bolt.rules.Foreign source.imports "useTransition" ∧
      (∃ decl ∈ source.imports, decl.Binds "useTransition") ∧
      (convert Dialect.bolt.rules "react" source).toOption.map (·.text) =
        some "import \x7b useTransition \x7d from 'react';\nexport const A = () => useLoading();\n")
      (by decide +kernel)
  obtain ⟨converted, done, rewritten⟩ := exists_convert renamed
  exact ⟨source, converted, accepted, bare, foreign, bound, done, rewritten⟩

end Refit.Conversion
