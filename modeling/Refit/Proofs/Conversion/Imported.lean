import Refit.Proofs.Conversion.Bindings
import Refit.Proofs.Conversion.Edits

/-!
The imports of a converted text. A tag that the conversion renames has a name that the converted text
imports, unless the name comes from the table of components and nothing that the source imports brings
it in.
-/

open List

namespace Refit

open Text.Utf8 Source

variable {edit : Edit}

theorem Edit.replacement_of_applyAll {text result : String} {edits : List Edit} {c : Char}
    {chars : List Char} (applied : applyAll text edits = .ok result) (member : edit ∈ edits)
    (starts : edit.replacement.toList = c :: chars) (ascii : c.val.toNat < 128) :
    edit.replacement.toList <:+: result.toList := by
  obtain ⟨bytes, spliced, decoded⟩ := bind_ok applied
  refine infix_of_decode starts ascii (replacement_of_applyBytes spliced member) ?_
  cases read : decode bytes with
  | error fault => simp [read] at decoded
  | ok found => simpa [read, pure, Except.pure] using decoded

namespace Conversion

variable {line target : String} {lines : List String}

theorem mem_sortedDistinct {texts : List String} {text : String} : text ∈ sortedDistinct texts ↔ text ∈ texts := by
  rw [sortedDistinct, (mergeSort_perm _ _).mem_iff, mem_distinct]

theorem importLine_starts (moduleName : String) (group : RuntimeGroup) :
    ∃ rest, (importLine moduleName group).toList = 'i' :: rest := by
  simp [importLine]

theorem infix_intercalate {separator : String} (member : line ∈ lines) :
    line.toList <:+: (String.intercalate separator lines).toList := by
  induction lines with
  | nil => cases member
  | cons first rest ih =>
    cases rest with
    | nil =>
      obtain rfl := mem_singleton.1 member
      simp
    | cons next others =>
      rw [String.intercalate_cons_cons, String.toList_append, String.toList_append]
      rcases mem_cons.1 member with rfl | later
      · exact ((prefix_append _ _).trans (prefix_append _ _)).isInfix
      · exact (ih later).trans (suffix_append _ _).isInfix

/-- The converted text imports the name from the module, by one of the lines. -/
def Converted.Imports (converted : Converted) (lines : List String) (moduleName name : String) : Prop :=
  ∃ group : RuntimeGroup, group.Provides name ∧ importLine moduleName group ∈ lines ∧
    (importLine moduleName group).toList <:+: converted.text.toList

variable {rules : Rules} {platform : String} {source : Source} {converted : Converted}

theorem line_starts (member : line ∈ (rules.planImports platform source.imports).lines) :
    ∃ rest, line.toList = 'i' :: rest := by
  rcases mem_append.1 member with runtime | target
  · obtain ⟨group, _, rfl⟩ := mem_map.1 runtime
    exact importLine_starts group.1 group.2
  · unfold ImportPlan.targetImport? at target
    split at target
    · simp at target
    · obtain rfl : line = _ := by simpa using target
      exact importLine_starts _ _

theorem lines_start (some : lines ≠ []) (starts : ∀ line ∈ lines, ∃ rest, line.toList = 'i' :: rest) :
    ∃ rest, (String.intercalate "\n" lines).toList = 'i' :: rest := by
  cases lines with
  | nil => contradiction
  | cons first others =>
    obtain ⟨rest, equal⟩ := starts first (by simp)
    cases others with
    | nil => exact ⟨rest, by simp [equal]⟩
    | cons next others => exact ⟨_, by rw [String.intercalate_cons_cons]; simp [equal]; rfl⟩

section

variable (done : convert rules platform source = .ok converted)
include done

theorem line_shown (related : ∃ decl ∈ source.imports, rules.isUnrelated decl = false)
    (member : line ∈ converted.plan.lines) : line.toList <:+: converted.text.toList := by
  obtain ⟨plan, applied⟩ := convert_eq done
  obtain ⟨decl, present, kind⟩ := related
  have replaced : decl ∈ converted.plan.replaced := plan ▸ mem_filter.2 ⟨present, by simp [kind]⟩
  have some : converted.plan.lines ≠ [] := ne_nil_of_mem member
  have edited : ∃ span, replaceSpan span (String.intercalate "\n" converted.plan.lines) ∈
      edits rules converted.plan source := by
    cases all : converted.plan.replaced with
    | nil => simp [all] at replaced
    | cons first others => exact ⟨first.span, by simp [edits, importEdits, all, some]⟩
  obtain ⟨span, edited⟩ := edited
  obtain ⟨rest, starts⟩ := lines_start some (fun line listed => line_starts (plan ▸ listed))
  have shown := Edit.replacement_of_applyAll applied edited starts (by decide)
  exact (infix_intercalate member).trans shown

theorem imports_target {name : String} (brought : name ∈ source.imports.flatMap rules.brings) :
    converted.Imports converted.plan.targetImport?.toList targetLibrary name := by
  have plan := (convert_eq done).1
  have listed : name ∈ converted.plan.targetNames := by
    rw [plan, planImports_targetNames]
    exact brought
  have line : importLine targetLibrary ⟨none, sortedDistinct converted.plan.targetNames⟩ ∈
      converted.plan.targetImport?.toList := by
    simp [ImportPlan.targetImport?, ne_nil_of_mem listed]
  obtain ⟨decl, present, taken⟩ := mem_flatMap.1 brought
  have related : rules.isUnrelated decl = false := by
    unfold Rules.brings at taken
    split at taken
    · next isVendor => simp [Rules.isUnrelated, isVendor.1]
    · cases taken
  exact ⟨_, .inr (mem_sortedDistinct.2 listed), line,
    line_shown done ⟨decl, present, related⟩ (mem_append_right _ line)⟩

theorem imports_runtime (single : SingleDefaults (rules.targetsOn platform)) {name : String}
    (found : Json.lookup converted.plan.runtimeLocals name = some target) :
    ∃ entry ∈ rules.targetsOn platform, entry.2.name = target ∧
      converted.Imports converted.plan.runtimeImports entry.2.moduleName target := by
  have plan := (convert_eq done).1
  rw [plan] at found
  obtain ⟨⟨decl, present, isRuntime, _⟩, entry, known, named, group, provided, line⟩ :=
    runtimeLocals_origin single found
  rw [← plan] at line
  exact ⟨entry, known, named, group, provided, line,
    line_shown done ⟨decl, present, by simp [Rules.isUnrelated, isRuntime]⟩ (mem_append_left _ line)⟩

end

theorem mem_elementEdits {plan : ImportPlan} {element : ElementRef} (member : edit ∈ elementEdits rules plan element) :
    ∃ isTarget, tagTarget? rules plan element.name = some (edit.replacement, isTarget) := by
  unfold elementEdits at member
  split at member
  · cases member
  · next target isTarget found =>
      split at member
      · cases member
      · obtain ⟨span, _, rfl⟩ := mem_map.1 member
        exact ⟨isTarget, found⟩

theorem mem_elements (done : convert rules platform source = .ok converted) :
    target ∈ converted.elements ↔
      ∃ element ∈ source.elements, elementTarget? rules converted.plan element = some target := by
  obtain ⟨text, _, rest⟩ := bind_ok done
  cases rest
  rw [mem_distinct, mem_filterMap]

/-- A name that the conversion writes into a tag is imported by the converted text, as a component of the
target library or from a module of the platform. The exception is a name of the table of components that no
declaration of the source brings in. -/
theorem edited_tags_imported {dialect : Dialect} (builtin : dialect ∈ Registry.builtin) {platform : String}
    {source : Source} {converted : Converted} (done : convert dialect.rules platform source = .ok converted) :
    ∀ element ∈ source.elements, ∀ edit ∈ elementEdits dialect.rules converted.plan element,
      (edit.replacement ∈ converted.elements ∧
        (converted.Imports converted.plan.targetImport?.toList targetLibrary edit.replacement ∨
          Json.lookup dialect.rules.mapping element.name = some edit.replacement ∧
            edit.replacement ∉ source.imports.flatMap dialect.rules.brings)) ∨
      (elementTarget? dialect.rules converted.plan element = none ∧
        ∃ entry ∈ dialect.rules.targetsOn platform, entry.2.name = edit.replacement ∧
          converted.Imports converted.plan.runtimeImports entry.2.moduleName edit.replacement) := by
  intro element isElement edit member
  have single := builtin_singleDefaults builtin platform
  obtain ⟨isTarget, found⟩ := mem_elementEdits member
  have shown (target : tagTarget? dialect.rules converted.plan element.name = some (edit.replacement, true)) :
      edit.replacement ∈ converted.elements :=
    (mem_elements done).mpr ⟨element, isElement, by simp [elementTarget?, target]⟩
  have origin := found
  simp only [tagTarget?] at origin
  split at origin
  · next target bound =>
      cases origin
      rw [(convert_eq done).1] at bound
      exact .inl ⟨shown found, .inl (imports_target done (vendorLocals_origin bound).1)⟩
  · split at origin
    · next target mapped =>
        cases origin
        by_cases brought : edit.replacement ∈ source.imports.flatMap dialect.rules.brings
        · exact .inl ⟨shown found, .inl (imports_target done brought)⟩
        · exact .inl ⟨shown found, .inr ⟨mapped, brought⟩⟩
    · obtain ⟨target, bound, same⟩ := Option.map_eq_some_iff.mp origin
      cases same
      exact .inr ⟨by simp [elementTarget?, found], imports_runtime done single bound⟩

/-- A component of the vendor under another name inside one of the runtime. -/
def aliasedText : String :=
  "import \x7b Text as T \x7d from 'bolt-ui'\nimport \x7b NavLink \x7d from '@remix-run/react'\nf(<NavLink><T/></NavLink>)"

theorem edited_tags_imported_aliased :
    ∃ source converted, parse "page.tsx" aliasedText = .ok source ∧
      convert Dialect.bolt.rules "nextjs" source = .ok converted ∧
      (⟨"NavLink", ⟨82, 89⟩, some ⟨96, 103⟩⟩ ∈ source.elements ∧
        ∃ moduleName, converted.Imports converted.plan.runtimeImports moduleName "Link") ∧
      ⟨"T", ⟨91, 92⟩, none⟩ ∈ source.elements ∧
        converted.Imports converted.plan.targetImport?.toList targetLibrary "Typography" := by
  obtain ⟨source, accepted, editable, outer, outerEdit, absent, inner, innerEdit, shown⟩ :=
    exists_parse "page.tsx" aliasedText (fun source => source.Editable ∧
      ⟨"NavLink", ⟨82, 89⟩, some ⟨96, 103⟩⟩ ∈ source.elements ∧
      replaceSpan ⟨82, 89⟩ "Link" ∈ elementEdits Dialect.bolt.rules
        (Dialect.bolt.rules.planImports "nextjs" source.imports) ⟨"NavLink", ⟨82, 89⟩, some ⟨96, 103⟩⟩ ∧
      (∀ element ∈ source.elements, elementTarget? Dialect.bolt.rules
        (Dialect.bolt.rules.planImports "nextjs" source.imports) element ≠ some "Link") ∧
      ⟨"T", ⟨91, 92⟩, none⟩ ∈ source.elements ∧
      replaceSpan ⟨91, 92⟩ "Typography" ∈ elementEdits Dialect.bolt.rules
        (Dialect.bolt.rules.planImports "nextjs" source.imports) ⟨"T", ⟨91, 92⟩, none⟩ ∧
      elementTarget? Dialect.bolt.rules (Dialect.bolt.rules.planImports "nextjs" source.imports)
        ⟨"T", ⟨91, 92⟩, none⟩ ≠ none)
      (by decide +kernel)
  obtain ⟨converted, done⟩ := convert_ok Dialect.bolt.rules "nextjs" (parsed_of_parse accepted).2 editable
  rw [← (convert_eq done).1] at outerEdit absent innerEdit shown
  have bolt : Dialect.bolt ∈ Registry.builtin := mem_cons_of_mem _ (mem_singleton_self _)
  refine ⟨source, converted, accepted, done, ⟨outer, ?_⟩, inner, ?_⟩
  · rcases edited_tags_imported bolt done _ outer _ outerEdit with ⟨listed, _⟩ | ⟨_, entry, _, _, imported⟩
    · obtain ⟨element, isElement, target⟩ := (mem_elements done).mp listed
      exact absurd target (absent element isElement)
    · exact ⟨_, imported⟩
  · rcases edited_tags_imported bolt done _ inner _ innerEdit with ⟨_, imported | ⟨mapped, _⟩⟩ | ⟨none, _⟩
    · exact imported
    · cases mapped
    · exact absurd none shown

/-- A component of the vendor that the source does not import. -/
def unboundText : String := "export const A = () => <LovableButton/>;\n"

theorem edited_tags_unbound :
    ∃ source converted, parse "page.tsx" unboundText = .ok source ∧ source.Editable ∧
      convert Dialect.lovable.rules "react" source = .ok converted ∧
      converted.text = "export const A = () => <Button/>;\n" ∧
      "Button" ∈ converted.elements ∧ converted.plan.lines = [] := by
  obtain ⟨source, accepted, editable, rewritten, shown, bare⟩ :=
    exists_parse "page.tsx" unboundText (fun source => source.Editable ∧
      (convert Dialect.lovable.rules "react" source).toOption.map (·.text) =
        some "export const A = () => <Button/>;\n" ∧
      (∃ element ∈ source.elements, elementTarget? Dialect.lovable.rules
        (Dialect.lovable.rules.planImports "react" source.imports) element = some "Button") ∧
      (Dialect.lovable.rules.planImports "react" source.imports).lines = [])
      (by decide +kernel)
  obtain ⟨converted, done, text⟩ := exists_convert rewritten
  rw [← (convert_eq done).1] at shown bare
  exact ⟨source, converted, accepted, editable, done, text, (mem_elements done).mpr shown, bare⟩

end Conversion
end Refit
