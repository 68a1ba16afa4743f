import Refit.Json.Value
import Refit.Source.Edit
import Refit.Source.Usage

namespace Refit.Conversion

def targetLibrary : String := "@xala-technologies/ui-system"

structure RuntimeTarget where
  moduleName : String
  name : String
  isDefault : Bool
  deriving DecidableEq

/-- Which modules belong to the runtime of a framework and to its vendor, and what the names that they
    export are called in the target library. -/
structure Rules where
  mapping : List (String × String)
  vendorMark : String
  vendorModules : List String
  vendorPathMarks : List String
  runtimeMarks : List String
  runtimeTargets : List (String × List (String × RuntimeTarget))
  hookNames : List (String × String)

inductive ModuleKind where
  | runtime
  | vendor
  | unrelated
  deriving DecidableEq

def ModuleKind.text : ModuleKind → String
  | runtime => "runtime"
  | vendor => "vendor"
  | unrelated => "unrelated"

namespace Rules

def unmarked (rules : Rules) (name : String) : String :=
  if !rules.vendorMark.isEmpty && Text.startsWith name rules.vendorMark
      && rules.vendorMark.length < name.length then
    Text.drop rules.vendorMark.length name
  else name

/-- The name of a vendor component in the target library: the name it is mapped to, else what
    follows the mark of the vendor. -/
def targetName (rules : Rules) (name : String) : String :=
  match Json.lookup rules.mapping name with
  | some mapped => if mapped.isEmpty then rules.unmarked name else mapped
  | none => rules.unmarked name

def hookName (rules : Rules) (name : String) : String :=
  (Json.lookup rules.hookNames name).getD name

def isRuntime (rules : Rules) (moduleName : String) : Bool :=
  rules.runtimeMarks.any (fun mark =>
    moduleName.toList = Text.dropEnd (· = '/') mark.toList || Text.startsWith moduleName mark)

def isVendor (rules : Rules) (moduleName : String) : Bool :=
  moduleName = targetLibrary
    || rules.vendorModules.any (fun vendor =>
        moduleName = vendor || Text.startsWith moduleName (vendor ++ "/"))
    || rules.vendorPathMarks.any (Text.contains moduleName ·)

def classify (rules : Rules) (moduleName : String) : ModuleKind :=
  if rules.isRuntime moduleName then .runtime
  else if rules.isVendor moduleName then .vendor
  else .unrelated

def targetsOn (rules : Rules) (platform : String) : List (String × RuntimeTarget) :=
  (Json.lookup rules.runtimeTargets platform).getD []

end Rules

/-- Imports of unrelated modules pass through; all others are replaced by one import of the target library
    and one import for each module of the platform. -/
structure ImportPlan where
  targetNames : List String
  runtimeImports : List String
  passedThrough : List ImportDecl
  dropped : List String
  vendorLocals : List (String × String)
  runtimeLocals : List (String × String)
  replaced : List ImportDecl

structure RuntimeGroup where
  defaultName : Option String
  names : List String

def importLine (moduleName : String) (group : RuntimeGroup) : String :=
  let whole :=
    match group.defaultName with
    | some name => if name.isEmpty then [] else [name]
    | none => []
  let named :=
    if group.names.isEmpty then [] else ["\x7b " ++ String.intercalate ", " group.names ++ " \x7d"]
  "import " ++ String.intercalate ", " (whole ++ named) ++ " from '" ++ moduleName ++ "';"

structure Draft where
  targetNames : List String
  dropped : List String
  vendorLocals : List (String × String)
  runtimeLocals : List (String × String)
  groups : List (String × RuntimeGroup)

namespace Draft

def empty : Draft := ⟨[], [], [], [], []⟩

def drop (draft : Draft) (names : List String) : Draft :=
  { draft with dropped := draft.dropped ++ names }

def bindVendor (draft : Draft) (localName target : String) : Draft :=
  { draft with
    vendorLocals := Json.insert draft.vendorLocals localName target
    targetNames := draft.targetNames ++ [target] }

def withGroup (draft : Draft) (target : RuntimeTarget) : Draft :=
  let group := (Json.lookup draft.groups target.moduleName).getD ⟨none, []⟩
  let grown : RuntimeGroup :=
    if target.isDefault then { group with defaultName := some target.name }
    else if group.names.contains target.name then group
    else { group with names := group.names ++ [target.name] }
  { draft with groups := Json.insert draft.groups target.moduleName grown }

def bindRuntime (draft : Draft) (localName : String) (target : RuntimeTarget) : Draft :=
  let grown := draft.withGroup target
  { grown with runtimeLocals := Json.insert grown.runtimeLocals localName target.name }

def addVendor (rules : Rules) (draft : Draft) (decl : ImportDecl) : Draft :=
  if decl.typeOnly then draft.drop (decl.named.map (·.imported))
  else
    let whole :=
      match decl.defaultName.filter (· ≠ "") with
      | some name => draft.bindVendor name (rules.targetName name)
      | none => draft
    let named := decl.named.foldl
      (fun (draft : Draft) binding => draft.bindVendor binding.localName (rules.targetName binding.imported))
      whole
    match decl.namespaceName.filter (· ≠ "") with
    | some name => named.drop ["* as " ++ name]
    | none => named

def addRuntimeBinding (targets : List (String × RuntimeTarget)) (draft : Draft) (binding : ImportBinding) :
    Draft :=
  match Json.lookup targets binding.imported with
  | some target => draft.bindRuntime binding.localName target
  | none => draft.drop [binding.imported]

def addRuntime (targets : List (String × RuntimeTarget)) (draft : Draft) (decl : ImportDecl) : Draft :=
  (decl.named.foldl (addRuntimeBinding targets) draft).drop (decl.defaultName.filter (· ≠ "")).toList

def add (rules : Rules) (platform : String) (draft : Draft) (decl : ImportDecl) : Draft :=
  match rules.classify decl.moduleName with
  | .unrelated => draft
  | .vendor => draft.addVendor rules decl
  | .runtime => draft.addRuntime (rules.targetsOn platform) decl

end Draft

namespace Rules

def isUnrelated (rules : Rules) (decl : ImportDecl) : Bool :=
  rules.classify decl.moduleName = .unrelated

def planImports (rules : Rules) (platform : String) (decls : List ImportDecl) : ImportPlan :=
  let draft := decls.foldl (Draft.add rules platform) Draft.empty
  { targetNames := draft.targetNames
    runtimeImports := draft.groups.map (fun group => importLine group.1 group.2)
    passedThrough := decls.filter rules.isUnrelated
    dropped := draft.dropped
    vendorLocals := draft.vendorLocals
    runtimeLocals := draft.runtimeLocals
    replaced := decls.filter (fun decl => !rules.isUnrelated decl) }

end Rules

def sortedDistinct (texts : List String) : List String :=
  (Source.distinct texts).mergeSort (fun left right => left ≤ right)

def ImportPlan.targetImport? (plan : ImportPlan) : Option String :=
  if plan.targetNames.isEmpty then none
  else some (importLine targetLibrary ⟨none, sortedDistinct plan.targetNames⟩)

structure Converted where
  text : String
  plan : ImportPlan
  elements : List String
  hooks : List String

def tagTarget? (rules : Rules) (plan : ImportPlan) (name : String) : Option (String × Bool) :=
  match Json.lookup plan.vendorLocals name with
  | some target => some (target, true)
  | none =>
    match Json.lookup rules.mapping name with
    | some target => some (target, true)
    | none => (Json.lookup plan.runtimeLocals name).map (·, false)

def replaceSpan (span : Syntax.Span) (replacement : String) : Edit :=
  ⟨span.start, span.stop, replacement⟩

def elementEdits (rules : Rules) (plan : ImportPlan) (element : ElementRef) : List Edit :=
  match tagTarget? rules plan element.name with
  | none => []
  | some (target, _) =>
    if target = element.name then []
    else (element.opening :: element.closing.toList).map (replaceSpan · target)

def tagEdits (rules : Rules) (plan : ImportPlan) (elements : List ElementRef) : List Edit :=
  elements.flatMap (elementEdits rules plan)

def elementTarget? (rules : Rules) (plan : ImportPlan) (element : ElementRef) : Option String :=
  match tagTarget? rules plan element.name with
  | some (target, true) => some target
  | _ => none

def hookTarget (rules : Rules) (plan : ImportPlan) (name : String) : String :=
  match Json.lookup plan.runtimeLocals name with
  | some target => if target.isEmpty then rules.hookName name else target
  | none => rules.hookName name

def hookEdit? (rules : Rules) (plan : ImportPlan) (call : HookCall) : Option Edit :=
  let target := hookTarget rules plan call.name
  if target = call.name then none else some (replaceSpan call.span target)

def removal (bytes : List UInt8) (decl : ImportDecl) : Edit :=
  let stop := if bytes[decl.span.stop]? = some 10 then decl.span.stop + 1 else decl.span.stop
  ⟨decl.span.start, stop, ""⟩

def ImportPlan.lines (plan : ImportPlan) : List String :=
  plan.runtimeImports ++ plan.targetImport?.toList

def importEdits (bytes : List UInt8) (plan : ImportPlan) : List Edit :=
  match plan.replaced with
  | [] => []
  | first :: others =>
    let head :=
      if plan.lines.isEmpty then removal bytes first
      else replaceSpan first.span (String.intercalate "\n" plan.lines)
    head :: others.map (removal bytes)

def edits (rules : Rules) (plan : ImportPlan) (source : Source) : List Edit :=
  importEdits (Text.Utf8.encode source.text) plan
    ++ tagEdits rules plan source.elements
    ++ source.hookCalls.filterMap (hookEdit? rules plan)

def convert (rules : Rules) (platform : String) (source : Source) : Except EditFault Converted := do
  let plan := rules.planImports platform source.imports
  let text ← Edit.applyAll source.text (edits rules plan source)
  pure
    { text := text
      plan := plan
      elements := Source.distinct (source.elements.filterMap (elementTarget? rules plan))
      hooks := Source.distinct (source.hookCalls.map (fun call => hookTarget rules plan call.name)) }

end Refit.Conversion
