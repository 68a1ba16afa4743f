import Refit.Conversion.Basic
import Refit.Proofs.Exec
import Refit.Proofs.Source.Edit
import Refit.Proofs.Syntax.Beginnings

open List

namespace Refit

open Syntax Text.Utf8 Node

variable {decl : ImportDecl}

namespace Source

variable {path text : String} {node name tag : Node} {place : List Nat} {span : Span} {call : HookCall}
  {category : Category} {element : ElementRef} {source : Source}

/-- What a parser guarantees of the tree of a source. The spans of nodes lie in the spans of their parents, in order and
    on whole characters. Beyond the spans, the root is a program, identifiers have nothing below them, and no tag
    stands inside the name of a tag: with a call below an identifier, say, one callee could hold another one. -/
structure Parsed (source : Source) : Prop where
  root : source.tree.kind = .node .program
  placed : source.tree.Placed source.text.toList
  identifiers : ∀ node ∈ source.nodes, node.isCategory .identifier = true → node.children = []
  tagNames : ∀ tag ∈ source.nodes, tag.kind.isTag = true → ∀ name ∈ tag.child? .name,
    ∀ node ∈ name.walk, node.kind.isTag = false

/-- The node begins with a line break. -/
def BeginsLine (source : Source) (node : Node) : Prop := (encode source.text)[node.start]? = some 10

/-- Imports hold no calls and no elements. -/
def ImportsBare (source : Source) : Prop :=
  ∀ statement ∈ source.tree.namedChildren, statement.isCategory .importStatement = true →
    ∀ node ∈ statement.walk, node.isCategory .callExpression = false ∧
      node.isCategory .jsxElement = false ∧ node.isCategory .jsxSelfClosingElement = false

/-- No import begins with a line break. -/
def ImportsBegin (source : Source) : Prop :=
  ∀ statement ∈ source.tree.namedChildren, statement.isCategory .importStatement = true → ¬ source.BeginsLine statement

/-- Imports hold no calls and no elements, the names of tags hold no calls, and neither an import nor a name that may
    be replaced begins with a line break. -/
structure Editable (source : Source) : Prop where
  importsBare : source.ImportsBare
  tagsBare : ∀ tag ∈ source.nodes, tag.kind.isTag = true → ∀ name ∈ tag.child? .name,
    ∀ node ∈ name.walk, node.isCategory .callExpression = false
  importsBegin : source.ImportsBegin
  calleeBegins : ∀ call ∈ source.nodes, call.isCategory .callExpression = true →
    ∀ callee ∈ call.child? .function, ¬ source.BeginsLine callee
  tagBegins : ∀ tag ∈ source.nodes, tag.kind.isTag = true →
    ∀ name ∈ tag.child? .name, ¬ source.BeginsLine name

instance (source : Source) (node : Node) : Decidable (source.BeginsLine node) :=
  inferInstanceAs (Decidable (_ = _))

instance (source : Source) : Decidable source.ImportsBare :=
  inferInstanceAs (Decidable (∀ _ ∈ _, _ → ∀ _ ∈ _, _))

instance (source : Source) : Decidable source.ImportsBegin :=
  inferInstanceAs (Decidable (∀ _ ∈ _, _ → ¬ _))

instance (source : Source) : Decidable source.Editable :=
  decidable_of_iff (_ ∧ _ ∧ _ ∧ _ ∧ _)
    ⟨fun ⟨bare, plain, imports, callees, tags⟩ => ⟨bare, plain, imports, callees, tags⟩, fun editable =>
      ⟨editable.importsBare, editable.tagsBare, editable.importsBegin, editable.calleeBegins, editable.tagBegins⟩⟩

theorem lawful_of_parse (accepted : parse path text = .ok source) :
    source.text = text ∧ source.tree.kind = .node .program ∧ source.tree.Placed source.text.toList ∧
      source.tree.Lawful ∧ source.tree.Begun source.text.toList := by
  unfold parse at accepted
  split at accepted
  · next tree found =>
      cases accepted
      obtain ⟨root, lawful⟩ := parse?_lawful found
      exact ⟨rfl, root, parse?_placed found, lawful, parse?_begun found⟩
  · cases accepted

theorem plain_of_lawful (lawful : source.tree.Lawful) (member : tag ∈ source.nodes) (isTag : tag.kind.isTag = true)
    (present : name ∈ tag.child? .name) : name.Plain := by
  have child := mem_of_find?_eq_some present
  have isName : name.field = some .name := by simpa using List.find?_some present
  by_cases comment : name.isComment = true
  · have kind : name.kind = .node .comment := by simpa [isComment, isCategory] using comment
    have leaf := (lawful name (mem_walk_trans (mem_walk_of_child child name.self_mem_walk) member)).atom _ kind rfl
    exact Node.plain_iff.2 ⟨by rw [kind]; rfl, by simp [leaf]⟩
  · exact (lawful tag member).tag isTag name child isName (by simpa using comment)

/-- What bears no name is neither a tag nor a call. -/
theorem bearsName_iff : node.kind.bearsName = false ↔
    node.kind.isTag = false ∧ node.isCategory .callExpression = false := by
  rw [isCategory]
  cases node.kind with
  | token => simp [Kind.bearsName, Kind.isTag]
  | node category => cases category <;> simp [Kind.bearsName, Kind.isTag, Category.bearsName, Category.isTag]

theorem parsed_of_parse (accepted : parse path text = .ok source) : source.text = text ∧ source.Parsed := by
  obtain ⟨same, root, placed, lawful, _⟩ := lawful_of_parse accepted
  refine ⟨same, root, placed, fun node member isName => ?_, fun tag member isTag name present node inside => ?_⟩
  · exact (lawful node member).atom .identifier (by simpa [isCategory] using isName) rfl
  · exact (bearsName_iff.1 (plain_of_lawful lawful member isTag present node inside)).1

theorem exists_parse (path text : String) (holds : Source → Prop) [DecidablePred holds]
    (checked : (parse path text).toOption.any (fun source => decide (holds source)) = true) :
    ∃ source, parse path text = .ok source ∧ holds source := by
  cases accepted : parse path text with
  | error fault => simp [accepted, Except.toOption] at checked
  | ok source => exact ⟨source, rfl, by simpa [accepted, Except.toOption] using checked⟩

theorem Parsed.nested (parsed : source.Parsed) : source.tree.Nested :=
  fun node member => (parsed.placed node member).1

theorem not_beginsLine (begins : node.Begins source.text.toList)
    (other : node.isComment = false) : ¬ source.BeginsLine node := by
  rw [BeginsLine, encode_eq]
  exact begins other

theorem importsBegin_of_parse (accepted : parse path text = .ok source) : source.ImportsBegin := by
  intro statement member isImport
  obtain ⟨_, root, _, _, begun⟩ := lawful_of_parse accepted
  obtain ⟨_, begins⟩ := begun source.tree source.tree.self_mem_walk (by rw [root]; rfl) statement (mem_filter.1 member).1
  have kind : statement.kind = .node .importStatement := by simpa [isCategory] using isImport
  exact not_beginsLine begins (by simp [isComment, isCategory, kind])

/-- Of what an editable source needs, only the imports can go wrong: no node that matters begins with a line break. -/
theorem editable_of_bare (accepted : parse path text = .ok source) (bare : source.ImportsBare) :
    source.Editable := by
  obtain ⟨_, _, _, lawful, begun⟩ := lawful_of_parse accepted
  -- A child with a part is no comment, so it begins with no line break.
  have part {node child : Node} {field : Field} (member : node ∈ source.nodes) (bearer : node.kind.isBearer = true)
      (found : child ∈ node.child? field) : ¬ source.BeginsLine child := by
    have plays : child.field = some field := by simpa using List.find?_some found
    obtain ⟨aloof, begins⟩ := begun node member bearer child (mem_of_find?_eq_some found)
    refine not_beginsLine begins (Bool.eq_false_iff.2 (fun comment => ?_))
    rw [aloof comment] at plays
    cases plays
  refine ⟨bare, fun tag member isTag name found node inside => ?_, importsBegin_of_parse accepted,
    fun call member isCall callee found => ?_, fun tag member isTag name found => ?_⟩
  · exact (bearsName_iff.1 (plain_of_lawful lawful member isTag found node inside)).2
  · have kind : call.kind = .node .callExpression := by simpa [isCategory] using isCall
    exact part member (by rw [kind]; rfl) found
  · refine part member ?_ found
    generalize tag.kind = kind at isTag
    rcases kind with _ | category
    · cases isTag
    · cases category <;> first | rfl | cases isTag

/-- A span that may be renamed, by the place of the call or of the element. -/
def Renamable (source : Source) (place : List Nat) (span : Span) : Prop :=
  ∃ target, source.tree.Named place target ∧ ¬ source.BeginsLine target ∧ target.span = span

variable {source : Source}

theorem Renamable.apart {otherPlace : List Nat} {otherSpan : Span} (parsed : source.Parsed)
    (first : source.Renamable place span) (second : source.Renamable otherPlace otherSpan) (different : place ≠ otherPlace) :
    span.Apart otherSpan := by
  obtain ⟨target, named, _, rfl⟩ := first
  obtain ⟨otherTarget, otherNamed, _, rfl⟩ := second
  exact named.apart parsed.nested otherNamed different

theorem hookCallOf_eq (found : source.hookCallOf node = some call) :
    node.kind = .node .callExpression ∧ ∃ callee, node.child? .function = some callee ∧
      callee.kind = .node .identifier ∧ call.span = callee.span := by
  unfold hookCallOf at found
  split at found
  · next isCall =>
      split at found
      · next callee present =>
          split at found
          · next isHook =>
              cases found
              simp only [Bool.and_eq_true, isCategory, decide_eq_true_eq] at isCall isHook
              exact ⟨isCall, callee, present, isHook.1, rfl⟩
          · cases found
      · cases found
  · cases found

theorem hookCallOf_renamable (parsed : source.Parsed) (editable : source.Editable)
    (reached : source.tree.descend place = some node) (found : source.hookCallOf node = some call) :
    source.Renamable place call.span := by
  obtain ⟨isCall, callee, present, isName, span⟩ := hookCallOf_eq found
  have member := descend_mem_walk reached
  have child := mem_of_find?_eq_some present
  have leaf := parsed.identifiers callee (mem_walk_trans (mem_walk_of_child child callee.self_mem_walk) member)
    (by simp [isCategory, isName])
  have plain : callee.Plain := Node.plain_iff.2 ⟨by rw [isName]; rfl, by simp [leaf]⟩
  obtain ⟨index, there⟩ := List.getElem?_of_mem child
  refine ⟨callee, .call ⟨⟨node, reached, isCall⟩, rfl, ⟨index, descend_child reached there⟩, plain⟩, ?_,
    span.symm⟩
  exact editable.calleeBegins node member (by simp [isCategory, isCall]) callee present

theorem hookCalls_apart (parsed : source.Parsed) (editable : source.Editable) :
    source.hookCalls.Pairwise (fun left right => left.span.Apart right.span) := by
  rw [hookCalls, pairwise_filterMap]
  refine source.tree.walk_pairwise.imp ?_
  rintro left right ⟨p, q, reached, otherReached, different⟩ call found otherCall otherFound
  exact (hookCallOf_renamable parsed editable reached found).apart parsed
    (hookCallOf_renamable parsed editable otherReached otherFound) different

theorem tag_part (parsed : source.Parsed) (editable : source.Editable)
    (reached : source.tree.descend place = some tag) (isTag : tag.kind = .node category)
    (bears : category.isTag = true) (present : tag.child? .name = some name) :
    source.tree.Part place category name ∧ ¬ source.BeginsLine name := by
  have member := descend_mem_walk reached
  have tagged : tag.kind.isTag = true := by rw [isTag]; exact bears
  obtain ⟨index, there⟩ := List.getElem?_of_mem (mem_of_find?_eq_some present)
  refine ⟨⟨⟨tag, reached, isTag⟩, ?_, ⟨index, descend_child reached there⟩, fun node inside => ?_⟩, ?_⟩
  · cases category <;> first | rfl | cases bears
  · exact bearsName_iff.2 ⟨parsed.tagNames tag member tagged name present node inside,
      editable.tagsBare tag member tagged name present node inside⟩
  · exact editable.tagBegins tag member tagged name present

theorem tagName_part (parsed : source.Parsed) (editable : source.Editable)
    (reached : source.tree.descend place = some node) (bears : category.isTag = true)
    (present : tagName (node.firstOf? category) = some name) :
    ∃ index, source.tree.Part (place ++ [index]) category name ∧ ¬ source.BeginsLine name := by
  obtain ⟨tag, found, named⟩ := Option.bind_eq_some_iff.1 present
  obtain ⟨index, there⟩ := List.getElem?_of_mem (mem_of_find?_eq_some found)
  have isTag : tag.kind = .node category := by simpa [isCategory] using List.find?_some found
  exact ⟨index, tag_part parsed editable (descend_child reached there) isTag bears named⟩

theorem elementOf_kind (found : source.elementOf node = some element) :
    node.kind = .node .jsxElement ∨ node.kind = .node .jsxSelfClosingElement := by
  unfold elementOf at found
  split at found
  · next isElement => exact .inl (by simpa [isCategory] using isElement)
  · split at found
    · next isElement => exact .inr (by simpa [isCategory] using isElement)
    · cases found

section

variable (parsed : source.Parsed) (editable : source.Editable)
include parsed editable

theorem elementOf_renamable
    (reached : source.tree.descend place = some node) (found : source.elementOf node = some element) :
    (∀ span ∈ element.opening :: element.closing.toList, source.Renamable place span) ∧
      (element.opening :: element.closing.toList).Pairwise Span.Apart := by
  unfold elementOf at found
  split at found
  · next isElement =>
      have kind : node.kind = .node .jsxElement := by simpa [isCategory] using isElement
      obtain ⟨name, opens, rfl⟩ := Option.map_eq_some_iff.1 found
      obtain ⟨i, part, begins⟩ := tagName_part parsed editable reached rfl opens
      have opening : source.Renamable place name.span := ⟨name, .tag reached kind (.inl rfl) part, begins, rfl⟩
      cases closes : tagName (node.firstOf? .jsxClosingElement) with
      | none => simpa using opening
      | some last =>
        obtain ⟨j, lastPart, lastBegins⟩ := tagName_part parsed editable reached rfl closes
        have closing : source.Renamable place last.span :=
          ⟨last, .tag reached kind (.inr rfl) lastPart, lastBegins, rfl⟩
        refine ⟨by simpa using ⟨opening, closing⟩, ?_⟩
        simpa using part.apart parsed.nested lastPart
          (fun equal => by cases (equal ▸ part).category_eq lastPart)
  · split at found
    · next isElement =>
        have kind : node.kind = .node .jsxSelfClosingElement := by
          simpa [isCategory] using isElement
        obtain ⟨name, named, rfl⟩ := Option.map_eq_some_iff.1 found
        obtain ⟨part, begins⟩ := tag_part parsed editable reached kind rfl named
        have only : source.Renamable place name.span := ⟨name, .selfClosing part, begins, rfl⟩
        simpa using only
    · cases found

theorem elements_apart :
    source.elements.Pairwise (fun left right => ∀ span ∈ left.opening :: left.closing.toList,
      ∀ other ∈ right.opening :: right.closing.toList, span.Apart other) := by
  rw [elements, pairwise_filterMap]
  refine source.tree.walk_pairwise.imp ?_
  rintro left right ⟨p, q, reached, otherReached, different⟩ element found otherElement otherFound span member other otherMember
  exact ((elementOf_renamable parsed editable reached found).1 span member).apart parsed
    ((elementOf_renamable parsed editable otherReached otherFound).1 other otherMember) different

/-- Calls are no elements, so what they rename is apart too. -/
theorem elements_apart_hookCalls (isElement : element ∈ source.elements) (isCall : call ∈ source.hookCalls)
    (member : span ∈ element.opening :: element.closing.toList) :
    span.Apart call.span := by
  obtain ⟨node, inside, found⟩ := mem_filterMap.1 isElement
  obtain ⟨otherNode, otherInside, otherFound⟩ := mem_filterMap.1 isCall
  obtain ⟨place, reached⟩ := exists_descend inside
  obtain ⟨otherPlace, otherReached⟩ := exists_descend otherInside
  refine ((elementOf_renamable parsed editable reached found).1 span member).apart parsed
    (hookCallOf_renamable parsed editable otherReached otherFound) ?_
  rintro rfl
  cases reached.symm.trans otherReached
  have isCall := (hookCallOf_eq otherFound).1
  rcases elementOf_kind found with kind | kind <;> simp [isCall] at kind

end

theorem mem_imports (member : decl ∈ source.imports) :
    ∃ statement ∈ source.tree.namedChildren, statement.isCategory .importStatement = true ∧
      decl.span = statement.span := by
  obtain ⟨statement, present, rfl⟩ := mem_map.1 member
  obtain ⟨child, isImport⟩ := mem_filter.1 present
  exact ⟨statement, child, isImport, rfl⟩

theorem imports_inOrder (parsed : source.Parsed) (begins : source.ImportsBegin) :
    source.imports.Pairwise (fun left right => left.span.stop ≤ right.span.start ∧
      (encode source.text)[right.span.start]? ≠ some 10) := by
  have ordered := (parsed.nested source.tree source.tree.self_mem_walk).inOrder
  have listed : (source.tree.namedChildren.filter (·.isCategory .importStatement)).Sublist
      source.tree.children :=
    filter_sublist.trans filter_sublist
  rw [imports, pairwise_map]
  refine (ordered.sublist listed).imp_of_mem ?_
  intro left right _ present before
  obtain ⟨child, isImport⟩ := mem_filter.1 present
  exact ⟨before, begins right child isImport⟩

theorem imports_apart (parsed : source.Parsed) (editable : source.Editable)
    (member : decl ∈ source.imports) (renamable : source.Renamable place span) : decl.span.Apart span := by
  obtain ⟨statement, child, isImport, same⟩ := mem_imports member
  obtain ⟨target, named, _, rfl⟩ := renamable
  obtain ⟨k, present⟩ := List.getElem?_of_mem (mem_filter.1 child).1
  rw [same]
  exact named.apart_of_child parsed.nested parsed.root present
    (editable.importsBare statement child isImport)

end Source

namespace Conversion

variable {source : Source} {bytes : List UInt8} {span : Span} {edit : Edit} {plan : ImportPlan} {rules : Rules}
  {platform : String}

/-- The edit covers the span, or the span and the line break after it. -/
def Covers (bytes : List UInt8) (span : Span) (edit : Edit) : Prop :=
  edit.start = span.start ∧
    (edit.stop = span.stop ∨ bytes[span.stop]? = some 10 ∧ edit.stop = (span.stop + 1 : Nat))

theorem Covers.before {next : Edit} (covers : Covers bytes span edit) {start : Nat}
    (begins : next.start = start) (ordered : span.stop ≤ start) (inside : bytes[start]? ≠ some 10) :
    edit.stop ≤ next.start := by
  rcases covers.2 with stop | ⟨newline, stop⟩
  · omega
  · have different : span.stop ≠ start := by
      rintro rfl
      exact inside newline
    omega

theorem removal_covers (bytes : List UInt8) (decl : ImportDecl) : Covers bytes decl.span (removal bytes decl) := by
  unfold removal
  split
  · next newline => exact ⟨rfl, .inr ⟨newline, rfl⟩⟩
  · exact ⟨rfl, .inl rfl⟩

theorem importEdits_eq (bytes : List UInt8) (plan : ImportPlan) :
    plan.replaced = [] ∧ importEdits bytes plan = [] ∨
      ∃ first others head, plan.replaced = first :: others ∧ Covers bytes first.span head ∧
        importEdits bytes plan = head :: others.map (removal bytes) := by
  unfold importEdits
  split
  · next none => exact .inl ⟨none, rfl⟩
  · next first others replaced =>
      refine .inr ⟨first, others, _, replaced, ?_, rfl⟩
      split
      · exact removal_covers bytes first
      · exact ⟨rfl, .inl rfl⟩

theorem mem_importEdits (member : edit ∈ importEdits bytes plan) :
    ∃ decl ∈ plan.replaced, Covers bytes decl.span edit := by
  rcases importEdits_eq bytes plan with ⟨_, none⟩ | ⟨first, others, head, replaced, covers, equal⟩
  · simp [none] at member
  · rw [equal] at member
    rcases mem_cons.1 member with rfl | later
    · exact ⟨first, by simp [replaced], covers⟩
    · obtain ⟨decl, present, rfl⟩ := mem_map.1 later
      exact ⟨decl, by simp [replaced, present], removal_covers bytes decl⟩

theorem importEdits_inOrder
    (ordered : plan.replaced.Pairwise (fun left right => left.span.stop ≤ right.span.start ∧
      bytes[right.span.start]? ≠ some 10)) :
    (importEdits bytes plan).Pairwise (fun left right => left.stop ≤ right.start) := by
  rcases importEdits_eq bytes plan with ⟨_, none⟩ | ⟨first, others, head, replaced, covers, equal⟩
  · rw [none]
    exact .nil
  · rw [replaced] at ordered
    obtain ⟨ahead, rest⟩ := pairwise_cons.1 ordered
    rw [equal, pairwise_cons, forall_mem_map, pairwise_map]
    constructor
    · intro decl member
      exact covers.before (removal_covers bytes decl).1 (ahead decl member).1 (ahead decl member).2
    · refine rest.imp (fun {left right} related => ?_)
      exact (removal_covers bytes left).before (removal_covers bytes right).1 related.1 related.2

theorem replaceSpan_apart {other : Span} (apart : span.Apart other) (text otherText : String) :
    (replaceSpan span text).Apart (replaceSpan other otherText) := by
  simp only [Span.Apart, Edit.Apart, replaceSpan] at *
  omega

theorem elementEdits_eq (rules : Rules) (plan : ImportPlan) (element : ElementRef) :
    ∃ (spans : List Span) (target : String), elementEdits rules plan element = spans.map (replaceSpan · target) ∧
      spans.Sublist (element.opening :: element.closing.toList) := by
  unfold elementEdits
  split
  · exact ⟨[], "", rfl, nil_sublist _⟩
  · next target _ _ =>
      split
      · exact ⟨[], "", rfl, nil_sublist _⟩
      · exact ⟨_, target, rfl, List.Sublist.refl _⟩

theorem hookEdit?_eq {call : HookCall} (found : hookEdit? rules plan call = some edit) :
    ∃ target, edit = replaceSpan call.span target := by
  simp only [hookEdit?] at found
  split at found
  · cases found
  · cases found
    exact ⟨_, rfl⟩

theorem tagEdits_apart (rules : Rules) (plan : ImportPlan) (parsed : source.Parsed)
    (editable : source.Editable) : (tagEdits rules plan source.elements).Pairwise Edit.Apart := by
  rw [tagEdits, pairwise_flatMap]
  constructor
  · intro element member
    obtain ⟨node, inside, found⟩ := mem_filterMap.1 member
    obtain ⟨place, reached⟩ := exists_descend inside
    have apart := (Source.elementOf_renamable parsed editable reached found).2
    obtain ⟨spans, target, equal, listed⟩ := elementEdits_eq rules plan element
    rw [equal, pairwise_map]
    exact (apart.sublist listed).imp (fun apart => replaceSpan_apart apart _ _)
  · refine (Source.elements_apart parsed editable).imp ?_
    intro left right apart edit member next otherMember
    obtain ⟨spans, target, equal, listed⟩ := elementEdits_eq rules plan left
    obtain ⟨otherSpans, otherTarget, otherEqual, otherListed⟩ := elementEdits_eq rules plan right
    rw [equal] at member
    rw [otherEqual] at otherMember
    obtain ⟨span, present, rfl⟩ := mem_map.1 member
    obtain ⟨otherSpan, otherPresent, rfl⟩ := mem_map.1 otherMember
    exact replaceSpan_apart (apart span (listed.mem present) otherSpan (otherListed.mem otherPresent)) _ _

theorem hookEdits_apart (rules : Rules) (plan : ImportPlan) (parsed : source.Parsed)
    (editable : source.Editable) :
    (source.hookCalls.filterMap (hookEdit? rules plan)).Pairwise Edit.Apart := by
  rw [pairwise_filterMap]
  refine (Source.hookCalls_apart parsed editable).imp ?_
  intro left right apart edit found next otherFound
  obtain ⟨target, rfl⟩ := hookEdit?_eq found
  obtain ⟨otherTarget, rfl⟩ := hookEdit?_eq otherFound
  exact replaceSpan_apart apart _ _

theorem mem_tagEdits {elements : List ElementRef} (member : edit ∈ tagEdits rules plan elements) :
    ∃ element ∈ elements, ∃ span ∈ element.opening :: element.closing.toList, ∃ target,
      edit = replaceSpan span target := by
  obtain ⟨element, isElement, present⟩ := mem_flatMap.1 member
  obtain ⟨spans, target, equal, listed⟩ := elementEdits_eq rules plan element
  rw [equal] at present
  obtain ⟨span, inside, rfl⟩ := mem_map.1 present
  exact ⟨element, isElement, span, listed.mem inside, target, rfl⟩

theorem renames_of_mem (parsed : source.Parsed) (editable : source.Editable)
    (member : edit ∈ tagEdits rules plan source.elements ++
      source.hookCalls.filterMap (hookEdit? rules plan)) :
    ∃ place span target, source.Renamable place span ∧ edit = replaceSpan span target := by
  rcases mem_append.1 member with tag | hook
  · obtain ⟨element, isElement, span, present, target, rfl⟩ := mem_tagEdits tag
    obtain ⟨node, inside, found⟩ := mem_filterMap.1 isElement
    obtain ⟨place, reached⟩ := exists_descend inside
    exact ⟨place, span, target, (Source.elementOf_renamable parsed editable reached found).1 span present, rfl⟩
  · obtain ⟨call, isCall, edited⟩ := mem_filterMap.1 hook
    obtain ⟨target, rfl⟩ := hookEdit?_eq edited
    obtain ⟨node, inside, found⟩ := mem_filterMap.1 isCall
    obtain ⟨place, reached⟩ := exists_descend inside
    exact ⟨place, call.span, target, Source.hookCallOf_renamable parsed editable reached found, rfl⟩

theorem renames_apart (rules : Rules) (plan : ImportPlan) (parsed : source.Parsed)
    (editable : source.Editable) :
    (tagEdits rules plan source.elements ++
      source.hookCalls.filterMap (hookEdit? rules plan)).Pairwise Edit.Apart := by
  refine pairwise_append.2
    ⟨tagEdits_apart rules plan parsed editable, hookEdits_apart rules plan parsed editable, ?_⟩
  intro edit tag next hook
  obtain ⟨element, isElement, span, present, target, rfl⟩ := mem_tagEdits tag
  obtain ⟨call, isCall, edited⟩ := mem_filterMap.1 hook
  obtain ⟨otherTarget, rfl⟩ := hookEdit?_eq edited
  exact replaceSpan_apart (Source.elements_apart_hookCalls parsed editable isElement isCall present) _ _

theorem renamable_fits {place : List Nat} (parsed : source.Parsed) (renamable : source.Renamable place span)
    (text : String) :
    (replaceSpan span text).Fits source.text.toList := by
  obtain ⟨target, named, _, rfl⟩ := renamable
  obtain ⟨_, _, part, _⟩ := named.part
  obtain ⟨_, reached⟩ := part.below
  obtain ⟨orderly, start, stop⟩ := parsed.placed target (descend_mem_walk reached)
  exact ⟨Int.natCast_nonneg _, Int.ofNat_le.2 orderly.forwards, start, stop⟩

theorem covers_fits (parsed : source.Parsed) (member : decl ∈ source.imports)
    (covers : Covers (encode source.text) decl.span edit) :
    edit.Fits source.text.toList := by
  obtain ⟨statement, child, _, same⟩ := Source.mem_imports member
  have inside := mem_walk_of_child (mem_filter.1 child).1 statement.self_mem_walk
  obtain ⟨orderly, start, stop⟩ := parsed.placed statement inside
  have forwards := orderly.forwards
  simp only [Node.start, Node.stop] at start stop forwards
  obtain ⟨begins, ends⟩ := covers
  rw [same, encode_eq] at ends
  rw [same] at begins
  refine ⟨by omega, by omega, by simpa [begins] using start, ?_⟩
  rcases ends with equal | ⟨newline, equal⟩
  · simpa [equal] using stop
  · rw [equal]
    exact stop.after_newline newline

theorem replaced_sublist (rules : Rules) (platform : String) (decls : List ImportDecl) :
    (rules.planImports platform decls).replaced.Sublist decls :=
  filter_sublist

theorem edits_fit (rules : Rules) (platform : String) (parsed : source.Parsed) (editable : source.Editable) :
    ∀ edit ∈ edits rules (rules.planImports platform source.imports) source,
      edit.Fits source.text.toList := by
  intro edit member
  rw [edits, append_assoc] at member
  rcases mem_append.1 member with isImport | renames
  · obtain ⟨decl, present, covers⟩ := mem_importEdits isImport
    exact covers_fits parsed ((replaced_sublist rules platform _).mem present) covers
  · obtain ⟨place, span, target, renamable, rfl⟩ := renames_of_mem parsed editable renames
    exact renamable_fits parsed renamable target

theorem edits_apart (rules : Rules) (platform : String) (parsed : source.Parsed)
    (editable : source.Editable) :
    (edits rules (rules.planImports platform source.imports) source).Pairwise Edit.Apart := by
  have replaced := replaced_sublist rules platform source.imports
  have imports := importEdits_inOrder ((Source.imports_inOrder parsed editable.importsBegin).sublist replaced)
  rw [edits, append_assoc, pairwise_append]
  refine ⟨imports.imp .inl, renames_apart rules _ parsed editable, ?_⟩
  intro edit isImport next renames
  obtain ⟨decl, present, covers⟩ := mem_importEdits isImport
  obtain ⟨place, span, target, renamable, rfl⟩ := renames_of_mem parsed editable renames
  rcases Source.imports_apart parsed editable (replaced.mem present) renamable with before | after
  · -- The edit may reach one byte beyond the import, and what is renamed does not begin there.
    obtain ⟨node, _, inside, rfl⟩ := renamable
    exact .inl (covers.before rfl before inside)
  · exact .inr (by rw [covers.1]; exact Int.ofNat_le.2 after)

theorem convert_eq {converted : Converted} (done : convert rules platform source = .ok converted) :
    converted.plan = rules.planImports platform source.imports ∧
      Edit.applyAll source.text (edits rules converted.plan source) = .ok converted.text := by
  obtain ⟨text, applied, rest⟩ := bind_ok done
  cases rest
  exact ⟨rfl, applied⟩

theorem convert_ok (rules : Rules) (platform : String) (parsed : source.Parsed) (editable : source.Editable) :
    ∃ converted, convert rules platform source = .ok converted := by
  obtain ⟨result, applied⟩ := Edit.applyAll_apart (edits_fit rules platform parsed editable)
    (edits_apart rules platform parsed editable)
  simp [convert, applied, bind, Except.bind, pure, Except.pure]

theorem exists_convert {text : String} (found : (convert rules platform source).toOption.map (·.text) = some text) :
    ∃ converted, convert rules platform source = .ok converted ∧ converted.text = text := by
  cases done : convert rules platform source with
  | error fault => simp [done, Except.toOption] at found
  | ok converted => exact ⟨converted, rfl, by simpa [done, Except.toOption] using found⟩

/-- The edits of a conversion cover whole characters of the text, none touches another, and so the conversion
    succeeds, whatever parser made the tree. Beyond the spans of the nodes this needs that the tree is that of a
    program, that identifiers are leaves and that no tag stands inside the name of a tag (`Source.Parsed`). -/
theorem convert_succeeds (rules : Rules) (platform : String) {source : Source} (parsed : source.Parsed)
    (editable : source.Editable) :
    (∀ edit ∈ edits rules (rules.planImports platform source.imports) source,
      edit.inRange (encode source.text).length = true ∧ Boundary source.text.toList edit.start.toNat ∧
        Boundary source.text.toList edit.stop.toNat) ∧
    (edits rules (rules.planImports platform source.imports) source).Pairwise Edit.Apart ∧
    ∃ converted, convert rules platform source = .ok converted := by
  refine ⟨fun edit member => ?_, edits_apart rules platform parsed editable, convert_ok rules platform parsed editable⟩
  have fits := edits_fit rules platform parsed editable edit member
  exact ⟨encode_eq source.text ▸ fits.inRange, fits.start, fits.stop⟩

/-- Two replaced imports in a row, and a hook called inside an element inside the call of a hook. -/
def nestedText : String :=
  "import A from 'vendor'\nimport B from 'vendor'\nuseA(<A>\x7buseB(<B/>)\x7d</A>)"

def nestedRules : Rules := ⟨[("A", "Box"), ("B", "Button")], "", ["vendor"], [], [], [], [("useB", "useC")]⟩

theorem convert_succeeds_nested :
    ∃ source, Source.parse "page.tsx" nestedText = .ok source ∧ source.Parsed ∧ source.Editable ∧
      (edits nestedRules (nestedRules.planImports "nextjs" source.imports) source).length = 6 ∧
      (edits nestedRules (nestedRules.planImports "nextjs" source.imports) source).Pairwise Edit.Apart ∧
      ∃ converted, convert nestedRules "nextjs" source = .ok converted := by
  obtain ⟨source, accepted, editable, six⟩ := Source.exists_parse "page.tsx" nestedText (fun source => source.Editable ∧
      (edits nestedRules (nestedRules.planImports "nextjs" source.imports) source).length = 6)
    (by decide +kernel)
  have parsed := (Source.parsed_of_parse accepted).2
  obtain ⟨_, apart, succeeds⟩ := convert_succeeds nestedRules "nextjs" parsed editable
  exact ⟨source, accepted, parsed, editable, six, apart, succeeds⟩

end Conversion
end Refit
