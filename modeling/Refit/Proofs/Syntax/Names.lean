import Refit.Proofs.Syntax.Spans

/-!
The nodes whose names a conversion may replace: tags and calls. Whether a grammar keeps such nodes out
of names is seen from its rules alone; the check is sound for every reading and passed by the whole
grammar. So no two of the names overlap.
-/

open List

namespace Refit.Syntax

variable {category : Category} {span : Span}

def Category.isTag : Category → Bool
  | .jsxOpeningElement | .jsxClosingElement | .jsxSelfClosingElement => true
  | _ => false

def Category.bearsName : Category → Bool
  | .callExpression => true
  | category => category.isTag

/-- Nodes that are single lexemes wherever they stand. -/
def Category.isAtom : Category → Bool
  | .identifier | .comment => true
  | _ => false

def Kind.isTag : Kind → Bool
  | .token _ => false
  | .node category => category.isTag

def Kind.bearsName : Kind → Bool
  | .token _ => false
  | .node category => category.bearsName

namespace Node

variable {node : Node}

/-- Nothing in a plain tree has a name that could be replaced. -/
def Plain (tree : Node) : Prop := ∀ node ∈ tree.walk, node.kind.bearsName = false

theorem plain_iff :
    node.Plain ↔ node.kind.bearsName = false ∧ ∀ child ∈ node.children, child.Plain :=
  forall_mem_walk

theorem Plain.playing (plain : node.Plain) (part : Field) : (node.playing part).Plain :=
  forall_walk_playing (fun _ _ silent => silent) plain part

/-- A node is plain if its parent takes it for a name. -/
def PlainAsName (node : Node) : Prop := node.field = some .name → node.isComment = false → node.Plain

theorem plainAsName_of_none {kind : Kind} {children : List Node} :
    (mk kind none span children).PlainAsName := by
  intro name
  cases name

theorem plainAsName_of_comment (comment : node.isComment = true) : node.PlainAsName := by
  intro _ other
  rw [comment] at other
  cases other

theorem PlainAsName.playing {part : Field} (plain : node.PlainAsName) (other : part ≠ .name) :
    (node.playing part).PlainAsName := by
  rcases playing_eq part node with same | ⟨_, changed⟩
  · rwa [same]
  · rw [changed]
    intro name
    exact absurd (Option.some.inj name) other

/-- Atoms have nothing below them, and the names of tags are plain. -/
structure WellNamed (node : Node) : Prop where
  atom : ∀ category, node.kind = .node category → category.isAtom = true → node.children = []
  tag : node.kind.isTag = true → ∀ child ∈ node.children, child.PlainAsName

def Lawful (tree : Node) : Prop := ∀ node ∈ tree.walk, node.WellNamed

theorem lawful_iff :
    node.Lawful ↔ node.WellNamed ∧ ∀ child ∈ node.children, child.Lawful :=
  forall_mem_walk

theorem Lawful.playing (lawful : node.Lawful) (part : Field) :
    (node.playing part).Lawful :=
  forall_walk_playing (fun _ _ named => ⟨named.atom, named.tag⟩) lawful part

/-- What is gathered is one node over nodes that were made; comments may stay beside it. -/
theorem forall_gather {P : Node → Prop} {made met : List Node} {cursor : Cursor}
    (gathered : ∀ span own, (∀ child ∈ own, child ∈ made) → P (.mk (.node category) none span own))
    (each : ∀ node ∈ made, node.isComment = true → P node) (before : ∀ node ∈ met, P node) :
    ∀ node ∈ gather category made met cursor, P node := by
  simp only [gather, forall_mem_cons, forall_mem_append, mem_reverse]
  refine ⟨gathered _ _ ?_, ?_, before⟩
  · intro child present
    exact mem_reverse.1 ((dropWhile_sublist _).mem present)
  · intro node outside
    exact each node (mem_reverse.1 ((takeWhile_sublist _).mem outside))
      (all_eq_true.1 all_takeWhile node outside)

theorem plain_leaf {kind : Kind} (field : Option Field) (span : Span) (other : kind.bearsName = false) :
    (mk kind field span []).Plain :=
  plain_iff.2 ⟨other, by simp [children]⟩

theorem lawful_leaf (kind : Kind) (field : Option Field) (span : Span) :
    (mk kind field span []).Lawful :=
  lawful_iff.2 ⟨⟨fun _ _ _ => rfl, by simp [children]⟩, by simp [children]⟩

end Node

namespace Rule

variable {Symbol : Type}

def plain (operand : Bool) : Rule Symbol → Bool
  | lexeme kind _ _ => !kind.bearsName
  | ref _ => false
  | seq first second | alt first second => first.plain operand && second.plain operand
  | many item => item.plain true
  | field _ body | only _ body => body.plain operand
  | node category body => !category.bearsName && body.plain true
  | chain first step => first.plain true && step.plain true
  | grow step => operand && step.plain true
  | wrap category _ body => operand && !category.bearsName && body.plain true
  | empty | leftIs _ _ | ahead _ _ | goesOn _ | implicitEnd _ | endOfSource => true

def named (trusted : Symbol → Bool) (operand : Bool) : Rule Symbol → Bool
  | ref symbol => trusted symbol
  | seq first second | alt first second => first.named trusted operand && second.named trusted operand
  | many item => item.named trusted true
  | field part body => if part = .name then body.plain false else body.named trusted operand
  | only _ body => body.named trusted operand
  | chain first step => first.named trusted true && step.named trusted true
  | grow step => operand && step.named trusted true
  | lexeme _ _ _ | node _ _ | wrap _ _ _ => true
  | empty | leftIs _ _ | ahead _ _ | goesOn _ | implicitEnd _ | endOfSource => true

def lawful (admitted trusted : Symbol → Bool) (operand : Bool) : Rule Symbol → Bool
  | ref symbol => admitted symbol
  | seq first second | alt first second =>
    first.lawful admitted trusted operand && second.lawful admitted trusted operand
  | many item => item.lawful admitted trusted true
  | field _ body | only _ body => body.lawful admitted trusted operand
  | node category body =>
    !category.isAtom && body.lawful admitted trusted true
      && (!category.isTag || body.named trusted true)
  | chain first step =>
    first.lawful admitted trusted true
      && step.lawful admitted trusted (first.named trusted true && step.named trusted true)
  | grow step => step.lawful admitted trusted (operand && step.named trusted true)
  | wrap category part body =>
    !category.isAtom && body.lawful admitted trusted true
      && (!category.isTag || (operand && part ≠ some .name && body.named trusted true))
  | lexeme _ _ _ | empty | leftIs _ _ | ahead _ _ | goesOn _ | implicitEnd _ | endOfSource => true

section Soundness

variable {grammar : Symbol → Rule Symbol} {rule : Rule Symbol} {left met result : List Node}
  {cursor after : Cursor} {operand : Bool} {trusted : Symbol → Bool}

theorem plain_ensures (grammar : Symbol → Rule Symbol) (start : Cursor) :
    Ensures grammar start true (fun operand left => operand = true → ∀ node ∈ left, node.Plain) Rule.plain
      Node.Plain where
  nothing := by simp
  comment span := Node.plain_leaf none span rfl
  lexeme checked _ _ := Node.plain_leaf _ _ (by simpa [Rule.plain] using checked)
  ref := nofun
  seq := Bool.and_eq_true_iff.1
  alt := Bool.and_eq_true_iff.1
  many checked := ⟨checked, checked⟩
  only checked := checked
  field checked _ body node member := (body checked node member).playing _
  node checked _ _ body := by
    simp only [Rule.plain, Bool.and_eq_true, Bool.not_eq_true'] at checked
    have plain := body checked.2
    refine Node.forall_gather (fun span own below => ?_) (fun node made _ => plain node made) (by simp)
    exact Node.plain_iff.2 ⟨checked.1, fun child present => plain child (below child present)⟩
  chain checked := by
    obtain ⟨first, step⟩ := Bool.and_eq_true_iff.1 checked
    exact ⟨first, fun _ _ made => ⟨true, fun _ => made, step⟩⟩
  grow checked known := by
    obtain ⟨operand, step⟩ := Bool.and_eq_true_iff.1 checked
    exact ⟨true, fun _ => known operand, step, fun _ _ made => ⟨true, fun _ => made, step⟩⟩
  grown checked known := known (Bool.and_eq_true_iff.1 checked).1
  wrap {_ _ part _ _ _ _ _} checked known _ _ body := by
    simp only [Rule.plain, Bool.and_eq_true, Bool.not_eq_true'] at checked
    have plain := forall_mem_append.2
      ⟨body checked.2, forall_operandAs part (fun part _ plain => plain.playing part) (known checked.1.1)⟩
    refine Node.forall_gather (fun span own below => ?_) (fun node made _ => plain node made) (by simp)
    exact Node.plain_iff.2 ⟨checked.1.2, fun child present => plain child (below child present)⟩

theorem operandAs_plainAsName {part : Option Field} (other : part ≠ some .name)
    (plain : ∀ node ∈ left, node.PlainAsName) : ∀ node ∈ operandAs part left, node.PlainAsName := by
  cases part with
  | none => exact plain
  | some part =>
    intro node member
    obtain ⟨inner, present, rfl⟩ := mem_map.1 member
    exact (plain inner present).playing (fun name => other (congrArg some name))

theorem plainAsName_gather (category : Category) (made : List Node) (cursor : Cursor) :
    ∀ node ∈ Node.gather category made [] cursor, node.PlainAsName :=
  Node.forall_gather (fun _ _ _ => Node.plainAsName_of_none)
    (fun _ _ comment => Node.plainAsName_of_comment comment) (by simp)

section

variable (sound : ∀ symbol, trusted symbol = true → (grammar symbol).named trusted true = true)
include sound

theorem named_ensures (start : Cursor) :
    Ensures grammar start true (fun operand left => operand = true → ∀ node ∈ left, node.PlainAsName)
      (Rule.named trusted) Node.PlainAsName where
  nothing := by simp
  comment _ := Node.plainAsName_of_none
  lexeme _ _ _ := Node.plainAsName_of_none
  ref := sound _
  seq := Bool.and_eq_true_iff.1
  alt := Bool.and_eq_true_iff.1
  many checked := ⟨checked, checked⟩
  only checked := checked
  field {_ part _ _ cursor _ _} checked inner body node member := by
    simp only [Rule.named] at checked
    split at checked
    · have plain := (plain_ensures grammar cursor).forall inner (.refl _) checked (by simp) (by simp)
      exact fun _ _ => (plain node member).playing part
    · next other => exact (body checked node member).playing other
  node _ _ _ _ := plainAsName_gather _ _ _
  chain checked := by
    obtain ⟨first, step⟩ := Bool.and_eq_true_iff.1 checked
    exact ⟨first, fun _ _ made => ⟨true, fun _ => made, step⟩⟩
  grow checked known := by
    obtain ⟨operand, step⟩ := Bool.and_eq_true_iff.1 checked
    exact ⟨true, fun _ => known operand, step, fun _ _ made => ⟨true, fun _ => made, step⟩⟩
  grown checked known := known (Bool.and_eq_true_iff.1 checked).1
  wrap _ _ _ _ _ := plainAsName_gather _ _ _

theorem Reads.named
    (reads : Reads grammar rule left [] cursor result after) (checked : rule.named trusted operand = true)
    (leftNamed : operand = true → ∀ node ∈ left, node.PlainAsName) : ∀ node ∈ result, node.PlainAsName :=
  (named_ensures sound cursor).forall reads (.refl _) checked leftNamed (by simp)

end

theorem lawful_gathered {made own : List Node}
    (compound : category.isAtom = false) (lawful : ∀ node ∈ made, node.Lawful)
    (names : category.isTag = true → ∀ node ∈ made, node.PlainAsName)
    (below : ∀ child ∈ own, child ∈ made) : (Node.mk (.node category) none span own).Lawful := by
  refine Node.lawful_iff.2 ⟨⟨?_, ?_⟩, fun child present => lawful child (below child present)⟩
  · intro other equal atom
    cases equal
    rw [compound] at atom
    cases atom
  · intro tag child present
    exact names tag child (below child present)

theorem lawful_ensures {admitted : Symbol → Bool}
    (sound : ∀ symbol, trusted symbol = true → (grammar symbol).named trusted true = true)
    (closed : ∀ symbol, admitted symbol = true → (grammar symbol).lawful admitted trusted true = true)
    (start : Cursor) :
    Ensures grammar start true
      (fun operand left => (operand = true → ∀ node ∈ left, node.PlainAsName) ∧ ∀ node ∈ left, node.Lawful)
      (Rule.lawful admitted trusted) Node.Lawful where
  nothing := by simp
  comment span := Node.lawful_leaf _ none span
  lexeme _ _ _ := Node.lawful_leaf _ _ _
  ref := closed _
  seq := Bool.and_eq_true_iff.1
  alt := Bool.and_eq_true_iff.1
  many checked := ⟨checked, checked⟩
  only checked := checked
  field checked _ body node member := (body checked node member).playing _
  node checked _ inner body := by
    simp only [Rule.lawful, Bool.and_eq_true, Bool.not_eq_true', Bool.or_eq_true] at checked
    obtain ⟨⟨compound, inside⟩, names⟩ := checked
    have lawful := body inside
    refine Node.forall_gather (fun span own below => ?_) (fun node made _ => lawful node made) (by simp)
    refine lawful_gathered compound lawful (fun tag => ?_) below
    exact inner.named sound (names.resolve_left (by simp [tag])) (by simp)
  chain {_ first _} checked := by
    obtain ⟨lawful, others⟩ := Bool.and_eq_true_iff.1 checked
    refine ⟨lawful, fun _ head made => ⟨first.named trusted true, ⟨fun known => ?_, made⟩, others⟩⟩
    exact head.named sound known (by simp)
  grow {operand step _} checked known := by
    refine ⟨operand && step.named trusted true, ⟨?_, known.2⟩, checked,
      fun _ head made => ⟨operand && step.named trusted true, ⟨?_, made⟩, ?_⟩⟩
    · exact fun both => known.1 (Bool.and_eq_true_iff.1 both).1
    · intro both
      obtain ⟨left, grows⟩ := Bool.and_eq_true_iff.1 both
      exact head.named sound grows (fun _ => known.1 left)
    · simpa [Rule.lawful] using checked
  grown _ known := known.2
  wrap {_ _ part _ _ _ _ _} checked known _ inner body := by
    simp only [Rule.lawful, Bool.and_eq_true, Bool.not_eq_true', Bool.or_eq_true,
      decide_eq_true_eq] at checked
    obtain ⟨⟨compound, inside⟩, names⟩ := checked
    have lawful := forall_mem_append.2
      ⟨body inside, forall_operandAs part (fun part _ lawful => lawful.playing part) known.2⟩
    refine Node.forall_gather (fun span own below => ?_) (fun node made _ => lawful node made) (by simp)
    refine lawful_gathered compound lawful (fun tag => ?_) below
    obtain ⟨⟨operand, other⟩, named⟩ := names.resolve_left (by simp [tag])
    exact forall_mem_append.2
      ⟨inner.named sound named (by simp), operandAs_plainAsName other (known.1 operand)⟩

end Soundness
end Rule

namespace Grammar

def trusted : Symbol → Bool
  | .typeArguments => true
  | _ => false

def admitted : Symbol → Bool
  | .objectType category => !category.isAtom && !category.isTag
  | _ => true

theorem trusted_named (dialect : Dialect) (symbol : Symbol) (known : trusted symbol = true) :
    (rules dialect symbol).named trusted true = true := by
  cases symbol with
  | typeArguments => rfl
  | _ => cases known

theorem operand_lawful (dialect : Dialect) (place : Place) :
    (Expressions.operand dialect place).lawful admitted trusted true = true := by
  obtain ⟨breaks, branch⟩ := place
  cases dialect <;> cases breaks <;> cases branch <;> rfl

theorem object_lawful (known : admitted (.objectType category) = true) :
    (Types.object category).lawful admitted trusted true = true := by
  simp only [admitted, Bool.and_eq_true] at known
  change (!category.isAtom && true && (!category.isTag || true)) = true
  simp [known.1]

theorem admitted_lawful (dialect : Dialect) (symbol : Symbol) (known : admitted symbol = true) :
    (rules dialect symbol).lawful admitted trusted true = true := by
  cases symbol with
  | declaration free => cases free <;> rfl
  | expression place level => exact forall_expression (by decide +kernel) place level
  | operand place => exact operand_lawful dialect place
  | typing breaks level => exact forall_typing (by decide +kernel) breaks level
  | objectType category => exact object_lawful known
  | _ => rfl

end Grammar

theorem parse?_lawful {dialect : Grammar.Dialect} {text : List Char} {tree : Node}
    (parsed : parse? dialect text = some tree) : tree.kind = .node .program ∧ tree.Lawful := by
  obtain ⟨program, made, after, member, reads⟩ := parse?_reads parsed
  have checked : Grammar.Statements.program.lawful Grammar.admitted Grammar.trusted true = true := rfl
  have ensures := Rule.lawful_ensures (Grammar.trusted_named dialect) (Grammar.admitted_lawful dialect) (.ofText text)
  exact ⟨program, ensures.forall reads (.refl _) checked (by simp) (by simp) tree member⟩

namespace Node

variable {child : Node} {place address : List Nat}

/-- `target` is a plain part of the node at the address `bearer`. -/
structure Part (tree : Node) (bearer : List Nat) (category : Category) (target : Node) : Prop where
  host : ∃ host, tree.descend bearer = some host ∧ host.kind = .node category
  bears : category.bearsName = true
  below : ∃ index, tree.descend (bearer ++ [index]) = some target
  plain : target.Plain

variable {tree target next : Node} {bearer other : List Nat} {category kind : Category}

theorem descend_child {host : Node} {index : Nat} (found : tree.descend bearer = some host)
    (present : host.children[index]? = some child) : tree.descend (bearer ++ [index]) = some child := by
  simp [descend_append, found, descend, present]

theorem Part.not_above (part : tree.Part bearer category target) (inner : tree.Part other kind next)
    (reached : tree.descend address = some target) : ¬ address <+: other := by
  rintro ⟨below, rfl⟩
  obtain ⟨host, found, isHost⟩ := inner.host
  rw [descend_append, reached] at found
  have silent := part.plain host (descend_mem_walk found)
  rw [isHost] at silent
  exact absurd (inner.bears.symm.trans silent) (by simp)

theorem Part.apart (nested : tree.Nested) (first : tree.Part bearer category target)
    (second : tree.Part other kind next) (different : bearer ≠ other) :
    target.span.Apart next.span := by
  obtain ⟨i, reached⟩ := first.below
  obtain ⟨j, otherReached⟩ := second.below
  refine nested.apart reached otherReached ?_ ?_
  · intro above
    rcases prefix_concat_iff.1 above with equal | above
    · exact different (append_inj_left' equal rfl)
    · exact first.not_above second reached above
  · intro above
    rcases prefix_concat_iff.1 above with equal | above
    · exact different (append_inj_left' equal rfl).symm
    · exact second.not_above first otherReached above

theorem Part.category_eq (first : tree.Part bearer category target) (second : tree.Part bearer kind next) :
    category = kind := by
  obtain ⟨host, found, isHost⟩ := first.host
  obtain ⟨otherHost, otherFound, otherIsHost⟩ := second.host
  cases found.symm.trans otherFound
  exact Kind.node.inj (isHost.symm.trans otherIsHost)

/-- A part that a conversion may rename, by the place of the call or of the element. -/
inductive Named (tree : Node) (place : List Nat) (target : Node) : Prop
  | call (part : tree.Part place .callExpression target)
  | selfClosing (part : tree.Part place .jsxSelfClosingElement target)
  | tag {element : Node} {index : Nat} {category : Category}
      (found : tree.descend place = some element) (isElement : element.kind = .node .jsxElement)
      (isTag : category = .jsxOpeningElement ∨ category = .jsxClosingElement)
      (part : tree.Part (place ++ [index]) category target)

/-- The opening and the closing tag stand below their element, all other nodes for themselves. -/
def ownerOf (category : Category) (bearer : List Nat) : List Nat :=
  match category with
  | .jsxOpeningElement | .jsxClosingElement => bearer.dropLast
  | _ => bearer

theorem Named.part (named : tree.Named place target) :
    ∃ bearer category, tree.Part bearer category target ∧ place = ownerOf category bearer := by
  cases named with
  | call part => exact ⟨place, _, part, rfl⟩
  | selfClosing part => exact ⟨place, _, part, rfl⟩
  | @tag _ index _ _ _ isTag part =>
    refine ⟨place ++ [index], _, part, ?_⟩
    rcases isTag with rfl | rfl <;> simp [ownerOf]

theorem Named.apart {otherPlace : List Nat} (nested : tree.Nested) (first : tree.Named place target)
    (second : tree.Named otherPlace next) (different : place ≠ otherPlace) : target.span.Apart next.span := by
  obtain ⟨bearer, category, part, rfl⟩ := first.part
  obtain ⟨otherBearer, otherCategory, otherPart, rfl⟩ := second.part
  refine part.apart nested otherPart ?_
  rintro rfl
  cases part.category_eq otherPart
  exact different rfl

theorem eq_or_mem_walk_of_prefix {node : Node} {k j : Nat}
    (found : tree.descend address = some node) (present : tree.children[k]? = some child)
    (below : [k] <+: address ++ [j]) : node = tree ∨ node ∈ child.walk := by
  cases address with
  | nil => exact .inl (Option.some.inj found).symm
  | cons i rest =>
    obtain ⟨rfl, _⟩ := cons_prefix_cons.1 below
    rw [descend, present] at found
    exact .inr (descend_mem_walk found)

theorem Part.not_below {k j : Nat} (part : tree.Part bearer category target)
    (root : tree.kind = .node .program) (present : tree.children[k]? = some child)
    (bare : ∀ node ∈ child.walk, node.isCategory category = false) : ¬ [k] <+: bearer ++ [j] := by
  intro below
  obtain ⟨host, found, isHost⟩ := part.host
  rcases eq_or_mem_walk_of_prefix found present below with rfl | member
  · cases isHost.symm.trans root
    cases part.bears
  · simpa [isCategory, isHost] using bare host member

theorem Named.apart_of_child {k : Nat} (nested : tree.Nested)
    (root : tree.kind = .node .program) (named : tree.Named place target)
    (present : tree.children[k]? = some child)
    (bare : ∀ node ∈ child.walk, node.isCategory .callExpression = false ∧
      node.isCategory .jsxElement = false ∧ node.isCategory .jsxSelfClosingElement = false) :
    child.span.Apart target.span := by
  have reached : tree.descend [k] = some child := by simp [descend, present]
  obtain ⟨address, j, found, outside⟩ : ∃ address j, tree.descend (address ++ [j]) = some target ∧
      ¬ [k] <+: address ++ [j] := by
    cases named with
    | call part =>
      obtain ⟨j, found⟩ := part.below
      exact ⟨_, j, found, part.not_below root present (fun node member => (bare node member).1)⟩
    | selfClosing part =>
      obtain ⟨j, found⟩ := part.below
      exact ⟨_, j, found, part.not_below root present (fun node member => (bare node member).2.2)⟩
    | @tag element index category upper isElement isTag part =>
      obtain ⟨j, found⟩ := part.below
      refine ⟨_, j, found, fun below => ?_⟩
      -- The tag stands inside the child only if its element does.
      have higher : [k] <+: place ++ [index] :=
        (prefix_concat_iff.1 below).resolve_left
          (fun equal => by simpa using congrArg List.length equal)
      rcases eq_or_mem_walk_of_prefix upper present higher with rfl | member
      · cases isElement.symm.trans root
      · simpa [isCategory, isElement] using (bare element member).2.1
  refine nested.apart reached found outside (fun above => outside ?_)
  have short := above.length_le
  simp only [length_append, length_cons] at short
  have equal := above.eq_of_length (by simp only [length_append, length_cons]; omega)
  exact equal ▸ prefix_rfl

end Node
end Refit.Syntax
