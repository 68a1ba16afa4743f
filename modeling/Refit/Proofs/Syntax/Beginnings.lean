import Mathlib.Data.List.TakeWhile
import Refit.Proofs.Syntax.Names

/-!
Where nodes begin. Blanks are passed before a lexeme unless it is glued to what precedes, so a node whose
first lexeme is not glued does not begin with a line break. Which nodes these are is seen from the rules
alone: statements, callees and the names of tags are among them.
-/

namespace Refit.Syntax

open Text.Utf8

variable {text : List Char} {category : Category} {span : Span} {cursor : Cursor}

/-- No line break stands at the offset. -/
def Clear (text : List Char) (offset : Nat) : Prop := (encodeChars text)[offset]? ≠ some 10

theorem head_encodeChar {c : Char} (newline : (String.utf8EncodeChar c).head? = some 10) : c = '\n' := by
  obtain ⟨first, others, bytes, read⟩ := step_encodeChar c
  rw [bytes] at newline
  obtain rfl : first = 10 := Option.some.inj newline
  have one := @step_one 10 (others ++ []) (by decide)
  have same := (read []).symm.trans one
  simp only [Step.char.injEq] at same
  exact same.1

theorem Cursor.On.clear (on : cursor.On text) (rests : cursor.Rests) :
    Clear text cursor.offset := by
  obtain ⟨passed, split, offset⟩ := on
  simp only [ofText, Nat.zero_add] at split offset
  intro newline
  rw [split, offset] at newline
  cases rest : cursor.rest with
  | nil => simp [rest] at newline
  | cons c others =>
    obtain ⟨first, more, bytes, _⟩ := step_encodeChar c
    have head : (String.utf8EncodeChar c).head? = some 10 := by simpa [rest, bytes] using newline
    have blank := rests c (by simp [rest])
    rw [head_encodeChar head] at blank
    cases blank

theorem Cursor.Passes.comments {after : Cursor} {met result : List Node} (passes : cursor.Passes met after result) :
    ∃ made, result = made ++ met ∧ ∀ node ∈ made, ∃ span, node = .mk (.node .comment) none span [] := by
  induction passes with
  | stay => exact ⟨[], rfl, by simp⟩
  | blanks _ ih => exact ih
  | @comment _ _ _ _ _ node found _ ih =>
    obtain ⟨made, rfl, each⟩ := ih
    refine ⟨made ++ [node], by simp, List.forall_mem_append.2 ⟨each, ?_⟩⟩
    simpa using ⟨_, comment?_eq found⟩

namespace Node

variable {text : List Char} {category : Category} {made met later earlier : List Node} {must : Bool}

/-- A comment plays no part. -/
def AloofComment (node : Node) : Prop := node.isComment = true → node.field = none

theorem AloofComment.playing {node : Node} (aloof : node.AloofComment) (part : Field) : (node.playing part).AloofComment := by
  intro comment
  rw [isComment_playing] at comment
  rw [Node.playing, if_pos comment]
  exact aloof comment

/-- The node is a comment or does not begin with a line break. -/
def Begins (text : List Char) (node : Node) : Prop := node.isComment = false → Clear text node.start

theorem Begins.playing {node : Node} (begins : node.Begins text) (part : Field) : (node.playing part).Begins text := by
  simpa [Begins] using begins

/-- The first of nodes that are given last first, comments apart. -/
def first? (made : List Node) : Option Node := (made.reverse.dropWhile isComment).head?

/-- The first node does not begin with a line break. -/
def Opens (text : List Char) (must : Bool) (made : List Node) : Prop :=
  match first? made with
  | some first => Clear text first.start
  | none => must = false

theorem first?_append (later earlier : List Node) : first? (later ++ earlier) = (first? earlier).or (first? later) := by
  unfold first?
  rw [List.reverse_append, List.dropWhile_append]
  cases earlier.reverse.dropWhile isComment <;> simp

theorem Opens.append (opens : Opens text true earlier) (later : List Node) : Opens text must (later ++ earlier) := by
  unfold Opens at opens ⊢
  rw [first?_append]
  cases first : first? earlier with
  | none => simp [first] at opens
  | some node => simpa [first] using opens

theorem Opens.append_loose (loose : Opens text false earlier) (opens : Opens text must later) :
    Opens text must (later ++ earlier) := by
  unfold Opens at loose opens ⊢
  rw [first?_append]
  cases first : first? earlier with
  | none => simpa using opens
  | some node => simpa [first] using loose

theorem first?_playing (part : Field) (made : List Node) :
    (first? (made.map (playing part))).map start = (first? made).map start := by
  have comments : isComment ∘ playing part = isComment := funext (isComment_playing part)
  have starts : start ∘ playing part = start := funext (start_playing part)
  rw [first?, ← List.map_reverse, List.dropWhile_map, List.head?_map, Option.map_map, comments, starts]
  rfl

theorem opens_iff : Opens text must made ↔
    (∀ offset ∈ (first? made).map start, Clear text offset) ∧ ((first? made).map start = none → must = false) := by
  unfold Opens
  cases first? made <;> simp

theorem Opens.playing (opens : Opens text must made) (part : Field) : Opens text must (made.map (playing part)) := by
  rw [opens_iff] at opens ⊢
  rwa [first?_playing]

theorem opens_comments (comments : ∀ node ∈ made, node.isComment = true) : Opens text false made := by
  unfold Opens first?
  have none : made.reverse.dropWhile isComment = [] := by
    simpa using comments
  rw [none]
  rfl

theorem gather_eq (opens : Opens text true made) (category : Category) (met : List Node) (cursor : Cursor) :
    ∃ span, Clear text span.start ∧ gather category made met cursor =
      (mk (.node category) none span (made.reverse.dropWhile isComment) :: (made.reverse.takeWhile isComment).reverse) ++
        met := by
  cases own : made.reverse.dropWhile isComment with
  | nil => simp [Opens, first?, own] at opens
  | cons first rest =>
    cases made with
    | nil => simp at own
    | cons last others =>
      refine ⟨⟨first.start, last.stop⟩, ?_, ?_⟩
      · rw [Opens, first?, own] at opens
        exact opens
      · simp only [gather, own]
        rfl

theorem opens_cons {kind : Kind} {own comments : List Node} (clear : Clear text span.start)
    (other : kind ≠ .node .comment) (before : ∀ node ∈ comments, node.isComment = true) :
    Opens text must (mk kind none span own :: comments) := by
  have single : Opens text must [mk kind none span own] := by
    have named : isComment (mk kind none span own) = false := decide_eq_false other
    rw [Opens, first?, List.reverse_singleton, List.dropWhile_cons_of_neg (by simp [named])]
    exact clear
  exact (opens_comments before).append_loose single

theorem Opens.gather (opens : Opens text true made) (other : category ≠ .comment) (met : List Node) (cursor : Cursor) :
    ∃ new, gather category made met cursor = new ++ met ∧ Opens text must new := by
  obtain ⟨span, clear, equal⟩ := gather_eq opens category met cursor
  refine ⟨_, equal, opens_cons clear (fun same => other (Kind.node.inj same)) (fun node member => ?_)⟩
  exact List.all_eq_true.1 List.all_takeWhile node (List.mem_reverse.1 member)

end Node
/-- The nodes whose children are looked at: those that bear names, and the whole source. -/
def Kind.isBearer : Kind → Bool
  | .node .program => true
  | kind => kind.bearsName

/-- Below every bearer, comments play no part and the other nodes do not begin with a line break. -/
def Node.Begun (text : List Char) (tree : Node) : Prop :=
  ∀ node ∈ tree.walk, node.kind.isBearer = true → ∀ child ∈ node.children, child.AloofComment ∧ child.Begins text

theorem Node.begun_iff {node : Node} :
    node.Begun text ↔
      (node.kind.isBearer = true → ∀ child ∈ node.children, child.AloofComment ∧ child.Begins text) ∧
        ∀ child ∈ node.children, child.Begun text :=
  forall_mem_walk

theorem Node.Begun.playing {node : Node} (begun : node.Begun text) (part : Field) :
    (node.playing part).Begun text :=
  forall_walk_playing (fun _ _ root => root) begun part

theorem Node.begun_leaf (kind : Kind) (field : Option Field) (span : Span) :
    (mk kind field span []).Begun text :=
  begun_iff.2 ⟨fun _ => by simp [children], by simp [children]⟩

namespace Rule

variable {Symbol : Type}

/-- The first node that the rule makes does not begin with a line break, if that of the left operand does not.
Where `must` holds there is one. -/
def opens (admitted : Symbol → Bool) (operand must : Bool) : Rule Symbol → Bool
  | lexeme kind glued _ => if kind = .node .comment then !must else !glued
  | ref symbol => admitted symbol
  | seq first second =>
    first.opens admitted operand true
      || first.opens admitted operand false && second.opens admitted operand must
  | alt first second => first.opens admitted operand must && second.opens admitted operand must
  | many item => !must && item.opens admitted false false
  | field _ body => body.opens admitted operand must
  | only categories body => categories.isEmpty || body.opens admitted operand must
  | node category body => category ≠ .comment && body.opens admitted false true
  | chain first step => first.opens admitted false true && step.opens admitted true true
  | grow step => operand && step.opens admitted true true
  | wrap category _ _ => operand && category ≠ .comment
  | empty | leftIs _ _ | ahead _ _ | goesOn _ | implicitEnd _ | endOfSource => !must

def clear (admitted : Symbol → Bool) (operand : Bool) : Rule Symbol → Bool
  | lexeme kind glued _ => kind = .node .comment || !glued
  | ref symbol => admitted symbol
  | seq first second | alt first second => first.clear admitted operand && second.clear admitted operand
  | many item => item.clear admitted false
  | field _ body | only _ body => body.clear admitted operand
  | node category body => category ≠ .comment && body.opens admitted false true
  | chain first step =>
    first.clear admitted false && first.opens admitted false true
      && step.clear admitted true && step.opens admitted true true
  | grow step => operand && step.clear admitted true && step.opens admitted true true
  | wrap category _ _ => operand && category ≠ .comment
  | empty | leftIs _ _ | ahead _ _ | goesOn _ | implicitEnd _ | endOfSource => true

def firm (admitted : Symbol → Bool) (operand : Bool) (rule : Rule Symbol) : Bool :=
  rule.clear admitted operand && rule.opens admitted operand true

/-- The children of the bearers that the rule makes begin as they should, if the left operand is firm. -/
def begun (admitted : Symbol → Bool) (operand : Bool) : Rule Symbol → Bool
  | ref symbol => admitted symbol
  | seq first second | alt first second => first.begun admitted operand && second.begun admitted operand
  | many item => item.begun admitted false
  | field _ body | only _ body => body.begun admitted operand
  | node category body => body.begun admitted false && (!(Kind.node category).isBearer || body.clear admitted false)
  | chain first step =>
    first.begun admitted false && step.begun admitted (first.firm admitted false && step.firm admitted true)
  | grow step => step.begun admitted (operand && step.firm admitted true)
  | wrap category _ body =>
    body.begun admitted false && (!(Kind.node category).isBearer || operand && body.clear admitted false)
  | lexeme _ _ _ | empty | leftIs _ _ | ahead _ _ | goesOn _ | implicitEnd _ | endOfSource => true

section Soundness

variable {grammar : Symbol → Rule Symbol} {rule : Rule Symbol} {left met result : List Node}
  {cursor after : Cursor} {operand must : Bool} {text : List Char} {admitted : Symbol → Bool}

theorem Reads.extends (reads : Reads grammar rule left met cursor result after) : ∃ made, result = made ++ met := by
  induction reads with
  | atOnce => exact ⟨[], rfl⟩
  | ending _ passes =>
    obtain ⟨made, rfl, _⟩ := passes.comments
    exact ⟨made, rfl⟩
  | lexeme passes =>
    obtain ⟨made, rfl, _⟩ := passes.comments
    exact ⟨_ :: made, rfl⟩
  | seq _ _ headIH tailIH | many _ _ headIH tailIH =>
    obtain ⟨before, rfl⟩ := headIH
    obtain ⟨made, rfl⟩ := tailIH
    exact ⟨made ++ before, by simp⟩
  | ref _ ih | altFirst _ ih | altSecond _ ih => exact ih
  | field | only | grown => exact ⟨_, rfl⟩
  | node | wrap => exact ⟨_ :: _, rfl⟩
  | chain _ _ _ tailIH | grow _ _ _ tailIH => exact tailIH

theorem operandAs_opens (part : Option Field) (opens : Node.Opens text must left) :
    Node.Opens text must (operandAs part left) := by
  cases part with
  | none => exact opens
  | some part => exact opens.playing part

theorem opens_of_made (only : ∃ made, result = made ++ [] ∧ Node.Opens text must made) : Node.Opens text must result := by
  obtain ⟨made, rfl, opens⟩ := only
  simpa using opens

theorem Reads.opens (sound : ∀ symbol, admitted symbol = true → (grammar symbol).opens admitted false true = true)
    (reads : Reads grammar rule left met cursor result after) (on : cursor.On text)
    (checked : rule.opens admitted operand must = true) (leftOpens : operand = true → Node.Opens text true left) :
    ∃ made, result = made ++ met ∧ Node.Opens text must made := by
  induction reads generalizing operand must with
  | @atOnce rule _ _ _ allowed =>
    have loose : must = false := by
      cases rule <;> simp [maySucceedAtOnce] at allowed <;> simp_all [Rule.opens]
    exact ⟨[], rfl, loose⟩
  | @ending rule _ _ _ _ _ allowed passes =>
    have loose : must = false := by
      cases rule <;> simp [isEnding] at allowed <;> simp_all [Rule.opens]
    obtain ⟨made, rfl, comments⟩ := passes.comments
    refine ⟨made, rfl, loose ▸ Node.opens_comments (fun node member => ?_)⟩
    obtain ⟨span, rfl⟩ := comments node member
    rfl
  | @lexeme kind glued scan left met between cursor here count passes rests =>
    obtain ⟨made, rfl, comments⟩ := passes.comments
    have before : ∀ node ∈ made, node.isComment = true := by
      intro node member
      obtain ⟨span, rfl⟩ := comments node member
      rfl
    refine ⟨_ :: made, rfl, ?_⟩
    simp only [Rule.opens] at checked
    split at checked
    · next comment =>
        obtain rfl : must = false := by simpa using checked
        exact Node.opens_comments (List.forall_mem_cons.2 ⟨decide_eq_true comment, before⟩)
    · next other =>
        exact Node.opens_cons ((on.after passes.leads).clear (rests (by simpa using checked))) other before
  | ref _ ih =>
    obtain ⟨made, equal, opens⟩ := ih on (sound _ checked) (by simp)
    exact ⟨made, equal, opens.append []⟩
  | seq head tail headIH tailIH =>
    simp only [Rule.opens, Bool.or_eq_true, Bool.and_eq_true] at checked
    rcases checked with first | ⟨first, second⟩
    · obtain ⟨before, rfl, opens⟩ := headIH on first leftOpens
      obtain ⟨made, rfl⟩ := tail.extends
      exact ⟨made ++ before, by simp, opens.append made⟩
    · obtain ⟨before, rfl, loose⟩ := headIH on first leftOpens
      obtain ⟨made, rfl, opens⟩ := tailIH (on.after head.leads) second leftOpens
      exact ⟨made ++ before, by simp, loose.append_loose opens⟩
  | altFirst _ ih =>
    simp only [Rule.opens, Bool.and_eq_true] at checked
    exact ih on checked.1 leftOpens
  | altSecond _ ih =>
    simp only [Rule.opens, Bool.and_eq_true] at checked
    exact ih on checked.2 leftOpens
  | many head _ headIH tailIH =>
    obtain ⟨before, rfl, first⟩ := headIH on (Bool.and_eq_true_iff.1 checked).2 (by simp)
    obtain ⟨made, rfl, rest⟩ := @tailIH false must (on.after head.leads) checked (by simp)
    exact ⟨made ++ before, by simp, first.append_loose rest⟩
  | @field part _ _ _ _ _ _ _ ih => exact ⟨_, rfl, (opens_of_made (ih on checked leftOpens)).playing part⟩
  | node _ ih =>
    simp only [Rule.opens, Bool.and_eq_true, decide_eq_true_eq] at checked
    exact (opens_of_made (ih on checked.2 (by simp))).gather checked.1 _ _
  | chain head _ headIH tailIH =>
    simp only [Rule.opens, Bool.and_eq_true] at checked
    have opens := opens_of_made (headIH on checked.1 (by simp))
    exact @tailIH true must (on.after head.leads) checked.2 (fun _ => opens)
  | grow head _ headIH tailIH =>
    simp only [Rule.opens, Bool.and_eq_true] at checked
    have opens := opens_of_made (headIH on checked.2 (fun _ => leftOpens checked.1))
    exact @tailIH true must (on.after head.leads) checked.2 (fun _ => opens)
  | grown =>
    simp only [Rule.opens, Bool.and_eq_true] at checked
    exact ⟨_, rfl, (leftOpens checked.1).append []⟩
  | @wrap _ part _ _ _ made _ _ _ _ =>
    simp only [Rule.opens, Bool.and_eq_true, decide_eq_true_eq] at checked
    exact ((operandAs_opens part (leftOpens checked.1)).append made).gather checked.2 _ _
  | @only categories _ _ _ _ _ _ _ last ih =>
    simp only [Rule.opens, Bool.or_eq_true, List.isEmpty_iff] at checked
    rcases checked with rfl | checked
    · simp at last
    · exact ⟨_, rfl, opens_of_made (ih on checked leftOpens)⟩

theorem Reads.opens_alone (sound : ∀ symbol, admitted symbol = true → (grammar symbol).firm admitted false = true)
    (reads : Reads grammar rule left [] cursor result after) (on : cursor.On text)
    (checked : rule.opens admitted operand true = true) (leftOpens : operand = true → Node.Opens text true left) :
    Node.Opens text true result := by
  refine opens_of_made (reads.opens (fun symbol known => ?_) on checked leftOpens)
  exact (Bool.and_eq_true_iff.1 (sound symbol known)).2

theorem aloof_ensures (grammar : Symbol → Rule Symbol) (start : Cursor) :
    Ensures grammar start true (fun _ left => ∀ node ∈ left, node.AloofComment) (fun operand _ => operand)
      Node.AloofComment where
  nothing := by simp
  comment _ _ := rfl
  lexeme _ _ _ _ := rfl
  ref _ := rfl
  seq checked := ⟨checked, checked⟩
  alt checked := ⟨checked, checked⟩
  many _ := ⟨rfl, rfl⟩
  only checked := checked
  field checked _ body node member := (body checked node member).playing _
  node _ _ _ body := Node.forall_gather (fun _ _ _ _ => rfl) (fun node member _ => body rfl node member) (by simp)
  chain _ := ⟨rfl, fun _ _ made => ⟨true, made, rfl⟩⟩
  grow _ known := ⟨true, known, rfl, fun _ _ made => ⟨true, made, rfl⟩⟩
  grown _ known := known
  wrap {_ _ part _ _ _ _ _} _ known _ _ body := by
    have aloof := List.forall_mem_append.2
      ⟨body rfl, forall_operandAs part (fun part _ aloof => aloof.playing part) known⟩
    exact Node.forall_gather (fun _ _ _ _ => rfl) (fun node member _ => aloof node member) (by simp)

theorem Reads.aloof (reads : Reads grammar rule left [] cursor result after)
    (leftAloof : ∀ node ∈ left, node.AloofComment) : ∀ node ∈ result, node.AloofComment :=
  (aloof_ensures grammar cursor).forall reads (.refl _) rfl leftAloof (by simp)

theorem begins_gather {made : List Node} (opens : Node.Opens text true made) :
    ∀ node ∈ Node.gather category made [] after, node.Begins text := by
  obtain ⟨span, clear, equal⟩ := Node.gather_eq opens category [] after
  rw [equal, List.append_nil, List.forall_mem_cons]
  refine ⟨fun _ => clear, fun node member other => ?_⟩
  rw [List.all_eq_true.1 List.all_takeWhile node (List.mem_reverse.1 member)] at other
  cases other

/-- Nodes that open and do not begin with a line break. -/
def Firm (text : List Char) (nodes : List Node) : Prop :=
  Node.Opens text true nodes ∧ ∀ node ∈ nodes, node.Begins text

section

variable (sound : ∀ symbol, admitted symbol = true → (grammar symbol).firm admitted false = true)
include sound

theorem clear_ensures :
    Ensures grammar (.ofText text) false (fun operand left => operand = true → Firm text left) (Rule.clear admitted)
      (Node.Begins text) where
  nothing := nofun
  comment _ := nofun
  lexeme checked on rests other := by
    simp only [Rule.clear, Bool.or_eq_true, Bool.not_eq_true'] at checked
    rcases checked with comment | free
    · cases comment.symm.trans other
    · exact Cursor.On.clear on (rests free)
  ref known := (Bool.and_eq_true_iff.1 (sound _ known)).1
  seq := Bool.and_eq_true_iff.1
  alt := Bool.and_eq_true_iff.1
  many checked := ⟨checked, checked⟩
  only checked := checked
  field checked _ body node member := (body checked node member).playing _
  node checked on inner _ :=
    begins_gather (inner.opens_alone sound on (Bool.and_eq_true_iff.1 checked).2 nofun)
  chain checked := by
    simp only [Rule.clear, Bool.and_eq_true] at checked
    obtain ⟨⟨⟨clear, opens⟩, stepClear⟩, stepOpens⟩ := checked
    refine ⟨clear, fun on head made => ⟨true, fun _ => ?_, by simp [Rule.clear, stepClear, stepOpens]⟩⟩
    exact ⟨head.opens_alone sound on opens nofun, made⟩
  grow checked known := by
    simp only [Rule.clear, Bool.and_eq_true] at checked
    obtain ⟨⟨operand, stepClear⟩, stepOpens⟩ := checked
    refine ⟨true, fun _ => known operand, stepClear,
      fun on head made => ⟨true, fun _ => ?_, by simp [Rule.clear, stepClear, stepOpens]⟩⟩
    exact ⟨head.opens_alone sound on stepOpens (fun _ => (known operand).1), made⟩
  grown checked known := by
    simp only [Rule.clear, Bool.and_eq_true] at checked
    exact (known checked.1.1).2
  wrap {_ _ part _ _ _ made _} checked known _ _ _ :=
    begins_gather ((operandAs_opens part (known (Bool.and_eq_true_iff.1 checked).1).1).append made)

section

variable (reads : Reads grammar rule left [] cursor result after) (on : cursor.On text)
include reads on

theorem Reads.clear (checked : rule.clear admitted operand = true) (leftFirm : operand = true → Firm text left) :
    ∀ node ∈ result, node.Begins text :=
  (clear_ensures sound).forall reads on checked leftFirm (by simp)

theorem Reads.firm
    (checked : rule.firm admitted operand = true) (leftFirm : operand = true → Firm text left) : Firm text result := by
  obtain ⟨clear, opens⟩ := Bool.and_eq_true_iff.1 checked
  exact ⟨reads.opens_alone sound on opens (fun known => (leftFirm known).1), reads.clear sound on clear leftFirm⟩

end

end

theorem begun_gathered {made own : List Node} (begun : ∀ node ∈ made, node.Begun text)
    (children : (Kind.node category).isBearer = true → ∀ node ∈ made, node.AloofComment ∧ node.Begins text)
    (below : ∀ child ∈ own, child ∈ made) : (Node.mk (.node category) none span own).Begun text :=
  Node.begun_iff.2 ⟨fun bearer child present => children bearer child (below child present),
    fun child present => begun child (below child present)⟩

theorem begun_ensures (text : List Char)
    (sound : ∀ symbol, admitted symbol = true → (grammar symbol).firm admitted false = true)
    (closed : ∀ symbol, admitted symbol = true → (grammar symbol).begun admitted false = true) :
    Ensures grammar (.ofText text) false
      (fun operand left => (operand = true → Firm text left) ∧ (∀ node ∈ left, node.AloofComment) ∧
        ∀ node ∈ left, node.Begun text)
      (Rule.begun admitted) (Node.Begun text) where
  nothing := by simp
  comment span := Node.begun_leaf _ none span
  lexeme _ _ _ := Node.begun_leaf _ _ _
  ref := closed _
  seq := Bool.and_eq_true_iff.1
  alt := Bool.and_eq_true_iff.1
  many checked := ⟨checked, checked⟩
  only checked := checked
  field checked _ body node member := (body checked node member).playing _
  node checked on inner body := by
    simp only [Rule.begun, Bool.and_eq_true, Bool.or_eq_true] at checked
    have begun := body checked.1
    refine Node.forall_gather (fun span own below => ?_) (fun node made _ => begun node made) (by simp)
    refine begun_gathered begun (fun bearer node made => ⟨inner.aloof (by simp) node made, ?_⟩) below
    exact inner.clear sound on (checked.2.resolve_left (by simp [bearer])) nofun node made
  chain {_ first _} checked := by
    obtain ⟨begun, others⟩ := Bool.and_eq_true_iff.1 checked
    refine ⟨begun, fun on head made => ⟨first.firm admitted false, ⟨fun known => ?_, ?_, made⟩, others⟩⟩
    · exact head.firm sound on known nofun
    · exact head.aloof (by simp)
  grow {operand step _} checked known := by
    obtain ⟨firm, aloof, begun⟩ := known
    refine ⟨operand && step.firm admitted true, ⟨?_, aloof, begun⟩, checked,
      fun on head made => ⟨operand && step.firm admitted true, ⟨?_, head.aloof aloof, made⟩, ?_⟩⟩
    · exact fun both => firm (Bool.and_eq_true_iff.1 both).1
    · intro both
      obtain ⟨left, grows⟩ := Bool.and_eq_true_iff.1 both
      exact head.firm sound on grows (fun _ => firm left)
    · simpa [Rule.begun] using checked
  grown _ known := known.2.2
  wrap {_ _ part _ _ _ _ _} checked known on inner body := by
    obtain ⟨firm, aloof, leftBegun⟩ := known
    simp only [Rule.begun, Bool.and_eq_true, Bool.or_eq_true] at checked
    have begun := List.forall_mem_append.2
      ⟨body checked.1, forall_operandAs part (fun part _ begun => begun.playing part) leftBegun⟩
    refine Node.forall_gather (fun span own below => ?_) (fun node made _ => begun node made) (by simp)
    refine begun_gathered begun (fun bearer => ?_) below
    obtain ⟨operand, clear⟩ := checked.2.resolve_left (by simp [bearer])
    have bodyBegins := inner.clear sound on clear nofun
    refine List.forall_mem_append.2 ⟨fun node member => ⟨inner.aloof (by simp) node member, bodyBegins node member⟩,
      forall_operandAs part (fun part _ both => ⟨both.1.playing part, both.2.playing part⟩) (fun node member => ?_)⟩
    exact ⟨aloof node member, (firm operand).2 node member⟩

end Soundness
end Rule

namespace Grammar

def begins (rule : GrammarRule) : Bool := rule.firm admitted false && rule.begun admitted false

theorem object_begins (known : admitted (.objectType category) = true) :
    begins (Types.object category) = true := by
  have other : category ≠ .comment := by
    rintro rfl
    cases known
  change ((decide (category ≠ .comment) && true) && (decide (category ≠ .comment) && true) &&
    (true && (!(Kind.node category).isBearer || true))) = true
  simp [other]

theorem rules_begins (dialect : Dialect) (symbol : Symbol) (known : admitted symbol = true) :
    begins (rules dialect symbol) = true := by
  cases symbol with
  | declaration free => cases free <;> rfl
  | expression place level => exact forall_expression (by decide +kernel) place level
  | operand place =>
    obtain ⟨breaks, branch⟩ := place
    cases dialect <;> cases breaks <;> cases branch <;> rfl
  | typing breaks level => exact forall_typing (by decide +kernel) breaks level
  | objectType category => exact object_begins known
  | _ => rfl

end Grammar

theorem parse?_begun {dialect : Grammar.Dialect} {tree : Node}
    (parsed : parse? dialect text = some tree) : tree.Begun text := by
  obtain ⟨_, made, after, member, reads⟩ := parse?_reads parsed
  have checked : Grammar.Statements.program.begun Grammar.admitted false = true := rfl
  have ensures := Rule.begun_ensures text
    (fun symbol known => (Bool.and_eq_true_iff.1 (Grammar.rules_begins dialect symbol known)).1)
    (fun symbol known => (Bool.and_eq_true_iff.1 (Grammar.rules_begins dialect symbol known)).2)
  exact ensures.forall reads (.refl _) checked (by simp) (by simp) tree member

end Refit.Syntax
