import Refit.Proofs.Syntax.Address
import Refit.Syntax.Parse

/-!
What a reading can do, said once as a relation without fuel. Facts about the nodes that a grammar
makes are inductions over it.
-/

namespace Refit.Syntax

variable {P : Node → Prop}

/-- Blanks and comments are passed; the comments become nodes, last first. -/
inductive Cursor.Passes : Cursor → List Node → Cursor → List Node → Prop
  | stay {cursor : Cursor} {met : List Node} : Passes cursor met cursor met
  | blanks {cursor after : Cursor} {met result : List Node}
      (rest : Passes (cursor.skip isBlank) met after result) : Passes cursor met after result
  | comment {cursor next after : Cursor} {met result : List Node} {node : Node}
      (found : cursor.comment? = some (node, next)) (rest : Passes next (node :: met) after result) :
      Passes cursor met after result

namespace Cursor

variable {cursor after : Cursor}

/-- No blank stands at the cursor. -/
def Rests (cursor : Cursor) : Prop := ∀ c ∈ cursor.rest.head?, isBlank c = false

theorem skipFrom_rests (offset : Nat) (text : List Char) : (skipFrom isBlank offset text).Rests := by
  fun_induction skipFrom isBlank offset text with
  | case1 => simp [Rests]
  | case2 _ _ _ _ ih => exact ih
  | case3 _ _ _ other => simpa [Rests] using other

theorem layout_rests (cursor : Cursor) (met : List Node) : (cursor.layout met).2.Rests := by
  fun_induction layout met cursor with
  | case1 _ _ _ _ _ ih => exact ih
  | case2 _ cursor => exact skipFrom_rests cursor.offset cursor.rest

theorem layout_passes (cursor : Cursor) (met : List Node) :
    cursor.Passes met (cursor.layout met).2 (cursor.layout met).1 := by
  fun_induction layout met cursor with
  | case1 cursor met node after found ih => exact .blanks (.comment found ih)
  | case2 cursor met => exact .blanks .stay

theorem implicitEnd?_passes {met result : List Node} {afterOperand afterSignature : Bool}
    (found : cursor.implicitEnd? afterOperand afterSignature met = some (result, after)) :
    cursor.Passes met after result := by
  fun_induction implicitEnd? afterOperand afterSignature met cursor with
  | case1 cursor met ends =>
    cases found
    exact .stay
  | case2 cursor met _ node next present ih => exact .blanks (.comment present (ih found))
  | case3 => cases found

theorem comment?_eq {node : Node} (found : cursor.comment? = some (node, after)) :
    node = .mk (.node .comment) none ⟨cursor.offset, after.offset⟩ [] := by
  unfold comment? at found
  split at found
  · cases found
    rfl
  · cases found

theorem Passes.forall {met result : List Node}
    (comment : ∀ span, P (.mk (.node .comment) none span [])) (passes : cursor.Passes met after result)
    (before : ∀ node ∈ met, P node) : ∀ node ∈ result, P node := by
  induction passes with
  | stay => exact before
  | blanks _ ih => exact ih before
  | comment found _ ih =>
    apply ih
    rw [comment?_eq found]
    exact List.forall_mem_cons.2 ⟨comment _, before⟩

end Cursor

namespace Node

theorem playing_eq (part : Field) (node : Node) :
    playing part node = node ∨
      node.field = none ∧ playing part node = .mk node.kind (some part) node.span node.children := by
  obtain ⟨kind, field, span, children⟩ := node
  unfold playing withField
  split
  · exact .inl rfl
  · cases field with
    | none => exact .inr ⟨rfl, rfl⟩
    | some part => exact .inl rfl

@[simp] theorem isComment_playing (part : Field) (node : Node) : (node.playing part).isComment = node.isComment := by
  rcases playing_eq part node with same | ⟨_, changed⟩
  · rw [same]
  · rw [changed]
    rfl

@[simp] theorem start_playing (part : Field) (node : Node) : (node.playing part).start = node.start := by
  rcases playing_eq part node with same | ⟨_, changed⟩
  · rw [same]
  · rw [changed]
    rfl

theorem forall_walk_playing {node : Node}
    (apart : ∀ node part, P node → P (.mk node.kind (some part) node.span node.children))
    (each : ∀ inner ∈ node.walk, P inner) (part : Field) : ∀ inner ∈ (node.playing part).walk, P inner := by
  rcases playing_eq part node with same | ⟨_, changed⟩
  · rwa [same]
  · obtain ⟨root, below⟩ := forall_mem_walk.1 each
    rw [changed]
    exact forall_mem_walk.2 ⟨apart node part root, below⟩

end Node

namespace Rule

variable {Symbol : Type}

def maySucceedAtOnce : Rule Symbol → Bool
  | empty | many _ | leftIs _ _ | ahead _ _ | goesOn _ => true
  | _ => false

/-- Rules that pass blanks and comments and nothing else. -/
def isEnding : Rule Symbol → Bool
  | implicitEnd _ | endOfSource => true
  | _ => false

def operandAs (part : Option Field) (left : List Node) : List Node :=
  match part with
  | some part => left.map (Node.playing part)
  | none => left

theorem forall_operandAs {left : List Node} (part : Option Field)
    (played : ∀ part node, P node → P (node.playing part)) (each : ∀ node ∈ left, P node) :
    ∀ node ∈ operandAs part left, P node := by
  cases part with
  | none => exact each
  | some part => exact List.forall_mem_map.2 (fun node member => played part node (each node member))

/-- `Reads grammar rule left met cursor result after`: with `left` as operand the rule can be read
from `cursor` to `after`, and puts what it makes before `met`. -/
inductive Reads (grammar : Symbol → Rule Symbol) :
    Rule Symbol → List Node → List Node → Cursor → List Node → Cursor → Prop
  | atOnce {rule : Rule Symbol} {left met : List Node} {cursor : Cursor}
      (allowed : rule.maySucceedAtOnce = true) : Reads grammar rule left met cursor met cursor
  | ending {rule : Rule Symbol} {left met result : List Node} {cursor after : Cursor}
      (allowed : rule.isEnding = true) (passes : cursor.Passes met after result) :
      Reads grammar rule left met cursor result after
  | lexeme {kind : Kind} {glued : Bool} {scan : Scanner} {left met between : List Node}
      {cursor here : Cursor} {count : Nat} (passes : cursor.Passes met here between)
      (rests : glued = false → here.Rests) :
      Reads grammar (lexeme kind glued scan) left met cursor
        (.mk kind none ⟨here.offset, (here.advance count).offset⟩ [] :: between) (here.advance count)
  | ref {symbol : Symbol} {left met result : List Node} {cursor after : Cursor}
      (body : Reads grammar (grammar symbol) [] met cursor result after) :
      Reads grammar (ref symbol) left met cursor result after
  | seq {first second : Rule Symbol} {left met middle result : List Node} {cursor next after : Cursor}
      (head : Reads grammar first left met cursor middle next)
      (tail : Reads grammar second left middle next result after) :
      Reads grammar (seq first second) left met cursor result after
  | altFirst {first second : Rule Symbol} {left met result : List Node} {cursor after : Cursor}
      (body : Reads grammar first left met cursor result after) :
      Reads grammar (alt first second) left met cursor result after
  | altSecond {first second : Rule Symbol} {left met result : List Node} {cursor after : Cursor}
      (body : Reads grammar second left met cursor result after) :
      Reads grammar (alt first second) left met cursor result after
  | many {item : Rule Symbol} {left met middle result : List Node} {cursor next after : Cursor}
      (head : Reads grammar item [] met cursor middle next)
      (tail : Reads grammar (many item) [] middle next result after) :
      Reads grammar (many item) left met cursor result after
  | field {part : Field} {body : Rule Symbol} {left met made : List Node} {cursor after : Cursor}
      (inner : Reads grammar body left [] cursor made after) :
      Reads grammar (field part body) left met cursor (made.map (Node.playing part) ++ met) after
  | node {category : Category} {body : Rule Symbol} {left met made : List Node} {cursor after : Cursor}
      (inner : Reads grammar body [] [] cursor made after) :
      Reads grammar (node category body) left met cursor (Node.gather category made met after) after
  | chain {first step : Rule Symbol} {left met made result : List Node} {cursor next after : Cursor}
      (head : Reads grammar first [] [] cursor made next)
      (tail : Reads grammar (grow step) made met next result after) :
      Reads grammar (chain first step) left met cursor result after
  | grow {step : Rule Symbol} {left met made result : List Node} {cursor next after : Cursor}
      (head : Reads grammar step left [] cursor made next)
      (tail : Reads grammar (grow step) made met next result after) :
      Reads grammar (grow step) left met cursor result after
  | grown {step : Rule Symbol} {left met : List Node} {cursor : Cursor} :
      Reads grammar (grow step) left met cursor (left ++ met) cursor
  | wrap {category : Category} {part : Option Field} {body : Rule Symbol} {left met made : List Node}
      {cursor after : Cursor} (inner : Reads grammar body [] [] cursor made after) :
      Reads grammar (wrap category part body) left met cursor
        (Node.gather category (made ++ operandAs part left) met after) after
  | only {categories : List Category} {body : Rule Symbol} {left met made : List Node}
      {cursor after : Cursor} (inner : Reads grammar body left [] cursor made after)
      (last : made.head?.any (fun last => categories.any last.isCategory) = true) :
      Reads grammar (only categories body) left met cursor (made ++ met) after

theorem reads_of_read {grammar : Symbol → Rule Symbol} {fuel : Nat} {rule : Rule Symbol}
    {left met result : List Node} {cursor after : Cursor}
    (found : read grammar fuel rule left met cursor = some (result, after)) :
    Reads grammar rule left met cursor result after := by
  fun_induction read grammar fuel rule left met cursor generalizing result after with
  | case1 | case4 | case7 | case14 | case16 | case18 | case22 | case24 | case26 | case27 | case29 | case30 | case34 =>
    cases found
  | case2 | case11 | case12 | case23 | case28 | case31 =>
    cases found
    exact .atOnce rfl
  | case3 _ _ met cursor _ glued _ between here layout =>
    cases found
    cases glued with
    | false =>
      have passes := cursor.layout_passes met
      have rests := cursor.layout_rests met
      rw [show cursor.layout met = (between, here) from layout] at passes rests
      exact .lexeme passes (fun _ => rests)
    | true =>
      cases layout
      exact .lexeme .stay nofun
  | case5 _ _ _ _ _ ih => exact .ref (ih found)
  | case6 _ _ _ _ _ _ _ _ head headIH tailIH => exact .seq (headIH head) (tailIH found)
  | case8 _ _ _ _ _ _ _ head ih =>
    cases found
    exact .altFirst (ih head)
  | case9 _ _ _ _ _ _ _ _ ih => exact .altSecond (ih found)
  | case10 _ _ _ _ _ _ _ head _ headIH tailIH => exact .many (headIH head) (tailIH found)
  | case13 _ _ _ _ _ _ _ _ inner ih =>
    cases found
    exact .field (ih inner)
  | case15 _ _ _ _ _ _ _ _ inner ih =>
    cases found
    exact .node (ih inner)
  | case17 _ _ _ _ _ _ _ _ head headIH tailIH => exact .chain (headIH head) (tailIH found)
  | case19 _ _ _ _ _ _ _ head headIH tailIH => exact .grow (headIH head) (tailIH found)
  | case20 =>
    cases found
    exact .grown
  | case21 =>
    rename_i inner _ ih
    cases found
    exact .wrap (ih inner)
  | case25 _ _ _ _ _ _ _ _ inner last ih =>
    cases found
    exact .only (ih inner) last
  | case32 => exact .ending rfl (Cursor.implicitEnd?_passes found)
  | case33 _ _ met cursor _ _ layout =>
    have passes := cursor.layout_passes met
    rw [layout] at passes
    cases found
    exact .ending rfl passes

end Rule

theorem parse?_reads {dialect : Grammar.Dialect} {text : List Char} {tree : Node}
    (parsed : parse? dialect text = some tree) :
    tree.kind = .node .program ∧ ∃ made after, tree ∈ made ∧
      Rule.Reads (Grammar.rules dialect) Grammar.Statements.program [] [] (.ofText text) made after := by
  unfold parse? at parsed
  split at parsed
  · next made after found =>
      exact ⟨by simpa [Node.isCategory] using List.find?_some parsed, made, after,
        List.mem_of_find?_eq_some parsed, Rule.reads_of_read found⟩
  · cases parsed

namespace Grammar

variable {check : GrammarRule → Bool}

theorem forall_expression
    (low : ∀ level < 15, ∀ breaks branch, check (Expressions.expression ⟨breaks, branch⟩ level) = true)
    (place : Place) (level : Nat) : check (Expressions.expression place level) = true := by
  rcases Nat.lt_or_ge level 15 with below | above
  · exact low level below place.breaks place.branch
  · obtain ⟨more, rfl⟩ := Nat.exists_eq_add_of_le' (Nat.le_of_succ_le above)
    exact low 14 (by decide) place.breaks place.branch

theorem forall_typing (low : ∀ level < 4, ∀ breaks, check (Types.typing breaks level) = true) (breaks : Bool)
    (level : Nat) :
    check (Types.typing breaks level) = true := by
  rcases Nat.lt_or_ge level 4 with below | above
  · exact low level below breaks
  · obtain ⟨more, rfl⟩ := Nat.exists_eq_add_of_le' (Nat.le_of_succ_le above)
    exact low 3 (by decide) breaks

end Grammar
end Refit.Syntax
