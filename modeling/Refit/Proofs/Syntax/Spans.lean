import Refit.Proofs.Syntax.Reading
import Refit.Proofs.Text.Utf8

/-!
Where nodes stand in the text they were read from. A rule that takes its left operand at most once,
and before it reads anything else, lays its nodes one after the other between boundaries of the text.
-/

open List

namespace Refit.Syntax

open Text.Utf8

variable {text : List Char} {cursor : Cursor} {result : List Node}

namespace Cursor

/-- One place in a text comes before another, or is the same. -/
def Leads (cursor after : Cursor) : Prop :=
  ∃ passed, cursor.rest = passed ++ after.rest ∧ after.offset = cursor.offset + (encodeChars passed).length

theorem Leads.refl (cursor : Cursor) : cursor.Leads cursor := ⟨[], rfl, rfl⟩

theorem Leads.trans {next after : Cursor} (first : cursor.Leads next) (second : next.Leads after) :
    cursor.Leads after := by
  obtain ⟨before, text, offset⟩ := first
  obtain ⟨between, rest, further⟩ := second
  refine ⟨before ++ between, by rw [text, rest, append_assoc], ?_⟩
  rw [further, offset, encodeChars_append, length_append, Nat.add_assoc]

theorem Leads.le {after : Cursor} (leads : cursor.Leads after) : cursor.offset ≤ after.offset := by
  obtain ⟨passed, _, offset⟩ := leads
  omega

theorem leads_cons (offset : Nat) (c : Char) (rest : List Char) :
    Leads ⟨offset, c :: rest⟩ ⟨offset + c.utf8Size, rest⟩ :=
  ⟨[c], rfl, by simp⟩

theorem advance_leads (count : Nat) (cursor : Cursor) : cursor.Leads (cursor.advance count) := by
  fun_induction advance count cursor with
  | case1 count offset c rest ih => exact (leads_cons offset c rest).trans ih
  | case2 => exact .refl _

theorem skipFrom_leads (property : Char → Bool) (offset : Nat) (rest : List Char) :
    Leads ⟨offset, rest⟩ (skipFrom property offset rest) := by
  induction rest generalizing offset with
  | nil => exact .refl _
  | cons c rest ih =>
    unfold skipFrom
    split
    · exact (leads_cons offset c rest).trans (ih _)
    · exact .refl _

theorem skip_leads (property : Char → Bool) (cursor : Cursor) : cursor.Leads (cursor.skip property) :=
  skipFrom_leads property cursor.offset cursor.rest

theorem comment?_leads {after : Cursor} {node : Node}
    (found : cursor.comment? = some (node, after)) : cursor.Leads after := by
  unfold comment? at found
  split at found
  · next c rest count text _ =>
      cases found
      have start := leads_cons cursor.offset c rest
      rw [← text] at start
      exact start.trans (advance_leads count _)
  · cases found

theorem Passes.leads {after : Cursor} {met : List Node}
    (passes : cursor.Passes met after result) : cursor.Leads after := by
  induction passes with
  | stay => exact .refl _
  | blanks _ ih => exact (skip_leads isBlank _).trans ih
  | comment found _ ih => exact (comment?_leads found).trans ih

/-- The cursor stands in the text. -/
def On (text : List Char) (cursor : Cursor) : Prop := (ofText text).Leads cursor

theorem On.after {next : Cursor} (on : cursor.On text) (leads : cursor.Leads next) : next.On text :=
  Leads.trans on leads

theorem On.boundary (on : cursor.On text) :
    Boundary text cursor.offset := by
  obtain ⟨passed, split, offset⟩ := on
  exact ⟨passed, cursor.rest, split, by simpa [ofText] using offset.symm⟩

end Cursor

namespace Rule

variable {Symbol : Type} {grammar : Symbol → Rule Symbol} {rule : Rule Symbol} {left met result : List Node}
  {cursor after : Cursor}

theorem Reads.leads (reads : Reads grammar rule left met cursor result after) : cursor.Leads after := by
  induction reads with
  | atOnce | grown => exact .refl _
  | ending _ passes => exact passes.leads
  | lexeme passes => exact passes.leads.trans (Cursor.advance_leads _ _)
  | seq _ _ headIH tailIH | many _ _ headIH tailIH | chain _ _ headIH tailIH | grow _ _ headIH tailIH =>
    exact headIH.trans tailIH
  | ref _ ih | altFirst _ ih | altSecond _ ih | field _ ih | node _ ih | wrap _ ih | only _ _ ih => exact ih

/-- What a check owes for each kind of rule, so that all nodes of a reading after `start` satisfy `P`. The
check relies on `Left operand` of the left operand; where there is none, it is made with `bare`. -/
structure Ensures (grammar : Symbol → Rule Symbol) (start : Cursor) (bare : Bool) (Left : Bool → List Node → Prop)
    (check : Bool → Rule Symbol → Bool) (P : Node → Prop) : Prop where
  nothing : Left bare []
  comment : ∀ span, P (.mk (.node .comment) none span [])
  lexeme : ∀ {operand kind glued scan here stop}, check operand (.lexeme kind glued scan) = true →
    start.Leads here → (glued = false → here.Rests) → P (.mk kind none ⟨here.offset, stop⟩ [])
  ref : ∀ {operand symbol}, check operand (.ref symbol) = true → check bare (grammar symbol) = true
  seq : ∀ {operand first second}, check operand (.seq first second) = true →
    check operand first = true ∧ check operand second = true
  alt : ∀ {operand first second}, check operand (.alt first second) = true →
    check operand first = true ∧ check operand second = true
  many : ∀ {operand item}, check operand (.many item) = true →
    check bare item = true ∧ check bare (.many item) = true
  only : ∀ {operand categories body}, check operand (.only categories body) = true → check operand body = true
  field : ∀ {operand part body left cursor made after}, check operand (.field part body) = true →
    Reads grammar body left [] cursor made after → (check operand body = true → ∀ node ∈ made, P node) →
      ∀ node ∈ made, P (node.playing part)
  node : ∀ {operand category body cursor made after}, check operand (.node category body) = true →
    start.Leads cursor → Reads grammar body [] [] cursor made after →
      (check bare body = true → ∀ node ∈ made, P node) → ∀ node ∈ Node.gather category made [] after, P node
  chain : ∀ {operand first step}, check operand (.chain first step) = true → check bare first = true ∧
    ∀ {cursor made next}, start.Leads cursor → Reads grammar first [] [] cursor made next →
      (∀ node ∈ made, P node) → ∃ further, Left further made ∧ check further (.grow step) = true
  grow : ∀ {operand step left}, check operand (.grow step) = true → Left operand left →
    ∃ known, Left known left ∧ check known step = true ∧
      ∀ {cursor made next}, start.Leads cursor → Reads grammar step left [] cursor made next →
        (∀ node ∈ made, P node) → ∃ further, Left further made ∧ check further (.grow step) = true
  grown : ∀ {operand step left}, check operand (.grow step) = true → Left operand left → ∀ node ∈ left, P node
  wrap : ∀ {operand category part body left cursor made after}, check operand (.wrap category part body) = true →
    Left operand left → start.Leads cursor → Reads grammar body [] [] cursor made after →
      (check bare body = true → ∀ node ∈ made, P node) →
        ∀ node ∈ Node.gather category (made ++ operandAs part left) [] after, P node

theorem gather_append (category : Category) (made met : List Node) (cursor : Cursor) :
    Node.gather category made met cursor = Node.gather category made [] cursor ++ met := by
  simp [Node.gather]

theorem Ensures.forall {start : Cursor} {bare operand : Bool} {Left : Bool → List Node → Prop}
    {check : Bool → Rule Symbol → Bool} {P : Node → Prop} (ensures : Ensures grammar start bare Left check P)
    (reads : Reads grammar rule left met cursor result after) (reached : start.Leads cursor)
    (checked : check operand rule = true) (known : Left operand left) (before : ∀ node ∈ met, P node) :
    ∀ node ∈ result, P node := by
  induction reads generalizing operand with
  | atOnce => exact before
  | ending _ passes => exact passes.forall ensures.comment before
  | lexeme passes rests =>
    exact forall_mem_cons.2 ⟨ensures.lexeme checked (reached.trans passes.leads) rests,
      passes.forall ensures.comment before⟩
  | ref _ ih => exact ih reached (ensures.ref checked) ensures.nothing before
  | seq head _ headIH tailIH =>
    obtain ⟨first, second⟩ := ensures.seq checked
    exact tailIH (reached.trans head.leads) second known (headIH reached first known before)
  | altFirst _ ih => exact ih reached (ensures.alt checked).1 known before
  | altSecond _ ih => exact ih reached (ensures.alt checked).2 known before
  | many head _ headIH tailIH =>
    obtain ⟨item, others⟩ := ensures.many checked
    exact tailIH (reached.trans head.leads) others ensures.nothing (headIH reached item ensures.nothing before)
  | field inner ih =>
    rw [forall_mem_append, forall_mem_map]
    exact ⟨ensures.field checked inner (fun body => ih reached body known (by simp)), before⟩
  | node inner ih =>
    rw [gather_append, forall_mem_append]
    exact ⟨ensures.node checked reached inner (fun body => ih reached body ensures.nothing (by simp)), before⟩
  | chain head _ headIH tailIH =>
    obtain ⟨first, onward⟩ := ensures.chain checked
    obtain ⟨further, operand, others⟩ := onward reached head (headIH reached first ensures.nothing (by simp))
    exact tailIH (reached.trans head.leads) others operand before
  | grow head _ headIH tailIH =>
    obtain ⟨_, here, step, onward⟩ := ensures.grow checked known
    obtain ⟨further, operand, others⟩ := onward reached head (headIH reached step here (by simp))
    exact tailIH (reached.trans head.leads) others operand before
  | grown => exact forall_mem_append.2 ⟨ensures.grown checked known, before⟩
  | wrap inner ih =>
    rw [gather_append, forall_mem_append]
    exact ⟨ensures.wrap checked known reached inner (fun body => ih reached body ensures.nothing (by simp)), before⟩
  | only _ _ ih => exact forall_mem_append.2 ⟨ih reached (ensures.only checked) known (by simp), before⟩

end Rule

namespace Node

/-- All nodes of a tree have their children in order inside them and begin and end between
characters of the text. -/
def Placed (text : List Char) (tree : Node) : Prop :=
  ∀ node ∈ tree.walk, node.Orderly ∧ Boundary text node.start ∧ Boundary text node.stop

theorem placed_iff {node : Node} :
    node.Placed text ↔
      (node.Orderly ∧ Boundary text node.start ∧ Boundary text node.stop) ∧
        ∀ child ∈ node.children, child.Placed text :=
  forall_mem_walk

/-- Nodes, last first, that stand one after the other between two offsets of the text. -/
def Laid (text : List Char) (low : Nat) : List Node → Nat → Prop
  | [], high => low ≤ high
  | node :: earlier, high => node.Placed text ∧ node.stop ≤ high ∧ Laid text low earlier node.start

variable {text : List Char} {low high : Nat} {nodes : List Node}

theorem Placed.forwards {node : Node} (placed : node.Placed text) : node.start ≤ node.stop :=
  (placed node node.self_mem_walk).1.forwards

theorem Laid.le (laid : Laid text low nodes high) : low ≤ high := by
  induction nodes generalizing high with
  | nil => exact laid
  | cons node earlier ih =>
    obtain ⟨placed, stop, before⟩ := laid
    have start := ih before
    have forwards := placed.forwards
    omega

theorem Laid.weaken {lower higher : Nat} (laid : Laid text low nodes high) (below : lower ≤ low)
    (above : high ≤ higher) : Laid text lower nodes higher := by
  induction nodes generalizing high higher with
  | nil => exact Nat.le_trans below (Nat.le_trans laid above)
  | cons node earlier ih =>
    obtain ⟨placed, stop, before⟩ := laid
    exact ⟨placed, Nat.le_trans stop above, ih before (Nat.le_refl _)⟩

theorem laid_append {later : List Node} :
    Laid text low (later ++ nodes) high ↔ ∃ middle, Laid text middle later high ∧ Laid text low nodes middle := by
  induction later generalizing high with
  | nil =>
    constructor
    · intro laid
      exact ⟨high, Nat.le_refl _, laid⟩
    · rintro ⟨middle, above, laid⟩
      exact laid.weaken (Nat.le_refl _) above
  | cons node later ih =>
    simp only [cons_append, Laid, ih]
    constructor
    · rintro ⟨placed, stop, middle, between, before⟩
      exact ⟨middle, ⟨placed, stop, between⟩, before⟩
    · rintro ⟨middle, ⟨placed, stop, between⟩, before⟩
      exact ⟨placed, stop, middle, between, before⟩

theorem laid_of_made (only : ∃ made, result = made ++ [] ∧ Laid text low made high) : Laid text low result high := by
  obtain ⟨made, rfl, laid⟩ := only
  simpa using laid

theorem Laid.placed (laid : Laid text low nodes high) : ∀ node ∈ nodes, node.Placed text := by
  induction nodes generalizing high with
  | nil => simp
  | cons node earlier ih => exact forall_mem_cons.2 ⟨laid.1, ih laid.2.2⟩

theorem Laid.within (laid : Laid text low nodes high) : ∀ node ∈ nodes, low ≤ node.start ∧ node.stop ≤ high := by
  induction nodes generalizing high with
  | nil => simp
  | cons node earlier ih =>
    obtain ⟨placed, stop, before⟩ := laid
    refine forall_mem_cons.2 ⟨⟨before.le, stop⟩, fun other member => ?_⟩
    have inside := ih before other member
    have forwards := placed.forwards
    omega

theorem Laid.inOrder (laid : Laid text low nodes high) :
    nodes.reverse.Pairwise (fun left right => left.stop ≤ right.start) := by
  rw [pairwise_reverse]
  induction nodes generalizing high with
  | nil => exact .nil
  | cons node earlier ih =>
    exact pairwise_cons.2 ⟨fun other member => (laid.2.2.within other member).2, ih laid.2.2⟩

theorem Placed.playing {node : Node} (placed : node.Placed text) (part : Field) :
    (node.playing part).Placed text ∧ (node.playing part).span = node.span := by
  rcases playing_eq part node with same | ⟨_, changed⟩
  · rw [same]
    exact ⟨placed, rfl⟩
  · obtain ⟨⟨⟨forwards, inside, inOrder⟩, start, stop⟩, below⟩ := placed_iff.1 placed
    rw [changed]
    exact ⟨placed_iff.2 ⟨⟨⟨forwards, inside, inOrder⟩, start, stop⟩, below⟩, rfl⟩

theorem Laid.playing (laid : Laid text low nodes high) (part : Field) :
    Laid text low (nodes.map (playing part)) high := by
  induction nodes generalizing high with
  | nil => exact laid
  | cons node earlier ih =>
    obtain ⟨placed, stop, before⟩ := laid
    obtain ⟨changed, same⟩ := placed.playing part
    refine ⟨changed, ?_, ?_⟩
    · simpa [Node.stop, same] using stop
    · simpa using ih before

theorem placed_leaf (kind : Kind) (field : Option Field) {span : Span} (forwards : span.start ≤ span.stop)
    (start : Boundary text span.start) (stop : Boundary text span.stop) :
    (mk kind field span []).Placed text :=
  placed_iff.2 ⟨⟨⟨forwards, by simp [children], .nil⟩, start, stop⟩, by simp [children]⟩

/-- A node that covers nodes from the first to the last. -/
theorem Laid.covered {kind : Kind} {field : Option Field} {first last : Node} {rest earlier : List Node}
    (laid : Laid text low (last :: earlier) high) (same : (first :: rest).reverse = last :: earlier) :
    (mk kind field ⟨first.start, last.stop⟩ (first :: rest)).Placed text ∧ low ≤ first.start ∧
      last.stop ≤ high := by
  obtain ⟨placed, stop, before⟩ := laid
  have tight : Laid text low (last :: earlier) last.stop := ⟨placed, Nat.le_refl _, before⟩
  rw [← same] at tight
  have within := tight.within
  have ordered := tight.inOrder
  simp only [mem_reverse, reverse_reverse] at within ordered
  have firstWithin := within first (by simp)
  have each := tight.placed
  simp only [mem_reverse] at each
  have firstPlaced := each first (by simp)
  have forwards := firstPlaced.forwards
  refine ⟨placed_iff.2 ⟨⟨⟨?_, ?_, ordered⟩, ?_, ?_⟩, each⟩, firstWithin.1, stop⟩
  · exact Nat.le_trans forwards firstWithin.2
  · intro child member
    refine ⟨?_, (within child member).2⟩
    rcases mem_cons.1 member with rfl | later
    · exact Nat.le_refl _
    · exact Nat.le_trans forwards (rel_of_pairwise_cons ordered later)
  · exact (firstPlaced first first.self_mem_walk).2.1
  · exact (placed last last.self_mem_walk).2.2

theorem Laid.gather {category : Category} {made met : List Node}
    (laid : Laid text low made cursor.offset) (boundary : Boundary text cursor.offset) :
    ∃ new, gather category made met cursor = new ++ met ∧ Laid text low new cursor.offset := by
  have parts : made = (made.reverse.dropWhile isComment).reverse ++
      (made.reverse.takeWhile isComment).reverse := by
    rw [← reverse_append, takeWhile_append_dropWhile, reverse_reverse]
  refine ⟨_ :: (made.reverse.takeWhile isComment).reverse, rfl, ?_⟩
  generalize made.reverse.takeWhile isComment = comments at parts ⊢
  generalize made.reverse.dropWhile isComment = own at parts ⊢
  subst parts
  obtain ⟨middle, ownLaid, commentsLaid⟩ := laid_append.1 laid
  cases own with
  | nil =>
    exact ⟨placed_leaf _ _ (Nat.le_refl _) boundary boundary, Nat.le_refl _,
      commentsLaid.weaken (Nat.le_refl _) ownLaid⟩
  | cons first rest =>
    cases same : (first :: rest).reverse with
    | nil => simp at same
    | cons last earlier =>
      rw [same] at ownLaid
      obtain ⟨placed, start, stop⟩ := ownLaid.covered same
      exact ⟨placed, stop, commentsLaid.weaken (Nat.le_refl _) start⟩

end Node

theorem Cursor.Passes.laid {after : Cursor} {met : List Node}
    (passes : cursor.Passes met after result) (on : cursor.On text) :
    ∃ made, result = made ++ met ∧ Node.Laid text cursor.offset made after.offset := by
  induction passes with
  | stay => exact ⟨[], rfl, Nat.le_refl _⟩
  | @blanks cursor after met result rest ih =>
    have skipped := skip_leads isBlank cursor
    obtain ⟨made, equal, laid⟩ := ih (on.after skipped)
    exact ⟨made, equal, laid.weaken skipped.le (Nat.le_refl _)⟩
  | @comment cursor next after met result node found rest ih =>
    have passed := comment?_leads found
    obtain ⟨made, equal, laid⟩ := ih (on.after passed)
    have placed : node.Placed text := by
      rw [comment?_eq found]
      exact Node.placed_leaf _ _ passed.le on.boundary (on.after passed).boundary
    have span : node.span = ⟨cursor.offset, next.offset⟩ := by rw [comment?_eq found]; rfl
    refine ⟨made ++ [node], by simp [equal], Node.laid_append.2 ⟨next.offset, laid, placed, ?_, ?_⟩⟩
    · simp [Node.stop, span]
    · simp [Node.start, span, Node.Laid]

namespace Rule

variable {Symbol : Type}

/-- Rules that read nothing. -/
def isSilent : Rule Symbol → Bool
  | empty | leftIs _ _ | ahead _ _ | goesOn _ => true
  | _ => false

/-- The rule takes its left operand at most once and before all else; where `operand` is false, it
leaves it alone. -/
def ordered (operand : Bool) : Rule Symbol → Bool
  | seq first second =>
    first.isSilent && second.ordered operand || first.ordered operand && second.ordered false
  | alt first second => first.ordered operand && second.ordered operand
  | many item => item.ordered true
  | field _ body | only _ body => body.ordered operand
  | node _ body => body.ordered true
  | chain first step => first.ordered true && step.ordered true
  | grow step => operand && step.ordered true
  | wrap _ _ body => operand && body.ordered true
  | lexeme _ _ _ | ref _ | empty | leftIs _ _ | ahead _ _ | goesOn _ | implicitEnd _ | endOfSource => true

section Soundness

variable {grammar : Symbol → Rule Symbol} {rule : Rule Symbol} {left met result : List Node}
  {cursor after : Cursor} {operand : Bool} {text : List Char} {low : Nat}

theorem Reads.silent (reads : Reads grammar rule left met cursor result after)
    (silent : rule.isSilent = true) : result = met ∧ after = cursor := by
  cases reads with
  | atOnce => exact ⟨rfl, rfl⟩
  | ending allowed => cases rule <;> simp [isEnding, isSilent] at allowed silent
  | _ => cases silent

theorem operandAs_laid {high : Nat} (part : Option Field) (laid : Node.Laid text low left high) :
    Node.Laid text low (operandAs part left) high := by
  cases part with
  | none => exact laid
  | some part => exact laid.playing part

/-- `low` is where the left operand begins, if the rule may take it. -/
theorem Reads.laid (sound : ∀ symbol, (grammar symbol).ordered true = true)
    (reads : Reads grammar rule left met cursor result after) (on : cursor.On text)
    (checked : rule.ordered operand = true) (start : low ≤ cursor.offset)
    (leftLaid : operand = true → Node.Laid text low left cursor.offset) :
    ∃ made, result = made ++ met ∧ Node.Laid text low made after.offset := by
  induction reads generalizing operand low with
  | atOnce => exact ⟨[], rfl, start⟩
  | ending _ passes =>
    obtain ⟨made, equal, laid⟩ := passes.laid on
    exact ⟨made, equal, laid.weaken start (Nat.le_refl _)⟩
  | @lexeme kind glued scan left met between cursor here count passes =>
    obtain ⟨made, rfl, laid⟩ := passes.laid on
    have passed := here.advance_leads count
    have there := on.after passes.leads
    exact ⟨_ :: made, rfl, Node.placed_leaf _ _ passed.le there.boundary (there.after passed).boundary,
      Nat.le_refl _, laid.weaken start (Nat.le_refl _)⟩
  | ref _ ih => exact ih on (sound _) start (fun _ => start)
  | seq head _ headIH tailIH =>
    simp only [ordered, Bool.or_eq_true, Bool.and_eq_true] at checked
    rcases checked with ⟨silent, second⟩ | ⟨first, second⟩
    · obtain ⟨rfl, rfl⟩ := head.silent silent
      exact tailIH on second start leftLaid
    · obtain ⟨before, rfl, firstLaid⟩ := headIH on first start leftLaid
      obtain ⟨made, rfl, laid⟩ := tailIH (on.after head.leads) second (Nat.le_refl _) (by simp)
      exact ⟨made ++ before, by simp, Node.laid_append.2 ⟨_, laid, firstLaid⟩⟩
  | altFirst _ ih =>
    simp only [ordered, Bool.and_eq_true] at checked
    exact ih on checked.1 start leftLaid
  | altSecond _ ih =>
    simp only [ordered, Bool.and_eq_true] at checked
    exact ih on checked.2 start leftLaid
  | many head _ headIH tailIH =>
    obtain ⟨before, rfl, firstLaid⟩ := headIH on checked start (fun _ => start)
    obtain ⟨made, rfl, laid⟩ :=
      tailIH (on.after head.leads) checked (Nat.le_refl _) (fun _ => Nat.le_refl _)
    exact ⟨made ++ before, by simp, Node.laid_append.2 ⟨_, laid, firstLaid⟩⟩
  | @field part _ _ _ _ _ _ _ ih =>
    have laid := Node.laid_of_made (ih on checked start leftLaid)
    exact ⟨_, rfl, laid.playing part⟩
  | node inner ih =>
    have laid := Node.laid_of_made (ih on checked start (fun _ => start))
    exact laid.gather (on.after inner.leads).boundary
  | chain head _ headIH tailIH =>
    simp only [ordered, Bool.and_eq_true] at checked
    have laid := Node.laid_of_made (headIH on checked.1 start (fun _ => start))
    exact @tailIH true _ (on.after head.leads) checked.2 laid.le (fun _ => laid)
  | grow head _ headIH tailIH =>
    simp only [ordered, Bool.and_eq_true] at checked
    have laid := Node.laid_of_made (headIH on checked.2 start (fun _ => leftLaid checked.1))
    exact @tailIH true _ (on.after head.leads) checked.2 laid.le (fun _ => laid)
  | grown =>
    simp only [ordered, Bool.and_eq_true] at checked
    exact ⟨_, rfl, leftLaid checked.1⟩
  | @wrap _ part _ _ _ _ _ _ inner ih =>
    simp only [ordered, Bool.and_eq_true] at checked
    have laid := Node.laid_of_made (ih on checked.2 (Nat.le_refl _) (fun _ => Nat.le_refl _))
    exact (Node.laid_append.2 ⟨_, laid, operandAs_laid part (leftLaid checked.1)⟩).gather
      (on.after inner.leads).boundary
  | only _ _ ih =>
    have laid := Node.laid_of_made (ih on checked start leftLaid)
    exact ⟨_, rfl, laid⟩

end Soundness
end Rule

namespace Grammar

theorem rules_ordered (dialect : Dialect) (symbol : Symbol) :
    (rules dialect symbol).ordered true = true := by
  cases symbol with
  | declaration free => cases free <;> rfl
  | expression place level => exact forall_expression (by decide +kernel) place level
  | operand place =>
    obtain ⟨breaks, branch⟩ := place
    cases dialect <;> cases breaks <;> cases branch <;> rfl
  | typing breaks level => exact forall_typing (by decide +kernel) breaks level
  | _ => rfl

end Grammar

theorem parse?_placed {dialect : Grammar.Dialect} {tree : Node}
    (parsed : parse? dialect text = some tree) : tree.Placed text := by
  obtain ⟨_, made, after, member, reads⟩ := parse?_reads parsed
  have checked : Grammar.Statements.program.ordered true = true := rfl
  have laid := Node.laid_of_made (reads.laid (Grammar.rules_ordered dialect) (Cursor.Leads.refl _) checked
    (Nat.le_refl _) (fun _ => Nat.le_refl _))
  exact laid.placed tree member

end Refit.Syntax
