import Refit.Syntax.Node

open List

namespace Refit.Syntax

namespace Node

variable {inner node tree : Node} {nodes : List Node} {address : List Nat}

theorem induct {motive : Node → Prop}
    (step : ∀ node : Node, (∀ child ∈ node.children, motive child) → motive node) (node : Node) :
    motive node := by
  induction bound : node.size using Nat.strongRecOn generalizing node with
  | ind size ih =>
    apply step
    intro child member
    have smaller : child.size < node.size := by
      obtain ⟨before, after, split⟩ := append_of_mem member
      rw [size_eq node, split, sizes_append]
      simp only [sizes]
      omega
    exact ih child.size (bound ▸ smaller) child rfl

theorem preorder_eq (node : Node) : node.preorder = node :: preorders node.children := by
  cases node
  simp only [preorder, children]

theorem preorders_append (left right : List Node) :
    preorders (left ++ right) = preorders left ++ preorders right := by
  induction left with
  | nil => rfl
  | cons node rest ih => simp only [cons_append, preorders, ih, append_assoc]

theorem visit_eq_preorders (stack : List Node) : visit stack = preorders stack := by
  fun_induction visit stack with
  | case1 => rfl
  | case2 node stack ih =>
    rw [ih, preorders, preorder_eq, preorders_append]
    rfl

theorem walk_eq (node : Node) : node.walk = node.preorder := by
  rw [walk, visit_eq_preorders]
  simp [preorders]

theorem walk_eq_cons (node : Node) : node.walk = node :: preorders node.children := by
  rw [walk_eq, preorder_eq]

theorem self_mem_walk (node : Node) : node ∈ node.walk := by
  rw [walk_eq_cons]
  exact mem_cons_self

theorem mem_preorders : inner ∈ preorders nodes ↔ ∃ node ∈ nodes, inner ∈ node.walk := by
  induction nodes with
  | nil => simp [preorders]
  | cons node rest ih => simp [preorders, ih, walk_eq]

theorem mem_walk : inner ∈ node.walk ↔ inner = node ∨ ∃ child ∈ node.children, inner ∈ child.walk := by
  rw [walk_eq_cons, mem_cons, mem_preorders]

theorem mem_walk_of_child {child : Node} (member : child ∈ node.children) (deeper : inner ∈ child.walk) :
    inner ∈ node.walk :=
  mem_walk.2 (.inr ⟨child, member, deeper⟩)

theorem mem_walk_trans {middle : Node} (lower : inner ∈ middle.walk) (upper : middle ∈ node.walk) :
    inner ∈ node.walk := by
  induction node using induct with
  | step node ih =>
    rcases mem_walk.1 upper with rfl | ⟨child, member, deeper⟩
    · exact lower
    · exact mem_walk_of_child member (ih child member deeper)

theorem forall_mem_walk {P : Node → Prop} :
    (∀ node ∈ tree.walk, P node) ↔ P tree ∧ ∀ child ∈ tree.children, ∀ node ∈ child.walk, P node := by
  constructor
  · intro every
    exact ⟨every tree tree.self_mem_walk, fun child member node deeper =>
      every node (mem_walk_of_child member deeper)⟩
  · rintro ⟨root, below⟩ node member
    rcases mem_walk.1 member with rfl | ⟨child, present, deeper⟩
    · exact root
    · exact below child present node deeper

def descend : List Nat → Node → Option Node
  | [], node => some node
  | index :: rest, node => node.children[index]?.bind (descend rest)

theorem descend_append (upper lower : List Nat) (node : Node) :
    node.descend (upper ++ lower) = (node.descend upper).bind (descend lower) := by
  induction upper generalizing node with
  | nil => rfl
  | cons index rest ih =>
    simp only [descend, Option.bind_assoc]
    exact Option.bind_congr (fun child _ => ih child)

theorem descend_mem_walk (found : node.descend address = some inner) : inner ∈ node.walk := by
  induction address generalizing node with
  | nil =>
    cases found
    exact self_mem_walk inner
  | cons index rest ih =>
    obtain ⟨child, present, deeper⟩ := Option.bind_eq_some_iff.1 found
    exact mem_walk_of_child (mem_of_getElem? present) (ih deeper)

mutual

def places : Node → List (List Nat × Node)
  | node@(mk _ _ _ children) => ([], node) :: placesFrom 0 children

def placesFrom (index : Nat) : List Node → List (List Nat × Node)
  | [] => []
  | child :: rest =>
    (places child).map (fun place => (index :: place.1, place.2)) ++ placesFrom (index + 1) rest

end

theorem places_eq (node : Node) : node.places = ([], node) :: placesFrom 0 node.children := by
  cases node
  simp only [places, children]

theorem placesFrom_nodes (index : Nat) (each : ∀ node ∈ nodes, node.places.map (·.2) = node.preorder) :
    (placesFrom index nodes).map (·.2) = preorders nodes := by
  induction nodes generalizing index with
  | nil => rfl
  | cons node rest ih =>
    have head := each node (by simp)
    have tail := ih (index + 1) (fun other member => each other (by simp [member]))
    simp only [placesFrom, preorders, map_append, map_map, Function.comp_def, tail, head]

theorem places_nodes (node : Node) : node.places.map (·.2) = node.walk := by
  rw [walk_eq]
  induction node using induct with
  | step node ih =>
    rw [places_eq, preorder_eq, map_cons, placesFrom_nodes 0 ih]

theorem mem_placesFrom {index : Nat} :
    (address, inner) ∈ placesFrom index nodes ↔
      ∃ offset rest child, nodes[offset]? = some child ∧ address = (index + offset) :: rest ∧
        (rest, inner) ∈ child.places := by
  induction nodes generalizing index with
  | nil => simp [placesFrom]
  | cons node others ih =>
    simp only [placesFrom, mem_append, mem_map, ih]
    constructor
    · rintro (⟨place, member, equal⟩ | ⟨offset, rest, child, present, equal, member⟩)
      · cases equal
        exact ⟨0, place.1, node, rfl, rfl, member⟩
      · exact ⟨offset + 1, rest, child, by simpa using present, by simp [equal]; omega, member⟩
    · rintro ⟨offset, rest, child, present, equal, member⟩
      cases offset with
      | zero =>
        cases present
        exact .inl ⟨(rest, inner), member, by simp [equal]⟩
      | succ offset =>
        exact .inr ⟨offset, rest, child, by simpa using present, by rw [equal]; congr 1; omega, member⟩

theorem descend_of_mem_places (member : (address, inner) ∈ node.places) :
    node.descend address = some inner := by
  induction node using induct generalizing address with
  | step node ih =>
    rw [places_eq, mem_cons, mem_placesFrom] at member
    rcases member with equal | ⟨offset, rest, child, present, rfl, deeper⟩
    · cases equal
      rfl
    · have found := ih child (mem_of_getElem? present) deeper
      simp only [Nat.zero_add, descend, present, Option.bind_some, found]

theorem placesFrom_pairwise (index : Nat)
    (each : ∀ node ∈ nodes, node.places.Pairwise (fun left right => left.1 ≠ right.1)) :
    (placesFrom index nodes).Pairwise (fun left right => left.1 ≠ right.1) := by
  induction nodes generalizing index with
  | nil => exact .nil
  | cons node rest ih =>
    simp only [placesFrom, pairwise_append, pairwise_map, mem_map]
    refine ⟨?_, ih (index + 1) (fun other member => each other (by simp [member])), ?_⟩
    · exact (each node (by simp)).imp (fun different equal => different (List.cons.inj equal).2)
    · rintro _ ⟨place, _, rfl⟩ ⟨address, inner⟩ later
      obtain ⟨offset, below, child, _, rfl, _⟩ := mem_placesFrom.1 later
      intro equal
      have same := (List.cons.inj equal).1
      omega

theorem places_pairwise (node : Node) : node.places.Pairwise (fun left right => left.1 ≠ right.1) := by
  induction node using induct with
  | step node ih =>
    rw [places_eq, pairwise_cons]
    refine ⟨?_, placesFrom_pairwise 0 ih⟩
    rintro ⟨address, inner⟩ member
    obtain ⟨offset, rest, child, _, rfl, _⟩ := mem_placesFrom.1 member
    simp

theorem exists_descend (member : node ∈ tree.walk) : ∃ address, tree.descend address = some node := by
  rw [← places_nodes] at member
  obtain ⟨place, present, rfl⟩ := mem_map.1 member
  exact ⟨place.1, descend_of_mem_places present⟩

theorem walk_pairwise (tree : Node) :
    tree.walk.Pairwise (fun left right =>
      ∃ p q, tree.descend p = some left ∧ tree.descend q = some right ∧ p ≠ q) := by
  rw [← places_nodes, pairwise_map]
  refine tree.places_pairwise.imp_of_mem ?_
  intro left right leftMember rightMember different
  exact ⟨left.1, right.1, descend_of_mem_places leftMember, descend_of_mem_places rightMember, different⟩

/-- The children of a node stand inside it, one after the other. -/
structure Orderly (node : Node) : Prop where
  forwards : node.start ≤ node.stop
  inside : ∀ child ∈ node.children, node.start ≤ child.start ∧ child.stop ≤ node.stop
  inOrder : node.children.Pairwise (fun left right => left.stop ≤ right.start)

/-- All nodes of a tree have their children in order inside them. -/
def Nested (tree : Node) : Prop := ∀ node ∈ tree.walk, node.Orderly

theorem Nested.below (nested : tree.Nested) (member : inner ∈ tree.walk) : inner.Nested :=
  fun _ deeper => nested _ (mem_walk_trans deeper member)

theorem Nested.within (nested : tree.Nested) (found : tree.descend address = some inner) :
    tree.start ≤ inner.start ∧ inner.stop ≤ tree.stop := by
  induction address generalizing tree with
  | nil =>
    cases found
    exact ⟨Nat.le_refl _, Nat.le_refl _⟩
  | cons index rest ih =>
    obtain ⟨child, present, deeper⟩ := Option.bind_eq_some_iff.1 found
    have member := mem_of_getElem? present
    have inner := ih (nested.below (mem_walk_of_child member child.self_mem_walk)) deeper
    have outer := (nested tree tree.self_mem_walk).inside child member
    omega

end Node

/-- One span ends before the other begins. -/
def Span.Apart (left right : Span) : Prop := left.stop ≤ right.start ∨ right.stop ≤ left.start

namespace Node

theorem Orderly.apart {node left right : Node} {i j : Nat} (orderly : node.Orderly)
    (first : node.children[i]? = some left) (second : node.children[j]? = some right) (different : i ≠ j) :
    left.span.Apart right.span := by
  obtain ⟨firstBound, rfl⟩ := List.getElem?_eq_some_iff.1 first
  obtain ⟨secondBound, rfl⟩ := List.getElem?_eq_some_iff.1 second
  have ordered := pairwise_iff_getElem.1 orderly.inOrder
  rcases Nat.lt_or_gt_of_ne different with before | after
  · exact .inl (ordered i j firstBound secondBound before)
  · exact .inr (ordered j i secondBound firstBound after)

theorem Nested.apart {tree left right : Node} {p q : List Nat} (nested : tree.Nested)
    (first : tree.descend p = some left) (second : tree.descend q = some right)
    (notBelow : ¬ p <+: q) (notAbove : ¬ q <+: p) : left.span.Apart right.span := by
  induction p generalizing tree q with
  | nil => exact absurd nil_prefix notBelow
  | cons i p ih =>
    cases q with
    | nil => exact absurd nil_prefix notAbove
    | cons j q =>
      obtain ⟨leftChild, leftPresent, leftDeeper⟩ := Option.bind_eq_some_iff.1 first
      obtain ⟨rightChild, rightPresent, rightDeeper⟩ := Option.bind_eq_some_iff.1 second
      have leftNested := nested.below
        (mem_walk_of_child (mem_of_getElem? leftPresent) leftChild.self_mem_walk)
      by_cases same : i = j
      · subst same
        cases leftPresent.symm.trans rightPresent
        exact ih leftNested leftDeeper rightDeeper
          (fun below => notBelow (cons_prefix_cons.2 ⟨rfl, below⟩))
          (fun above => notAbove (cons_prefix_cons.2 ⟨rfl, above⟩))
      · have rightNested := nested.below
          (mem_walk_of_child (mem_of_getElem? rightPresent) rightChild.self_mem_walk)
        have parted := (nested tree tree.self_mem_walk).apart leftPresent rightPresent same
        have leftWithin := leftNested.within leftDeeper
        have rightWithin := rightNested.within rightDeeper
        simp only [Span.Apart, start, stop] at parted leftWithin rightWithin ⊢
        omega

end Node
end Refit.Syntax
