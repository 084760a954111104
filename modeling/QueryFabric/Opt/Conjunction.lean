import QueryFabric.Ir.Syntax
import QueryFabric.Lib.Aggregates
import QueryFabric.NamespaceUuid.Coords

/-!
# Conjuncts of a predicate

`flatten_boolean_and` and `rebuild_boolean_and` of `crates/queryfabric-opt/src/syntax.rs` take a
predicate apart and put predicates together again. `split_conjuncts` says what a pass that
distributes the conjuncts of a predicate, in any order, may rely on: the two predicates that are
rebuilt have just these conjuncts, and together they mean what the whole one did.
-/

namespace QueryFabric.Opt

open Lib

/-- `flatten_boolean_and`. -/
def flattenBooleanAnd : SyntaxExpr → List SyntaxExpr
  | ⟨.binary .and left right, _⟩ => flattenBooleanAnd left ++ flattenBooleanAnd right
  | expr => [expr]

/-- The node of a conjunction that `rebuild_boolean_and` adds. -/
def conjunctionNode (node : SyntaxNode) (index : Nat) : SyntaxNode :=
  ⟨node.span, node.nodeId ++ ".and[" ++ toString index ++ "]"⟩

/-- The loop of `rebuild_boolean_and`, from an index on. -/
def conjoin (node : SyntaxNode) (current : SyntaxExpr) (index : Nat) : List SyntaxExpr → SyntaxExpr
  | [] => current
  | item :: items =>
    conjoin node ⟨.binary .and current item, conjunctionNode node index⟩ (index + 1) items

/-- `rebuild_boolean_and`. -/
def rebuildBooleanAnd (items : List SyntaxExpr) (node : SyntaxNode) : Option SyntaxExpr :=
  match items with
  | [] => none
  | current :: items => some (conjoin node current 0 items)

/-- The nodes of the conjunctions that a predicate is made of, the outermost last. -/
def conjunctionNodes : SyntaxExpr → List SyntaxNode
  | ⟨.binary .and left right, node⟩ => conjunctionNodes left ++ conjunctionNodes right ++ [node]
  | _ => []

/-- Whether an expression is an `AND`. -/
def isConjunction : SyntaxExpr → Bool
  | ⟨.binary .and _ _, _⟩ => true
  | _ => false

/-- An expression that matches no `AND` is none. -/
theorem not_isConjunction {expr : SyntaxExpr}
    (h : ∀ left right node, expr = ⟨.binary .and left right, node⟩ → False) :
    isConjunction expr = false := by
  unfold isConjunction
  split
  · rename_i left right node
    exact absurd rfl (h left right node)
  · rfl

/-- What is no `AND` flattens to itself. -/
theorem flattenBooleanAnd_of_not {expr : SyntaxExpr} (h : isConjunction expr = false) :
    flattenBooleanAnd expr = [expr] := by
  unfold isConjunction at h
  split at h
  · cases h
  · rename_i hnot
    rw [flattenBooleanAnd]
    exact hnot

/-- What is no `AND` has no node of one. -/
theorem conjunctionNodes_of_not {expr : SyntaxExpr} (h : isConjunction expr = false) :
    conjunctionNodes expr = [] := by
  unfold isConjunction at h
  split at h
  · cases h
  · rename_i hnot
    rw [conjunctionNodes]
    exact hnot

/-- The items that an expression flattens to are no `AND`. -/
theorem not_isConjunction_of_mem (expr : SyntaxExpr) {item : SyntaxExpr}
    (h : item ∈ flattenBooleanAnd expr) :
    isConjunction item = false := by
  induction expr using flattenBooleanAnd.induct with
  | case1 left right node ihleft ihright =>
    rw [flattenBooleanAnd] at h
    exact (List.mem_append.mp h).elim ihleft ihright
  | case2 expr hnot =>
    have hexpr := not_isConjunction hnot
    rw [flattenBooleanAnd_of_not hexpr] at h
    rwa [List.mem_singleton.mp h]

section Conjoin

variable {node : SyntaxNode} {items : List SyntaxExpr}

/-- Flattening what was conjoined gives the items again. -/
theorem flattenBooleanAnd_conjoin (hitems : ∀ item ∈ items, isConjunction item = false)
    (current : SyntaxExpr) (index : Nat) : flattenBooleanAnd (conjoin node current index items) =
      flattenBooleanAnd current ++ items := by
  induction items generalizing current index with
  | nil => rw [conjoin, List.append_nil]
  | cons item items ih =>
    rw [conjoin, ih fun other hother => hitems other (List.mem_cons_of_mem _ hother),
      flattenBooleanAnd, flattenBooleanAnd_of_not (hitems item List.mem_cons_self),
      List.append_assoc]
    rfl

/-- The nodes of what was conjoined are numbered by the index. -/
theorem conjunctionNodes_conjoin (hitems : ∀ item ∈ items, isConjunction item = false)
    (current : SyntaxExpr) (index : Nat) : conjunctionNodes (conjoin node current index items) =
      conjunctionNodes current ++ (List.range' index items.length).map (conjunctionNode node) := by
  induction items generalizing current index with
  | nil => simp [conjoin]
  | cons item items ih =>
    rw [conjoin, ih fun other hother => hitems other (List.mem_cons_of_mem _ hother),
      conjunctionNodes, conjunctionNodes_of_not (hitems item List.mem_cons_self), List.append_nil,
      List.append_assoc]
    rfl

/-- The conjunctions that are added have identities of their own. -/
theorem conjunctionNode_injective (node : SyntaxNode) :
    Function.Injective (conjunctionNode node) := by
  intro i j h
  have htext := congrArg (fun node => node.nodeId.toList) h
  simp only [conjunctionNode, String.toList_append, List.append_assoc, List.append_cancel_left_eq]
    at htext
  exact NamespaceUuid.repr_injective (String.toList_inj.mp (List.append_cancel_right htext))

variable {V : Type} {conj : V → V → V} {meaning : SyntaxExpr → V}
  (hmeaning : ∀ left right node,
    meaning ⟨.binary .and left right, node⟩ = conj (meaning left) (meaning right))

include hmeaning

/-- An expression means what its flattened items mean together. -/
theorem reduce_flattenBooleanAnd [Std.Associative conj] (expr : SyntaxExpr) :
    reduce conj ((flattenBooleanAnd expr).map fun item => some (meaning item)) =
      some (meaning expr) := by
  induction expr using flattenBooleanAnd.induct with
  | case1 left right node ihleft ihright =>
    rw [flattenBooleanAnd, List.map_append, reduce_append, ihleft, ihright, hmeaning,
      Option.merge_some_some]
  | case2 expr hnot =>
    rw [flattenBooleanAnd_of_not (not_isConjunction hnot), List.map_singleton, reduce_cons,
      reduce_nil, Option.merge_none_right]

/-- Conjoining items means what they mean together. -/
theorem reduce_conjoin [Std.Associative conj] (current : SyntaxExpr) (index : Nat) :
    some (meaning (conjoin node current index items)) =
      reduce conj (some (meaning current) :: items.map fun item => some (meaning item)) := by
  induction items generalizing current index with
  | nil => rw [conjoin, List.map_nil, reduce_cons, reduce_nil, Option.merge_none_right]
  | cons item items ih =>
    have hassoc : Std.Associative (Option.merge conj) := inferInstance
    rw [conjoin, ih, hmeaning, List.map_cons, reduce_cons, reduce_cons, reduce_cons, ← hassoc.assoc,
      Option.merge_some_some]

/-- Rebuilding items means what they mean together. -/
theorem reduce_rebuildBooleanAnd [Std.Associative conj] (items : List SyntaxExpr)
    (node : SyntaxNode) :
    (rebuildBooleanAnd items node).map meaning =
      reduce conj (items.map fun item => some (meaning item)) := by
  cases items with
  | nil => rfl
  | cons current items => exact reduce_conjoin hmeaning current 0

end Conjoin

/-- What is rebuilt of items that are no conjunctions: nothing of none, and otherwise a predicate
with just these conjuncts, whose conjunctions are new nodes, numbered from the innermost on. -/
structure Rebuilt (items : List SyntaxExpr) (node : SyntaxNode)
    (rebuilt : Option SyntaxExpr) : Prop where
  isSome : rebuilt.isSome = !items.isEmpty
  conjuncts : ∀ expr ∈ rebuilt, flattenBooleanAnd expr = items
  nodes : ∀ expr ∈ rebuilt, conjunctionNodes expr =
    (List.range (items.length - 1)).map (conjunctionNode node)
  distinct : ∀ expr ∈ rebuilt, (conjunctionNodes expr).Nodup

/-- Rebuilding items that are no `AND` gives them again, under new nodes. -/
theorem rebuilt_rebuildBooleanAnd {items : List SyntaxExpr}
    (hitems : ∀ item ∈ items, isConjunction item = false)
    (node : SyntaxNode) : Rebuilt items node (rebuildBooleanAnd items node) := by
  cases items with
  | nil => exact ⟨rfl, nofun, nofun, nofun⟩
  | cons current items =>
    have hcurrent := hitems current List.mem_cons_self
    have hrest : ∀ item ∈ items, isConjunction item = false := fun item hitem =>
      hitems item (List.mem_cons_of_mem _ hitem)
    have hnodes : conjunctionNodes (conjoin node current 0 items) =
        (List.range items.length).map (conjunctionNode node) := by
      rw [conjunctionNodes_conjoin hrest, conjunctionNodes_of_not hcurrent, List.range_eq_range']
      rfl
    refine ⟨rfl, ?_, ?_, ?_⟩
    · rintro _ ⟨⟩
      rw [flattenBooleanAnd_conjoin hrest, flattenBooleanAnd_of_not hcurrent]
      rfl
    · rintro _ ⟨⟩
      exact hnodes
    · rintro _ ⟨⟩
      rw [hnodes]
      exact List.nodup_range.map (conjunctionNode_injective node)

/-- The conjuncts of a predicate are split in two, in any order, and both parts are rebuilt. -/
theorem split_conjuncts {V : Type} {conj : V → V → V} [Std.Associative conj] [Std.Commutative conj]
    {meaning : SyntaxExpr → V}
    (hmeaning : ∀ left right node,
      meaning ⟨.binary .and left right, node⟩ = conj (meaning left) (meaning right))
    {expr : SyntaxExpr} {pushed kept : List SyntaxExpr}
    (h : (pushed ++ kept).Perm (flattenBooleanAnd expr)) (node node' : SyntaxNode) :
    Rebuilt pushed node (rebuildBooleanAnd pushed node) ∧
    Rebuilt kept node' (rebuildBooleanAnd kept node') ∧
      Option.merge conj ((rebuildBooleanAnd pushed node).map meaning)
        ((rebuildBooleanAnd kept node').map meaning) = some (meaning expr) := by
  have hitems : ∀ item ∈ pushed ++ kept, isConjunction item = false := fun item hitem =>
    not_isConjunction_of_mem expr (h.mem_iff.mp hitem)
  refine ⟨rebuilt_rebuildBooleanAnd
    (fun item hitem => hitems item (List.mem_append_left _ hitem)) node,
    rebuilt_rebuildBooleanAnd (fun item hitem => hitems item (List.mem_append_right _ hitem)) node',
      ?_⟩
  rw [reduce_rebuildBooleanAnd hmeaning, reduce_rebuildBooleanAnd hmeaning, ← reduce_append,
    ← List.map_append, reduce_perm conj (h.map _), reduce_flattenBooleanAnd hmeaning]

/-! `a AND TRUE AND b`, of which `TRUE` is kept, with the truth values of SQL -/

namespace Conjuncts

/-- `AND` in three-valued logic. -/
def and_ : Option Bool → Option Bool → Option Bool
  | some false, _ => some false
  | _, some false => some false
  | some true, some true => some true
  | _, _ => none

/-- The three-valued `AND` is associative. -/
instance : Std.Associative and_ := ⟨by rintro (_ | _ | _) (_ | _ | _) (_ | _ | _) <;> rfl⟩

/-- The three-valued `AND` is commutative. -/
instance : Std.Commutative and_ := ⟨by rintro (_ | _ | _) (_ | _ | _) <;> rfl⟩

/-- A column is `NULL`. -/
def truth : SyntaxExpr → Option Bool
  | ⟨.binary .and left right, _⟩ => and_ (truth left) (truth right)
  | ⟨.literal (.boolean value), _⟩ => some value
  | _ => none

/-- A column without a relation. -/
def column (name : String) : SyntaxExpr := ⟨.column none name, ⟨none, name⟩⟩

/-- The literal `true`. -/
def true_ : SyntaxExpr := ⟨.literal (.boolean true), ⟨none, "true"⟩⟩

/-- The predicate `a AND true AND b`. -/
def predicate : SyntaxExpr :=
  ⟨.binary .and ⟨.binary .and (column "a") true_, ⟨none, "inner"⟩⟩ (column "b"), ⟨none, "where"⟩⟩

end Conjuncts

open Conjuncts in
/-- Pushing two conjuncts and keeping one rebuilds both predicates. -/
theorem split_conjuncts_pushed :
    Rebuilt [column "b", column "a"] ⟨none, "pushed"⟩
        (some ⟨.binary .and (column "b") (column "a"), ⟨none, "pushed.and[0]"⟩⟩) ∧
      Rebuilt [true_] ⟨none, "kept"⟩ (some true_) ∧
      Option.merge and_ (some (and_ (truth (column "b")) (truth (column "a"))))
        (some (truth true_)) = some (truth predicate) :=
  split_conjuncts (fun _ _ _ => truth.eq_1 ..)
    (show ([column "b", column "a"] ++ [true_]).Perm [column "a", true_, column "b"] from
      ((List.Perm.swap _ _ _).trans ((List.Perm.swap _ _ _).cons _))) ⟨none, "pushed"⟩
        ⟨none, "kept"⟩

end QueryFabric.Opt
