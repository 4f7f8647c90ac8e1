import Treewire.Script.Convert

/-!
# Well-formed trees

What a script reader promises of its trees, whatever the script: each node has the children that
nodes of its type have, and where only one type of child is possible, it is of that type. Nothing
is said about which nodes have a form at which position.

A promise is a property of a single node. `Node.Every` spreads it over a tree, and inductions over
trees are inductions on it.
-/

namespace Treewire.Script

namespace Node

def isPresent : Node → Bool
  | .absent => false
  | _ => true

def isIdentifier : Node → Bool
  | .identifier .. => true
  | _ => false

def isBlock : Node → Bool
  | .blockStatement .. => true
  | _ => false

def isDeclarator : Node → Bool
  | .variableDeclarator .. => true
  | _ => false

def isCase : Node → Bool
  | .switchCase .. => true
  | _ => false

def isQuasi : Node → Bool
  | .templateElement .. => true
  | _ => false

def isClassBody : Node → Bool
  | .classBody .. => true
  | _ => false

def isCatchClause : Node → Bool
  | .catchClause .. => true
  | _ => false

/-- A child that may be missing. -/
def isOptional (p : Node → Bool) (n : Node) : Bool := !n.isPresent || p n

/-- The kinds that declarations of variables are read with. -/
def declarationKinds : List Text :=
  ["var", "let", "const", "using", "await using"].map Text.ofString

/-- Whether the children of a node are there as its type asks. Elements of an array may be missing,
no other members of a list may. -/
def complete : Node → Bool
  | .incomplete .. => false
  | .blockStatement _ _ body | .classBody _ body => body.all isPresent
  | .variableDeclaration _ kind declarations =>
    declarationKinds.contains kind && declarations.all isDeclarator
  | .variableDeclarator _ id _ => id.isPresent
  | .functionDeclaration _ _ id params body =>
    id.isIdentifier && params.all isPresent && body.isPresent
  | .classDeclaration _ id _ body => id.isOptional isIdentifier && body.isClassBody
  | .classProperty _ _ _ key _ => key.isPresent
  | .classMethod _ _ _ _ _ key params body =>
    key.isPresent && params.all isPresent && body.isPresent
  | .expressionStatement _ e | .throwStatement _ e | .restElement _ e | .privateName _ e
  | .unaryExpression _ _ e | .updateExpression _ _ _ e | .awaitExpression _ e
  | .spreadElement _ e | .parenthesizedExpression _ e => e.isPresent
  | .ifStatement _ test consequent _ => test.isPresent && consequent.isPresent
  | .whileStatement _ test body => test.isPresent && body.isPresent
  | .doWhileStatement _ body test => body.isPresent && test.isPresent
  | .forStatement _ _ _ _ body => body.isPresent
  | .forInStatement _ left right body | .forOfStatement _ _ left right body =>
    left.isPresent && right.isPresent && body.isPresent
  | .breakStatement _ label | .continueStatement _ label => label.isOptional isIdentifier
  | .tryStatement _ block handler finalizer =>
    block.isBlock && handler.isOptional isCatchClause && finalizer.isOptional isBlock
  | .catchClause _ _ body => body.isBlock
  | .switchStatement _ discriminant cases => discriminant.isPresent && cases.all isCase
  | .switchCase _ _ consequent => consequent.all isPresent
  | .assignmentPattern _ left right | .binaryExpression _ _ _ left right
  | .assignmentExpression _ _ left right => left.isPresent && right.isPresent
  | .templateLiteral _ quasis expressions => quasis.all isQuasi && expressions.all isPresent
  | .objectExpression _ properties => properties.all isPresent
  | .objectProperty _ _ _ key value => key.isPresent && value.isPresent
  | .objectMethod _ _ _ _ key params body =>
    key.isPresent && params.all isPresent && body.isPresent
  | .functionExpression _ _ id params body =>
    id.isOptional isIdentifier && params.all isPresent && body.isPresent
  | .arrowFunctionExpression _ _ params body => params.all isPresent && body.isPresent
  | .callExpression _ _ _ callee arguments | .newExpression _ callee arguments =>
    callee.isPresent && arguments.all isPresent
  | .memberExpression _ _ _ _ object property => object.isPresent && property.isPresent
  | .conditionalExpression _ test consequent alternate =>
    test.isPresent && consequent.isPresent && alternate.isPresent
  | .sequenceExpression _ expressions => expressions.all isPresent
  | _ => true

/-- All children of a node. -/
@[simp] def children : Node → List Node
  | .blockStatement _ _ list | .variableDeclaration _ _ list | .classBody _ list
  | .arrayExpression _ list | .objectExpression _ list | .sequenceExpression _ list => list
  | .returnStatement _ a | .expressionStatement _ a | .breakStatement _ a
  | .continueStatement _ a | .throwStatement _ a | .restElement _ a | .privateName _ a
  | .unaryExpression _ _ a | .updateExpression _ _ _ a | .awaitExpression _ a
  | .yieldExpression _ _ a | .spreadElement _ a | .parenthesizedExpression _ a => [a]
  | .variableDeclarator _ a b | .classProperty _ _ _ a b | .whileStatement _ a b
  | .doWhileStatement _ a b | .catchClause _ a b | .assignmentPattern _ a b
  | .objectProperty _ _ _ a b | .memberExpression _ _ _ _ a b | .binaryExpression _ _ _ a b
  | .assignmentExpression _ _ a b => [a, b]
  | .classDeclaration _ a b c | .ifStatement _ a b c | .forInStatement _ a b c
  | .forOfStatement _ _ a b c | .tryStatement _ a b c | .conditionalExpression _ a b c => [a, b, c]
  | .forStatement _ a b c d => [a, b, c, d]
  | .functionDeclaration _ _ a list b | .functionExpression _ _ a list b
  | .classMethod _ _ _ _ _ a list b | .objectMethod _ _ _ _ a list b => a :: b :: list
  | .arrowFunctionExpression _ _ list a | .switchStatement _ a list | .switchCase _ a list
  | .callExpression _ _ _ a list | .newExpression _ a list => a :: list
  | .templateLiteral _ list more => list ++ more
  | _ => []

/-- A property of a node and of all nodes below it. -/
inductive Every (p : Node → Bool) : Node → Prop
  | mk (h : p n = true) (hc : ∀ c ∈ n.children, Every p c) : Every p n

theorem Every.leaf {p : Node → Bool} {n : Node} (h : p n = true) (hc : n.children = []) :
    Every p n := by
  refine .mk h fun c hm => ?_
  rw [hc] at hm
  cases hm

/-- What an induction over a tree may suppose of a node below the one in question. -/
inductive Supposed (p : Node → Bool) (motive : Node → Prop) : Node → Prop
  | mk (h : p n = true) (hn : motive n) (hc : ∀ c ∈ n.children, Supposed p motive c) :
      Supposed p motive n

namespace Supposed

variable {p : Node → Bool} {motive : Node → Prop} {n : Node}

theorem holds : Supposed p motive n → p n = true
  | .mk h _ _ => h

theorem self : Supposed p motive n → motive n
  | .mk _ hn _ => hn

theorem deeper : Supposed p motive n → ∀ c ∈ n.children, Supposed p motive c
  | .mk _ _ hc => hc

theorem all {ns : List Node} (h : ∀ n ∈ ns, Supposed p motive n) : ∀ n ∈ ns, motive n :=
  fun n hn => (h n hn).self

end Supposed

/-- To prove something of a node, it may be supposed of all nodes below. -/
theorem Every.induction {p : Node → Bool} {motive : Node → Prop} {n : Node}
    (step : ∀ n, p n = true → (∀ c ∈ n.children, Supposed p motive c) → motive n)
    (h : Every p n) : motive n := by
  have all : Supposed p motive n := by
    induction h with
    | mk h _ ih => exact .mk h (step _ h ih) ih
  exact all.self

/-- A node as script readers deliver it, down to the leaves. -/
abbrev WellFormed (n : Node) : Prop := Every complete n

end Node

/-- A script as script readers deliver it. -/
def Program.WellFormed (p : Program) : Prop :=
  p.body.all Node.isPresent = true ∧ ∀ n ∈ p.body, n.WellFormed

end Treewire.Script
