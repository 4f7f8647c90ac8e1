import Treewire.Proofs.Contexts
import Treewire.Proofs.Writing

/-!
# What forms tell apart

Forms keep some of what makes programs behave differently and drop some of it. They keep whether a
function is asynchronous or a generator, for declarations, function expressions, arrow functions
and methods of object literals. They drop whether a loop awaits its values, whether its head
declares the variable and how, whether a call or an access continues an optional chain, and all
directives. `form_distinguishes` says both of programs that differ at a single node.
-/

namespace Treewire.Script

-- ---------------------------------------------------------------------------
-- What is kept
-- ---------------------------------------------------------------------------

theorem Form.choice_inj : Form.choice name = Form.choice name' ↔ name = name' :=
  ⟨fun h => Text.ofString_injective (Form.text.inj h), congrArg Form.choice⟩

theorem FunctionFlags.form_inj {flags flags' : FunctionFlags} :
    flags.form = flags'.form ↔ flags = flags' := by
  obtain ⟨async, generator⟩ := flags
  obtain ⟨async', generator'⟩ := flags'
  cases async <;> cases generator <;> cases async' <;> cases generator' <;>
    simp [FunctionFlags.form, Form.choice_inj]

/-- A function that is the same but for its flags. -/
inductive Reflagged : Node → Node → Prop
  | declaration (h : flags ≠ flags') :
      Reflagged (.functionDeclaration place flags name params body)
        (.functionDeclaration place flags' name params body)
  | expression (h : flags ≠ flags') :
      Reflagged (.functionExpression place flags name params body)
        (.functionExpression place flags' name params body)
  | arrow (h : flags ≠ flags') :
      Reflagged (.arrowFunctionExpression place flags params body)
        (.arrowFunctionExpression place flags' params body)
  | method (h : flags ≠ flags') :
      Reflagged (.objectMethod place computed kind flags key params body)
        (.objectMethod place computed kind flags' key params body)

theorem Reflagged.tells (h : Reflagged n n') : Tells False n n' := by
  cases h with
  | declaration h =>
    refine { asStatement := ?_ }
    rw [statement, statement]
    exact .after fun _ => .after fun _ => .after fun _ =>
      .pure (by simpa [FunctionFlags.form_inj] using h)
  | expression h =>
    refine { asExpression := ?_ }
    rw [Script.expression, Script.expression]
    exact .after fun _ => .after fun _ => .pure (by simpa [FunctionFlags.form_inj] using h)
  | arrow h =>
    refine { asExpression := ?_ }
    rw [Script.expression, Script.expression]
    exact .after fun _ => .after fun _ => .pure (by simpa [FunctionFlags.form_inj] using h)
  | method h =>
    refine { asField := ?_ }
    rw [objectField, objectField]
    exact .after fun _ => .after fun _ => .after fun _ =>
      .pure (by simpa [FunctionFlags.form_inj] using h)

-- ---------------------------------------------------------------------------
-- What is dropped
-- ---------------------------------------------------------------------------

/-- The head of a loop over a collection that gives its values to a variable of the given name, be
it declared there or not. -/
inductive Gives (name : Text) : Node → Prop
  | declared : Gives name (.variableDeclaration place kind
      [.variableDeclarator place' (.identifier place'' name) .absent])
  | assigned : Gives name (.identifier place name)

/-- Heads of loops that say the same but for whether and how they declare their variable. -/
inductive Reheaded : Node → Node → Prop
  | name (h : Gives name left) (h' : Gives name left') : Reheaded left left'
  | kind : Reheaded (.variableDeclaration place kind declared)
      (.variableDeclaration place kind' declared)

theorem Gives.target (h : Gives name left) :
    loopTarget left = .ok (.record [("name", .text name)]) := by
  cases h <;> rfl

theorem Reheaded.target (h : Reheaded left left') : loopTarget left = loopTarget left' := by
  cases h with
  | name h h' => rw [h.target, h'.target]
  | @kind _ _ declared _ =>
    rcases declared with _ | ⟨d, _ | ⟨d', rest⟩⟩
    · rfl
    · rfl
    · rfl

/-- Nodes that behave differently and have the same form. -/
inductive Confused : Node → Node → Prop
  | awaits : Confused (.forOfStatement place awaits left right body)
      (.forOfStatement place awaits' left right body)
  | forInHead (h : Reheaded left left') : Confused (.forInStatement place left right body)
      (.forInStatement place left' right body)
  | forOfHead (h : Reheaded left left') : Confused (.forOfStatement place awaits left right body)
      (.forOfStatement place awaits left' right body)
  | call : Confused (.callExpression place chained false callee arguments)
      (.callExpression place chained' false callee arguments)
  | member : Confused (.memberExpression place chained false computed object property)
      (.memberExpression place chained' false computed object property)
  | directives : Confused (.blockStatement place prologue body)
      (.blockStatement place prologue' body)

theorem Confused.tells (h : Confused n n') : Tells True n n' := by
  cases h with
  | awaits => exact { asStatement := .of_eq rfl }
  | forInHead h =>
    refine { asStatement := .of_eq ?_ }
    rw [statement, statement, h.target]
  | forOfHead h =>
    refine { asStatement := .of_eq ?_ }
    rw [statement, statement, h.target]
  | call => exact { asExpression := .of_eq rfl }
  | member => exact { asExpression := .of_eq rfl }
  | directives =>
    exact { asStatement := .of_eq rfl, asBlock := .of_eq rfl, asClassBody := .of_eq rfl }

/-- Programs that behave differently and have the same form: they differ at a single node, or in
their directives. -/
inductive Program.Confused : Program → Program → Prop
  | node (h : Program.Differ Script.Confused p q) : Program.Confused p q
  | directives : Program.Confused ⟨prologue, script⟩ ⟨prologue', script⟩

theorem Program.Confused.tells (h : Program.Confused p q) : SameIff True p.form q.form := by
  cases h with
  | node h => exact h.tells fun _ _ => Script.Confused.tells
  | directives => exact .of_eq rfl

/-- Of two programs with forms that differ at a single node: other flags of a function make other
forms; what a loop awaits and declares, where an optional chain ends, and directives do not. -/
theorem form_distinguishes {p q : Program} {x y : Form} (hp : p.form = .ok x)
    (hq : q.form = .ok y) :
    (Program.Differ Reflagged p q → x ≠ y) ∧ (Program.Confused p q → x = y) := by
  constructor
  · intro h
    have told := h.tells fun _ _ => Reflagged.tells
    exact (told x y hp hq).mp
  · intro h
    exact (h.tells x y hp hq).mpr trivial

/-- The name of a variable, at no place in particular. -/
def named (name : String) : Node := .identifier none (Text.ofString name)

/-- `if (test) run({ m() {} });`, where `m` has the given flags. -/
def methodInside (flags : FunctionFlags) : Program where
  directives := []
  body := [.ifStatement none (named "test")
    (.expressionStatement none (.callExpression none false false (named "run")
      [.objectExpression none [.objectMethod none false (Text.ofString "method") flags
        (named "m") [] (.blockStatement none [] [])]]))
    .absent]

/-- A loop over `xs` with an empty body. -/
def loopOver (awaits : Bool) (head : Node) : Program where
  directives := []
  body := [.forOfStatement none awaits head (named "xs") (.emptyStatement none)]

theorem form_distinguishes_method_not_loop :
    ∃ x y z w, (methodInside ⟨true, false⟩).form = .ok x ∧
      (methodInside ⟨false, false⟩).form = .ok y ∧
      (loopOver true (named "x")).form = .ok z ∧ (loopOver false (named "x")).form = .ok w ∧
      x ≠ y ∧ z = w := by
  have field : Context _ := .inside (.expression (@ExpressionFrame.field none [] [])) .hole
  have argument : Context _ := .inside
    (.statement (@StatementFrame.expression none))
    (.inside (.expression (@ExpressionFrame.argument none false false (named "run") [] [])) field)
  have whole : Context _ := .inside
    (.statement (@StatementFrame.ifConsequent none (named "test") .absent)) argument
  have method : Program.Differ Reflagged (methodInside ⟨true, false⟩)
      (methodInside ⟨false, false⟩) :=
    @Program.Differ.at _ _ _ _ [] [] [] whole (.method (by decide))
  have loop : Program.Confused (loopOver true (named "x")) (loopOver false (named "x")) :=
    .node (@Program.Differ.at _ _ _ _ [] [] [] .hole .awaits)
  exact ⟨_, _, _, _, rfl, rfl, rfl, rfl, (form_distinguishes rfl rfl).1 method,
    (form_distinguishes rfl rfl).2 loop⟩

/-- `for (var x of xs);` and its like. -/
def declared (kind : String) : Node :=
  .variableDeclaration none (Text.ofString kind) [.variableDeclarator none (named "x") .absent]

/-- `o?.p.q;`, where the chain goes on to the end or is cut before `q` by parentheses. -/
def chainTo (chained : Bool) : Program where
  directives := []
  body := [.expressionStatement none (.memberExpression none chained false false
    (.memberExpression none true true false (named "o") (named "p")) (named "q"))]

/-- A function with nothing in it but directives. -/
def directing (directives : List Text) : Program where
  directives := []
  body := [.functionDeclaration none ⟨false, false⟩ (named "f") []
    (.blockStatement none directives [])]

/-- `class A { m() {} }`, where `m` has the given flags. -/
def classMethodInside (flags : FunctionFlags) : Program where
  directives := []
  body := [.classDeclaration none (named "A") .absent (.classBody none
    [.classMethod none false false (Text.ofString "method") flags (named "m") []
      (.blockStatement none [] [])])]

/-- Not all that changes what a program does is in its form. -/
theorem form_forgets :
    (∃ x, (classMethodInside ⟨true, false⟩).form = .ok x ∧
      (classMethodInside ⟨false, true⟩).form = .ok x) ∧
    (∃ x, (loopOver true (named "x")).form = .ok x ∧ (loopOver false (named "x")).form = .ok x) ∧
    (∃ x, (loopOver false (declared "var")).form = .ok x ∧
      (loopOver false (declared "const")).form = .ok x ∧
      (loopOver false (named "x")).form = .ok x) ∧
    (∃ x, (chainTo true).form = .ok x ∧ (chainTo false).form = .ok x) ∧
    (∃ x, (directing [Text.ofString "use strict"]).form = .ok x ∧ (directing []).form = .ok x) :=
  ⟨⟨_, rfl, rfl⟩, ⟨_, rfl, rfl⟩, ⟨_, rfl, rfl, rfl⟩, ⟨_, rfl, rfl⟩, ⟨_, rfl, rfl⟩⟩

end Treewire.Script
