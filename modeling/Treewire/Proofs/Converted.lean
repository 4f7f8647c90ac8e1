import Treewire.Script.Convert

/-!
# Successful conversions

How a successful conversion comes apart into the successes of its steps, and the conversions of
lists as one conversion done element by element.
-/

namespace Treewire.Script

-- ---------------------------------------------------------------------------
-- Steps
-- ---------------------------------------------------------------------------

theorem bind_ok {x : Converted α} {f : α → Converted β} :
    x >>= f = .ok b ↔ ∃ a, x = .ok a ∧ f a = .ok b := by
  cases x <;> simp [bind, Except.bind]

theorem pure_ok : (pure a : Converted α) = .ok b ↔ a = b := by
  simp [pure, Except.pure]

@[simp] theorem throw_ok : (throw e : Converted α) = .ok a ↔ False :=
  ⟨nofun, False.elim⟩

@[simp] theorem throw_bind {f : α → Converted β} :
    (throw e : Converted α) >>= f = throw e := rfl

@[simp] theorem refuse_ok {n : Node} : (n.refuse : Converted α) = .ok a ↔ False := by
  unfold Node.refuse
  split <;> simp

@[simp] theorem refuseAt_ok {n : Node} : (n.refuseAt types : Converted α) = .ok a ↔ False := by
  unfold Node.refuseAt
  split
  · split <;> simp
  · simp

-- ---------------------------------------------------------------------------
-- Lists
-- ---------------------------------------------------------------------------

/-- A form for each node of a list, in order. -/
inductive Each (f : Node → Converted Form) : List Node → List Form → Prop
  | nil : Each f [] []
  | cons (hx : f n = .ok x) (hr : Each f rest xs) : Each f (n :: rest) (x :: xs)

theorem mapM_ok {f : Node → Converted Form} : ns.mapM f = .ok xs ↔ Each f ns xs := by
  induction ns generalizing xs with
  | nil =>
    rw [List.mapM_nil, pure_ok]
    constructor
    · rintro rfl
      exact .nil
    · intro h
      cases h
      rfl
  | cons n rest ih =>
    simp only [List.mapM_cons, bind_ok, pure_ok]
    constructor
    · rintro ⟨x, hx, xs, hr, rfl⟩
      exact .cons hx (ih.mp hr)
    · intro h
      cases h with
      | cons hx hr => exact ⟨_, hx, _, ih.mpr hr, rfl⟩

theorem each_cons {f : Node → Converted Form} :
    Each f (n :: rest) ys ↔ ∃ x xs, f n = .ok x ∧ Each f rest xs ∧ ys = x :: xs := by
  constructor
  · intro h
    cases h with
    | cons hx hr => exact ⟨_, _, hx, hr, rfl⟩
  · rintro ⟨x, xs, hx, hr, rfl⟩
    exact .cons hx hr

theorem Each.map {f : Node → Converted Form} {g : Node → Node} (h : Each f ns xs)
    (hg : ∀ n ∈ ns, ∀ x, f n = .ok x → f (g n) = .ok x) : Each f (ns.map g) xs := by
  induction h with
  | nil => exact .nil
  | cons hx _ ih =>
    rw [List.forall_mem_cons] at hg
    exact .cons (hg.1 _ hx) (ih hg.2)

theorem Each.forall {f : Node → Converted Form} {p : Form → Prop} (h : Each f ns xs)
    (hp : ∀ n ∈ ns, ∀ x, f n = .ok x → p x) : ∀ x ∈ xs, p x := by
  induction h with
  | nil => simp
  | cons hx _ ih =>
    rw [List.forall_mem_cons] at hp ⊢
    exact ⟨hp.1 _ hx, ih hp.2⟩

/-- An element of an array. -/
def element : Node → Converted Form
  | .absent => return .record []
  | node => expression node

/-- A case of a switch statement; its statements come before its test. -/
def switchCase : Node → Converted Form
  | .switchCase _ test consequent => do
    let consequent ← statements consequent
    let test ← optionally "test" test fun _ => expression test
    return .record (("consequent", .list consequent) :: test)
  | _ => throw .malformed

/-- What is done at the end of a statement that may fail. -/
def finallyClause (n : Node) : Converted Form := do
  return .record [("body", .list (← blockBody n))]

/-- A property of a class. -/
def classProperty : Node → Converted Form
  | .classProperty _ isStatic computed key value => do
    let key ← propertyKey computed key fun _ => expression key
    let value ← optionally "value" value fun _ => expression value
    return .record (("isStatic", .bool isStatic) :: key ++ value)
  | _ => throw .malformed

/-- A method of a class. -/
def classMethod : Node → Converted Form
  | .classMethod _ isStatic false kind _ key params body => do
    let name ← methodName key
    let params ← parameters params
    let body ← functionBody body (fun _ => blockBody body) fun _ => statement body
    return .record [("name", .text name), ("isStatic", .bool isStatic), ("kind", .text kind),
      ("parameters", .list params), ("body", .list body)]
  | _ => throw .malformed

theorem statements_eq_mapM (ns : List Node) : statements ns = ns.mapM statement := by
  induction ns with
  | nil => rfl
  | cons n rest ih => rw [statements, List.mapM_cons, ih]

theorem expressions_eq_mapM (ns : List Node) : expressions ns = ns.mapM expression := by
  induction ns with
  | nil => rfl
  | cons n rest ih => rw [expressions, List.mapM_cons, ih]

theorem parameters_eq_mapM (ns : List Node) : parameters ns = ns.mapM parameter := by
  induction ns with
  | nil => rfl
  | cons n rest ih => rw [parameters, List.mapM_cons, ih]

theorem declarators_eq_mapM (ns : List Node) : declarators ns = ns.mapM declarator := by
  induction ns with
  | nil => rfl
  | cons n rest ih => rw [declarators, List.mapM_cons, ih]

theorem objectFields_eq_mapM (ns : List Node) : objectFields ns = ns.mapM objectField := by
  induction ns with
  | nil => rfl
  | cons n rest ih => rw [objectFields, List.mapM_cons, ih]

theorem elements_eq_mapM (ns : List Node) : elements ns = ns.mapM element := by
  induction ns with
  | nil => rfl
  | cons n rest ih =>
    cases n <;> simp only [elements, element, List.mapM_cons, ih, pure_bind]

theorem switchCases_eq_mapM (ns : List Node) : switchCases ns = ns.mapM switchCase := by
  induction ns with
  | nil => rfl
  | cons n rest ih =>
    cases n <;> simp [switchCases, switchCase, List.mapM_cons, ih]

-- ---------------------------------------------------------------------------
-- Members of classes
-- ---------------------------------------------------------------------------

namespace Node

def isProperty : Node → Bool
  | .classProperty .. => true
  | _ => false

def isMethod : Node → Bool
  | .classMethod .. => true
  | _ => false

end Node

/-- The properties and the methods of a class are converted apart, and there is nothing else. -/
theorem classMembers_ok {ns : List Node} : classMembers ns = .ok (properties, methods) ↔
    Each classProperty (ns.filter Node.isProperty) properties ∧
      Each classMethod (ns.filter Node.isMethod) methods ∧
      ∀ n ∈ ns, n.isProperty = true ∨ n.isMethod = true := by
  induction ns generalizing properties methods with
  | nil =>
    rw [classMembers, pure_ok, Prod.mk.injEq]
    constructor
    · rintro ⟨rfl, rfl⟩
      exact ⟨.nil, .nil, nofun⟩
    · rintro ⟨hp, hm, -⟩
      cases hp
      cases hm
      exact ⟨rfl, rfl⟩
  | cons n rest ih =>
    rw [List.forall_mem_cons]
    cases n <;> simp only [classMembers, bind_ok, pure_ok, refuseAt_ok, Node.isProperty,
      Node.isMethod, Bool.false_eq_true, or_self, false_and, and_false, List.filter_cons,
      ↓reduceIte, each_cons]
    case classProperty =>
      simp only [classProperty, bind_ok, pure_ok]
      constructor
      · rintro ⟨key, hk, value, hv, ⟨ps, ms⟩, hr, he⟩
        obtain ⟨hps, hms, hall⟩ := ih.mp hr
        cases he
        exact ⟨⟨_, ps, ⟨key, hk, value, hv, rfl⟩, hps, rfl⟩, hms, .inl trivial, hall⟩
      · rintro ⟨⟨_, ps, ⟨key, hk, value, hv, rfl⟩, hps, rfl⟩, hms, -, hall⟩
        exact ⟨key, hk, value, hv, _, ih.mpr ⟨hps, hms, hall⟩, rfl⟩
    case classMethod computed _ _ _ _ _ =>
      cases computed
      · simp only [classMethod, Bool.false_eq_true, ↓reduceIte, bind_ok, pure_ok]
        constructor
        · rintro ⟨name, hn, params, hps, body, hb, ⟨ps, ms⟩, hr, he⟩
          obtain ⟨hp, hm, hall⟩ := ih.mp hr
          cases he
          exact ⟨hp, ⟨_, ms, ⟨name, hn, params, hps, body, hb, rfl⟩, hm, rfl⟩, .inr trivial, hall⟩
        · rintro ⟨hp, ⟨_, ms, ⟨name, hn, params, hps, body, hb, rfl⟩, hm, rfl⟩, -, hall⟩
          exact ⟨name, hn, params, hps, body, hb, _, ih.mpr ⟨hp, hm, hall⟩, rfl⟩
      · simp [classMethod]

end Treewire.Script
