import Treewire.Proofs.Converted
import Treewire.Proofs.Grammar

/-!
# What decides a conversion

`form_verdict`: a well-formed script has a form when every node that is reached fits its position;
otherwise the first one that does not is reported, with its type and its place. The proof follows
the conversion: what each function does with a node is decided by what is reached from the node at
the function's position.
-/

namespace Treewire.Script

-- ---------------------------------------------------------------------------
-- The first misfit
-- ---------------------------------------------------------------------------

/-- The first node that does not fit, of those that are reached from some sites. -/
def firstMisfit (ss : List Site) : Option Site :=
  (ss.flatMap Site.reached).find? fun s => !s.fits

/-- A conversion ends as the nodes that are reached from some sites demand. -/
def Settles (ss : List Site) (r : Converted α) : Prop :=
  match firstMisfit ss with
  | none => ∃ x, r = .ok x
  | some s => ∃ type place, s.node.typeAndPlace? = some (type, place) ∧
      r = .error (.unsupported type place)

variable {s : Site} {ss ts : List Site} {n : Node} {ns : List Node}

theorem firstMisfit_append : firstMisfit (ss ++ ts) = (firstMisfit ss).or (firstMisfit ts) := by
  simp [firstMisfit]

theorem firstMisfit_of_fits (h : s.fits = true) : firstMisfit [s] = firstMisfit s.parts := by
  simp [firstMisfit, reached_eq s, h]

theorem firstMisfit_of_not_fits (h : s.fits = false) : firstMisfit (s :: ss) = some s := by
  simp [firstMisfit, reached_eq s, h]

theorem exists_typeAndPlace (h : n.isPresent = true) :
    ∃ type place, n.typeAndPlace? = some (type, place) := by
  cases n <;> simp [Node.isPresent, Node.typeAndPlace?, Node.typeAndPlace?.known] at h ⊢

namespace Settles

theorem done : Settles [] (pure x : Converted α) := ⟨x, rfl⟩

theorem append {r : Converted α} {f : α → Converted β} (h : Settles ss r)
    (hf : ∀ x, Settles ts (f x)) : Settles (ss ++ ts) (r >>= f) := by
  unfold Settles at h ⊢
  rw [firstMisfit_append]
  cases hm : firstMisfit ss with
  | none =>
    rw [hm] at h
    obtain ⟨x, rfl⟩ := h
    exact hf x
  | some s =>
    rw [hm] at h
    obtain ⟨type, place, hn, rfl⟩ := h
    exact ⟨type, place, hn, rfl⟩

/-- A step that looks at no node. -/
theorem free {r : Converted α} {f : α → Converted β} (h : Settles [] r)
    (hf : ∀ x, Settles ss (f x)) : Settles ss (r >>= f) :=
  h.append hf

/-- What is done with a result cannot fail. -/
theorem last {r : Converted α} {f : α → β} (h : Settles ss r) : Settles ss (r >>= fun x => pure (f x)) := by
  rw [← List.append_nil ss]
  exact h.append fun _ => .done

theorem enterThen {r : Converted α} (hs : s.fits = true) (h : Settles (s.parts ++ ss) r) :
    Settles (s :: ss) r := by
  unfold Settles at h ⊢
  rwa [← List.singleton_append, firstMisfit_append, firstMisfit_of_fits hs, ← firstMisfit_append]

theorem enter {r : Converted α} (hs : s.fits = true) (h : Settles s.parts r) : Settles [s] r := by
  refine .enterThen hs ?_
  rwa [List.append_nil]

/-- A node that fits and leads nowhere. -/
theorem skip {r : Converted α} (hs : s.fits = true) (hp : s.parts = []) (h : Settles ss r) :
    Settles (s :: ss) r := by
  refine .enterThen hs ?_
  rwa [hp]

/-- A node that does not fit is reported, whatever comes after it. -/
theorem refuse (hs : s.fits = false) (hp : s.node.isPresent = true) :
    Settles (s :: ss) (s.node.refuse : Converted α) := by
  obtain ⟨type, place, hn⟩ := exists_typeAndPlace hp
  unfold Settles
  rw [firstMisfit_of_not_fits hs]
  refine ⟨type, place, hn, ?_⟩
  rw [Node.refuse, hn]
  rfl

end Settles

-- ---------------------------------------------------------------------------
-- Lists
-- ---------------------------------------------------------------------------

theorem sites_of_isPresent (hp : n.isPresent = true) : sites position [n] = [⟨position, n⟩] := by
  simp [sites, hp]

theorem sites_cons : sites position (n :: ns) = sites position [n] ++ sites position ns := by
  simp only [sites, ← List.map_append, ← List.filter_append, List.singleton_append]

theorem Settles.cons {r : Converted α} {f : α → Converted β}
    (h : Settles (sites position [n]) r) (hf : ∀ x, Settles (sites position ns) (f x)) :
    Settles (sites position (n :: ns)) (r >>= f) := by
  rw [sites_cons]
  exact h.append hf

theorem Settles.mapM {f : Node → Converted Form}
    (h : ∀ n ∈ ns, Settles (sites position [n]) (f n)) :
    Settles (sites position ns) (ns.mapM f) := by
  induction ns with
  | nil => exact .done
  | cons n rest ih =>
    rw [List.forall_mem_cons] at h
    rw [List.mapM_cons]
    exact .cons h.1 fun _ => .last (ih h.2)

-- ---------------------------------------------------------------------------
-- What is done with a node
-- ---------------------------------------------------------------------------

/-- Each conversion of a node ends as the node demands at the position. -/
structure Node.Settled (n : Node) : Prop where
  statement (hp : n.isPresent = true) : Settles (sites .statement [n]) (Script.statement n)
  expression (hp : n.isPresent = true) : Settles (sites .expression [n]) (Script.expression n)
  parameter (hp : n.isPresent = true) : Settles (sites .parameter [n]) (Script.parameter n)
  declarator (hd : n.isDeclarator = true) : Settles (sites .declarator [n]) (Script.declarator n)
  target (hp : n.isPresent = true) : Settles (sites .loopHead [n]) (loopTarget n)
  field (hp : n.isPresent = true) : Settles (sites .field [n]) (objectField n)
  block (hb : n.isBlock = true) : Settles (sites .statement [n]) (blockBody n)
  members (hb : n.isClassBody = true) : Settles (sites .classBody [n]) (Script.classBody n)

/-- What is supposed of the children of a node. -/
abbrev Node.Follows : Node → Prop := Node.Supposed Node.complete Node.Settled

theorem statements_settle (hp : ns.all Node.isPresent = true) (ih : ∀ n ∈ ns, n.Settled) :
    Settles (sites .statement ns) (statements ns) := by
  rw [statements_eq_mapM]
  rw [List.all_eq_true] at hp
  exact .mapM fun n hn => (ih n hn).statement (hp n hn)

theorem expressions_settle (hp : ns.all Node.isPresent = true) (ih : ∀ n ∈ ns, n.Settled) :
    Settles (sites .expression ns) (expressions ns) := by
  rw [expressions_eq_mapM]
  rw [List.all_eq_true] at hp
  exact .mapM fun n hn => (ih n hn).expression (hp n hn)

theorem parameters_settle (hp : ns.all Node.isPresent = true) (ih : ∀ n ∈ ns, n.Settled) :
    Settles (sites .parameter ns) (parameters ns) := by
  rw [parameters_eq_mapM]
  rw [List.all_eq_true] at hp
  exact .mapM fun n hn => (ih n hn).parameter (hp n hn)

theorem declarators_settle (hd : ns.all Node.isDeclarator = true) (ih : ∀ n ∈ ns, n.Settled) :
    Settles (sites .declarator ns) (declarators ns) := by
  rw [declarators_eq_mapM]
  rw [List.all_eq_true] at hd
  exact .mapM fun n hn => (ih n hn).declarator (hd n hn)

theorem objectFields_settle (hp : ns.all Node.isPresent = true) (ih : ∀ n ∈ ns, n.Settled) :
    Settles (sites .field ns) (objectFields ns) := by
  rw [objectFields_eq_mapM]
  rw [List.all_eq_true] at hp
  exact .mapM fun n hn => (ih n hn).field (hp n hn)

/-- Holes are passed over. -/
theorem elements_settle (ih : ∀ n ∈ ns, n.Settled) :
    Settles (sites .expression ns) (elements ns) := by
  rw [elements_eq_mapM]
  refine .mapM fun n hn => ?_
  cases n with
  | absent => exact .done
  | _ => exact (ih _ hn).expression rfl

theorem optionally_settles (h : n.isPresent = true → Settles (sites position [n]) (convert ())) :
    Settles (sites position [n]) (optionally key n convert) := by
  cases n with
  | absent => exact .done
  | _ => exact .last (h rfl)

-- ---------------------------------------------------------------------------
-- Parts of nodes
-- ---------------------------------------------------------------------------

theorem refuseAt_eq (hc : n.complete = true) :
    (n.refuseAt types : Converted α) = n.refuse := by
  cases n with
  | incomplete => simp [Node.complete] at hc
  | _ => rfl

theorem functionBody_settles (ih : n.Settled) (hp : n.isPresent = true) :
    Settles (sites .statement [n])
      (functionBody n (fun _ => blockBody n) fun _ => statement n) := by
  unfold functionBody
  split
  · exact ih.block rfl
  · exact .last (ih.statement hp)

theorem arrowBody_settles (hc : n.complete = true) (ih : n.Settled) (hp : n.isPresent = true) :
    Settles (sites n.arrowPosition [n])
      (arrowBody n (fun _ => blockBody n) fun _ => expression n) := by
  unfold arrowBody
  split
  · exact .last (ih.block rfl)
  · simp [Node.complete] at hc
  · rename_i hb _
    have he : n.arrowPosition = .expression := by
      unfold Node.arrowPosition
      split
      · exact (hb _ _ _ rfl).elim
      · rfl
    rw [he]
    exact .last (ih.expression hp)

theorem plainKey_settles (hc : n.complete = true) (hp : n.isPresent = true) :
    Settles (sites .key [n]) (plainKey n) := by
  cases n <;> simp only [plainKey, refuseAt_eq hc]
  case absent => cases hp
  case identifier => exact .enter rfl .done
  case stringLiteral => exact .enter rfl .done
  case numericLiteral => exact .enter rfl .done
  all_goals exact .refuse rfl rfl

theorem propertyKey_settles (hc : n.complete = true) (ih : n.Settled) (hp : n.isPresent = true) :
    Settles (sites (keyPosition computed) [n])
      (propertyKey computed n fun _ => expression n) := by
  cases computed with
  | false => exact plainKey_settles hc hp
  | true => exact .last (ih.expression hp)

theorem nameMember_settles (hp : n.isPresent = true) : Settles [] (nameMember key n) := by
  cases n with
  | absent => cases hp
  | _ => exact .done

theorem memberProperty_settles (ih : n.Settled) (hp : n.isPresent = true) :
    Settles (sites .expression (if computed then [n] else []))
      (memberProperty computed n fun _ => expression n) := by
  cases computed with
  | true => exact .last (ih.expression hp)
  | false => exact nameMember_settles hp

theorem templateParts_settle (hq : ns.all Node.isQuasi = true) : Settles [] (templateParts ns) := by
  induction ns with
  | nil => exact .done
  | cons n rest ih =>
    rw [List.all_cons, Bool.and_eq_true] at hq
    cases n <;> simp only [Node.isQuasi, Bool.false_eq_true, false_and] at hq
    exact .last (ih hq.2)

/-- A declaration is reported as a whole if its kind is none of the three. -/
theorem declarationMembers_settles {declarations : List Node}
    (hc : (Node.variableDeclaration p kind declarations).complete = true)
    (ih : ∀ d ∈ declarations, d.Settled) :
    Settles (sites .statement [.variableDeclaration p kind declarations])
      (declarationMembers (.variableDeclaration p kind declarations) kind
        fun _ => declarators declarations) := by
  simp only [Node.complete, Bool.and_eq_true] at hc
  obtain ⟨hk, hd⟩ := hc
  unfold declarationMembers
  simp only [Node.declarationKinds, List.map_cons, List.map_nil, List.contains_iff_mem,
    List.mem_cons, List.not_mem_nil, or_false] at hk
  rcases hk with rfl | rfl | rfl | rfl | rfl <;>
    simp only [declarationKind?, Text.toString?_ofString]
  · exact .enter (by simp [Site.fits, Node.isStatement]) (.last (declarators_settle hd ih))
  · exact .enter (by simp [Site.fits, Node.isStatement]) (.last (declarators_settle hd ih))
  · exact .enter (by simp [Site.fits, Node.isStatement]) (.last (declarators_settle hd ih))
  · exact .refuse rfl rfl
  · exact .refuse rfl rfl

-- ---------------------------------------------------------------------------
-- Bindings
-- ---------------------------------------------------------------------------

theorem parameter_settles (hc : n.complete = true) (ih : ∀ c ∈ n.children, c.Follows)
    (hp : n.isPresent = true) : Settles (sites .parameter [n]) (parameter n) := by
  unfold parameter
  cases n <;> try simp only [refuseAt_eq hc]
  case absent => cases hp
  case identifier => exact .enter rfl .done
  case assignmentPattern left right =>
    simp only [Node.complete, Bool.and_eq_true] at hc
    simp only [Node.children, List.forall_mem_cons] at ih
    obtain ⟨hl, hr⟩ := hc
    obtain ⟨ihleft, ihright, -⟩ := ih
    cases left <;> try simp only [refuseAt_eq ihleft.holds]
    case absent => cases hl
    case identifier => exact .enter rfl (.skip rfl rfl (.last (ihright.self.expression hr)))
    all_goals exact .enter rfl (.refuse rfl rfl)
  case restElement argument =>
    simp only [Node.complete] at hc
    simp only [Node.children, List.forall_mem_cons] at ih
    obtain ⟨ihargument, -⟩ := ih
    cases argument <;> try simp only [refuseAt_eq ihargument.holds]
    case absent => cases hc
    case identifier => exact .enter rfl (.skip rfl rfl .done)
    all_goals exact .enter rfl (.refuse rfl rfl)
  all_goals exact .refuse rfl rfl

theorem declarator_settles (hc : n.complete = true) (ih : ∀ c ∈ n.children, c.Follows)
    (hd : n.isDeclarator = true) : Settles (sites .declarator [n]) (declarator n) := by
  cases n <;> simp only [Node.isDeclarator, Bool.false_eq_true] at hd
  case variableDeclarator id init =>
    simp only [Node.complete] at hc
    simp only [Node.children, List.forall_mem_cons] at ih
    obtain ⟨ihid, ihinit, -⟩ := ih
    cases id <;> simp only [declarator, refuseAt_eq ihid.holds]
    case absent => cases hc
    case identifier =>
      exact .enter rfl (.skip rfl rfl (.last (optionally_settles ihinit.self.expression)))
    all_goals exact .enter rfl (.refuse rfl rfl)

theorem loopTarget_settles (hc : n.complete = true) (ih : ∀ c ∈ n.children, c.Follows)
    (hp : n.isPresent = true) : Settles (sites .loopHead [n]) (loopTarget n) := by
  unfold loopTarget
  split
  · rename_i declaration
    simp only [Node.complete, Bool.and_eq_true, List.all_cons, List.all_nil, and_true] at hc
    rw [Node.children, List.forall_mem_singleton] at ih
    exact .enter rfl (ih.self.declarator hc.2)
  · exact .enter rfl .done
  · rename_i hv hi
    rw [refuseAt_eq hc]
    have hf : Site.fits ⟨.loopHead, n⟩ = false := by
      cases n with
      | variableDeclaration p kind list =>
        simp only [Site.fits, Node.isLoopHead, beq_eq_false_iff_ne]
        intro hl
        obtain ⟨d, rfl⟩ := List.length_eq_one_iff.mp hl
        exact hv _ _ _ rfl
      | identifier => exact (hi _ _ rfl).elim
      | _ => rfl
    rw [sites_of_isPresent hp]
    exact .refuse hf hp

-- ---------------------------------------------------------------------------
-- Fields and members
-- ---------------------------------------------------------------------------

theorem objectField_settles (hc : n.complete = true) (ih : ∀ c ∈ n.children, c.Follows)
    (hp : n.isPresent = true) : Settles (sites .field [n]) (objectField n) := by
  cases n <;> simp only [objectField, refuseAt_eq hc]
  case absent => cases hp
  case objectProperty key value =>
    simp only [Node.complete, Bool.and_eq_true] at hc
    simp only [Node.children, List.forall_mem_cons] at ih
    obtain ⟨hk, hv⟩ := hc
    obtain ⟨ihkey, ihvalue, -⟩ := ih
    exact .enter rfl (.append (ihvalue.self.expression hv) fun _ =>
      .last (propertyKey_settles ihkey.holds ihkey.self hk))
  case objectMethod key params body =>
    simp only [Node.complete, Bool.and_eq_true] at hc
    simp only [Node.children, List.forall_mem_cons] at ih
    obtain ⟨⟨hk, hps⟩, hb⟩ := hc
    obtain ⟨ihkey, ihbody, ihparams⟩ := ih
    refine .enter rfl ?_
    rw [Site.parts, List.append_assoc]
    exact .append (propertyKey_settles ihkey.holds ihkey.self hk) fun _ =>
      .append (parameters_settle hps (Node.Supposed.all ihparams)) fun _ =>
        .last (functionBody_settles ihbody.self hb)
  case spreadElement argument =>
    simp only [Node.complete] at hc
    simp only [Node.children, List.forall_mem_cons] at ih
    obtain ⟨ihargument, -⟩ := ih
    exact .enter rfl (.last (ihargument.self.expression hc))
  all_goals exact .refuse rfl rfl

theorem classMembers_settle (hp : ns.all Node.isPresent = true) (ih : ∀ n ∈ ns, n.Follows) :
    Settles (sites .member ns) (classMembers ns) := by
  induction ns with
  | nil => exact .done
  | cons n rest hrest =>
    rw [List.all_cons, Bool.and_eq_true] at hp
    rw [List.forall_mem_cons] at ih
    obtain ⟨hp, hps⟩ := hp
    obtain ⟨⟨hc, -, ihn⟩, ihrest⟩ := ih
    have hrest := hrest hps ihrest
    cases n <;> simp only [classMembers, refuseAt_eq hc]
    case absent => cases hp
    case classProperty computed key value =>
      simp only [Node.complete] at hc
      simp only [Node.children, List.forall_mem_cons] at ihn
      obtain ⟨ihkey, ihvalue, -⟩ := ihn
      refine .enterThen rfl ?_
      rw [Site.parts, List.append_assoc]
      exact .append (propertyKey_settles ihkey.holds ihkey.self hc) fun _ =>
        .append (optionally_settles ihvalue.self.expression) fun _ => .last hrest
    case classMethod computed kind flags key params body =>
      simp only [Node.complete, Bool.and_eq_true] at hc
      simp only [Node.children, List.forall_mem_cons] at ihn
      obtain ⟨⟨hk, hps⟩, hb⟩ := hc
      obtain ⟨-, ihbody, ihparams⟩ := ihn
      cases computed with
      | true => exact .refuse rfl rfl
      | false =>
        -- The key is not looked at, and always has a name.
        have hname : Settles [] (methodName key) := by
          cases key <;> first | exact .done | cases hk
        refine .enterThen rfl ?_
        rw [Site.parts, List.append_assoc]
        exact .free hname fun _ =>
          .append (parameters_settle hps (Node.Supposed.all ihparams)) fun _ =>
            .append (functionBody_settles ihbody.self hb) fun _ => .last hrest
    all_goals exact .refuse rfl rfl

theorem classBody_settles (hc : n.complete = true) (ih : ∀ c ∈ n.children, c.Follows)
    (hb : n.isClassBody = true) : Settles (sites .classBody [n]) (classBody n) := by
  cases n <;> simp only [Node.isClassBody, Bool.false_eq_true] at hb
  case classBody body => exact .enter rfl (classMembers_settle hc ih)

-- ---------------------------------------------------------------------------
-- Statements
-- ---------------------------------------------------------------------------

theorem blockBody_settles (hc : n.complete = true) (ih : ∀ c ∈ n.children, c.Follows)
    (hb : n.isBlock = true) : Settles (sites .statement [n]) (blockBody n) := by
  cases n <;> simp only [Node.isBlock, Bool.false_eq_true] at hb
  case blockStatement body =>
    exact .enter rfl (statements_settle hc (Node.Supposed.all ih))

theorem catchMember_settles (h : n.Follows) (ho : n.isOptional Node.isCatchClause = true) :
    Settles (sites .catchClause [n]) (catchMember n) := by
  have hc := h.holds
  have ih := h.deeper
  cases n <;> simp only [Node.isOptional, Node.isPresent, Node.isCatchClause, Bool.not_true,
    Bool.or_self, Bool.false_eq_true] at ho
  case absent => exact .done
  case catchClause param body =>
    simp only [Node.complete] at hc
    simp only [Node.children, List.forall_mem_cons] at ih
    obtain ⟨ihparam, ihbody, -⟩ := ih
    simp only [catchMember]
    exact .enter rfl (.append (ihbody.self.block hc) fun _ =>
      .last (optionally_settles ihparam.self.parameter))

theorem switchCases_settle (hc : ns.all Node.isCase = true) (ih : ∀ n ∈ ns, n.Follows) :
    Settles (sites .switchCase ns) (switchCases ns) := by
  rw [switchCases_eq_mapM]
  rw [List.all_eq_true] at hc
  refine .mapM fun n hn => ?_
  have hcase := hc n hn
  have hcomplete := (ih n hn).holds
  have ih := (ih n hn).deeper
  cases n <;> simp only [Node.isCase, Bool.false_eq_true] at hcase
  case switchCase test consequent =>
    simp only [Node.complete] at hcomplete
    simp only [Node.children, List.forall_mem_cons] at ih
    obtain ⟨ihtest, ihconsequent⟩ := ih
    exact .enter rfl (.append (statements_settle hcomplete (Node.Supposed.all ihconsequent))
      fun _ => .last (optionally_settles ihtest.self.expression))

theorem loopStart_settles (h : n.Follows) :
    Settles (sites n.startPosition [n])
      (loopStart n (fun _ => declarations n) fun _ => expression n) := by
  unfold loopStart
  split
  · exact .done
  · exact .last (declarationMembers_settles h.holds (Node.Supposed.all h.deeper))
  · rename_i ha hd
    have hs : n.startPosition = .expression := by
      unfold Node.startPosition
      split
      · exact (hd _ _ _ rfl).elim
      · rfl
    rw [hs]
    refine .last (h.self.expression ?_)
    cases n <;> first | rfl | exact (ha rfl).elim

theorem statement_settles (hc : n.complete = true) (ih : ∀ c ∈ n.children, c.Follows)
    (hp : n.isPresent = true) : Settles (sites .statement [n]) (statement n) := by
  cases n <;> simp only [statement, refuseAt_eq hc] <;>
    simp only [Node.complete, Bool.and_eq_true] at hc <;>
    simp only [Node.children, List.forall_mem_cons] at ih
  case absent => cases hp
  case emptyStatement => exact .enter rfl .done
  case blockStatement body => exact .enter rfl (.last (statements_settle hc (Node.Supposed.all ih)))
  case variableDeclaration list =>
    exact .last (declarationMembers_settles (by simpa [Node.complete] using hc)
      (Node.Supposed.all ih))
  case functionDeclaration id params body =>
    obtain ⟨⟨hi, hps⟩, hb⟩ := hc
    obtain ⟨-, ihbody, ihparams⟩ := ih
    have hid : id.isPresent = true := by cases id <;> first | rfl | cases hi
    exact .enter rfl (.free (nameMember_settles hid) fun _ =>
      .append (parameters_settle hps (Node.Supposed.all ihparams)) fun _ =>
        .last (functionBody_settles ihbody.self hb))
  case classDeclaration id superClass body =>
    obtain ⟨-, ihsuper, ihbody, -⟩ := ih
    exact .enter rfl (.append (optionally_settles ihsuper.self.expression) fun _ =>
      .last (ihbody.self.members hc.2))
  case returnStatement argument =>
    obtain ⟨ihargument, -⟩ := ih
    exact .enter rfl (.last (optionally_settles ihargument.self.expression))
  case expressionStatement e =>
    obtain ⟨ihe, -⟩ := ih
    exact .enter rfl (.last (ihe.self.expression hc))
  case ifStatement test consequent alternate =>
    obtain ⟨ht, hy⟩ := hc
    obtain ⟨ihtest, ihconsequent, ihalternate, -⟩ := ih
    exact .enter rfl (.append (ihtest.self.expression ht) fun _ =>
      .cons (ihconsequent.self.statement hy) fun _ =>
        .last (optionally_settles ihalternate.self.statement))
  case whileStatement test body =>
    obtain ⟨ht, hb⟩ := hc
    obtain ⟨ihtest, ihbody, -⟩ := ih
    exact .enter rfl (.append (ihtest.self.expression ht) fun _ => .last (ihbody.self.statement hb))
  case doWhileStatement body test =>
    obtain ⟨hb, ht⟩ := hc
    obtain ⟨ihbody, ihtest, -⟩ := ih
    exact .enter rfl (.append (ihbody.self.statement hb) fun _ => .last (ihtest.self.expression ht))
  case forStatement init test update body =>
    obtain ⟨ihinit, ihtest, ihupdate, ihbody, -⟩ := ih
    refine .enter rfl ?_
    rw [Site.parts, Node.statementSites, List.append_assoc]
    exact .append (ihbody.self.statement hc) fun _ =>
      .append (loopStart_settles ihinit) fun _ =>
        .cons (optionally_settles ihtest.self.expression) fun _ =>
          .last (optionally_settles ihupdate.self.expression)
  case forInStatement left right body =>
    obtain ⟨⟨hl, hr⟩, hb⟩ := hc
    obtain ⟨ihleft, ihright, ihbody, -⟩ := ih
    refine .enter rfl ?_
    rw [Site.parts, Node.statementSites, List.append_assoc]
    exact .append (ihleft.self.target hl) fun _ =>
      .append (ihright.self.expression hr) fun _ => .last (ihbody.self.statement hb)
  case forOfStatement left right body =>
    obtain ⟨⟨hl, hr⟩, hb⟩ := hc
    obtain ⟨ihleft, ihright, ihbody, -⟩ := ih
    refine .enter rfl ?_
    rw [Site.parts, Node.statementSites, List.append_assoc]
    exact .append (ihleft.self.target hl) fun _ =>
      .append (ihright.self.expression hr) fun _ => .last (ihbody.self.statement hb)
  case breakStatement => exact .enter rfl .done
  case continueStatement => exact .enter rfl .done
  case tryStatement block handler finalizer =>
    obtain ⟨⟨hb, hh⟩, hf⟩ := hc
    obtain ⟨ihblock, ihhandler, ihfinalizer, -⟩ := ih
    have hfinalizer (hp : finalizer.isPresent = true) : finalizer.isBlock = true := by
      simpa [Node.isOptional, hp] using hf
    refine .enter rfl ?_
    rw [Site.parts, Node.statementSites, List.append_assoc]
    exact .append (ihblock.self.block hb) fun _ =>
      .append (catchMember_settles ihhandler hh) fun _ =>
        .last (optionally_settles fun hp => .last (ihfinalizer.self.block (hfinalizer hp)))
  case throwStatement argument =>
    obtain ⟨ihargument, -⟩ := ih
    exact .enter rfl (.last (ihargument.self.expression hc))
  case switchStatement discriminant cases =>
    obtain ⟨hd, hcases⟩ := hc
    obtain ⟨ihdiscriminant, ihcases⟩ := ih
    exact .enter rfl (.append (ihdiscriminant.self.expression hd) fun _ =>
      .last (switchCases_settle hcases ihcases))
  all_goals exact .refuse rfl rfl

-- ---------------------------------------------------------------------------
-- Expressions
-- ---------------------------------------------------------------------------

theorem expression_settles (hc : n.complete = true) (ih : ∀ c ∈ n.children, c.Follows)
    (hp : n.isPresent = true) : Settles (sites .expression [n]) (expression n) := by
  cases n <;> simp only [expression, refuseAt_eq hc] <;>
    simp only [Node.complete, Bool.and_eq_true] at hc <;>
    simp only [Node.children, List.forall_mem_cons] at ih
  case absent => cases hp
  case identifier => exact .enter rfl .done
  case numericLiteral => exact .enter rfl .done
  case bigIntLiteral => exact .enter rfl .done
  case stringLiteral => exact .enter rfl .done
  case templateLiteral quasis values =>
    obtain ⟨hq, hv⟩ := hc
    rw [List.forall_mem_append] at ih
    obtain ⟨-, ihvalues⟩ := ih
    exact .enter rfl (.free (templateParts_settle hq) fun _ =>
      .last (expressions_settle hv (Node.Supposed.all ihvalues)))
  case regExpLiteral => exact .enter rfl .done
  case booleanLiteral => exact .enter rfl .done
  case nullLiteral => exact .enter rfl .done
  case thisExpression => exact .enter rfl .done
  case arrayExpression values =>
    exact .enter rfl (.last (elements_settle (Node.Supposed.all ih)))
  case objectExpression properties =>
    exact .enter rfl (.last (objectFields_settle hc (Node.Supposed.all ih)))
  case functionExpression id params body =>
    obtain ⟨⟨-, hps⟩, hb⟩ := hc
    obtain ⟨-, ihbody, ihparams⟩ := ih
    exact .enter rfl (.append (parameters_settle hps (Node.Supposed.all ihparams)) fun _ =>
      .last (functionBody_settles ihbody.self hb))
  case arrowFunctionExpression params body =>
    obtain ⟨hps, hb⟩ := hc
    obtain ⟨ihbody, ihparams⟩ := ih
    exact .enter rfl (.append (parameters_settle hps (Node.Supposed.all ihparams)) fun _ =>
      .last (arrowBody_settles ihbody.holds ihbody.self hb))
  case callExpression callee arguments =>
    obtain ⟨hcallee, hargs⟩ := hc
    obtain ⟨ihcallee, iharguments⟩ := ih
    exact .enter rfl (.append (ihcallee.self.expression hcallee) fun _ =>
      .last (expressions_settle hargs (Node.Supposed.all iharguments)))
  case newExpression callee arguments =>
    obtain ⟨hcallee, hargs⟩ := hc
    obtain ⟨ihcallee, iharguments⟩ := ih
    exact .enter rfl (.append (ihcallee.self.expression hcallee) fun _ =>
      .last (expressions_settle hargs (Node.Supposed.all iharguments)))
  case memberExpression computed object property =>
    obtain ⟨ho, hproperty⟩ := hc
    obtain ⟨ihobject, ihproperty, -⟩ := ih
    exact .enter rfl (.append (ihobject.self.expression ho) fun _ =>
      .last (memberProperty_settles ihproperty.self hproperty))
  case unaryExpression argument =>
    obtain ⟨ihargument, -⟩ := ih
    exact .enter rfl (.last (ihargument.self.expression hc))
  case binaryExpression left right =>
    obtain ⟨hl, hr⟩ := hc
    obtain ⟨ihleft, ihright, -⟩ := ih
    exact .enter rfl (.cons (ihleft.self.expression hl) fun _ => .last (ihright.self.expression hr))
  case updateExpression argument =>
    obtain ⟨ihargument, -⟩ := ih
    exact .enter rfl (.last (ihargument.self.expression hc))
  case assignmentExpression left right =>
    obtain ⟨hl, hr⟩ := hc
    obtain ⟨ihleft, ihright, -⟩ := ih
    exact .enter rfl (.cons (ihleft.self.expression hl) fun _ => .last (ihright.self.expression hr))
  case conditionalExpression test consequent alternate =>
    obtain ⟨⟨ht, hy⟩, hn⟩ := hc
    obtain ⟨ihtest, ihconsequent, ihalternate, -⟩ := ih
    exact .enter rfl (.cons (ihtest.self.expression ht) fun _ =>
      .cons (ihconsequent.self.expression hy) fun _ => .last (ihalternate.self.expression hn))
  case sequenceExpression values =>
    exact .enter rfl (.last (expressions_settle hc (Node.Supposed.all ih)))
  case awaitExpression argument =>
    obtain ⟨ihargument, -⟩ := ih
    exact .enter rfl (.last (ihargument.self.expression hc))
  case yieldExpression argument =>
    obtain ⟨ihargument, -⟩ := ih
    exact .enter rfl (.last (optionally_settles ihargument.self.expression))
  case spreadElement argument =>
    obtain ⟨ihargument, -⟩ := ih
    exact .enter rfl (.last (ihargument.self.expression hc))
  case parenthesizedExpression e =>
    obtain ⟨ihe, -⟩ := ih
    exact .enter rfl (ihe.self.expression hc)
  case intrinsicIdentifier => exact .enter rfl .done
  all_goals exact .refuse rfl rfl

-- ---------------------------------------------------------------------------
-- Whole scripts
-- ---------------------------------------------------------------------------

theorem Node.WellFormed.settled (h : n.WellFormed) : n.Settled :=
  Node.Every.induction (fun _ hc ih => {
    statement := statement_settles hc ih
    expression := expression_settles hc ih
    parameter := parameter_settles hc ih
    declarator := declarator_settles hc ih
    target := loopTarget_settles hc ih
    field := objectField_settles hc ih
    block := blockBody_settles hc ih
    members := classBody_settles hc ih }) h

/-- All nodes of a script that are reached, in order. -/
def Program.reached (p : Program) : List Site := (sites .statement p.body).flatMap Site.reached

theorem form_settles {p : Program} (hp : p.WellFormed) :
    Settles (sites .statement p.body) p.form :=
  .last (statements_settle hp.1 fun n hn => (hp.2 n hn).settled)

/-- The statement `debugger;` at the end of `for (var [a];;) debugger;`. -/
def Node.debugger : Node := .other (some ⟨1, 16⟩) (Text.ofString "DebuggerStatement") none none

/-- The script `for (var [a];;) debugger;`, which has two nodes that do not fit. -/
def Program.unfit : Program :=
  ⟨[], [.forStatement none (.variableDeclaration none (Text.ofString "var")
    [.variableDeclarator none (.other none (Text.ofString "ArrayPattern") none none) .absent])
    .absent .absent .debugger]⟩

theorem unfit_wellFormed : Program.unfit.WellFormed := by
  refine ⟨rfl, List.forall_mem_singleton.mpr (.mk rfl ?_)⟩
  simp only [Node.children, List.forall_mem_cons]
  refine ⟨.mk rfl ?_, .leaf rfl rfl, .leaf rfl rfl, .leaf rfl rfl, List.forall_mem_nil _⟩
  refine List.forall_mem_singleton.mpr (.mk rfl ?_)
  simp only [Node.children, List.forall_mem_cons]
  exact ⟨.leaf rfl rfl, .leaf rfl rfl, List.forall_mem_nil _⟩

/-- The body of the loop is reached before its start. -/
theorem unfit_misfit :
    Program.unfit.reached.find? (fun s => !s.fits) = some ⟨.statement, .debugger⟩ := by
  have hloop : firstMisfit (sites .statement Program.unfit.body) =
      firstMisfit (sites .statement [.debugger] ++ sites .statement
        [.variableDeclaration none (Text.ofString "var")
          [.variableDeclarator none (.other none (Text.ofString "ArrayPattern") none none)
            .absent]]) :=
    firstMisfit_of_fits rfl
  exact hloop.trans (firstMisfit_of_not_fits rfl)

/-- A well-formed script has a form if all its nodes that are reached fit, and no other does: then
the message names the first that does not, and its place if it has one. -/
theorem form_verdict {p : Program} (hp : p.WellFormed) :
    ((∃ o, p.form = .ok o) ↔ ∀ s ∈ p.reached, s.fits = true) ∧
      ∀ s, p.reached.find? (fun s => !s.fits) = some s →
        ∃ type place fault, s.node.typeAndPlace? = some (type, place) ∧ p.form = .error fault ∧
          fault.message = "Unsupported node type: " ++ type.toStringLossy ++
            (match place with
              | some at_ => s!" ({at_.line}:{at_.column})"
              | none => "") := by
  have h := form_settles hp
  unfold Settles firstMisfit at h
  refine ⟨?_, fun s hs => ?_⟩
  · constructor
    · rintro ⟨o, ho⟩
      split at h
      · rename_i hm
        simpa [Program.reached] using List.find?_eq_none.mp hm
      · obtain ⟨_, _, -, he⟩ := h
        rw [ho] at he
        cases he
    · intro hf
      rw [List.find?_eq_none.mpr fun s hs => by simp [hf s hs]] at h
      exact h
  · rw [Program.reached] at hs
    rw [hs] at h
    obtain ⟨type, place, hn, he⟩ := h
    refine ⟨type, place, _, hn, he, ?_⟩
    cases place <;> rfl

theorem unfit_verdict :
    Program.unfit.WellFormed ∧
      Program.unfit.reached.find? (fun s => !s.fits) = some ⟨.statement, .debugger⟩ ∧
      ∃ fault, Program.unfit.form = .error fault ∧
        fault.message = "Unsupported node type: DebuggerStatement (1:16)" := by
  refine ⟨unfit_wellFormed, unfit_misfit, ?_⟩
  obtain ⟨type, place, fault, hn, he, hm⟩ := (form_verdict unfit_wellFormed).2 _ unfit_misfit
  cases hn
  exact ⟨fault, he, hm.trans (by decide)⟩

end Treewire.Script
