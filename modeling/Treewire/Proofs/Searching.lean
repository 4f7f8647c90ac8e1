import Treewire.Proofs.Establishing
import Treewire.Proofs.Spelling

/-!
# What a search comes to

A candidate qualifies, is passed over, or is one that the system refuses to look at. A search goes
through its candidates in order and ends at the first that is not passed over; none after it is
looked at.
-/

namespace Treewire

/-- Reasons that say no more than that nothing is there. -/
def FileError.isAbsence : FileError → Bool
  | .noEntry | .notDirectory | .tooManyLinks => true
  | _ => false

/-- Whether an entry is a file that may be executed. -/
def Entry.isProgram : Entry → Bool
  | .file _ mode => Files.isExecutableMode mode
  | .tool _ => true
  | _ => false

namespace Search

variable {m : Machine} {p : Path} {ps qs before : List Path} {binary : Text} {e : FileError}

/-- Where a program may be in a directory. -/
def placeIn (binary directory : Text) : Path :=
  (Path.ofText directory).join (Path.ofText binary)

/-- A path leads, through links, to a file that may be executed. -/
def Qualifies (m : Machine) (p : Path) : Prop :=
  isTellable p = true ∧ ∃ loc entry, m.files.stat m.here p.toString = .ok (loc, entry) ∧
    entry.isProgram = true

/-- The system refuses to look where a path leads, for a reason other than that nothing is there. -/
def Refuses (m : Machine) (p : Path) (e : FileError) : Prop :=
  isTellable p = true ∧ m.files.stat m.here p.toString = .error e ∧ e.isAbsence = false

/-- Nothing that can be executed is there, and nothing forbids to look. -/
def PassedOver (m : Machine) (p : Path) : Prop := isExecutable m p = .ok false

-- ---------------------------------------------------------------------------
-- One candidate
-- ---------------------------------------------------------------------------

theorem isExecutable_eq (m : Machine) (p : Path) : isExecutable m p =
    if isTellable p then
      match m.files.stat m.here p.toString with
      | .ok (_, entry) => .ok entry.isProgram
      | .error e => if e.isAbsence then .ok false else .error e
    else .ok false := by
  rw [isExecutable]
  cases isTellable p with
  | false => rfl
  | true =>
    simp only [Bool.not_true, Bool.false_eq_true, if_false, if_true, Files.isFile]
    rcases m.files.stat m.here p.toString with e | ⟨loc, entry⟩
    · cases e <;> rfl
    · cases entry <;> rfl

theorem isExecutable_true : isExecutable m p = .ok true ↔ Qualifies m p := by
  rw [isExecutable_eq, Qualifies]
  cases isTellable p with
  | false => simp
  | true =>
    rcases m.files.stat m.here p.toString with e | ⟨loc, entry⟩
    · cases ha : e.isAbsence <;> simp [ha]
    · simp [and_assoc]

theorem isExecutable_error : isExecutable m p = .error e ↔ Refuses m p e := by
  rw [isExecutable_eq, Refuses]
  cases isTellable p with
  | false => simp
  | true =>
    rcases m.files.stat m.here p.toString with other | ⟨loc, entry⟩
    · simp only [if_true, true_and, Except.error.injEq]
      cases ha : other.isAbsence
      · simp only [Bool.false_eq_true, if_false, Except.error.injEq]
        exact ⟨fun h => ⟨h, h ▸ ha⟩, And.left⟩
      · refine iff_of_false nofun ?_
        rintro ⟨rfl, hpresent⟩
        cases ha.symm.trans hpresent
    · simp

/-- Each candidate qualifies, is passed over or is refused. -/
theorem looks (m : Machine) (p : Path) :
    Qualifies m p ∨ PassedOver m p ∨ ∃ e, Refuses m p e := by
  cases h : isExecutable m p with
  | error e => exact .inr (.inr ⟨e, isExecutable_error.mp h⟩)
  | ok b =>
    cases b with
    | false => exact .inr (.inl h)
    | true => exact .inl (isExecutable_true.mp h)

theorem PassedOver.not_qualifies (h : PassedOver m p) : ¬Qualifies m p := fun hq => by
  cases h.symm.trans (isExecutable_true.mpr hq)

/-- What cannot be looked up is passed over, for a reason that says no more. -/
theorem passedOver_of_error (h : m.files.stat m.here p.toString = .error e)
    (ha : e.isAbsence = true) : PassedOver m p := by
  rw [PassedOver, isExecutable_eq, h]
  cases isTellable p <;> simp [ha]

-- ---------------------------------------------------------------------------
-- Candidates in order
-- ---------------------------------------------------------------------------

/-- The first candidate that qualifies, unless one before it is refused. -/
def first (m : Machine) : List Path → Except FileError (Option Path)
  | [] => .ok none
  | p :: rest =>
    match isExecutable m p with
    | .ok true => .ok (some p)
    | .ok false => first m rest
    | .error e => .error e

theorem first_cons_of_passedOver (h : PassedOver m p) : first m (p :: ps) = first m ps := by
  rw [first, h]

theorem first_cons_of_qualifies (h : Qualifies m p) : first m (p :: ps) = .ok (some p) := by
  rw [first, isExecutable_true.mpr h]

theorem first_cons_of_refuses (h : Refuses m p e) : first m (p :: ps) = .error e := by
  rw [first, isExecutable_error.mpr h]

theorem first_append (ps qs : List Path) : first m (ps ++ qs) =
    match first m ps with
    | .ok none => first m qs
    | found => found := by
  induction ps with
  | nil => rfl
  | cons p rest ih =>
    rw [List.cons_append]
    rcases looks m p with h | h | ⟨e, h⟩
    · rw [first_cons_of_qualifies h, first_cons_of_qualifies h]
    · rw [first_cons_of_passedOver h, first_cons_of_passedOver h, ih]
    · rw [first_cons_of_refuses h, first_cons_of_refuses h]

/-- Some candidates are gone through without anything found, and then comes one. -/
def ComesTo (m : Machine) (ps : List Path) (p : Path) : Prop :=
  ∃ before after, ps = before ++ p :: after ∧ ∀ q ∈ before, PassedOver m q

theorem first_of_passedOver (h : ∀ q ∈ ps, PassedOver m q) : first m ps = .ok none := by
  induction ps with
  | nil => rfl
  | cons p rest ih =>
    rw [List.forall_mem_cons] at h
    rw [first_cons_of_passedOver h.1, ih h.2]

theorem ComesTo.mem (h : ComesTo m ps p) : p ∈ ps := by
  obtain ⟨before, after, rfl, -⟩ := h
  exact List.mem_append_cons_self

theorem ComesTo.first_eq (h : ComesTo m ps p) : ∃ after, first m ps = first m (p :: after) := by
  obtain ⟨before, after, rfl, hbefore⟩ := h
  exact ⟨after, by rw [first_append, first_of_passedOver hbefore]⟩

/-- A search passes over all candidates, or comes to one that decides. -/
theorem first_cases (m : Machine) (ps : List Path) :
    (∀ q ∈ ps, PassedOver m q) ∧ first m ps = .ok none ∨
    (∃ p, ComesTo m ps p ∧ Qualifies m p ∧ first m ps = .ok (some p)) ∨
    ∃ p e, ComesTo m ps p ∧ Refuses m p e ∧ first m ps = .error e := by
  induction ps with
  | nil => exact .inl ⟨nofun, rfl⟩
  | cons p rest ih =>
    rcases looks m p with h | h | ⟨e, h⟩
    · exact .inr (.inl ⟨p, ⟨[], rest, rfl, nofun⟩, h, first_cons_of_qualifies h⟩)
    · have hcons {q : Path} : ComesTo m rest q → ComesTo m (p :: rest) q := by
        rintro ⟨before, after, rfl, hbefore⟩
        exact ⟨p :: before, after, rfl, List.forall_mem_cons.mpr ⟨h, hbefore⟩⟩
      rw [first_cons_of_passedOver h]
      rcases ih with ⟨hrest, hnone⟩ | ⟨q, hq, hqualifies, hsome⟩ | ⟨q, e, hq, hrefuses, herror⟩
      · exact .inl ⟨List.forall_mem_cons.mpr ⟨h, hrest⟩, hnone⟩
      · exact .inr (.inl ⟨q, hcons hq, hqualifies, hsome⟩)
      · exact .inr (.inr ⟨q, e, hcons hq, hrefuses, herror⟩)
    · exact .inr (.inr ⟨p, e, ⟨[], rest, rfl, nofun⟩, h, first_cons_of_refuses h⟩)

theorem first_eq_none : first m ps = .ok none ↔ ∀ q ∈ ps, PassedOver m q := by
  refine ⟨fun h => ?_, first_of_passedOver⟩
  rcases first_cases m ps with ⟨hall, -⟩ | ⟨p, -, -, hsome⟩ | ⟨p, e, -, -, herror⟩
  · exact hall
  · cases h.symm.trans hsome
  · cases h.symm.trans herror

theorem first_eq_some : first m ps = .ok (some p) ↔ ComesTo m ps p ∧ Qualifies m p := by
  constructor
  · intro h
    rcases first_cases m ps with ⟨-, hnone⟩ | ⟨q, hq, hqualifies, hsome⟩ | ⟨q, e, -, -, herror⟩
    · cases h.symm.trans hnone
    · cases h.symm.trans hsome
      exact ⟨hq, hqualifies⟩
    · cases h.symm.trans herror
  · rintro ⟨hp, hqualifies⟩
    obtain ⟨after, hfirst⟩ := hp.first_eq
    rw [hfirst, first_cons_of_qualifies hqualifies]

theorem first_eq_error : first m ps = .error e ↔ ∃ p, ComesTo m ps p ∧ Refuses m p e := by
  constructor
  · intro h
    rcases first_cases m ps with ⟨-, hnone⟩ | ⟨q, -, -, hsome⟩ | ⟨q, e', hq, hrefuses, herror⟩
    · cases h.symm.trans hnone
    · cases h.symm.trans hsome
    · cases h.symm.trans herror
      exact ⟨q, hq, hrefuses⟩
  · rintro ⟨p, hp, hrefuses⟩
    obtain ⟨after, hfirst⟩ := hp.first_eq
    rw [hfirst, first_cons_of_refuses hrefuses]

/-- Leaving out what is passed over anyway makes no difference. -/
theorem first_filter {keep : Path → Bool}
    (h : ∀ q ∈ ps, keep q = false → PassedOver m q) : first m (ps.filter keep) = first m ps := by
  induction ps with
  | nil => rfl
  | cons p rest ih =>
    rw [List.forall_mem_cons] at h
    cases hk : keep p with
    | true =>
      rw [List.filter_cons_of_pos hk, first, first, ih h.2]
    | false =>
      rw [List.filter_cons_of_neg (by simp [hk]), ih h.2, first_cons_of_passedOver (h.1 hk)]

-- ---------------------------------------------------------------------------
-- Searches
-- ---------------------------------------------------------------------------

theorem find_eq_first (m : Machine) (binary : Text) (directories : List Text) :
    find m binary directories =
      (first m (directories.map (placeIn binary))).map (Option.map m.absolute) := by
  induction directories with
  | nil => rfl
  | cons directory rest ih =>
    rw [find, List.map_cons, first, ← placeIn]
    cases isExecutable m (placeIn binary directory) with
    | error e => rfl
    | ok b =>
      cases b with
      | false => exact ih
      | true => rfl

/-- Where a search for a program looks, in order. -/
def places (vars : Configuration.Variables) (binary : Text) (fallbacks : List Text) : List Path :=
  ((directories? vars fallbacks).getD []).map (placeIn binary)

/-- What is to be found in some places, as it is seen from the root. -/
def outcome (m : Machine) (ps : List Path) : Except Failure (Option Path) :=
  ((first m ps).map (Option.map m.absolute)).mapError .system

theorem outcome_eq (m : Machine) (ps : List Path) : outcome m ps =
    match first m ps with
    | .ok found => .ok (found.map m.absolute)
    | .error e => .error (.system e) := by
  rw [outcome]
  cases first m ps <;> rfl

theorem outcome_eq_none : outcome m ps = .ok none ↔ first m ps = .ok none := by
  rw [outcome_eq]
  rcases first m ps with e | (_ | p) <;> simp

theorem outcome_eq_some : outcome m ps = .ok (some p) ↔
    ∃ q, first m ps = .ok (some q) ∧ p = m.absolute q := by
  rw [outcome_eq]
  rcases first m ps with e | (_ | q) <;> simp [eq_comm]

theorem outcome_eq_error {failure : Failure} : outcome m ps = .error failure ↔
    ∃ e, failure = .system e ∧ ∃ p, ComesTo m ps p ∧ Refuses m p e := by
  simp only [← first_eq_error, outcome_eq]
  rcases first m ps with e | (_ | q) <;> simp [eq_comm]

theorem outcome_append (ps qs : List Path) : outcome m (ps ++ qs) =
    match outcome m ps with
    | .ok none => outcome m qs
    | found => found := by
  rw [outcome, first_append, outcome, outcome]
  rcases first m ps with e | (_ | p) <;> rfl

theorem locate_fst (vars : Configuration.Variables) (binary : Text) (fallbacks : List Text)
    (s : Session) :
    (locate vars binary fallbacks s).1 = outcome s.machine (places vars binary fallbacks) := by
  obtain ⟨t, -, hrun⟩ := Frontend.run_locate vars binary fallbacks (s := s)
  rw [hrun, find_eq_first]
  rfl

-- ---------------------------------------------------------------------------
-- Search paths
-- ---------------------------------------------------------------------------

section
variable {vars : Configuration.Variables} {path : String} {fallbacks : List Text}

/-- The directories on a search path. -/
def onPath (path : String) : List Text :=
  (pieces (.scalar ':') (Text.ofString path)).filter (· != [])

theorem onPath_append (path more : String) :
    onPath (path ++ ":" ++ more) = onPath path ++ onPath more := by
  have hspell : Text.ofString (path ++ ":" ++ more) =
      Text.ofString path ++ .scalar ':' :: Text.ofString more := by
    simp [Text.ofString, Text.ofChars]
  rw [onPath, hspell, pieces_append, List.filter_append]
  rfl

theorem places_of_path (h : vars.lookup "PATH" = some path) :
    places vars binary fallbacks = (onPath path ++ fallbacks).map (placeIn binary) := by
  rw [places, directories?, h]
  rfl

theorem places_of_none (h : vars.lookup "PATH" = none) : places vars binary fallbacks = [] := by
  rw [places, directories?, h]
  rfl

theorem clean_placeIn (binary directory : Text) : (placeIn binary directory).Clean :=
  (Path.clean_ofText directory).join (Path.clean_ofText binary)

theorem clean_of_mem_places (h : p ∈ places vars binary fallbacks) : p.Clean := by
  obtain ⟨directory, -, rfl⟩ := List.mem_map.mp h
  exact clean_placeIn binary directory

end

end Search

namespace Frontend

theorem candidates_of_none {m : Machine} {c : Configuration} (h : c.paths.node = none) :
    candidates m c = Search.places m.vars c.nodeBinary c.fallbackDirs := by
  unfold candidates
  rw [h]
  rfl

/-- A runtime is searched among its candidates. -/
theorem lookUp_eq_first (m : Machine) (c : Configuration) : lookUp m c =
    (Search.first m (candidates m c)).map (Option.map m.absolute) := by
  unfold lookUp candidates
  cases c.paths.node with
  | none => exact Search.find_eq_first ..
  | some node =>
    dsimp only
    rw [Search.first]
    rcases Search.isExecutable m (m.absolute node) with e | usable
    · rfl
    · cases usable with
      | false => rfl
      | true => exact congrArg (fun p => Except.ok (some p)) (m.absolute_absolute node).symm

end Frontend

end Treewire
