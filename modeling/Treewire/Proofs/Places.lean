import Treewire.Proofs.Acts

/-!
# Where paths lead

A walk along a path is a sequence of strides, one for each component. What a stride comes to depends
on the entry under the name and on whether one is in a directory, and on nothing else; so walks on
two file systems that agree there end alike.
-/

namespace Treewire.Files

-- ---------------------------------------------------------------------------
-- Strides
-- ---------------------------------------------------------------------------

/-- One component of a walk: how many links may be followed then, where one is, and what is left to
visit. -/
def stride (fs : Files) (follow : Bool) (links : Nat) (here : Location) (name : String)
    (rest : List String) : Except FileError (Nat × Location × List String) :=
  if fs.isDirectory here = false then
    .error (if (fs.get? here).isSome then .notDirectory else .noEntry)
  else if name = "." then .ok (links, here, rest)
  else if name = ".." then .ok (links, here.dropLast, rest)
  else if (Utf8.encodeString name).length > nameLimit then .error .nameTooLong
  else
    match fs.get? (here ++ [name]) with
    | some (.link target) =>
      if rest.isEmpty ∧ !follow then .ok (links, here ++ [name], [])
      else match links with
        | 0 => .error .tooManyLinks
        | links + 1 => .ok (links, startOf here target, steps target ++ rest)
    | some _ => .ok (links, here ++ [name], rest)
    | none => if rest.isEmpty then .ok (links, here ++ [name], []) else .error .noEntry

variable {fs fs' : Files} {follow : Bool} {links : Nat} {here loc : Location} {name : String}
  {rest todo : List String}

@[simp] theorem walk_nil : fs.walk follow links here [] = .ok here := by
  rw [walk]

theorem walk_cons : fs.walk follow links here (name :: rest) =
    match fs.stride follow links here name rest with
    | .error e => .error e
    | .ok (links, here, todo) => fs.walk follow links here todo := by
  rw [walk, stride]
  split
  · rfl
  split
  · rfl
  split
  · rfl
  split
  · rfl
  cases h : fs.get? (here ++ [name]) with
  | none => cases rest <;> simp [h]
  | some entry =>
    cases entry with
    | link target =>
      by_cases hlast : rest.isEmpty ∧ !follow
      · simp only [h, if_pos hlast, walk_nil]
      · cases links <;> simp only [h, if_neg hlast]
    | _ => simp only [h]

theorem walk_of_stride (h : fs.stride follow links here name rest = .ok (links', here', todo')) :
    fs.walk follow links here (name :: rest) = fs.walk follow links' here' todo' := by
  rw [walk_cons, h]

/-- A walk that comes somewhere, by its first stride. -/
theorem walk_ok (h : fs.walk follow links here (name :: rest) = .ok loc) :
    ∃ links' here' todo', fs.stride follow links here name rest = .ok (links', here', todo') ∧
      fs.walk follow links' here' todo' = .ok loc := by
  rw [walk_cons] at h
  split at h
  · cases h
  · rename_i hs
    exact ⟨_, _, _, hs, h⟩

theorem stride_lt (h : fs.stride follow links here name rest = .ok (links', here', todo')) :
    links' < links ∨ links' = links ∧ todo'.length ≤ rest.length := by
  unfold stride at h
  split at h
  · cases h
  split at h
  · cases h
    exact .inr ⟨rfl, Nat.le_refl _⟩
  split at h
  · cases h
    exact .inr ⟨rfl, Nat.le_refl _⟩
  split at h
  · cases h
  split at h
  · split at h
    · cases h
      exact .inr ⟨rfl, Nat.zero_le _⟩
    split at h
    · cases h
    · cases h
      exact .inl (Nat.lt_succ_self _)
  · cases h
    exact .inr ⟨rfl, Nat.le_refl _⟩
  · split at h
    · cases h
      exact .inr ⟨rfl, Nat.zero_le _⟩
    · cases h

/-- To prove something of all walks, it is enough to look at one stride. -/
theorem walk_induction (fs : Files) (follow : Bool) {motive : Nat → Location → List String → Prop}
    (nil : ∀ links here, motive links here [])
    (stop : ∀ links here name rest e, fs.stride follow links here name rest = .error e →
      motive links here (name :: rest))
    (go : ∀ links here name rest links' here' todo',
      fs.stride follow links here name rest = .ok (links', here', todo') →
      motive links' here' todo' → motive links here (name :: rest))
    (links : Nat) (here : Location) (todo : List String) : motive links here todo :=
  match todo with
  | [] => nil links here
  | name :: rest =>
    match h : fs.stride follow links here name rest with
    | .error e => stop links here name rest e h
    | .ok (links', here', todo') =>
      have : links' < links ∨ links' = links ∧ todo'.length < rest.length + 1 :=
        (stride_lt h).imp_right fun ⟨he, hl⟩ => ⟨he, Nat.lt_succ_of_le hl⟩
      go links here name rest links' here' todo' h
        (walk_induction fs follow nil stop go links' here' todo')
  termination_by (links, todo.length)
  decreasing_by
    simp_wf
    exact Prod.lex_def.mpr this

theorem isDirectory_of_stride (h : fs.stride follow links here name rest = .ok x) :
    fs.isDirectory here = true := by
  unfold stride at h
  split at h
  · cases h
  · rename_i hin
    simpa using hin

/-- Two file systems that differ in nothing but what is in some files. -/
def Twin (fs fs' : Files) : Prop :=
  ∀ loc, fs'.get? loc = fs.get? loc ∨
    (∃ content mode, fs.get? loc = some (.file content mode)) ∧
      ∃ content mode, fs'.get? loc = some (.file content mode)

theorem Grown.twin (h : Grown logs fs fs') : Twin fs fs' :=
  fun loc => (h loc).imp_right fun ⟨_, content, more, mode, hb, ha⟩ =>
    ⟨⟨content, mode, hb⟩, content ++ more, mode, ha⟩

theorem Twin.isSome (h : Twin fs fs') (loc : Location) :
    (fs'.get? loc).isSome = (fs.get? loc).isSome := by
  rcases h loc with he | ⟨⟨_, _, hb⟩, _, _, ha⟩
  · rw [he]
  · rw [hb, ha]
    rfl

theorem Twin.isDirectory (h : Twin fs fs') (loc : Location) :
    fs'.isDirectory loc = fs.isDirectory loc := by
  unfold Files.isDirectory
  rcases h loc with he | ⟨⟨_, _, hb⟩, _, _, ha⟩
  · rw [he]
  · rw [hb, ha]
    rfl

theorem Twin.stride (h : Twin fs fs') :
    fs'.stride follow links here name rest = fs.stride follow links here name rest := by
  unfold Files.stride
  rw [h.isDirectory, h.isSome]
  rcases h (here ++ [name]) with he | ⟨⟨_, _, hb⟩, _, _, ha⟩
  · rw [he]
  · rw [hb, ha]

theorem Twin.walk (h : Twin fs fs') :
    fs'.walk follow links here todo = fs.walk follow links here todo := by
  induction links, here, todo using walk_induction fs follow with
  | nil => rw [walk_nil, walk_nil]
  | stop links here name rest e hs => rw [walk_cons, walk_cons, h.stride, hs]
  | go links here name rest links' here' todo' hs ih =>
    rw [walk_of_stride hs, walk_of_stride (h.stride.trans hs), ih]

theorem Twin.resolve (h : Twin fs fs') :
    fs'.resolve here follow path = fs.resolve here follow path := by
  unfold Files.resolve
  rw [h.walk]

-- ---------------------------------------------------------------------------
-- Nothing at a path
-- ---------------------------------------------------------------------------

/-- There is nothing at a path, not even a link. -/
def Vacant (fs : Files) (here : Location) (path : String) : Prop :=
  ∀ loc, fs.resolve here false path = .ok loc → fs.get? loc = none

theorem isDirectory_erase (hg : fs.get? gone ≠ some .directory) :
    (fs.erase gone).isDirectory here = fs.isDirectory here := by
  by_cases hroot : here = []
  · rw [hroot]
    rfl
  · rw [isDirectory, isDirectory, get?_erase hroot]
    by_cases he : here = gone
    · rw [if_pos he, he]
      exact (beq_eq_false_iff_ne.mpr hg).symm
    · rw [if_neg he]

theorem Vacant.twin (h : fs.Vacant here path) (ht : Twin fs fs') : fs'.Vacant here path := by
  intro loc hl
  rw [ht.resolve] at hl
  have hsome := ht.isSome loc
  rw [h loc hl] at hsome
  exact Option.not_isSome_iff_eq_none.mp (by simp [hsome])

-- ---------------------------------------------------------------------------
-- Removing
-- ---------------------------------------------------------------------------

theorem unlink_eq (fs : Files) (here : Location) (path : String) : fs.unlink here path =
    match fs.resolve here false path with
    | .error e => .error e
    | .ok loc =>
      match fs.get? loc with
      | some .directory => .error .isDirectory
      | some _ => .ok (fs.erase loc)
      | none => .error .noEntry := by
  unfold unlink
  cases fs.resolve here false path with
  | error e => rfl
  | ok loc =>
    dsimp only [bind, Except.bind]
    cases fs.get? loc with
    | none => rfl
    | some entry => cases entry <;> rfl

theorem unlink_ok (h : fs.unlink here path = .ok files) :
    ∃ loc, fs.resolve here false path = .ok loc ∧ fs.get? loc ≠ some .directory ∧
      files = fs.erase loc := by
  rw [unlink_eq] at h
  split at h
  · cases h
  rename_i loc hl
  refine ⟨loc, hl, ?_⟩
  split at h
  · cases h
  · rename_i entry hne hget
    cases h
    exact ⟨fun he => hne (Option.some.inj (hget.symm.trans he)), rfl⟩
  · cases h

theorem vacant_of_unlink (h : fs.unlink here path = .error .noEntry) : fs.Vacant here path := by
  intro loc hl
  rw [unlink_eq, hl] at h
  dsimp only at h
  split at h
  · cases h
  · cases h
  · assumption

end Treewire.Files
