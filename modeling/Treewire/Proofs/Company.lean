import Treewire.Proofs.Places

/-!
# More files than before

Where other programs are at work, there may be files in places that were empty, and files may have
other contents. Paths that led somewhere lead there still. A path that led nowhere leads nowhere; at
most the reason is another one.
-/

namespace Treewire.Files

variable {fs fs' : Files} {follow : Bool} {links : Nat} {here loc : Location} {name : String}
  {rest todo : List String}

-- ---------------------------------------------------------------------------
-- Following the last link
-- ---------------------------------------------------------------------------

/-- A stride does not depend on whether a link in the end is followed, unless there is one. -/
theorem stride_follow (h : fs.stride false links here name rest = r) :
    fs.stride true links here name rest = r ∨
      rest = [] ∧ r = .ok (links, here ++ [name], []) ∧
        ∃ target, fs.get? (here ++ [name]) = some (.link target) := by
  subst h
  unfold stride
  split
  · exact .inl rfl
  split
  · exact .inl rfl
  split
  · exact .inl rfl
  split
  · exact .inl rfl
  split
  · rename_i target ht
    cases rest with
    | nil => exact .inr ⟨rfl, by simp, target, ht⟩
    | cons next more => exact .inl (by simp)
  · exact .inl rfl
  · exact .inl rfl

theorem walk_follow (h : fs.walk false links here todo = .ok loc)
    (hl : ∀ target, fs.get? loc ≠ some (.link target)) : fs.walk true links here todo = .ok loc := by
  induction links, here, todo using walk_induction fs false with
  | nil => rwa [walk_nil] at h ⊢
  | stop links here name rest e hs =>
    rw [walk_cons, hs] at h
    cases h
  | go links here name rest links' here' todo' hs ih =>
    rw [walk_of_stride hs] at h
    rcases stride_follow hs with hs' | ⟨-, hr, target, ht⟩
    · rw [walk_of_stride hs']
      exact ih h
    · cases hr
      rw [walk_nil] at h
      cases h
      exact absurd ht (hl target)

theorem walk_follow_error (h : fs.walk false links here todo = .error e) :
    fs.walk true links here todo = .error e := by
  induction links, here, todo using walk_induction fs false with
  | nil =>
    rw [walk_nil] at h
    cases h
  | stop links here name rest e' hs =>
    rcases stride_follow hs with hs' | ⟨-, hr, -⟩
    · rw [walk_cons, hs] at h
      rw [walk_cons, hs']
      exact h
    · cases hr
  | go links here name rest links' here' todo' hs ih =>
    rw [walk_of_stride hs] at h
    rcases stride_follow hs with hs' | ⟨-, hr, -⟩
    · rw [walk_of_stride hs']
      exact ih h
    · cases hr
      rw [walk_nil] at h
      cases h

theorem resolve_follow (h : fs.resolve here false path = .ok loc)
    (hl : ∀ target, fs.get? loc ≠ some (.link target)) : fs.resolve here true path = .ok loc := by
  unfold resolve at h ⊢
  split at h
  · cases h
  · split at h
    · cases h
    · rw [if_neg ‹_›, if_neg ‹_›]
      exact walk_follow h hl

theorem resolve_follow_error (h : fs.resolve here false path = .error e) :
    fs.resolve here true path = .error e := by
  unfold resolve at h ⊢
  split at h
  · rwa [if_pos ‹_›]
  · split at h
    · rwa [if_neg ‹_›, if_pos ‹_›]
    · rw [if_neg ‹_›, if_neg ‹_›]
      exact walk_follow_error h

-- ---------------------------------------------------------------------------
-- Entries at paths
-- ---------------------------------------------------------------------------

theorem stat_eq (fs : Files) (here : Location) (path : String) : fs.stat here path =
    match fs.resolve here true path with
    | .error e => .error e
    | .ok loc =>
      match fs.get? loc with
      | some entry => .ok (loc, entry)
      | none => .error .noEntry := by
  unfold stat
  cases fs.resolve here true path with
  | error e => rfl
  | ok loc =>
    dsimp only [bind, Except.bind]
    cases fs.get? loc <;> rfl

theorem stat_ok : fs.stat here path = .ok (loc, entry) ↔
    fs.resolve here true path = .ok loc ∧ fs.get? loc = some entry := by
  rw [stat_eq]
  cases fs.resolve here true path with
  | error e => simp
  | ok loc' =>
    dsimp only
    cases hg : fs.get? loc' with
    | none =>
      simp only [reduceCtorEq, Except.ok.injEq, false_iff, not_and]
      rintro rfl
      simp [hg]
    | some entry' =>
      simp only [Except.ok.injEq, Prod.mk.injEq]
      constructor
      · rintro ⟨rfl, rfl⟩
        exact ⟨rfl, hg⟩
      · rintro ⟨rfl, he⟩
        exact ⟨rfl, Option.some.inj (hg.symm.trans he)⟩

-- ---------------------------------------------------------------------------
-- Following all links
-- ---------------------------------------------------------------------------

theorem follow_dot : fs.follow met here ("." :: rest) = fs.follow met here rest := by
  rw [Files.follow, if_pos rfl]

theorem follow_dots : fs.follow met here (".." :: rest) = fs.follow met here.dropLast rest := by
  rw [Files.follow, if_neg (by decide), if_pos rfl]

theorem follow_link (hd : name ≠ ".") (hdd : name ≠ "..")
    (ht : fs.get? (here ++ [name]) = some (.link target)) :
    fs.follow met here (name :: rest) =
      if here ++ [name] ∈ met then (spell (here ++ [name]) rest, false)
      else
        match fs.follow ((here ++ [name]) :: met) (startOf here target) (steps target) with
        | (loc, true) => fs.follow met loc rest
        | (loc, false) => (spell loc rest, false) := by
  rw [Files.follow, if_neg hd, if_neg hdd]
  split
  · rename_i target' ht'
    cases ht.symm.trans ht'
    rfl
  · rename_i hn
    exact (hn _ ht).elim

theorem follow_plain (hd : name ≠ ".") (hdd : name ≠ "..")
    (hn : ∀ target, fs.get? (here ++ [name]) ≠ some (.link target)) :
    fs.follow met here (name :: rest) = fs.follow met (here ++ [name]) rest := by
  rw [Files.follow, if_neg hd, if_neg hdd]
  split
  · rename_i target ht
    exact absurd ht (hn target)
  · rfl

-- ---------------------------------------------------------------------------
-- More files
-- ---------------------------------------------------------------------------

/-- There may be files where there was nothing, or other contents in files. -/
def Fuller (fs fs' : Files) : Prop :=
  ∀ loc, fs'.get? loc = fs.get? loc ∨
    (fs.get? loc = none ∨ ∃ content mode, fs.get? loc = some (.file content mode)) ∧
      ∃ content mode, fs'.get? loc = some (.file content mode)

namespace Fuller

variable (h : Fuller fs fs')
include h

theorem get?_link : fs'.get? loc = some (.link target) ↔ fs.get? loc = some (.link target) := by
  rcases h loc with he | ⟨hn | ⟨_, _, hb⟩, _, _, ha⟩
  · rw [he]
  · simp [hn, ha]
  · simp [hb, ha]

theorem get?_directory : fs'.get? loc = some .directory ↔ fs.get? loc = some .directory := by
  rcases h loc with he | ⟨hn | ⟨_, _, hb⟩, _, _, ha⟩
  · rw [he]
  · simp [hn, ha]
  · simp [hb, ha]

theorem isDirectory : fs'.isDirectory loc = fs.isDirectory loc := by
  rw [Bool.eq_iff_iff, Files.isDirectory, Files.isDirectory, beq_iff_eq, beq_iff_eq]
  exact h.get?_directory

/-- A stride comes to the same, or it failed for want of an entry and now comes to a file, which
cannot be entered. -/
theorem stride (follow : Bool) (links : Nat) (here : Location) (name : String) (rest : List String) :
    fs'.stride follow links here name rest = fs.stride follow links here name rest ∨
    fs.stride follow links here name rest = .error .noEntry ∧
      (fs'.stride follow links here name rest = .error .notDirectory ∨
        ∃ next, rest ≠ [] ∧ fs'.stride follow links here name rest = .ok (links, next, rest) ∧
          ∃ content mode, fs'.get? next = some (.file content mode)) := by
  unfold Files.stride
  rw [h.isDirectory]
  split
  · rcases h here with he | ⟨hn | ⟨_, _, hb⟩, _, _, ha⟩
    · exact .inl (by rw [he])
    · exact .inr (by simp [hn, ha])
    · exact .inl (by simp [hb, ha])
  split
  · exact .inl rfl
  split
  · exact .inl rfl
  split
  · exact .inl rfl
  rcases h (here ++ [name]) with he | ⟨hn | ⟨_, _, hb⟩, _, _, ha⟩
  · exact .inl (by rw [he])
  · rw [hn, ha]
    cases rest with
    | nil => exact .inl rfl
    | cons next more =>
      exact .inr ⟨rfl, .inr ⟨_, List.cons_ne_nil _ _, rfl, _, _, ha⟩⟩
  · exact .inl (by rw [hb, ha])

theorem walk : fs'.walk follow links here todo = fs.walk follow links here todo ∨
    fs.walk follow links here todo = .error .noEntry ∧
      fs'.walk follow links here todo = .error .notDirectory := by
  induction links, here, todo using walk_induction fs follow with
  | nil => exact .inl (by rw [walk_nil, walk_nil])
  | stop links here name rest e hs =>
    rcases h.stride follow links here name rest with
      he | ⟨hn, hd | ⟨next, hrest, hd, _, _, hf⟩⟩
    · exact .inl (by rw [walk_cons, walk_cons, he, hs])
    · exact .inr ⟨by rw [walk_cons, hn], by rw [walk_cons, hd]⟩
    · refine .inr ⟨by rw [walk_cons, hn], ?_⟩
      obtain ⟨name', more, rfl⟩ := List.exists_cons_of_ne_nil hrest
      rw [walk_of_stride hd, walk_cons]
      simp [Files.stride, Files.isDirectory, hf]
  | go links here name rest links' here' todo' hs ih =>
    rcases h.stride follow links here name rest with he | ⟨hn, -⟩
    · rw [walk_of_stride hs, walk_of_stride (he.trans hs)]
      exact ih
    · rw [hs] at hn
      cases hn

theorem resolve (here : Location) (follow : Bool) (path : String) :
    fs'.resolve here follow path = fs.resolve here follow path ∨
    fs.resolve here follow path = .error .noEntry ∧
      fs'.resolve here follow path = .error .notDirectory := by
  unfold Files.resolve
  split
  · exact .inl rfl
  split
  · exact .inl rfl
  · exact h.walk

theorem resolve_ok (hr : fs.resolve here follow path = .ok loc) :
    fs'.resolve here follow path = .ok loc := by
  rcases h.resolve here follow path with he | ⟨hn, -⟩
  · rw [he, hr]
  · rw [hr] at hn
    cases hn

theorem stat_directory : fs'.stat here path = .ok (loc, .directory) ↔
    fs.stat here path = .ok (loc, .directory) := by
  rw [stat_ok, stat_ok, h.get?_directory]
  refine and_congr_left fun _ => ⟨fun hr => ?_, h.resolve_ok⟩
  rcases h.resolve here true path with he | ⟨-, hd⟩
  · rwa [he] at hr
  · rw [hd] at hr
    cases hr

theorem follow_eq (met : List Location) (here : Location) (todo : List String) :
    fs'.follow met here todo = fs.follow met here todo := by
  induction met, here, todo using follow.induct fs with
  | case1 met here => rw [Files.follow, Files.follow]
  | case2 met here rest ih => rw [follow_dot, follow_dot, ih]
  | case3 met here rest _ ih => rw [follow_dots, follow_dots, ih]
  | case4 met here name rest hd hdd target ht hm =>
    rw [follow_link hd hdd (h.get?_link.mpr ht), follow_link hd hdd ht, if_pos hm, if_pos hm]
  | case5 met here name rest hd hdd target ht hm loc hl ihl ih =>
    rw [follow_link hd hdd (h.get?_link.mpr ht), follow_link hd hdd ht, if_neg hm, if_neg hm, ihl,
      hl]
    exact ih
  | case6 met here name rest hd hdd target ht hm loc hl ihl =>
    rw [follow_link hd hdd (h.get?_link.mpr ht), follow_link hd hdd ht, if_neg hm, if_neg hm, ihl,
      hl]
  | case7 met here name rest hd hdd hn ih =>
    rw [follow_plain hd hdd fun target ht => hn target (h.get?_link.mp ht),
      follow_plain hd hdd fun target ht => hn target ht, ih]

theorem tooManyLinks : fs'.resolve here follow path = .error .tooManyLinks ↔
    fs.resolve here follow path = .error .tooManyLinks := by
  rcases h.resolve here follow path with he | ⟨hn, hd⟩
  · rw [he]
  · simp [hn, hd]

theorem canonical? : fs'.canonical? here path = fs.canonical? here path := by
  unfold Files.canonical?
  rw [h.follow_eq]
  cases fs.follow [] (startOf here path) (steps path) with
  | mk loc whole =>
    cases whole with
    | true => rfl
    | false =>
      dsimp only
      by_cases ht : fs.resolve [] true loc.path = .error .tooManyLinks
      · rw [ht, h.tooManyLinks.mpr ht]
      · have ht' := mt h.tooManyLinks.mp ht
        split
        · exact absurd ‹_› ht'
        · rfl

/-- The first directory for temporary files stays the first one. -/
theorem temporaryDirectory? (m : Machine) (hm : m.files = fs) :
    { m with files := fs' }.temporaryDirectory? = m.temporaryDirectory? := by
  subst hm
  refine congrArg (List.find? · _) (funext fun d => ?_)
  have hd (loc : Location) : fs'.stat m.here d.toString = .ok (loc, .directory) ↔ _ :=
    h.stat_directory
  dsimp only
  split
  · rename_i loc hs
    rw [(hd loc).mp hs]
  · rename_i hn
    split
    · rename_i loc hs
      exact (hn loc ((hd loc).mpr hs)).elim
    · rfl

end Fuller

end Treewire.Files
