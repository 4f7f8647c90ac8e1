import Treewire.Proofs.Company

/-!
# Files that come and go

A file that is written where nothing was changes nothing about where other paths lead. An entry that
is removed changes no more than it must: a path that went through its place leads nowhere, or to that
place; every other path leads where it led, and is refused for the reason for which it was refused.
-/

namespace Treewire.Files

variable {fs fs' : Files} {follow : Bool} {links : Nat} {here loc gone : Location} {name : String}
  {rest todo : List String}

-- ---------------------------------------------------------------------------
-- Writing
-- ---------------------------------------------------------------------------

theorem ne_root_of_get? (h : fs.get? loc ≠ some .directory) : loc ≠ [] := by
  rintro rfl
  exact h rfl

theorem get?_put_self (entry : Entry) (h : loc ≠ []) : (fs.put loc entry).get? loc = some entry := by
  rw [get?_put entry h, if_pos rfl]

/-- A file that is put where nothing was, or in the place of another file. -/
theorem Fuller.put (h : fs.get? loc = none ∨ ∃ content mode, fs.get? loc = some (.file content mode))
    (content : Bytes) (mode : Nat) : Fuller fs (fs.put loc (.file content mode)) := by
  have hroot : loc ≠ [] := by
    rintro rfl
    rcases h with h | ⟨_, _, h⟩ <;> cases h
  intro other
  by_cases ho : other = loc
  · subst ho
    exact .inr ⟨h, content, mode, get?_put_self _ hroot⟩
  · by_cases hother : other = []
    · subst hother
      exact .inl rfl
    · exact .inl (by rw [get?_put _ hother, if_neg ho])

/-- The files once a place that can be written was written. -/
def written (fs : Files) (loc : Location) (content : Bytes) : Files :=
  match fs.get? loc with
  | some (.file _ mode) => fs.put loc (.file content mode)
  | some _ => fs
  | none => fs.put loc (.file content usualMode)

theorem write_eq (fs : Files) (here : Location) (path : String) (content : Bytes) :
    fs.write here path content = (fs.writable here path).map (fs.written · content) := by
  unfold write written
  cases fs.writable here path with
  | error e => rfl
  | ok loc =>
    dsimp only [bind, Except.bind, Except.map]
    rcases fs.get? loc with _ | _ | _ | _ | _ | _ <;> rfl

theorem writable_eq (fs : Files) (here : Location) (path : String) : fs.writable here path =
    match fs.resolve here true path with
    | .error e => .error e
    | .ok loc =>
      match fs.get? loc with
      | some .directory => .error .isDirectory
      | some _ => .ok loc
      | none =>
        if fs.isDirectory loc.dropLast then .ok loc
        else .error (if (fs.get? loc.dropLast).isSome then .notDirectory else .noEntry) := by
  unfold writable
  cases fs.resolve here true path with
  | error e => rfl
  | ok loc =>
    dsimp only [bind, Except.bind]
    rcases fs.get? loc with _ | _ | _ | _ | _ | _ <;> rfl

theorem writable_ok (h : fs.writable here path = .ok loc) :
    fs.resolve here true path = .ok loc ∧ fs.get? loc ≠ some .directory := by
  rw [writable_eq] at h
  cases hr : fs.resolve here true path with
  | error e =>
    rw [hr] at h
    cases h
  | ok loc' =>
    rw [hr] at h
    dsimp only at h
    split at h
    · cases h
    · rename_i entry hne hg
      cases h
      exact ⟨rfl, fun hd => hne (Option.some.inj (hg.symm.trans hd))⟩
    · rename_i hg
      split at h
      · cases h
        exact ⟨rfl, by rw [hg]; exact nofun⟩
      · cases h

/-- A stride on files of which an entry is gone: it comes to the same, or finds nothing, or comes to
the place where nothing is now. -/
theorem stride_erase (hg : fs.get? gone ≠ some .directory) (follow : Bool) (links : Nat)
    (here : Location) (name : String) (rest : List String) :
    (fs.erase gone).stride follow links here name rest = fs.stride follow links here name rest ∨
    (fs.erase gone).stride follow links here name rest = .error .noEntry ∨
    (fs.erase gone).stride follow links here name rest = .ok (links, gone, []) := by
  unfold stride
  rw [isDirectory_erase hg]
  by_cases hin : fs.isDirectory here = false
  · rw [if_pos hin, if_pos hin]
    by_cases hroot : here = []
    · subst hroot
      cases hin
    by_cases hh : here = gone
    · exact .inr (.inl (by rw [get?_erase hroot, if_pos hh]; rfl))
    · exact .inl (by rw [get?_erase hroot, if_neg hh])
  rw [if_neg hin, if_neg hin]
  split
  · exact .inl rfl
  split
  · exact .inl rfl
  split
  · exact .inl rfl
  have hget : (fs.erase gone).get? (here ++ [name]) = _ := get?_erase (by simp)
  by_cases hn : here ++ [name] = gone
  · rw [if_pos hn] at hget
    rw [hget, hn]
    dsimp only
    split
    · exact .inr (.inr rfl)
    · exact .inr (.inl rfl)
  · rw [if_neg hn] at hget
    rw [hget]
    exact .inl rfl

theorem walk_erase_cases (hg : fs.get? gone ≠ some .directory) (follow : Bool) (links : Nat)
    (here : Location) (todo : List String) :
    (fs.erase gone).walk follow links here todo = fs.walk follow links here todo ∨
    (fs.erase gone).walk follow links here todo = .error .noEntry ∨
    (fs.erase gone).walk follow links here todo = .ok gone := by
  induction links, here, todo using walk_induction fs follow with
  | nil => exact .inl (by rw [walk_nil, walk_nil])
  | stop links here name rest e hs =>
    rw [walk_cons, walk_cons]
    rcases stride_erase hg follow links here name rest with he | he | he
    · exact .inl (by rw [he, hs])
    · exact .inr (.inl (by rw [he]))
    · exact .inr (.inr (by rw [he]; exact walk_nil))
  | go links here name rest links' here' todo' hs ih =>
    rcases stride_erase hg follow links here name rest with he | he | he
    · rw [walk_of_stride hs, walk_of_stride (he.trans hs)]
      exact ih
    · exact .inr (.inl (by rw [walk_cons, he]))
    · exact .inr (.inr (by rw [walk_of_stride he, walk_nil]))

theorem resolve_erase (hg : fs.get? gone ≠ some .directory) (here : Location) (follow : Bool)
    (path : String) :
    (fs.erase gone).resolve here follow path = fs.resolve here follow path ∨
    (fs.erase gone).resolve here follow path = .error .noEntry ∨
    (fs.erase gone).resolve here follow path = .ok gone := by
  unfold resolve
  split
  · exact .inl rfl
  split
  · exact .inl rfl
  · exact walk_erase_cases hg ..

/-- An entry that is still there once another one is gone. -/
theorem get?_of_erase (h : (fs.erase gone).get? loc = some entry) : fs.get? loc = some entry := by
  by_cases hroot : loc = []
  · subst hroot
    exact h
  · rw [get?_erase hroot] at h
    by_cases hl : loc = gone
    · rw [if_pos hl] at h
      cases h
    · rwa [if_neg hl] at h

theorem get?_erase_self (hg : fs.get? gone ≠ some .directory) : (fs.erase gone).get? gone = none := by
  rw [get?_erase (ne_root_of_get? hg), if_pos rfl]

/-- A path that leads to an entry once another one is gone led there before. -/
theorem resolve_of_erase (hg : fs.get? gone ≠ some .directory)
    (hr : (fs.erase gone).resolve here follow path = .ok loc)
    (he : (fs.erase gone).get? loc = some entry) : fs.resolve here follow path = .ok loc := by
  rcases resolve_erase hg here follow path with h | h | h
  · rwa [h] at hr
  · rw [h] at hr
    cases hr
  · rw [h] at hr
    cases hr
    rw [get?_erase_self hg] at he
    cases he

theorem Vacant.erase (h : fs.Vacant here path) (hg : fs.get? gone ≠ some .directory) :
    (fs.erase gone).Vacant here path := by
  intro loc hr
  cases he : (fs.erase gone).get? loc with
  | none => rfl
  | some entry =>
    have hn := h loc (resolve_of_erase hg hr he)
    rw [get?_of_erase he] at hn
    cases hn

theorem unlink_directory (hr : fs.resolve here false path = .ok loc)
    (hd : fs.get? loc = some .directory) : fs.unlink here path = .error .isDirectory := by
  rw [unlink_eq, hr]
  dsimp only
  rw [hd]

theorem unlink_nowhere (h : fs.resolve here false path = .error e) :
    fs.unlink here path = .error e := by
  rw [unlink_eq, h]

theorem unlink_missing (hr : fs.resolve here false path = .ok loc) (hn : fs.get? loc = none) :
    fs.unlink here path = .error .noEntry := by
  rw [unlink_eq, hr]
  dsimp only
  rw [hn]

theorem unlink_plain (hr : fs.resolve here false path = .ok loc) (he : fs.get? loc = some entry)
    (hd : entry ≠ .directory) : fs.unlink here path = .ok (fs.erase loc) := by
  rw [unlink_eq, hr]
  dsimp only
  rw [he]
  cases entry with
  | directory => exact absurd rfl hd
  | _ => rfl

/-- Why a removal is refused: the path leads nowhere, there is nothing, or there is a directory. -/
theorem unlink_error (h : fs.unlink here path = .error e) :
    fs.resolve here false path = .error e ∨
    (∃ loc, fs.resolve here false path = .ok loc ∧ fs.get? loc = none ∧ e = .noEntry) ∨
    ∃ loc, fs.resolve here false path = .ok loc ∧ fs.get? loc = some .directory ∧
      e = .isDirectory := by
  rw [unlink_eq] at h
  cases hr : fs.resolve here false path with
  | error e' =>
    rw [hr] at h
    cases h
    exact .inl rfl
  | ok loc =>
    rw [hr] at h
    dsimp only at h
    split at h
    · rename_i hd
      cases h
      exact .inr (.inr ⟨loc, rfl, hd, rfl⟩)
    · cases h
    · rename_i hn
      cases h
      exact .inr (.inl ⟨loc, rfl, hn, rfl⟩)

/-- What a removal removes. -/
theorem unlink_entry (h : fs.unlink here path = .ok fs') :
    ∃ loc entry, fs.resolve here false path = .ok loc ∧ fs.get? loc = some entry ∧
      entry ≠ .directory ∧ fs' = fs.erase loc := by
  obtain ⟨loc, hr, hd, rfl⟩ := unlink_ok h
  cases he : fs.get? loc with
  | none =>
    rw [unlink_missing hr he] at h
    cases h
  | some entry => exact ⟨loc, entry, hr, he, fun hn => hd (hn ▸ he), rfl⟩

/-- A removal that is refused once another entry is gone was refused before, unless it is for want of
an entry. -/
theorem unlink_of_erase (hg : fs.get? gone ≠ some .directory)
    (h : (fs.erase gone).unlink here path = .error e) (he : e ≠ .noEntry) :
    fs.unlink here path = .error e := by
  rcases unlink_error h with hr | ⟨_, -, -, rfl⟩ | ⟨loc, hr, hd, rfl⟩
  · rcases resolve_erase hg here false path with h' | h' | h'
    · exact unlink_nowhere (h'.symm.trans hr)
    · rw [h'] at hr
      cases hr
      exact (he rfl).elim
    · rw [h'] at hr
      cases hr
  · exact (he rfl).elim
  · exact unlink_directory (resolve_of_erase hg hr hd) (get?_of_erase hd)

theorem Twin.symm (h : Twin fs fs') : Twin fs' fs := fun loc => (h loc).imp Eq.symm And.symm

theorem Twin.get?_none (h : Twin fs fs') (hn : fs.get? loc = none) : fs'.get? loc = none :=
  Option.not_isSome_iff_eq_none.mp (by simp [h.isSome, hn])

theorem Twin.get?_directory (h : Twin fs fs') (hd : fs.get? loc = some .directory) :
    fs'.get? loc = some .directory :=
  beq_iff_eq.mp ((h.isDirectory loc).trans (beq_iff_eq.mpr hd))

theorem Twin.unlink_error (h : Twin fs fs') (hu : fs.unlink here path = .error e) :
    fs'.unlink here path = .error e := by
  rcases Files.unlink_error hu with hr | ⟨loc, hr, hn, rfl⟩ | ⟨loc, hr, hd, rfl⟩
  · exact unlink_nowhere (h.resolve.trans hr)
  · exact unlink_missing (h.resolve.trans hr) (h.get?_none hn)
  · exact unlink_directory (h.resolve.trans hr) (h.get?_directory hd)

-- ---------------------------------------------------------------------------
-- Cleared paths
-- ---------------------------------------------------------------------------

/-- Nothing is at a path, or the system refuses to remove what is there. -/
def Cleared (fs : Files) (here : Location) (path : String) : Prop :=
  fs.Vacant here path ∨ ∃ e, e ≠ .noEntry ∧ fs.unlink here path = .error e

theorem cleared_of_unlink (h : fs.unlink here path = .error e) : fs.Cleared here path := by
  by_cases he : e = .noEntry
  · exact .inl (vacant_of_unlink (he ▸ h))
  · exact .inr ⟨e, he, h⟩

theorem Cleared.twin (h : fs.Cleared here path) (ht : Twin fs fs') : fs'.Cleared here path :=
  h.imp (·.twin ht) fun ⟨e, he, hu⟩ => ⟨e, he, ht.unlink_error hu⟩

/-- What is cleared stays so when something else is removed. -/
theorem Cleared.erase (h : fs.Cleared here path) (hg : fs.get? gone ≠ some .directory) :
    (fs.erase gone).Cleared here path := by
  rcases h with hv | ⟨e, -, hu⟩
  · exact .inl (hv.erase hg)
  cases hu' : (fs.erase gone).unlink here path with
  | error e' => exact cleared_of_unlink hu'
  | ok files =>
    obtain ⟨loc, entry, hr, he, hd, -⟩ := unlink_entry hu'
    rw [unlink_plain (resolve_of_erase hg hr he) (get?_of_erase he) hd] at hu
    cases hu

end Treewire.Files
