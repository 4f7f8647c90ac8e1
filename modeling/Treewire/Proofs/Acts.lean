import Treewire.Frontend

/-!
# Acts on a session

How an act runs step by step, and what logging does on the way. A record reaches the console and the
files of the log; each of these files keeps what it holds and gets lines at its end. Nothing else of
a session changes.
-/

namespace Treewire

-- ---------------------------------------------------------------------------
-- Running
-- ---------------------------------------------------------------------------

namespace Act

variable {s : Session}

@[simp] theorem run_pure (a : α) : (pure a : Act α) s = (.ok a, s) := rfl

@[simp] theorem run_get : (get : Act Session) s = (.ok s, s) := rfl

@[simp] theorem run_set (t : Session) : (set t : Act PUnit) s = (.ok ⟨⟩, t) := rfl

theorem run_bind (act : Act α) (next : α → Act β) :
    (act >>= next) s = match act s with
      | (.ok a, t) => next a t
      | (.error e, t) => (.error e, t) := by
  simp only [bind, ExceptT.bind, ExceptT.mk, StateT.bind]
  cases act s with
  | mk outcome t => cases outcome <;> rfl

theorem run_bind_ok {act : Act α} (h : act s = (.ok a, t)) (next : α → Act β) :
    (act >>= next) s = next a t := by
  rw [run_bind, h]

theorem run_attempt (act : Act α) : act.attempt s = (.ok (act s).1, (act s).2) := rfl

theorem run_tell (source : String) (level : Log.Level) (message : Text) :
    tell source level message s = (.ok ⟨⟩, s.record ⟨source, level, message⟩) := rfl

theorem run_ofExcept (cause : ε → Failure) (x : Except ε α) :
    ofExcept cause x s = (x.mapError cause, s) := by
  cases x <;> rfl

theorem run_ask (question : Machine → Except FileError α) :
    ask question s = ((question s.machine).mapError .system, s) := by
  rw [ask, run_bind, run_get]
  exact run_ofExcept ..

/-- The directory for temporary files is the one settled on, or else the first one found. -/
theorem run_temporaryDirectory : temporaryDirectory s =
    match s.temporary.or s.machine.temporaryDirectory? with
    | some d => (.ok d, { s with temporary := some d })
    | none => (.error (.system .noEntry), s) := by
  obtain ⟨machine, bundle, log, records, console, schemas, temporary⟩ := s
  rw [temporaryDirectory, run_bind, run_get]
  cases temporary with
  | some d => rfl
  | none =>
    dsimp only [Option.none_or]
    cases machine.temporaryDirectory? <;> rfl

end Act

-- ---------------------------------------------------------------------------
-- Entries
-- ---------------------------------------------------------------------------

section
variable {κ β : Type} [BEq κ] [LawfulBEq κ] {key other : κ}

theorem lookup_filter_ne (entries : List (κ × β)) (h : other ≠ key) :
    (entries.filter (·.1 != key)).lookup other = entries.lookup other := by
  induction entries with
  | nil => rfl
  | cons e rest ih =>
    by_cases hk : e.1 = key
    · have hne : (other == e.1) = false := by simpa [hk] using h
      rw [List.filter_cons_of_neg (by simpa using hk), List.lookup_cons, hne, ih]
    · rw [List.filter_cons_of_pos (by simpa using hk), List.lookup_cons, List.lookup_cons, ih]

theorem lookup_filter_self (entries : List (κ × β)) :
    (entries.filter (·.1 != key)).lookup key = none := by
  refine List.lookup_eq_none_iff.mpr fun e he => ?_
  have hne : e.1 ≠ key := by simpa using (List.mem_filter.mp he).2
  exact bne_iff_ne.mpr hne.symm

end

namespace Files

variable {fs : Files} {loc other : Location}

theorem get?_root : fs.get? [] = some .directory := rfl

theorem get?_put (entry : Entry) (h : other ≠ []) :
    (fs.put loc entry).get? other = if other = loc then some entry else fs.get? other := by
  simp only [get?, put, if_neg h, List.lookup_cons]
  by_cases he : other = loc
  · simp [he]
  · rw [beq_eq_false_iff_ne.mpr he, if_neg he]
    exact lookup_filter_ne _ he

theorem get?_erase (h : other ≠ []) :
    (fs.erase loc).get? other = if other = loc then none else fs.get? other := by
  simp only [get?, erase, if_neg h]
  by_cases he : other = loc
  · rw [he, if_pos rfl, lookup_filter_self]
  · rw [if_neg he, lookup_filter_ne _ he]

/-- What was put where nothing was can be taken away again. -/
theorem erase_put (entry : Entry) (h : fs.get? loc = none) : (fs.put loc entry).erase loc = fs := by
  have hroot : loc ≠ [] := by
    rintro rfl
    cases h
  have hother (e : Location × Entry) (he : e ∈ fs.entries) : (e.1 != loc) = true := by
    rw [get?, if_neg hroot] at h
    exact bne_iff_ne.mpr (bne_iff_ne.mp (List.lookup_eq_none_iff.mp h e he)).symm
  rw [erase, put, List.filter_cons_of_neg (by simp), List.filter_filter]
  simp only [Bool.and_self]
  rw [List.filter_eq_self.mpr hother]

end Files

-- ---------------------------------------------------------------------------
-- Logging
-- ---------------------------------------------------------------------------

/-- The files that a log goes to. -/
def Log.files (log : Log) : List Location :=
  log.handlers.filterMap fun h =>
    match h.sink with
    | .file loc => some loc
    | .console => none

/-- A file of a log got more at its end, or nothing happened to an entry. -/
def Files.GrownAt (logs : List Location) (fs fs' : Files) (loc : Location) : Prop :=
  fs'.get? loc = fs.get? loc ∨ loc ∈ logs ∧ ∃ content more mode,
    fs.get? loc = some (.file content mode) ∧ fs'.get? loc = some (.file (content ++ more) mode)

/-- Some files got more at their end, and nothing else happened. -/
def Files.Grown (logs : List Location) (fs fs' : Files) : Prop :=
  ∀ loc, GrownAt logs fs fs' loc

theorem Files.GrownAt.trans (h : GrownAt logs fs fs' loc) (h' : GrownAt logs fs' fs'' loc) :
    GrownAt logs fs fs'' loc := by
  rcases h with he | ⟨hm, content, more, mode, hb, ha⟩
  · rcases h' with he' | ⟨hm, content, more, mode, hb, ha⟩
    · exact .inl (he'.trans he)
    · exact .inr ⟨hm, content, more, mode, he ▸ hb, ha⟩
  · rcases h' with he' | ⟨-, content', more', mode', hb', ha'⟩
    · exact .inr ⟨hm, content, more, mode, hb, he'.trans ha⟩
    · rw [ha] at hb'
      cases hb'
      exact .inr ⟨hm, content, more ++ more', mode, hb, by rw [ha', List.append_assoc]⟩

theorem Files.GrownAt.eq (h : GrownAt logs fs fs' loc) (hl : loc ∉ logs) :
    fs'.get? loc = fs.get? loc :=
  h.resolve_right fun hm => hl hm.1

namespace Files.Grown

variable {logs : List Location} {fs fs' fs'' : Files}

theorem refl (logs : List Location) (fs : Files) : Grown logs fs fs := fun _ => .inl rfl

theorem trans (h : Grown logs fs fs') (h' : Grown logs fs' fs'') : Grown logs fs fs'' :=
  fun loc => (h loc).trans (h' loc)

theorem deliver (hl : ∀ loc, h.sink = .file loc → loc ∈ logs) (r : Log.Record) (console : Text) :
    Grown logs fs (Log.Handler.deliver r h fs console).1 := by
  unfold Log.Handler.deliver
  split
  · exact refl logs fs
  split
  · exact refl logs fs
  split
  · exact refl logs fs
  · rename_i loc hs
    split
    · rename_i content mode octets hf _
      intro other
      by_cases hroot : other = []
      · subst hroot
        exact .inl rfl
      rw [GrownAt, get?_put _ hroot]
      by_cases he : other = loc
      · subst he
        exact .inr ⟨hl _ hs, content, octets, mode, hf, if_pos rfl⟩
      · exact .inl (if_neg he)
    · exact refl logs fs

end Files.Grown

theorem Log.deliver_cons (level : Log.Level) (h : Log.Handler) (rest : List Log.Handler)
    (r : Log.Record) (fs : Files) (console : Text) :
    Log.deliver ⟨level, h :: rest⟩ r fs console =
      Log.deliver ⟨level, rest⟩ r (h.deliver r fs console).1 (h.deliver r fs console).2 := rfl

theorem Log.deliver_grown (log : Log) (r : Log.Record) (fs : Files) (console : Text) :
    Files.Grown log.files fs (log.deliver r fs console).1 := by
  have all (handlers : List Log.Handler) (hl : ∀ h ∈ handlers, ∀ loc, h.sink = .file loc →
      loc ∈ log.files) (fs : Files) (console : Text) :
      Files.Grown log.files fs (Log.deliver ⟨log.level, handlers⟩ r fs console).1 := by
    induction handlers generalizing fs console with
    | nil => exact .refl _ _
    | cons h rest ih =>
      rw [List.forall_mem_cons] at hl
      rw [Log.deliver_cons]
      exact (Files.Grown.deliver hl.1 r console).trans (ih hl.2 _ _)
  refine all log.handlers (fun h hm loc hs => ?_) fs console
  exact List.mem_filterMap.mpr ⟨h, hm, by rw [hs]⟩

namespace Session

/-- Some records were told, and nothing else happened. -/
structure Logged (s s' : Session) : Prop where
  files : Files.Grown s.log.files s.machine.files s'.machine.files
  rest : s' = { s with
    machine := { s.machine with files := s'.machine.files }
    records := s'.records
    console := s'.console }

namespace Logged

variable {s s' s'' : Session}

theorem refl (s : Session) : Logged s s := ⟨.refl _ _, rfl⟩

theorem log (h : Logged s s') : s'.log = s.log := by rw [h.rest]

theorem trans (h : Logged s s') (h' : Logged s' s'') : Logged s s'' := by
  refine ⟨h.files.trans (h.log ▸ h'.files), ?_⟩
  have hrest := h'.rest
  rw [h.rest] at hrest
  exact hrest

theorem here (h : Logged s s') : s'.machine.here = s.machine.here := by rw [h.rest]

theorem schemas (h : Logged s s') : s'.schemas = s.schemas := by rw [h.rest]

theorem temporary (h : Logged s s') : s'.temporary = s.temporary := by rw [h.rest]

theorem record (s : Session) (r : Log.Record) : Logged s (s.record r) := by
  unfold Session.record
  split
  · exact ⟨Log.deliver_grown s.log r s.machine.files s.console, rfl⟩
  · exact refl s

end Logged

/-- The session once some records were told, one after the other. -/
def told (s : Session) (records : List Log.Record) : Session := records.foldl Session.record s

theorem told_append (s : Session) (rs more : List Log.Record) :
    s.told (rs ++ more) = (s.told rs).told more := List.foldl_append

theorem Logged.told (s : Session) (rs : List Log.Record) : Logged s (s.told rs) := by
  induction rs generalizing s with
  | nil => exact .refl s
  | cons r rest ih => exact (Logged.record s r).trans (ih _)

end Session

-- ---------------------------------------------------------------------------
-- Acts that only speak
-- ---------------------------------------------------------------------------

/-- Records without a warning among them. -/
def Log.NoWarning (records : List Log.Record) : Prop := ∀ r ∈ records, r.level ≠ .warning

/-- An act that comes to the same in every session, and only tells some records on the way, none of
them a warning. -/
def Act.Speaks (act : Act α) (outcome : Except Failure α) : Prop :=
  ∀ s, ∃ rs, Log.NoWarning rs ∧ act s = (outcome, s.told rs)

namespace Act.Speaks

theorem of_run {act : Act α} (h : ∀ s, act s = (outcome, s)) : act.Speaks outcome :=
  fun s => ⟨[], nofun, h s⟩

theorem pure (a : α) : (Pure.pure a : Act α).Speaks (.ok a) := of_run fun _ => rfl

theorem throw (e : Failure) : (MonadExcept.throw e : Act α).Speaks (.error e) := of_run fun _ => rfl

theorem tell (source : String) (message : Text) (h : level ≠ .warning) :
    (Act.tell source level message).Speaks (.ok ⟨⟩) :=
  fun _ => ⟨[⟨source, level, message⟩], by simpa [Log.NoWarning] using h, rfl⟩

theorem bind {act : Act α} {next : α → Act β} (ha : act.Speaks (.ok a))
    (hn : (next a).Speaks outcome) : (act >>= next).Speaks outcome := by
  intro s
  obtain ⟨rs, hq, hr⟩ := ha s
  obtain ⟨more, hq', hr'⟩ := hn (s.told rs)
  refine ⟨rs ++ more, List.forall_mem_append.mpr ⟨hq, hq'⟩, ?_⟩
  rw [run_bind, hr, Session.told_append]
  exact hr'

end Act.Speaks

end Treewire
