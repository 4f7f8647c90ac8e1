import Treewire.Proofs.Loading

/-!
# Which documents make a configuration

`IsDocumented` says what a configuration may hold: nothing at all, or a mapping of known keys to
values of their types, with a time limit greater than zero if there is one. More than that is let
through: values that count as nothing without being nothing (`Hollow`), and a limit that is no
number (`Unlimited`). `validate_ok_iff` says that there is no other document that passes.
-/

namespace Treewire

-- ---------------------------------------------------------------------------
-- Numbers
-- ---------------------------------------------------------------------------

/-- A number is zero with either sign. -/
theorem Binary64.toInt?_eq_zero {x : Binary64} :
    x.toInt? = some 0 ↔ ∃ negative e, x.value = .finite negative 0 e := by
  unfold Binary64.toInt?
  cases x.value with
  | nan => simp
  | infinite negative => simp
  | finite negative m e =>
    have hnum : (Quotient.scaled m 2 e).num = 0 ↔ m = 0 := Quotient.scaled_num_eq_zero Nat.two_pos
    have hden := Quotient.scaled_den_pos Nat.two_pos m e
    dsimp only
    constructor
    · intro h
      refine ⟨negative, e, ?_⟩
      split at h
      · rename_i hrest
        have hquotient : (Quotient.scaled m 2 e).num / (Quotient.scaled m 2 e).den = 0 := by
          simp only [Option.some.injEq] at h
          split at h <;> omega
        have hzero : (Quotient.scaled m 2 e).num = 0 := by
          rw [← Nat.div_add_mod (Quotient.scaled m 2 e).num (Quotient.scaled m 2 e).den,
            hquotient, hrest, Nat.mul_zero]
        rw [hnum.mp hzero]
      · cases h
    · rintro ⟨_, _, h⟩
      cases h
      rw [hnum.mpr rfl]
      simp

namespace Duration

/-- Greater than zero. -/
def IsPositive : Duration → Prop
  | .whole n => 0 < n
  | .real x => x.isPositive = true

/-- No number, and so neither greater than zero nor less. -/
def IsNan : Duration → Prop
  | .whole _ => False
  | .real x => x.value = .nan

theorem isNotPositive_eq_false {t : Duration} :
    t.isNotPositive = false ↔ t.IsPositive ∨ t.IsNan := by
  cases t with
  | whole n => simp [isNotPositive, IsPositive, IsNan]
  | real x =>
    unfold isNotPositive IsPositive IsNan Binary64.isPositive
    cases hx : x.value <;> simp [hx]

theorem IsNan.not_isPositive {t : Duration} (h : t.IsNan) : ¬t.IsPositive := by
  cases t with
  | whole n => exact h.elim
  | real x =>
    have hx : x.value = .nan := h
    simp [IsPositive, Binary64.isPositive, hx]

end Duration

namespace Configuration

variable {homes : Homes} {file : Path} {d : Yaml.Document} {entries : Entries}

-- ---------------------------------------------------------------------------
-- What is documented
-- ---------------------------------------------------------------------------

/-- Nothing, or a number greater than zero. -/
def IsPositiveLimit (v : Yaml.Value) : Prop :=
  v = .atom .null ∨ ∃ t, durationOf? v = some t ∧ t.IsPositive

/-- Entries as they are documented. -/
structure Documented (entries : Entries) : Prop extends Orderly entries where
  timeout : Sets entries "timeout" IsPositiveLimit
  paths : ∀ key ∈ pathKeys, Sets entries key IsPath

/-- A document as it is documented: nothing, or a mapping. -/
def IsDocumented (d : Yaml.Document) : Prop :=
  d.root = .atom .null ∨ ∃ entries, d.entries? = some entries ∧ Documented entries

-- ---------------------------------------------------------------------------
-- What is let through besides
-- ---------------------------------------------------------------------------

/-- Documents that are neither nothing nor a mapping and count as nothing all the same. -/
inductive Hollow (d : Yaml.Document) : Prop
  | no (h : d.root = .atom (.bool false))
  | zero (h : d.root = .atom (.int 0))
  | realZero (h : d.root = .atom (.float x)) (hx : x.value = .finite negative 0 e)
  | emptyText (h : d.root = .atom (.text []))
  | emptyBytes (h : d.root = .atom (.bytes []))
  | emptyList {id : Nat} (h : d.root = .container id) (hc : d.container id = .list [])
  | emptyPairs {id : Nat} (h : d.root = .container id) (hc : d.container id = .pairs [])
  | emptySet {id : Nat} (h : d.root = .container id) (hc : d.container id = .set [])

/-- Entries as they are documented but for the time limit, which is no number. -/
structure Unlimited (entries : Entries) : Prop extends Orderly entries where
  timeout : ∃ v t, setting? entries "timeout" = some v ∧ durationOf? v = some t ∧ t.IsNan
  paths : ∀ key ∈ pathKeys, Sets entries key IsPath

theorem Hollow.not_isDocumented (h : Hollow d) : ¬IsDocumented d := by
  rintro (hn | ⟨entries, he, -⟩)
  · cases h <;> simp_all
  · unfold Yaml.Document.entries? at he
    cases h <;> simp_all

theorem Unlimited.not_documented (h : Unlimited entries) : ¬Documented entries := by
  intro hd
  obtain ⟨v, t, hv, ht, hn⟩ := h.timeout
  rcases hd.timeout v hv with rfl | ⟨u, hu, hp⟩
  · cases ht
  · cases ht.symm.trans hu
    exact hn.not_isPositive hp

theorem valid_iff_documented : Valid entries ↔ Documented entries ∨ Unlimited entries := by
  constructor
  · rintro ⟨ho, ht, hp⟩
    by_cases hn : ∃ v t, setting? entries "timeout" = some v ∧ durationOf? v = some t ∧ t.IsNan
    · exact .inr ⟨ho, hn, hp⟩
    · refine .inl ⟨ho, fun v hv => (ht v hv).imp_right ?_, hp⟩
      rintro ⟨t, hd, hpos⟩
      refine ⟨t, hd, (Duration.isNotPositive_eq_false.mp hpos).resolve_right fun hnan => ?_⟩
      exact hn ⟨v, t, hv, hd, hnan⟩
  · rintro (⟨ho, ht, hp⟩ | ⟨ho, ⟨v, t, hv, hd, hn⟩, hp⟩)
    · refine ⟨ho, fun v hv => (ht v hv).imp_right ?_, hp⟩
      rintro ⟨t, hd, hpos⟩
      exact ⟨t, hd, Duration.isNotPositive_eq_false.mpr (.inl hpos)⟩
    · have hpass := Duration.isNotPositive_eq_false.mpr (.inr hn)
      exact ⟨ho, (sets_iff hv).mpr (.inr ⟨t, hd, hpass⟩), hp⟩

/-- No entries are as documented. -/
theorem documented_nil : Documented [] where
  known := by simp
  binary := sets_of_none rfl
  fallbacks := sets_of_none rfl
  timeout := sets_of_none rfl
  paths _ _ := sets_of_none rfl

theorem isEmpty_of_entries (h : d.entries? = some []) : d.isEmpty = true := by
  unfold Yaml.Document.entries? at h
  unfold Yaml.Document.isEmpty
  split at h
  · cases h
  · split at h
    · simp_all
    · cases h

theorem Hollow.isEmpty (h : Hollow d) : d.isEmpty = true := by
  unfold Yaml.Document.isEmpty
  cases h with
  | realZero hr hx =>
    rw [hr]
    exact beq_iff_eq.mpr (Binary64.toInt?_eq_zero.mpr ⟨_, _, hx⟩)
  | emptyList hr hc | emptyPairs hr hc | emptySet hr hc =>
    rw [hr]
    dsimp only
    rw [hc]
    rfl
  | no hr | zero hr | emptyText hr | emptyBytes hr =>
    rw [hr]
    rfl

/-- An atom that counts as nothing is null or stands for nothing. -/
theorem hollow_of_atom {atom : Yaml.Atom} (hr : d.root = .atom atom) (h : d.isEmpty = true) :
    d.root = .atom .null ∨ Hollow d := by
  unfold Yaml.Document.isEmpty at h
  rw [hr] at h
  cases atom with
  | null => exact .inl hr
  | bool b =>
    cases b
    · exact .inr (.no hr)
    · cases h
  | int i =>
    obtain rfl : i = 0 := eq_of_beq h
    exact .inr (.zero hr)
  | float x =>
    obtain ⟨negative, e, hx⟩ := Binary64.toInt?_eq_zero.mp (eq_of_beq h)
    exact .inr (.realZero hr hx)
  | text t =>
    obtain rfl : t = [] := List.isEmpty_iff.mp h
    exact .inr (.emptyText hr)
  | bytes b =>
    obtain rfl : b = [] := List.isEmpty_iff.mp h
    exact .inr (.emptyBytes hr)
  | date | moment => cases h

/-- A container that counts as nothing is a mapping without entries or stands for nothing. -/
theorem hollow_of_container {id : Nat} (hr : d.root = .container id) (h : d.isEmpty = true) :
    d.entries? = some [] ∨ Hollow d := by
  unfold Yaml.Document.isEmpty at h
  rw [hr] at h
  dsimp only at h
  split at h
  all_goals
    rename_i items hc
    obtain rfl : items = [] := List.isEmpty_iff.mp h
  · exact .inr (.emptyList hr hc)
  · exact .inr (.emptyPairs hr hc)
  · exact .inl (by simp [Yaml.Document.entries?, hr, hc])
  · exact .inr (.emptySet hr hc)

theorem isEmpty_iff :
    d.isEmpty = true ↔ d.root = .atom .null ∨ d.entries? = some [] ∨ Hollow d := by
  constructor
  · intro h
    cases hr : d.root with
    | atom atom => exact (hr ▸ hollow_of_atom hr h).imp_right .inr
    | container id => exact .inr (hollow_of_container hr h)
  · rintro (hr | he | hh)
    · rw [Yaml.Document.isEmpty, hr]
      rfl
    · exact isEmpty_of_entries he
    · exact hh.isEmpty

-- ---------------------------------------------------------------------------
-- Checking documents
-- ---------------------------------------------------------------------------

/-- All that is checked of a document. A document that counts as nothing asks for nothing. -/
def validate (file : Path) (d : Yaml.Document) : Except ConfigurationFault (Option Choices) :=
  if d.isEmpty then .ok none
  else match d.entries? with
    | none => .error (.notMapping file)
    | some entries => some <$> check file entries

/-- Once a document is checked, only its paths are left to be resolved. -/
theorem ofDocument_eq (homes : Homes) (file : Path) (d : Yaml.Document) :
    ofDocument homes file d = validate file d >>= fun choices =>
      choices.elim (.ok .default) fun c => c.resolve homes (some file.parent) := by
  unfold ofDocument validate
  split
  · rfl
  · cases d.entries? with
    | none => rfl
    | some entries =>
      dsimp only
      cases check file entries <;> rfl

theorem validate_ok : (∃ c, validate file d = .ok c) ↔
    d.isEmpty = true ∨ ∃ entries, d.entries? = some entries ∧ Valid entries := by
  unfold validate
  by_cases hd : d.isEmpty = true
  · simp [hd]
  · rw [if_neg hd]
    cases he : d.entries? with
    | none => simp [hd]
    | some entries =>
      have hmap : (∃ c, some <$> check file entries = .ok c) ↔
          ∃ c, check file entries = .ok c := by
        cases check file entries <;> simp [Functor.map, Except.map]
      dsimp only
      rw [hmap, valid_iff]
      simp [hd]

/-- A document passes exactly if it is as documented, if it counts as nothing, or if all that is
wrong with it is a time limit that is no number. The last two are not documented. -/
theorem validate_ok_iff (homes : Homes) (file : Path) (d : Yaml.Document) :
    ((∃ c, validate file d = .ok c) ↔ IsDocumented d ∨ Hollow d ∨
      ∃ entries, d.entries? = some entries ∧ Unlimited entries) ∧
    (Hollow d ∨ (∃ entries, d.entries? = some entries ∧ Unlimited entries) → ¬IsDocumented d) ∧
    ofDocument homes file d = validate file d >>= fun choices =>
      choices.elim (.ok .default) fun c => c.resolve homes (some file.parent) := by
  refine ⟨?_, ?_, ofDocument_eq homes file d⟩
  · rw [validate_ok, isEmpty_iff]
    simp only [valid_iff_documented, and_or_left, exists_or, IsDocumented]
    constructor
    · rintro ((hn | he | hh) | hd | hu)
      · exact .inl (.inl hn)
      · exact .inl (.inr ⟨[], he, documented_nil⟩)
      · exact .inr (.inl hh)
      · exact .inl (.inr hd)
      · exact .inr (.inr hu)
    · rintro ((hn | hd) | hh | hu)
      · exact .inl (.inl hn)
      · exact .inr (.inl hd)
      · exact .inl (.inr (.inr hh))
      · exact .inr (.inr hu)
  · rintro (hh | ⟨entries, he, hu⟩)
    · exact hh.not_isDocumented
    · rintro (hn | ⟨entries', he', hd⟩)
      · unfold Yaml.Document.entries? at he
        rw [hn] at he
        cases he
      · cases he.symm.trans he'
        exact hu.not_documented hd

theorem read_false : ∃ d, Yaml.Document.read "false".toList = .ok d ∧
    d.root = .atom (.bool false) := by
  have hroot : (Yaml.Document.read "false".toList).toOption.map (·.root) =
      some (.atom (.bool false)) := rfl
  cases h : Yaml.Document.read "false".toList with
  | error fault =>
    rw [h] at hroot
    cases hroot
  | ok d =>
    rw [h] at hroot
    exact ⟨d, rfl, Option.some.inj hroot⟩

/-- A file that says `false` is read and passes, though it is neither empty nor a mapping. -/
theorem hollow_passes :
    ¬∀ file cs d, Yaml.Document.read cs = .ok d →
      ((∃ c, validate file d = .ok c) ↔ IsDocumented d) := by
  intro h
  obtain ⟨d, hd, hr⟩ := read_false
  have hh : Hollow d := .no hr
  have hpass : ∃ c, validate (Path.ofString "/c.yaml") d = .ok c :=
    validate_ok.mpr (.inl (isEmpty_iff.mpr (.inr (.inr hh))))
  exact hh.not_isDocumented ((h _ _ d hd).mp hpass)

end Configuration

end Treewire
