import Mathlib.Data.List.Basic
import Treewire.CommandLine.Arguments

/-!
# One more option

An option that names a configuration file can be added to the arguments of a command in front, or at
the end unless there are only operands from some point on. It changes nothing about the request that
they make but the configuration file, and nothing about whether they make one.
-/

namespace Treewire.CommandLine

-- ---------------------------------------------------------------------------
-- Settings with another configuration file
-- ---------------------------------------------------------------------------

def Settings.withConfiguration (s : Settings) (file : Option Text) : Settings :=
  { s with configuration := file }

def Findings.withConfiguration (found : Findings) (file : Option Text) : Findings :=
  { found with settings := found.settings.withConfiguration file }

def Request.withConfiguration (file : Option Text) : Request → Request
  | .check settings => .check (settings.withConfiguration file)
  | .parse settings files => .parse (settings.withConfiguration file) files

variable {names : Names} {takesFiles : Bool} {found : Findings} {settings : Settings}
  {file : Option Text} {option : Flag}

theorem Settings.set_withConfiguration (ho : option ≠ .configuration) (value : Text) :
    (settings.withConfiguration file).set option value =
      (settings.set option value).map (·.withConfiguration file) := by
  cases option with
  | configuration => exact absurd rfl ho
  | help | code => rfl
  | timeout =>
    dsimp only [Settings.set]
    cases Numeral.real? value <;> rfl
  | level | format =>
    dsimp only [Settings.set]
    split <;> rfl

theorem Settings.take_withConfiguration (ho : option ≠ .configuration) (short : Bool)
    (attached : Option Attachment) (next : Option (Kind × Text)) :
    (settings.withConfiguration file).take names option short attached next =
      (settings.take names option short attached next).map
        fun r => (r.1.withConfiguration file, r.2) := by
  have hset (value : Text) (used : Bool) :
      ((settings.withConfiguration file).set option value).map (fun s => (s, used)) =
        ((settings.set option value).map fun s => (s, used)).map
          fun r => (r.1.withConfiguration file, r.2) := by
    rw [Settings.set_withConfiguration ho]
    cases settings.set option value <;> rfl
  unfold Settings.take
  split
  · rfl
  · exact hset _ _
  · split
    · exact hset _ _
    · rfl

-- ---------------------------------------------------------------------------
-- Going through arguments
-- ---------------------------------------------------------------------------

/-- What was found once a row of operands was met. -/
def Findings.row (found : Findings) (takesFiles : Bool) (text : Text) (rest : List (Kind × Text)) :
    Findings :=
  if takesFiles && found.operands.isNone then
    { found with operands := some (text :: operandsIn rest) }
  else { found with hasExtras := true }

theorem collect_row (kind : Kind) (hk : isOperandKind kind = true) (text : Text)
    (rest : List (Kind × Text)) : collect names takesFiles found ((kind, text) :: rest) =
      collect names takesFiles (found.row takesFiles text rest) (afterOperands rest) := by
  cases kind with
  | operand | separator =>
    rw [collect, Findings.row]
    split <;> rfl
  | option | unknown => cases hk

/-- The arguments that are left get fewer. -/
theorem collect_induction {motive : Findings → List (Kind × Text) → Prop} (takesFiles : Bool)
    (nil : ∀ found, motive found [])
    (unknown : ∀ found text rest, motive { found with hasExtras := true } rest →
      motive found ((.unknown, text) :: rest))
    (option : ∀ found option short attached text rest,
      (∀ settings (used : Bool), motive { found with settings } (rest.drop used.toNat)) →
        motive found ((.option option short attached, text) :: rest))
    (row : ∀ found kind text rest, isOperandKind kind = true →
      motive (found.row takesFiles text rest) (afterOperands rest) →
        motive found ((kind, text) :: rest))
    (found : Findings) (arguments : List (Kind × Text)) : motive found arguments := by
  have hfirst (found : Findings) (text : Text) (rest : List (Kind × Text))
      (h : (takesFiles && found.operands.isNone) = true) :
      found.row takesFiles text rest = { found with operands := some (text :: operandsIn rest) } :=
    if_pos h
  have hmore (found : Findings) (text : Text) (rest : List (Kind × Text))
      (h : ¬(takesFiles && found.operands.isNone) = true) :
      found.row takesFiles text rest = { found with hasExtras := true } :=
    if_neg h
  induction found, arguments using collect.induct takesFiles with
  | case1 found => exact nil found
  | case2 found text rest ih => exact unknown found text rest ih
  | case3 found flag short attached text rest ih => exact option found flag short attached text rest ih
  | case4 found text rest _ h ih | case6 found text rest _ h ih =>
    exact row found _ text rest rfl (hfirst found text rest h ▸ ih)
  | case5 found text rest _ h ih | case7 found text rest _ h ih =>
    exact row found _ text rest rfl (hmore found text rest h ▸ ih)

/-- Arguments among which no option names a configuration file. -/
def Silent (arguments : List (Kind × Text)) : Prop :=
  ∀ short attached text, (Kind.option .configuration short attached, text) ∉ arguments

theorem Silent.sublist {arguments some : List (Kind × Text)} (h : Silent arguments)
    (hs : some.Sublist arguments) : Silent some :=
  fun short attached text hm => h short attached text (hs.subset hm)

theorem Findings.row_withConfiguration (text : Text) (rest : List (Kind × Text)) :
    (found.withConfiguration file).row takesFiles text rest =
      (found.row takesFiles text rest).withConfiguration file := by
  rw [Findings.row, Findings.row, apply_ite (Findings.withConfiguration · file)]
  rfl

/-- A configuration file that was named before stays, if none is named. -/
theorem collect_withConfiguration (arguments : List (Kind × Text)) (hs : Silent arguments) :
    collect names takesFiles (found.withConfiguration file) arguments =
      (collect names takesFiles found arguments).map (·.withConfiguration file) := by
  induction found, arguments using collect_induction takesFiles with
  | nil found =>
    rw [collect, collect]
    rfl
  | unknown found text rest ih =>
    rw [collect, collect]
    exact ih (hs.sublist (List.sublist_cons_self _ _))
  | option found flag short attached text rest ih =>
    have ho : flag ≠ .configuration := by
      rintro rfl
      exact hs short attached text (List.mem_cons_self)
    rw [collect, collect]
    have htake : (found.withConfiguration file).settings.take names flag short attached rest.head? =
        (found.settings.take names flag short attached rest.head?).map
          fun r => (r.1.withConfiguration file, r.2) := Settings.take_withConfiguration ho _ _ _
    rw [htake]
    cases found.settings.take names flag short attached rest.head? with
    | error e => rfl
    | ok r =>
      exact ih r.1 r.2 (hs.sublist ((List.drop_sublist _ _).trans (List.sublist_cons_self _ _)))
  | row found kind text rest hk ih =>
    rw [collect_row kind hk, collect_row kind hk, Findings.row_withConfiguration]
    exact ih (hs.sublist ((List.dropWhile_sublist _).trans (List.sublist_cons_self _ _)))

-- ---------------------------------------------------------------------------
-- One more option
-- ---------------------------------------------------------------------------

/-- An option that names a configuration file. -/
inductive Chooses (file : Text) : List (Kind × Text) → Prop
  | attached (text : Text) :
    Chooses file [(.option .configuration false (some ⟨true, file⟩), text)]
  | following (text : Text) :
    Chooses file [(.option .configuration false none, text), (.operand, file)]

variable {chosen : Text} {more : List (Kind × Text)}

theorem collect_chooses (h : Chooses chosen more) (rest : List (Kind × Text)) :
    collect names takesFiles found (more ++ rest) =
      collect names takesFiles (found.withConfiguration (some chosen)) rest := by
  cases h with
  | attached text =>
    rw [List.cons_append, collect]
    rfl
  | following text =>
    rw [List.cons_append, collect]
    rfl

theorem Chooses.first (h : Chooses chosen more) :
    ∃ attached text rest, more = (.option .configuration false attached, text) :: rest := by
  cases h <;> exact ⟨_, _, _, rfl⟩

/-- An option looks at the next argument only if that is an operand. -/
theorem helpWith_next {next next' : Option Kind} (h : next ≠ some .operand)
    (h' : next' ≠ some .operand) (text : Text) : helpWith names next text = helpWith names next' text := by
  induction text with
  | nil => rfl
  | cons c rest ih =>
    simp only [helpWith, h, h', ih]

theorem Settings.take_misuse (ho : option ≠ .help) {next : Option (Kind × Text)}
    (h : next.map (·.1) ≠ some .operand) (short : Bool) :
    settings.take names option short none next = .error .misuse := by
  unfold Settings.take
  split
  · exact absurd rfl ho
  · rename_i ha
    cases ha
  · split
    · exact absurd rfl h
    · rfl

theorem Settings.take_attached (ho : option ≠ .help) (short : Bool) (a : Attachment)
    (next : Option (Kind × Text)) : settings.take names option short (some a) next =
      (settings.set option a.text).map fun s => (s, false) := by
  cases option with
  | help => exact absurd rfl ho
  | _ => rfl

theorem Settings.take_next {next next' : Option (Kind × Text)}
    (h : next.map (·.1) ≠ some .operand) (h' : next'.map (·.1) ≠ some .operand) (short : Bool)
    (attached : Option Attachment) :
    settings.take names option short attached next =
      settings.take names option short attached next' := by
  by_cases ho : option = .help
  · subst ho
    have hhelp : helpCall names short attached (next.map (·.1)) =
        helpCall names short attached (next'.map (·.1)) := by
      cases attached with
      | none => rfl
      | some a => rw [helpCall, helpCall, helpWith_next h h']
    exact congrArg Except.error hhelp
  · cases attached with
    | some a => rw [take_attached ho, take_attached ho]
    | none => rw [take_misuse ho h, take_misuse ho h']

theorem Settings.take_used {short : Bool} {attached : Option Attachment}
    {next : Option (Kind × Text)} {result : Settings}
    (h : settings.take names option short attached next = .ok (result, true)) :
    next.map (·.1) = some .operand := by
  have ho : option ≠ .help := by
    rintro rfl
    cases h
  cases attached with
  | some a =>
    rw [take_attached ho] at h
    cases hs : settings.set option a.text with
    | error e =>
      rw [hs] at h
      cases h
    | ok t =>
      rw [hs] at h
      cases h
  | none =>
    by_contra hn
    rw [take_misuse ho hn] at h
    cases h

theorem afterOperands_append (h : Chooses chosen more) (rest : List (Kind × Text)) :
    afterOperands (rest ++ more) = afterOperands rest ++ more := by
  obtain ⟨attached, text, rest', rfl⟩ := h.first
  rw [afterOperands, List.dropWhile_append]
  split
  · rename_i he
    rw [afterOperands, List.isEmpty_iff.mp he]
    rfl
  · rfl

theorem operandsIn_append (h : Chooses chosen more) (rest : List (Kind × Text)) :
    operandsIn (rest ++ more) = operandsIn rest := by
  obtain ⟨attached, text, rest', rfl⟩ := h.first
  rw [operandsIn, List.takeWhile_append]
  split
  · rename_i hl
    have hall : rest.takeWhile (fun a => isOperandKind a.1) = rest :=
      (List.takeWhile_prefix _).eq_of_length hl
    rw [operandsIn, hall]
    simp [isOperandKind]
  · rfl

/-- Named last, a configuration file is the one that counts. -/
theorem collect_append (h : Chooses chosen more) (arguments : List (Kind × Text)) :
    collect names takesFiles found (arguments ++ more) =
      (collect names takesFiles found arguments).map (·.withConfiguration (some chosen)) := by
  induction found, arguments using collect_induction takesFiles with
  | nil found =>
    have hlast : collect names takesFiles found (more ++ []) =
        collect names takesFiles (found.withConfiguration (some chosen)) [] := collect_chooses h []
    rw [List.append_nil] at hlast
    rw [List.nil_append, hlast, collect, collect]
    rfl
  | unknown found text rest ih =>
    rw [List.cons_append, collect, collect]
    exact ih
  | option found flag short attached text rest ih =>
    have htake : found.settings.take names flag short attached (rest ++ more).head? =
        found.settings.take names flag short attached rest.head? := by
      cases rest with
      | nil =>
        obtain ⟨_, _, _, rfl⟩ := h.first
        exact Settings.take_next (by simp) (by simp) short attached
      | cons => rfl
    rw [List.cons_append, collect, collect, htake]
    cases ht : found.settings.take names flag short attached rest.head? with
    | error e => rfl
    | ok r =>
      obtain ⟨settings, used⟩ := r
      have hdrop : (rest ++ more).drop used.toNat = rest.drop used.toNat ++ more := by
        cases used with
        | false => rfl
        | true =>
          cases rest with
          | nil => cases Settings.take_used ht
          | cons => rfl
      have hrest := ih settings used
      rw [← hdrop] at hrest
      exact hrest
  | row found kind text rest hk ih =>
    have hrow : found.row takesFiles text (rest ++ more) = found.row takesFiles text rest := by
      rw [Findings.row, operandsIn_append h, ← Findings.row]
    rw [List.cons_append, collect_row kind hk, collect_row kind hk, hrow, afterOperands_append h]
    exact ih

-- ---------------------------------------------------------------------------
-- Arguments as they are given
-- ---------------------------------------------------------------------------

/-- The name of the option that names a configuration file. -/
def configurationName : Text := Text.ofString "--config"

/-- Arguments that name a configuration file: it stands behind an equals sign or in an argument of
its own, which must not look like an option then. -/
inductive Selects (file : Text) : List Text → Prop
  | attached : Selects file [configurationName ++ equalsSign :: file]
  | following (h : file.head? ≠ some hyphen) : Selects file [configurationName, file]

/-- Arguments with some more in front or, unless there are only operands from some point on, at the
end. -/
inductive Added (more arguments : List Text) : List Text → Prop
  | front : Added more arguments (more ++ arguments)
  | back (h : [hyphen, hyphen] ∉ arguments) : Added more arguments (arguments ++ more)

/-- Arguments that name no configuration file. -/
def Unselected (names : Names) (arguments : List Text) : Prop :=
  ∀ kinds, kindsOf names arguments = .ok kinds → Silent kinds

/-- A command offers some options. -/
inductive Offers : Text → Names → Prop
  | check : Offers (Text.ofString "check") checkNames
  | parse : Offers (Text.ofString "parse") parseNames

variable {command : Text} {arguments arguments' added : List Text} {chosen : Text}

theorem kindOf_attached (hc : Offers command names) (chosen : Text) :
    kindOf names (configurationName ++ equalsSign :: chosen) =
      .ok (.option .configuration false (some ⟨true, chosen⟩)) := by
  cases hc <;> rfl

theorem kindOf_following (hc : Offers command names) :
    kindOf names configurationName = .ok (.option .configuration false none) := by
  cases hc <;> rfl

theorem kindOf_operand {argument : Text} (h : argument.head? ≠ some hyphen) :
    kindOf names argument = .ok .operand :=
  if_pos (bne_iff_ne.mpr h)

theorem kindOf_main (chosen : Text) :
    ∃ kind, kindOf mainNames (configurationName ++ equalsSign :: chosen) = .ok kind := by
  have hkind : kindOf mainNames (configurationName ++ equalsSign :: chosen) =
      if isNegative (configurationName ++ equalsSign :: chosen) ||
        (configurationName ++ equalsSign :: chosen).contains (.scalar ' ') then .ok .operand
      else .ok .unknown := rfl
  rw [hkind]
  split <;> exact ⟨_, rfl⟩

theorem kindsOf_append (h : [hyphen, hyphen] ∉ arguments) (more : List Text) :
    kindsOf names (arguments ++ more) = (do
      let kinds ← kindsOf names arguments
      return kinds ++ (← kindsOf names more)) := by
  induction arguments with
  | nil =>
    rw [List.nil_append]
    cases kindsOf names more <;> rfl
  | cons argument rest ih =>
    obtain ⟨ha, hrest⟩ := not_or.mp fun hm => h (List.mem_cons.mpr hm)
    rw [List.cons_append, kindsOf, kindsOf, if_neg (Ne.symm ha), if_neg (Ne.symm ha), ih hrest]
    cases kindOf names argument with
    | error e => rfl
    | ok kind =>
      cases kindsOf names rest with
      | error e => rfl
      | ok kinds => cases kindsOf names more <;> rfl

theorem kindsOf_texts {kinds : List (Kind × Text)} (h : kindsOf names arguments = .ok kinds) :
    kinds.map (·.2) = arguments := by
  induction arguments generalizing kinds with
  | nil =>
    cases h
    rfl
  | cons argument rest ih =>
    rw [kindsOf] at h
    split at h
    · cases h
      rw [List.map_cons, List.map_map]
      exact congrArg _ (List.map_id rest)
    · cases hk : kindOf names argument with
      | error e =>
        rw [hk] at h
        cases h
      | ok kind =>
        rw [hk] at h
        cases hr : kindsOf names rest with
        | error e =>
          rw [hr] at h
          cases h
        | ok kinds =>
          rw [hr] at h
          cases h
          exact congrArg _ (ih hr)

theorem Selects.separator_not_mem (h : Selects chosen added) : [hyphen, hyphen] ∉ added := by
  cases h with
  | attached =>
    rw [List.mem_singleton]
    intro he
    cases he
  | following h =>
    rw [List.mem_pair]
    rintro (he | rfl)
    · cases he
    · exact h rfl

/-- To the command, the added arguments are the option. -/
theorem Selects.kinds (hc : Offers command names) (h : Selects chosen added) :
    ∃ kinds, kindsOf names added = .ok kinds ∧ Chooses chosen kinds := by
  cases h with
  | attached =>
    refine ⟨_, ?_, .attached (configurationName ++ equalsSign :: chosen)⟩
    rw [kindsOf, if_neg (by intro he; cases he), kindOf_attached hc]
    rfl
  | following h =>
    refine ⟨_, ?_, .following configurationName⟩
    have hsep : chosen ≠ [hyphen, hyphen] := by
      rintro rfl
      exact h rfl
    rw [kindsOf, if_neg (by decide), kindOf_following hc, kindsOf, if_neg hsep, kindOf_operand h]
    rfl

/-- To the program, they are of no interest. -/
theorem Selects.kinds_main (h : Selects chosen added) :
    ∃ kinds, kindsOf mainNames added = .ok kinds := by
  cases h with
  | attached =>
    obtain ⟨kind, hk⟩ := kindOf_main chosen
    rw [kindsOf, if_neg (by intro he; cases he), hk]
    exact ⟨_, rfl⟩
  | following h =>
    have hsep : chosen ≠ [hyphen, hyphen] := by
      rintro rfl
      exact h rfl
    have hmain : kindOf mainNames configurationName = .ok .unknown := rfl
    rw [kindsOf, if_neg (by decide), hmain, kindsOf, if_neg hsep, kindOf_operand h]
    exact ⟨_, rfl⟩

/-- With the option, the same is found but for the configuration file. -/
theorem findings_added (hc : Offers command names) (hs : Selects chosen added)
    (ha : Added added arguments arguments') (hu : Unselected names arguments) :
    findings names takesFiles arguments' =
      (findings names takesFiles arguments).map (·.withConfiguration (some chosen)) := by
  obtain ⟨kinds, hk, hchooses⟩ := hs.kinds hc
  cases ha with
  | front =>
    rw [findings, findings, kindsOf_append hs.separator_not_mem, hk]
    cases hr : kindsOf names arguments with
    | error e => rfl
    | ok rest => exact (collect_chooses hchooses rest).trans (collect_withConfiguration rest (hu rest hr))
  | back h =>
    rw [findings, findings, kindsOf_append h, hk]
    cases hr : kindsOf names arguments with
    | error e => rfl
    | ok rest => exact collect_append hchooses rest

/-- Without it, none is found. -/
theorem findings_unselected (hu : Unselected names arguments) :
    findings names takesFiles arguments =
      (findings names takesFiles arguments).map (·.withConfiguration none) := by
  have hnone : ({} : Findings).withConfiguration none = {} := rfl
  rw [findings]
  cases hr : kindsOf names arguments with
  | error e => rfl
  | ok rest =>
    have hrest := @collect_withConfiguration names takesFiles {} none rest (hu rest hr)
    rw [hnone] at hrest
    exact hrest

/-- A command makes its request of what was found. -/
theorem requestOf_eq (hc : Offers command names) (hasExtras : Bool) :
    ∃ takesFiles, ∃ make : Findings → Request,
      (∀ found file, make (found.withConfiguration file) = (make found).withConfiguration file) ∧
      ∀ arguments, requestOf hasExtras command arguments = (do
        let found ← findings names takesFiles arguments
        refuseExtras (hasExtras || found.hasExtras)
        return make found) := by
  cases hc with
  | check => exact ⟨false, fun found => .check found.settings, fun _ _ => rfl, fun _ => rfl⟩
  | parse =>
    exact ⟨true, fun found =>
      .parse found.settings (withoutSeparator (found.operands.getD [])), fun _ _ => rfl, fun _ => rfl⟩

theorem requestOf_of_findings (hc : Offers command names) {file : Option Text}
    (h : ∀ takesFiles, findings names takesFiles arguments' =
      (findings names takesFiles arguments).map (·.withConfiguration file)) (hasExtras : Bool) :
    requestOf hasExtras command arguments' =
      (requestOf hasExtras command arguments).map (·.withConfiguration file) := by
  obtain ⟨takesFiles, make, hmake, hrequest⟩ := requestOf_eq hc hasExtras
  rw [hrequest, hrequest, h]
  cases findings names takesFiles arguments with
  | error e => rfl
  | ok found =>
    have hextras : (found.withConfiguration file).hasExtras = found.hasExtras := rfl
    dsimp only [bind, Except.bind, Except.map]
    rw [hextras, hmake]
    cases refuseExtras (hasExtras || found.hasExtras) <;> rfl

/-- A command whose arguments have kinds makes a request of them. -/
theorem ofArguments_command (hc : Offers command names) :
    Request.ofArguments (command :: arguments) =
      match kindsOf mainNames arguments with
      | .ok _ => (requestOf false command arguments).map some
      | .error e => .error e := by
  have hsep : command ≠ [hyphen, hyphen] := by cases hc <;> decide
  have hkind : kindOf mainNames command = .ok .operand := by
    refine kindOf_operand ?_
    cases hc <;> decide
  rw [Request.ofArguments, kindsOf, if_neg hsep, hkind]
  cases hk : kindsOf mainNames arguments with
  | error e => rfl
  | ok kinds =>
    have htexts := kindsOf_texts hk
    have hrequest : request false ((.operand, command) :: kinds) =
        some <$> requestOf false command (kinds.map (·.2)) := rfl
    rw [htexts] at hrequest
    exact hrequest

/-- The option makes no difference to a request but for the configuration file. -/
theorem ofArguments_added (hc : Offers command names) (hs : Selects chosen added)
    (ha : Added added arguments arguments') (hu : Unselected names arguments) :
    Request.ofArguments (command :: arguments') =
      (Request.ofArguments (command :: arguments)).map
        (Option.map (·.withConfiguration (some chosen))) := by
  obtain ⟨more, hmore⟩ := hs.kinds_main
  have hkinds : (∃ e, kindsOf mainNames arguments = .error e ∧
        kindsOf mainNames arguments' = .error e) ∨
      ∃ kinds kinds', kindsOf mainNames arguments = .ok kinds ∧
        kindsOf mainNames arguments' = .ok kinds' := by
    cases ha with
    | front =>
      rw [kindsOf_append hs.separator_not_mem, hmore]
      cases kindsOf mainNames arguments with
      | error e => exact .inl ⟨e, rfl, rfl⟩
      | ok kinds => exact .inr ⟨_, _, rfl, rfl⟩
    | back h =>
      rw [kindsOf_append h, hmore]
      cases kindsOf mainNames arguments with
      | error e => exact .inl ⟨e, rfl, rfl⟩
      | ok kinds => exact .inr ⟨_, _, rfl, rfl⟩
  rw [ofArguments_command hc, ofArguments_command hc,
    requestOf_of_findings hc fun takesFiles => findings_added hc hs ha hu]
  rcases hkinds with ⟨e, hk, hk'⟩ | ⟨_, _, hk, hk'⟩
  · rw [hk, hk']
    rfl
  · rw [hk, hk']
    cases requestOf false command arguments <;> rfl

/-- Without it, a request names no configuration file. -/
theorem ofArguments_unselected (hc : Offers command names) (hu : Unselected names arguments) :
    Request.ofArguments (command :: arguments) =
      (Request.ofArguments (command :: arguments)).map
        (Option.map (·.withConfiguration none)) := by
  have hrequest := requestOf_of_findings hc (fun takesFiles => findings_unselected hu) false
  rw [ofArguments_command hc]
  cases kindsOf mainNames arguments with
  | error e => rfl
  | ok kinds =>
    dsimp only
    revert hrequest
    cases requestOf false command arguments with
    | error e => exact fun _ => rfl
    | ok request => exact fun h => congrArg (Except.map some) h

end Treewire.CommandLine
