import Treewire.Text

/-!
# Wire records

A message body is a run of records, each a field number with contents of one of five shapes. The
octets are cut into flat items first; groups are nested afterwards. No schema is needed for
either pass.
-/

namespace Treewire.Wire

/-- A varint of at most the given number of octets, least significant group first. -/
def varint? : Nat → Bytes → Option (Nat × Bytes)
  | 0, _ => none
  | _ + 1, [] => none
  | limit + 1, b :: rest =>
    if b.toNat < 0x80 then some (b.toNat, rest)
    else (varint? limit rest).map fun (high, rest) => (b.toNat - 0x80 + 0x80 * high, rest)

theorem varint?_length {limit n : Nat} {bytes rest : Bytes}
    (h : varint? limit bytes = some (n, rest)) : rest.length < bytes.length := by
  induction limit generalizing bytes n with
  | zero => simp [varint?] at h
  | succ limit ih =>
    cases bytes with
    | nil => simp [varint?] at h
    | cons b tail =>
      simp only [varint?] at h
      split at h
      · simp_all
      · obtain ⟨⟨high, after⟩, hr, he⟩ := Option.map_eq_some_iff.1 h
        obtain ⟨_, rfl⟩ := Prod.mk.inj he
        exact Nat.lt_succ_of_lt (ih hr)

/-- The next `n` octets as a number, least significant first. -/
def fixed? : Nat → Bytes → Option (Nat × Bytes)
  | 0, rest => some (0, rest)
  | _ + 1, [] => none
  | n + 1, b :: rest => (fixed? n rest).map fun (high, rest) => (b.toNat + 0x100 * high, rest)

/-- The next `n` octets, if there are that many. -/
def block? (n : Nat) (bytes : Bytes) : Option (Bytes × Bytes) :=
  if n ≤ bytes.length then some (bytes.take n, bytes.drop n) else none

/-- What follows a field number. Groups appear as their two ends. -/
inductive Mark where
  | varint (v : UInt64)
  | fixed64 (v : UInt64)
  | fixed32 (v : UInt32)
  | block (bytes : Bytes)
  | openGroup
  | closeGroup
  deriving DecidableEq, Inhabited

/-- A field number and its mark. -/
abbrev Item := Nat × Mark

/-- Tags hold 32 bits and take at most five octets; field number zero is not used. -/
def tag? (bytes : Bytes) : Option ((Nat × Nat) × Bytes) :=
  match varint? 5 bytes with
  | some (tag, rest) =>
    if tag < 0x100000000 ∧ tag / 8 ≠ 0 then some ((tag / 8, tag % 8), rest) else none
  | none => none

/-- A length takes at most five octets and stays below 2 ^ 31. -/
def length? (bytes : Bytes) : Option (Nat × Bytes) :=
  match varint? 5 bytes with
  | some (n, rest) => if n < 0x80000000 then some (n, rest) else none
  | none => none

/-- The mark that a wire type announces. A varint keeps its low 64 bits. -/
def mark? (wireType : Nat) (bytes : Bytes) : Option (Mark × Bytes) :=
  match wireType with
  | 0 => (varint? 10 bytes).map fun (v, rest) => (.varint (UInt64.ofNat v), rest)
  | 1 => (fixed? 8 bytes).map fun (v, rest) => (.fixed64 (UInt64.ofNat v), rest)
  | 2 => (length? bytes).bind fun (n, rest) =>
      (block? n rest).map fun (block, rest) => (.block block, rest)
  | 3 => some (.openGroup, bytes)
  | 4 => some (.closeGroup, bytes)
  | 5 => (fixed? 4 bytes).map fun (v, rest) => (.fixed32 (UInt32.ofNat v), rest)
  | _ => none

def item? (bytes : Bytes) : Option (Item × Bytes) := do
  let ((number, wireType), rest) ← tag? bytes
  let (mark, rest) ← mark? wireType rest
  return ((number, mark), rest)

/-- The items of a body. An item always takes octets, so the guard never fails. -/
def items? (bytes : Bytes) : Option (List Item) :=
  if bytes = [] then some []
  else match item? bytes with
    | none => none
    | some (item, rest) =>
      if rest.length < bytes.length then (items? rest).map (item :: ·) else none
  termination_by bytes.length

/-- What a record holds. -/
inductive Content where
  | varint (v : UInt64)
  | fixed64 (v : UInt64)
  | fixed32 (v : UInt32)
  | block (bytes : Bytes)
  | group (records : List (Nat × Content))
  deriving Inhabited

/-- A field number with its content. -/
abbrev Record := Nat × Content

/-- Nests items: `done` holds the records of the innermost open group in reverse, `outer` the
groups around it, each with its number and the records before it. -/
def nest? (done : List Record) (outer : List (Nat × List Record)) :
    List Item → Option (List Record)
  | [] => if outer.isEmpty then some done.reverse else none
  | (number, mark) :: rest =>
    match mark with
    | .varint v => nest? ((number, .varint v) :: done) outer rest
    | .fixed64 v => nest? ((number, .fixed64 v) :: done) outer rest
    | .fixed32 v => nest? ((number, .fixed32 v) :: done) outer rest
    | .block bytes => nest? ((number, .block bytes) :: done) outer rest
    | .openGroup => nest? [] ((number, done) :: outer) rest
    | .closeGroup =>
      match outer with
      | [] => none
      | (opened, before) :: outer =>
        if opened = number then nest? ((number, .group done.reverse) :: before) outer rest
        else none

/-- The records of a body. -/
def records? (bytes : Bytes) : Option (List Record) := (items? bytes).bind (nest? [] [])

mutual
/-- How deep groups nest in a content. -/
def Content.depth : Content → Nat
  | .group records => depths records + 1
  | _ => 0
def depths : List (Nat × Content) → Nat
  | [] => 0
  | (_, content) :: rest => max content.depth (depths rest)
end

end Treewire.Wire
