import Treewire.Number.Decimal
import Treewire.Number.Numeral
import Treewire.Text.Quoted
import Treewire.Text.Split

/-!
# YAML values

A value is written in a notation that shows what it is: texts are quoted, brackets tell lists,
mappings and sets apart. A value that contains itself is cut at the second occurrence.
-/

namespace Treewire.Yaml

structure Date where
  year : Nat
  month : Nat
  day : Nat
  deriving DecidableEq, Inhabited

/-- A time of day, to the microsecond. -/
structure Clock where
  hour : Nat
  minute : Nat
  second : Nat
  microsecond : Nat
  deriving DecidableEq, Inhabited

/-- A value without parts. -/
inductive Atom where
  | null
  | bool (b : Bool)
  | int (i : Int)
  | float (x : Binary64)
  | text (t : Text)
  | bytes (b : Bytes)
  | date (d : Date)
  /-- A point of time, with the minutes by which its zone is ahead, if it names one. -/
  | moment (d : Date) (c : Clock) (zone : Option Int)
  deriving DecidableEq, Inhabited

inductive Brackets where
  | list | mapping | set
  deriving DecidableEq, Inhabited

inductive Value where
  | atom (a : Atom)
  | list (items : List Value)
  | pair (first second : Value)
  | mapping (entries : List (Value × Value))
  | set (items : List Value)
  /-- A container inside itself. -/
  | again (brackets : Brackets)
  deriving Inhabited

namespace Date

def isLeap (year : Nat) : Bool := year % 4 = 0 && (year % 100 != 0 || year % 400 = 0)

def daysIn (year month : Nat) : Nat :=
  if month = 2 then if isLeap year then 29 else 28
  else if [4, 6, 9, 11].contains month then 30
  else 31

def isValid (d : Date) : Bool :=
  1 ≤ d.year && d.year ≤ 9999 && 1 ≤ d.month && d.month ≤ 12 && 1 ≤ d.day &&
    d.day ≤ daysIn d.year d.month

end Date

def Clock.isValid (c : Clock) : Bool := c.hour < 24 && c.minute < 60 && c.second < 60

namespace Atom

/-- The number that an atom counts as among keys; truth values count as one and zero. -/
def number? : Atom → Option Int
  | .bool b => some (if b then 1 else 0)
  | .int i => some i
  | .float x => x.toInt?
  | _ => none

/-- Whether two atoms are the same key: equal numbers are, whatever their type. -/
def sameKey (a b : Atom) : Bool :=
  match a.number?, b.number? with
  | some i, some j => i == j
  | _, _ => a == b

/-- Whether an atom counts as nothing. -/
def isEmpty : Atom → Bool
  | .null => true
  | .bool b => !b
  | .int i => i == 0
  | .float x => x.toInt? == some 0
  | .text t => t.isEmpty
  | .bytes b => b.isEmpty
  | .date _ | .moment .. => false

/-- The distance to a zone, as days and seconds of which only the days may be negative. -/
def offsetText (minutes : Int) : String :=
  let seconds := minutes * 60
  let days := seconds / 86400
  let parts := (if days = 0 then [] else [s!"days={days}"]) ++
    (if seconds % 86400 = 0 then [] else [s!"seconds={seconds % 86400}"])
  "datetime.timedelta(" ++ joinStrings ", " parts ++ ")"

def zoneText (minutes : Int) : String :=
  if minutes = 0 then "datetime.timezone.utc"
  else "datetime.timezone(" ++ offsetText minutes ++ ")"

/-- Parts of a time of day down to the last one that matters, hours and minutes always. -/
def clockParts (c : Clock) : List Nat :=
  [c.hour, c.minute] ++
    (if c.second = 0 ∧ c.microsecond = 0 then [] else [c.second]) ++
    (if c.microsecond = 0 then [] else [c.microsecond])

def dateParts (d : Date) : List String := [toString d.year, toString d.month, toString d.day]

def shown : Atom → Text
  | .null => Text.ofString "None"
  | .bool b => Text.ofString (if b then "True" else "False")
  | .int i => Text.ofString (toString i)
  | .float x => Text.ofString (DecimalLayout.report.shortest x)
  | .text t => t.quoted
  | .bytes b => Text.quotedBytes b
  | .date d => Text.ofString ("datetime.date(" ++ joinStrings ", " (dateParts d) ++ ")")
  | .moment d c zone =>
    let zoneParts := match zone with
      | some minutes => ["tzinfo=" ++ zoneText minutes]
      | none => []
    Text.ofString ("datetime.datetime(" ++
      joinStrings ", " (dateParts d ++ (clockParts c).map toString ++ zoneParts) ++ ")")

/-- Whether an atom can be written: integers only up to a number of digits. -/
def isWritable : Atom → Bool
  | .int i => i.natAbs < Nat.pow 10 Numeral.digitLimit
  | _ => true

end Atom

namespace Value

def between (opening closing : String) (parts : List Text) : Text :=
  Text.ofString opening ++ joinWith (Text.ofString ", ") parts ++ Text.ofString closing

mutual
/-- How a value is written. -/
def shown : Value → Text
  | .atom a => a.shown
  | .list items => between "[" "]" (allShown items)
  | .pair a b => between "(" ")" [a.shown, b.shown]
  | .mapping entries => between "\x7b" "\x7d" (entriesShown entries)
  | .set [] => Text.ofString "set()"
  | .set items => between "\x7b" "\x7d" (allShown items)
  | .again .list => Text.ofString "[...]"
  | .again .mapping => Text.ofString "\x7b...\x7d"
  | .again .set => Text.ofString "set(...)"
def allShown : List Value → List Text
  | [] => []
  | v :: rest => v.shown :: allShown rest
def entriesShown : List (Value × Value) → List Text
  | [] => []
  | (k, v) :: rest =>
    (k.shown ++ Text.ofString ": " ++ v.shown) :: entriesShown rest
end

mutual
/-- Whether all integers in a value can be written. -/
def isWritable : Value → Bool
  | .atom a => a.isWritable
  | .list items | .set items => allWritable items
  | .pair a b => a.isWritable && b.isWritable
  | .mapping entries => allEntriesWritable entries
  | .again _ => true
def allWritable : List Value → Bool
  | [] => true
  | v :: rest => v.isWritable && allWritable rest
def allEntriesWritable : List (Value × Value) → Bool
  | [] => true
  | (k, v) :: rest => k.isWritable && v.isWritable && allEntriesWritable rest
end

end Value

end Treewire.Yaml
