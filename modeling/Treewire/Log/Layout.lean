import Treewire.Text.Quoted

/-!
# Layouts of log lines

A layout is a text with places for attributes of a record, such as `%(message)s`. A place has a
name, a width and a conversion; two percent signs stand for one.
-/

namespace Treewire.Log

/-- An attribute of a record. -/
inductive Attribute where
  | text (t : Text)
  | number (n : Nat)
  deriving Inhabited

/-- A place for an attribute. -/
structure Place where
  name : List Char
  flags : List Char
  width : Nat
  precision : Option Nat
  conversion : Char
  deriving Inhabited

def isNameChar (c : Char) : Bool := c.isAlphanum || c = '_' || 0x80 ≤ c.toNat

def isFlag (c : Char) : Bool := ['#', '0', '+', ' ', '-'].contains c

def isConversion (c : Char) : Bool := "diouxefgcrsa%".toList.contains c.toLower

/-- The decimal number at the start of a text, and what follows it. -/
def digits (cs : List Char) : Nat × List Char :=
  ((cs.takeWhile Char.isDigit).foldl (fun n c => n * 10 + (c.toNat - 0x30)) 0,
    cs.dropWhile Char.isDigit)

/-- The digits, or the star, that may come first, taken away. -/
def withoutWidth : List Char → List Char
  | '*' :: rest => rest
  | cs => cs.dropWhile Char.isDigit

/-- Whether a place stands at the start of a text. -/
def startsPlace : List Char → Bool
  | '%' :: '(' :: rest =>
    match rest.dropWhile isNameChar with
    | ')' :: after =>
      let tail := withoutWidth (after.dropWhile isFlag)
      let tail' := match tail with
        | '.' :: more => if (withoutWidth more).length < more.length then withoutWidth more else tail
        | _ => tail
      (rest.head?.any isNameChar) && tail'.head?.any isConversion
    | _ => false
  | _ => false

/-- Whether a layout has a place at all. -/
def hasPlace : List Char → Bool
  | [] => false
  | c :: rest => startsPlace (c :: rest) || hasPlace rest

/-- The place after a percent sign and an opening bracket, and what follows it. -/
def place? (cs : List Char) : Option (Place × List Char) :=
  let name := cs.takeWhile (· != ')')
  match cs.drop name.length with
  | ')' :: rest =>
    let flags := rest.takeWhile isFlag
    let (width, rest) := digits (rest.drop flags.length)
    let (precision, rest) := match rest with
      | '.' :: more => (some (digits more).1, (digits more).2)
      | _ => (none, rest)
    match rest with
    | c :: rest => some (⟨name, flags, width, precision, c⟩, rest)
    | [] => none
  | _ => none

/-- Blanks, or zeros, up to a width. -/
def padded (p : Place) (zeros : Bool) (t : Text) : Text :=
  let missing := p.width - t.length
  if p.flags.contains '-' then t ++ List.replicate missing (.scalar ' ')
  else List.replicate missing (.scalar (if zeros then '0' else ' ')) ++ t

/-- An attribute as a place asks for it. -/
def fill (p : Place) (a : Attribute) : Option Text :=
  let plain : Text := match a with
    | .text t => t
    | .number n => Text.ofString (toString n)
  let cut (t : Text) : Text := (p.precision.map t.take).getD t
  match p.conversion, a with
  | 's', _ => some (padded p false (cut plain))
  | 'r', .text t | 'a', .text t => some (padded p false (cut t.quoted))
  | 'r', .number _ | 'a', .number _ => some (padded p false (cut plain))
  | 'd', .number _ | 'i', .number _ | 'u', .number _ =>
    some (padded p (p.flags.contains '0') plain)
  | _, _ => none

/-- A layout with all places filled, if each can be. Every step takes a symbol at least. -/
def format? (valueOf : String → Option Attribute) : Nat → List Char → Option Text
  | 0, _ => none
  | fuel + 1, cs =>
    match cs with
    | [] => some []
    | '%' :: '%' :: rest => (format? valueOf fuel rest).map (.scalar '%' :: ·)
    | '%' :: '(' :: rest => do
      let (p, rest) ← place? rest
      let text ← fill p (← valueOf (String.ofList p.name))
      return text ++ (← format? valueOf fuel rest)
    | '%' :: _ => none
    | c :: rest => (format? valueOf fuel rest).map (.scalar c :: ·)

end Treewire.Log
