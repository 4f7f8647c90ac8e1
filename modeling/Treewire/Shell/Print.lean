/-!
# Printing

The texts that `echo` and `printf` print. Both know escapes; `printf` also has places for arguments,
and starts over while there are arguments left.
-/

namespace Treewire.Shell

/-! ## Escapes -/

def isOctal (c : Char) : Bool := '0' ≤ c && c ≤ '7'

def octalValue (cs : List Char) : Nat := cs.foldl (fun n c => n * 8 + (c.toNat - 0x30)) 0

/-- The octet of a number. -/
def octetOf (n : Nat) : Char := Char.ofNat (n % 256)

def plainEscape? : Char → Option Char
  | '\\' => some '\\'
  | 'a' => some (Char.ofNat 7)
  | 'b' => some (Char.ofNat 8)
  | 'f' => some (Char.ofNat 12)
  | 'n' => some '\n'
  | 'r' => some '\r'
  | 't' => some '\t'
  | 'v' => some (Char.ofNat 11)
  | _ => none

/-- At most `n` octal digits in front. -/
def octalDigits (n : Nat) (cs : List Char) : List Char := (cs.take n).takeWhile isOctal

/-- What an escape stands for, after its backslash, and the number of symbols that it takes there. A
backslash before anything else stands for itself. -/
def escapeIn (cs : List Char) : Char × Nat :=
  match cs with
  | [] => ('\\', 0)
  | c :: _ =>
    let digits := octalDigits 3 cs
    if digits != [] then (octetOf (octalValue digits), digits.length)
    else match plainEscape? c with
      | some d => (d, 1)
      | none => ('\\', 0)

theorem escapeIn_le (cs : List Char) : (escapeIn cs).2 ≤ cs.length := by
  unfold escapeIn
  split
  · simp
  · rename_i c rest
    dsimp only
    split
    · show (octalDigits 3 (c :: rest)).length ≤ _
      exact Nat.le_trans ((List.takeWhile_sublist _).length_le) (by simp only [List.length_take]; omega)
    · split <;> simp

/-- A text with its escapes undone, and whether an escape ended it. Here octal numbers may have a
zero in front of their three digits. -/
def unescape : List Char → List Char × Bool
  | [] => ([], false)
  | '\\' :: 'c' :: _ => ([], true)
  | '\\' :: '0' :: rest =>
    let digits := octalDigits 3 rest
    let (text, ended) := unescape (rest.drop digits.length)
    (octetOf (octalValue digits) :: text, ended)
  | '\\' :: rest =>
    have := escapeIn_le rest
    let (c, n) := escapeIn rest
    let (text, ended) := unescape (rest.drop n)
    (c :: text, ended)
  | c :: rest =>
    let (text, ended) := unescape rest
    (c :: text, ended)
  termination_by cs => cs.length
  decreasing_by all_goals simp only [List.length_cons, List.length_drop]; omega

/-- The words with blanks between them. -/
def spaced : List (List Char) → List Char
  | [] => []
  | [word] => word
  | word :: rest => word ++ ' ' :: spaced rest

/-- What `echo` prints. A first word `-n` keeps it from ending the line. -/
def echoText (words : List (List Char)) : List Char :=
  let (quiet, words) := match words with
    | ['-', 'n'] :: rest => (true, rest)
    | _ => (false, words)
  let (text, ended) := unescape (spaced words)
  if quiet || ended then text else text ++ ['\n']

/-! ## Numbers -/

def digitValueIn (base : Nat) (c : Char) : Option Nat :=
  let n := if c.isDigit then c.toNat - 0x30
    else if 'a' ≤ c && c ≤ 'z' then c.toNat - 0x61 + 10
    else if 'A' ≤ c && c ≤ 'Z' then c.toNat - 0x41 + 10
    else base
  if n < base then some n else none

def valueIn (base : Nat) (cs : List Char) : Nat :=
  cs.foldl (fun n c => n * base + (digitValueIn base c).getD 0) 0

/-- The base that a number announces, and its digits. -/
def baseOf (cs : List Char) : Nat × List Char :=
  match cs with
  | '0' :: x :: d :: rest =>
    if (x = 'x' || x = 'X') && (digitValueIn 16 d).isSome then (16, d :: rest) else (8, cs)
  | '0' :: _ => (8, cs)
  | _ => (10, cs)

/-- The integer in front, and what follows it. -/
def integerIn (cs : List Char) : Option (Int × List Char) :=
  let cs := cs.dropWhile fun c => c = ' ' || ('\t' ≤ c && c ≤ '\r')
  let (negative, cs) := match cs with
    | '-' :: rest => (true, rest)
    | '+' :: rest => (false, rest)
    | _ => (false, cs)
  let (base, cs) := baseOf cs
  let digits := cs.takeWhile fun c => (digitValueIn base c).isSome
  if digits = [] then none
  else
    let n : Int := valueIn base digits
    some (if negative then -n else n, cs.drop digits.length)

/-! ## Places -/

structure Place where
  flags : List Char
  width : Nat
  precision : Option Nat
  deriving Inhabited

/-- Blanks up to the width. -/
def Place.pad (p : Place) (text : List Char) : List Char :=
  let blanks := List.replicate (p.width - text.length) ' '
  if p.flags.contains '-' then text ++ blanks else blanks ++ text

/-- A number by its sign and digits: zeros up to the precision, or up to the width. -/
def Place.padNumber (p : Place) (sign digits : List Char) : List Char :=
  match p.precision with
  | some n =>
    let digits := if n = 0 && digits = ['0'] then [] else digits
    p.pad (sign ++ List.replicate (n - digits.length) '0' ++ digits)
  | none =>
    if p.flags.contains '0' && !p.flags.contains '-' then
      sign ++ List.replicate (p.width - sign.length - digits.length) '0' ++ digits
    else p.pad (sign ++ digits)

def Place.string (p : Place) (text : List Char) : List Char :=
  p.pad ((p.precision.map text.take).getD text)

/-- What comes of printing: the text, and complaints about arguments. -/
structure Printed where
  text : List Char
  complaints : List (List Char)
  /-- Why printing was given up. -/
  fault : Option (List Char)
  deriving Inhabited

namespace Printed

/-- A first argument as a number in some bounds, and what there is to complain about. -/
def numberOf (least most : Int) : List (List Char) → Int × List (List Char)
  | [] => (0, [])
  | word :: _ =>
    match word with
    | '"' :: rest | '\'' :: rest => (((rest.head?.map Char.toNat).getD 0 : Nat), [])
    | _ =>
      let complain (what : String) : List (List Char) := [word ++ (": " ++ what).toList]
      match integerIn word with
      | none => (0, if word = [] then [] else complain "expected numeric value")
      | some (n, rest) =>
        let m := max least (min most n)
        if rest != [] then (m, complain "not completely converted")
        else if m ≠ n then (m, complain "Numerical result out of range")
        else (m, [])

def signOf (p : Place) (n : Int) : List Char :=
  if n < 0 then ['-'] else if p.flags.contains '+' then ['+']
  else if p.flags.contains ' ' then [' '] else []

/-- An unsigned number in a base. -/
def unsigned (p : Place) (conversion : Char) (n : Nat) : List Char :=
  let (base, mark) := match conversion with
    | 'o' => (8, ['0'])
    | 'x' => (16, ['0', 'x'])
    | 'X' => (16, ['0', 'X'])
    | _ => (10, [])
  let digits := Nat.toDigits base n
  let digits := if conversion = 'X' then digits.map Char.toUpper else digits
  p.padNumber (if p.flags.contains '#' && n ≠ 0 then mark else []) digits

/-- What a conversion makes of the arguments: the text, complaints, and whether printing ends. -/
def convert (p : Place) (conversion : Char) (arguments : List (List Char)) :
    Option (List Char × List (List Char) × Bool) :=
  let first := arguments.head?.getD []
  match conversion with
  | 's' => some (p.string first, [], false)
  | 'b' =>
    let (text, ended) := unescape first
    some (p.string text, [], ended)
  | 'c' => some (p.pad (first.take 1), [], false)
  | 'd' | 'i' =>
    let (n, complaints) := numberOf (-0x8000000000000000) 0x7FFFFFFFFFFFFFFF arguments
    some (p.padNumber (signOf p n) (Nat.toDigits 10 n.natAbs), complaints, false)
  | 'u' | 'o' | 'x' | 'X' =>
    let (n, complaints) := numberOf (-0xFFFFFFFFFFFFFFFF) 0xFFFFFFFFFFFFFFFF arguments
    some (unsigned p conversion (n % 0x10000000000000000).toNat, complaints, false)
  | _ => none

/-- The place after a percent sign, the conversion and what follows it, with the arguments that are
left. -/
def placeIn (cs : List Char) (arguments : List (List Char)) :
    Place × List Char × List (List Char) :=
  let flags := cs.takeWhile fun c => "#-+ 0".toList.contains c
  let number (cs : List Char) (arguments : List (List Char)) :
      Nat × List Char × List (List Char) :=
    match cs with
    | '*' :: rest => ((numberOf 0 65535 arguments).1.toNat, rest, arguments.drop 1)
    | _ => (valueIn 10 (cs.takeWhile Char.isDigit), cs.dropWhile Char.isDigit, arguments)
  let (width, cs, arguments) := number (cs.drop flags.length) arguments
  match cs with
  | '.' :: rest =>
    let (precision, cs, arguments) := number rest arguments
    (⟨flags, width, some precision⟩, cs, arguments)
  | _ => (⟨flags, width, none⟩, cs, arguments)

/-- More text in front. -/
def after (text : List Char) (p : Printed) : Printed := { p with text := text ++ p.text }

/-- Prints a format, again from its start (`whole`) while arguments are left. -/
def print (whole : List Char) : Nat → Bool → List Char → List (List Char) → Printed
  | 0, _, _, _ => ⟨[], [], none⟩
  | fuel + 1, used, cs, arguments =>
    match cs with
    | [] =>
      if used && !arguments.isEmpty then print whole fuel false whole arguments
      else ⟨[], [], none⟩
    | '\\' :: rest =>
      let (c, n) := escapeIn rest
      (print whole fuel used (rest.drop n) arguments).after [c]
    | '%' :: '%' :: rest => (print whole fuel used rest arguments).after ['%']
    | '%' :: rest =>
      let (p, rest, arguments) := placeIn rest arguments
      match rest with
      | [] => ⟨[], [], some "missing format character".toList⟩
      | conversion :: after =>
        match convert p conversion arguments with
        | none =>
          let directive := cs.take (cs.length - after.length)
          ⟨[], [], some (directive ++ ": invalid directive".toList)⟩
        | some (text, complaints, true) => ⟨text, complaints, none⟩
        | some (text, complaints, false) =>
          let later := print whole fuel true after (arguments.drop 1)
          { later with text := text ++ later.text, complaints := complaints ++ later.complaints }
    | c :: rest => (print whole fuel used rest arguments).after [c]

end Printed

/-- What `printf` prints. Each round through the format uses an argument at least. -/
def printfText (format : List Char) (arguments : List (List Char)) : Printed :=
  Printed.print format ((format.length + 2) * (arguments.length + 1)) false format arguments

end Treewire.Shell
