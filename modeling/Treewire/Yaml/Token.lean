import Treewire.Number.Numeral
import Treewire.Text.Utf8
import Treewire.Yaml.Scalar

/-!
# Tokens of a YAML stream

Blocks are told by indentation: a token further to the right opens a block, one further to the left
closes those it leaves. A simple key is recognised only at the colon after it, so until then the
place of its key token is kept in mind. It may not go across lines or be longer than a limit.
-/

namespace Treewire.Yaml

inductive Directive where
  | version (major minor : Nat)
  | handle (name expansion : String)
  | reserved
  deriving DecidableEq, Inhabited

inductive Token where
  | directive (d : Directive)
  | documentStart | documentEnd | streamEnd
  | blockSequenceStart | blockMappingStart | blockEnd
  | flowSequenceStart | flowSequenceEnd | flowMappingStart | flowMappingEnd
  | flowEntry | blockEntry | key | value
  | alias (name : String)
  | anchor (name : String)
  /-- A tag with the handle that its suffix follows. -/
  | tag (handle : Option String) (suffix : String)
  | scalar (text : Text) (plain : Bool)
  deriving DecidableEq, Inhabited

/-! ## Names, tags and directives -/

/-- The name after the mark of an anchor or alias. -/
def anchorName (c : Cursor) : Except Fault (String × Cursor) :=
  let (name, c) := c.advance.take isWordChar
  if name.isEmpty ∨ !(atBlank c.peek || c.peek.any "?:,]\x7d%@`".toList.contains) then
    .error .malformed
  else .ok (String.ofList name, c)

def isTagChar (c : Char) : Bool := c.isAlphanum || "-;/?:@&=+$,_.!~*'()[]%".toList.contains c

/-- The octets that percent signs write from here on. -/
def escapedOctets : Nat → Cursor → Except Fault (Bytes × Cursor)
  | 0, _ => .error .malformed
  | fuel + 1, c =>
    if c.peek = some '%' then
      match (c.peekAt 1).bind Json.hexValue?, (c.peekAt 2).bind Json.hexValue? with
      | some high, some low => do
        let (more, c) ← escapedOctets fuel (c.skip 3)
        return (UInt8.ofNat (high * 16 + low) :: more, c)
      | _, _ => .error .malformed
    else .ok ([], c)

/-- Characters of a tag, written out or escaped. -/
def tagChars : Nat → Cursor → Except Fault (List Char × Cursor)
  | 0, _ => .error .malformed
  | fuel + 1, c => do
    let (plain, c) := c.take fun x => isTagChar x && x != '%'
    if c.peek = some '%' then
      let (octets, c) ← escapedOctets c.bound c
      match Utf8.decode? octets with
      | none => .error .malformed
      | some cs =>
        let (more, c) ← tagChars fuel c
        return (plain ++ cs ++ more, c)
    else return (plain, c)

/-- The text of a tag without its handle; it is not empty as written. -/
def tagSuffix (c : Cursor) : Except Fault (String × Cursor) :=
  if c.peek.any isTagChar then do
    let (cs, c) ← tagChars c.bound c
    return (String.ofList cs, c)
  else .error .malformed

/-- A handle: an exclamation mark, or two with a name between them. -/
def tagHandle (c : Cursor) : Except Fault (String × Cursor) :=
  if c.peek ≠ some '!' then .error .malformed
  else if c.peekAt 1 = some ' ' then .ok ("!", c.advance)
  else
    let (name, c) := c.advance.take isWordChar
    if c.peek = some '!' then .ok (String.ofList ('!' :: name ++ ['!']), c.advance)
    else .error .malformed

/-- Whether another exclamation mark comes before the next space. -/
def hasNamedHandle (c : Cursor) : Bool :=
  (c.rest.drop 1).takeWhile (fun x => x != ' ' && !isBreak x) |>.contains '!'

/-- The tag at the cursor. -/
def tagToken (c : Cursor) : Except Fault (Token × Cursor) := do
  let (token, c) ←
    if c.peekAt 1 = some '<' then do
      let (suffix, c) ← tagSuffix (c.skip 2)
      if c.peek = some '>' then .ok (Token.tag none suffix, c.advance) else .error .malformed
    else if atBlank (c.peekAt 1) then .ok (Token.tag none "!", c.advance)
    else do
      let (handle, c) ← if hasNamedHandle c then tagHandle c else .ok ("!", c.advance)
      let (suffix, c) ← tagSuffix c
      pure (Token.tag (some handle) suffix, c)
  if atSpace c.peek then return (token, c) else .error .malformed

/-- A number of a version directive. -/
def versionNumber (c : Cursor) : Except Fault (Nat × Cursor) :=
  let (digits, c) := c.take Char.isDigit
  if digits.isEmpty then .error .malformed
  else match Numeral.natural? 10 digits with
    | some n => .ok (n, c)
    | none => .error .badValue

def versionDirective (c : Cursor) : Except Fault (Directive × Cursor) := do
  let (major, c) ← versionNumber c.dropSpaces
  if c.peek = some '.' then
    let (minor, c) ← versionNumber c.advance
    if atSpace c.peek then return (.version major minor, c) else .error .malformed
  else .error .malformed

def handleDirective (c : Cursor) : Except Fault (Directive × Cursor) := do
  let (name, c) ← tagHandle c.dropSpaces
  if c.peek = some ' ' then
    let (expansion, c) ← tagSuffix c.dropSpaces
    if atSpace c.peek then return (.handle name expansion, c) else .error .malformed
  else .error .malformed

/-- The directive at the cursor, with its line. -/
def directiveLine (c : Cursor) : Except Fault (Directive × Cursor) := do
  let (name, c) := c.advance.take isWordChar
  if name.isEmpty ∨ !atSpace c.peek then .error .malformed
  else
    let (directive, c) ←
      if name = "YAML".toList then versionDirective c
      else if name = "TAG".toList then handleDirective c
      else .ok (.reserved, c.drop (!isBreak ·))
    let c := c.dropSpaces.dropComment
    if atBreak c.peek then return (directive, c.takeBreak.2) else .error .malformed

/-! ## The scan -/

/-- A token that turns out to be a key if a colon follows. -/
structure PossibleKey where
  /-- How many tokens come before it. -/
  position : Nat
  /-- Whether nothing but a key can stand there. -/
  required : Bool
  index : Nat
  line : Nat
  column : Nat

structure Scan where
  cursor : Cursor
  /-- The tokens so far, the latest first. -/
  tokens : List Token
  count : Nat
  /-- The column of the innermost block, -1 outside all blocks. -/
  indent : Int
  outerIndents : List Int
  /-- Whether a simple key may start here. -/
  keyAllowed : Bool
  possibleKey : Option PossibleKey
  /-- Possible keys around the open flow collections, the innermost first. -/
  outerKeys : List (Option PossibleKey)
  ended : Bool

namespace Scan

def start (cs : List Char) : Scan := ⟨.start cs, [], 0, -1, [], true, none, [], false⟩

/-- Whether a flow collection is open. -/
def inFlow (s : Scan) : Bool := !s.outerKeys.isEmpty

def emit (t : Token) (s : Scan) : Scan := { s with tokens := t :: s.tokens, count := s.count + 1 }

/-- A token put behind the given number of tokens. -/
def insert (position : Nat) (t : Token) (s : Scan) : Scan :=
  { s with tokens := s.tokens.insertIdx (s.count - position) t, count := s.count + 1 }

def moveTo (c : Cursor) (s : Scan) : Scan := { s with cursor := c }

/-- How long a simple key may be. -/
def keyLimit : Nat := 1024

def isStale (s : Scan) (k : PossibleKey) : Bool :=
  k.line != s.cursor.line || s.cursor.index - k.index > keyLimit

/-- Gives up possible keys that are too far away by now. -/
def dropStale (s : Scan) : Except Fault Scan :=
  let stale (k : Option PossibleKey) : Bool := k.any s.isStale
  if (s.possibleKey :: s.outerKeys).any fun k => stale k && k.any (·.required) then
    .error .malformed
  else .ok { s with
    possibleKey := if stale s.possibleKey then none else s.possibleKey
    outerKeys := s.outerKeys.map fun k => if stale k then none else k }

/-- Gives up the possible key of this level. -/
def dropKey (s : Scan) : Except Fault Scan :=
  if s.possibleKey.any (·.required) then .error .malformed else .ok { s with possibleKey := none }

/-- Keeps the next token in mind as a possible key. -/
def noteKey (s : Scan) : Except Fault Scan :=
  if s.keyAllowed then do
    let s ← s.dropKey
    let c := s.cursor
    let required := !s.inFlow && s.indent == c.column
    return { s with possibleKey := some ⟨s.count, required, c.index, c.line, c.column⟩ }
  else .ok s

/-- Closes blocks further to the right than a column. -/
def closeBlocks (column : Int) (s : Scan) : Scan :=
  if s.inFlow then s else go s.outerIndents s
where
  go : List Int → Scan → Scan
    | [], s => s
    | outer :: rest, s =>
      if column < s.indent then go rest { s.emit .blockEnd with indent := outer, outerIndents := rest }
      else s

/-- Whether a block opens at a column, and the scan inside it. -/
def openBlock (column : Int) (s : Scan) : Bool × Scan :=
  if s.indent < column then
    (true, { s with indent := column, outerIndents := s.indent :: s.outerIndents })
  else (false, s)

/-- A token of one character. -/
def single (t : Token) (s : Scan) : Scan := (s.moveTo s.cursor.advance).emit t

def documentMark (t : Token) (s : Scan) : Except Fault Scan := do
  let s ← (s.closeBlocks (-1)).dropKey
  return { (s.moveTo (s.cursor.skip 3)).emit t with keyAllowed := false }

def directive (s : Scan) : Except Fault Scan := do
  let s ← (s.closeBlocks (-1)).dropKey
  let (d, c) ← directiveLine s.cursor
  return { (s.moveTo c).emit (.directive d) with keyAllowed := false }

def streamEnd (s : Scan) : Except Fault Scan := do
  let s ← (s.closeBlocks (-1)).dropKey
  return { s.emit .streamEnd with keyAllowed := false, outerKeys := [], ended := true }

def flowStart (t : Token) (s : Scan) : Except Fault Scan := do
  let s ← s.noteKey
  return { s.single t with
    keyAllowed := true, possibleKey := none, outerKeys := s.possibleKey :: s.outerKeys }

def flowEnd (t : Token) (s : Scan) : Except Fault Scan := do
  let s ← s.dropKey
  match s.outerKeys with
  | [] => .error .malformed
  | k :: rest => return { s.single t with keyAllowed := false, possibleKey := k, outerKeys := rest }

def flowEntry (s : Scan) : Except Fault Scan := do
  let s ← s.dropKey
  return { s.single .flowEntry with keyAllowed := true }

/-- Opens a block at the cursor if it lies further to the right, where a block may open. -/
def enterBlock (t : Token) (s : Scan) : Except Fault Scan :=
  if s.inFlow then .ok s
  else if !s.keyAllowed then .error .malformed
  else match s.openBlock s.cursor.column with
    | (true, s) => .ok (s.emit t)
    | (false, s) => .ok s

def blockEntry (s : Scan) : Except Fault Scan := do
  let s ← (← s.enterBlock .blockSequenceStart).dropKey
  return { s.single .blockEntry with keyAllowed := true }

def key (s : Scan) : Except Fault Scan := do
  let s ← (← s.enterBlock .blockMappingStart).dropKey
  return { s.single .key with keyAllowed := !s.inFlow }

/-- A colon makes the possible key of its level a key. -/
def value (s : Scan) : Except Fault Scan :=
  match s.possibleKey with
  | some k =>
    let s := { s with possibleKey := none, keyAllowed := false }.insert k.position .key
    if s.inFlow then .ok (s.single .value)
    else match s.openBlock k.column with
      | (true, s) => .ok ((s.insert k.position .blockMappingStart).single .value)
      | (false, s) => .ok (s.single .value)
  | none => do
    let s ← (← s.enterBlock .blockMappingStart).dropKey
    return { s.single .value with keyAllowed := !s.inFlow }

/-- A token that may be a simple key. -/
def keyLike (read : Cursor → Except Fault (Token × Cursor)) (s : Scan) : Except Fault Scan := do
  let s ← s.noteKey
  let (t, c) ← read s.cursor
  return { (s.moveTo c).emit t with keyAllowed := false }

def plain (s : Scan) : Except Fault Scan := do
  let s ← s.noteKey
  let scalar := plainScalar s.inFlow (s.indent + 1) s.cursor
  return { (s.moveTo scalar.cursor).emit (.scalar (Text.ofChars scalar.text) true) with
    keyAllowed := scalar.broken }

def block (fold : Bool) (s : Scan) : Except Fault Scan := do
  let s ← s.dropKey
  let (text, c) ← blockScalar fold s.indent s.cursor
  return { (s.moveTo c).emit (.scalar (Text.ofChars text) false) with keyAllowed := true }

/-- Passes over blanks, comments and line breaks. A line break outside flow collections allows a
simple key. -/
def toNextToken : Nat → Scan → Scan
  | 0, s => s
  | fuel + 1, s =>
    let c := s.cursor.dropSpaces.dropComment
    match c.takeBreak with
    | ([], c) => s.moveTo c
    | (_, c) => toNextToken fuel { s.moveTo c with keyAllowed := s.keyAllowed || !s.inFlow }

/-- Characters that no plain scalar starts with. -/
def isIndicator (c : Char) : Bool := isFlowMark c || "-?:#&*!|>'\"%@`".toList.contains c

/-- Whether a plain scalar starts with a character, given the one after it. -/
def startsPlain (s : Scan) (x : Char) (next : Option Char) : Bool :=
  !(isBlank x || isIndicator x) ||
    (!atBlank next && (x = '-' || (!s.inFlow && (x = '?' || x = ':'))))

/-- The token at the cursor. -/
def dispatch (s : Scan) (x : Char) (next : Option Char) : Except Fault Scan :=
  let lineStart := s.cursor.column = 0
  if x = '%' ∧ lineStart then s.directive
  else if x = '-' ∧ lineStart ∧ s.cursor.atSeparator then s.documentMark .documentStart
  else if x = '.' ∧ lineStart ∧ s.cursor.atSeparator then s.documentMark .documentEnd
  else if x = '[' then s.flowStart .flowSequenceStart
  else if x = '\x7b' then s.flowStart .flowMappingStart
  else if x = ']' then s.flowEnd .flowSequenceEnd
  else if x = '\x7d' then s.flowEnd .flowMappingEnd
  else if x = ',' then s.flowEntry
  else if x = '-' ∧ atBlank next then s.blockEntry
  else if x = '?' ∧ (s.inFlow ∨ atBlank next) then s.key
  else if x = ':' ∧ (s.inFlow ∨ atBlank next) then s.value
  else if x = '*' then s.keyLike fun c => (anchorName c).map fun (name, c) => (.alias name, c)
  else if x = '&' then s.keyLike fun c => (anchorName c).map fun (name, c) => (.anchor name, c)
  else if x = '!' then s.keyLike tagToken
  else if x = '|' ∧ !s.inFlow then s.block false
  else if x = '>' ∧ !s.inFlow then s.block true
  else if x = '\'' ∨ x = '"' then
    s.keyLike fun c => (quotedScalar x c).map fun (text, c) => (.scalar text false, c)
  else if s.startsPlain x next then s.plain
  else .error .malformed

/-- Scans up to the end of the next token. -/
def step (s : Scan) : Except Fault Scan := do
  let s ← (s.toNextToken s.cursor.bound).dropStale
  let s := s.closeBlocks s.cursor.column
  match s.cursor.peek with
  | none => s.streamEnd
  | some x => s.dispatch x (s.cursor.peekAt 1)

/-- The tokens that are certain: those before the first that may still turn out to be a key. -/
def certain (s : Scan) : List Token :=
  let open_ := (s.possibleKey :: s.outerKeys).filterMap fun k => k.filter (!s.isStale ·)
  s.tokens.reverse.take (open_.foldl (fun n k => min n k.position) s.count)

end Scan

/-- The tokens of a stream, and what kept the scan from going on after them, if anything. -/
structure Tokens where
  tokens : List Token
  fault : Option Fault

def scanFrom : Nat → Scan → Tokens
  | 0, s => ⟨s.certain, some .malformed⟩
  | fuel + 1, s =>
    if s.ended then ⟨s.tokens.reverse, none⟩
    else match s.step with
      | .ok s => scanFrom fuel s
      | .error fault => ⟨s.certain, some fault⟩

/-- Whether a stream may hold a character. -/
def isAllowed (c : Char) : Bool :=
  let n := c.toNat
  n = 0x09 || n = 0x0A || n = 0x0D || (0x20 ≤ n && n ≤ 0x7E) || n = 0x85 ||
    (0xA0 ≤ n && n ≤ 0xFFFD) || 0x10000 ≤ n

/-- The tokens of a stream of characters. A byte order mark at its start is passed over. -/
def scan (cs : List Char) : Tokens :=
  if cs.any (!isAllowed ·) then ⟨[], some .malformed⟩
  else
    let s := Scan.start cs
    let s := if cs.head? = some '\ufeff' then s.moveTo s.cursor.advance else s
    scanFrom (cs.length + 2) s

end Treewire.Yaml
