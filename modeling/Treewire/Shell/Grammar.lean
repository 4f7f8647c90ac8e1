import Treewire.Shell.Syntax

/-!
# Reading scripts

A script is read a line of commands at a time. Reading a line takes as many further lines as its
quotes, brackets and keywords ask for. Fuel is the number of steps that reading may take; every step
leaves less of the script, but for a constant number of steps between two symbols.
-/

namespace Treewire.Shell

structure Cursor where
  rest : List Char
  line : Nat
  /-- Lines that were read ahead of their turn. -/
  ahead : Nat
  deriving Inhabited

abbrev Reader := ExceptT String (StateM Cursor)

/-! ## Characters -/

def isNameStart (c : Char) : Bool := c.isAlpha || c = '_'

def isNameChar (c : Char) : Bool := c.isAlphanum || c = '_'

/-- Characters that end a word. -/
def isMeta (c : Char) : Bool := [' ', '\t', '\n', ';', '&', '|', '<', '>', '(', ')'].contains c

/-- Characters that begin something else than themselves within a word. -/
def isActive (c : Char) : Bool := ['\\', '\'', '"', '$', Char.ofNat 0x60].contains c

/-- The mark around commands whose output is put in their place. -/
def backquote : Char := Char.ofNat 0x60

/-- Without blanks, continued line ends and a comment, the ends being counted. -/
def dropBlanks : List Char → Nat → List Char × Nat
  | ' ' :: rest, lines | '\t' :: rest, lines => dropBlanks rest lines
  | '\\' :: '\n' :: rest, lines => dropBlanks rest (lines + 1)
  | '#' :: rest, lines => (rest.dropWhile (· != '\n'), lines)
  | rest, lines => (rest, lines)

/-- The name in front, and what follows it. -/
def nameIn (cs : List Char) : List Char × List Char :=
  match cs with
  | c :: _ => if isNameStart c then (cs.takeWhile isNameChar, cs.dropWhile isNameChar) else ([], cs)
  | [] => ([], [])

/-- The bare word in front, which a keyword has to be. -/
def bareWord (cs : List Char) : String :=
  let word := cs.takeWhile fun c => !isMeta c && !isActive c
  match cs.drop word.length with
  | c :: _ => if isActive c then "" else String.ofList word
  | [] => String.ofList word

/-- Keywords that end a list of commands. -/
def closers : List String := ["then", "else", "elif", "fi", "do", "done", "esac", "\x7d"]

def keywords : List String :=
  closers ++ ["if", "while", "until", "for", "case", "\x7b", "!", "in"]

/-- The next token as it is called in messages. -/
def tokenText (cs : List Char) : String :=
  let quotedText (s : String) : String := "\"" ++ s ++ "\""
  match cs with
  | [] => "end of file"
  | '\n' :: _ => "newline"
  | ';' :: ';' :: _ => quotedText ";;"
  | '&' :: '&' :: _ => quotedText "&&"
  | '|' :: '|' :: _ => quotedText "||"
  | '<' :: _ | '>' :: _ => "redirection"
  | c :: _ =>
    if isMeta c then quotedText (String.singleton c)
    else if keywords.contains (bareWord cs) then quotedText (bareWord cs)
    else "word"

/-! ## Single steps -/

def look : Reader (List Char) := return (← get).rest

def take (n : Nat) : Reader Unit := modify fun c => { c with rest := c.rest.drop n }

/-- Passes a line end, and the lines that were read ahead. -/
def takeBreak : Reader Unit :=
  modify fun c => { c with rest := c.rest.drop 1, line := c.line + 1 + c.ahead, ahead := 0 }

/-- Passes characters that may have line ends among them. -/
def takeCounting (cs : List Char) : Reader Unit :=
  modify fun c => { c with rest := c.rest.drop cs.length, line := c.line + cs.count '\n' }

def takeBlanks : Reader (List Char) := do
  modify fun c =>
    let (rest, lines) := dropBlanks c.rest 0
    { c with rest := rest, line := c.line + lines }
  look

def syntaxError {α : Type} (message : String) : Reader α := throw ("Syntax error: " ++ message)

/-- A fault at the next token, whose line counts if it is a line end. -/
def unexpected {α : Type} (expecting : Option String) : Reader α := do
  let rest ← look
  let token := tokenText rest
  if rest.head? = some '\n' then takeBreak
  syntaxError <| match expecting with
    | some e => s!"{token} unexpected (expecting {e})"
    | none => s!"{token} unexpected"

/-- Passes a keyword. -/
def expectWord (word : String) : Reader Unit := do
  let rest ← takeBlanks
  if bareWord rest = word then take word.length
  else unexpected (some ("\"" ++ word ++ "\""))

/-- Passes blanks and line ends. -/
def takeBreaks : Nat → Reader Unit
  | 0 => return
  | fuel + 1 => do
    match ← takeBlanks with
    | '\n' :: _ =>
      takeBreak
      takeBreaks fuel
    | _ => return

/-- Whether no command starts here. -/
def endsList (rest : List Char) : Bool :=
  match rest with
  | [] | ')' :: _ | ';' :: ';' :: _ => true
  | _ => closers.contains (bareWord rest)

/-! ## Documents in the script -/

/-- Takes lines up to the one that is the mark. -/
def documentLines (mark : List Char) (withoutTabs : Bool) : Nat → List Char →
    List Char × List Char × Nat
  | 0, cs => ([], cs, 0)
  | _, [] => ([], [], 0)
  | fuel + 1, cs =>
    let line := cs.takeWhile (· != '\n')
    let ending := (cs.drop line.length).take 1
    let rest := cs.drop (line.length + 1)
    let line := if withoutTabs then line.dropWhile (· = '\t') else line
    if line = mark then ([], rest, 1)
    else
      let (text, rest, lines) := documentLines mark withoutTabs fuel rest
      (line ++ ending ++ text, rest, lines + 1)

/-- Takes a document from after the present line. -/
def takeDocument (mark : List Char) (withoutTabs : Bool) : Reader (List Char) := do
  let c ← get
  let present := c.rest.takeWhile (· != '\n')
  let later := c.rest.drop (present.length + 1)
  let (text, rest, lines) := documentLines mark withoutTabs (later.length + 1) later
  set { c with rest := present ++ '\n' :: rest, ahead := c.ahead + lines }
  return text

/-- The mark of a document, and whether it is quoted. -/
def takeMark : Reader (List Char × Bool) := do
  let rest ← takeBlanks
  let word := rest.takeWhile fun c => !isMeta c
  if word = [] then unexpected none
  take word.length
  let isQuote (c : Char) : Bool := c = '\'' || c = '"' || c = '\\'
  return (word.filter (!isQuote ·), word.any isQuote)

/-! ## Words -/

/-- Where pieces stand. -/
inductive Context where
  | word
  | quoted
  | braces (inQuotes : Bool)
  | document
  deriving DecidableEq, Inhabited

namespace Context

/-- Whether characters stand for themselves here more than elsewhere. -/
def isQuoted : Context → Bool
  | .word => false
  | .quoted | .document => true
  | .braces inQuotes => inQuotes

def closes (k : Context) (c : Char) : Bool :=
  match k with
  | .word => isMeta c
  | .quoted => c = '"'
  | .braces _ => c = '\x7d'
  | .document => false

/-- Characters that a backslash takes the meaning from. -/
def escapes (k : Context) (c : Char) : Bool :=
  match k with
  | .word | .braces false => true
  | .quoted => ['$', backquote, '"', '\\'].contains c
  | .braces true => ['$', backquote, '"', '\\', '\x7d'].contains c
  | .document => ['$', backquote, '\\'].contains c

end Context

/-- The commands between backquotes, with their escapes undone. -/
def backquoted : List Char → Option (List Char × List Char)
  | [] => none
  | '\\' :: c :: rest =>
    (backquoted rest).map fun (inner, rest) =>
      if [backquote, '$', '\\'].contains c then (c :: inner, rest) else ('\\' :: c :: inner, rest)
  | c :: rest =>
    if c = backquote then some ([], rest)
    else (backquoted rest).map fun (inner, rest) => (c :: inner, rest)

/-- The expression up to two closing brackets. -/
def arithmeticText : Nat → List Char → Option (List Char × List Char)
  | 0, ')' :: ')' :: rest => some ([], rest)
  | _, [] => none
  | depth, '(' :: rest => (arithmeticText (depth + 1) rest).map fun (t, r) => ('(' :: t, r)
  | depth, ')' :: rest => (arithmeticText (depth - 1) rest).map fun (t, r) => (')' :: t, r)
  | depth, c :: rest => (arithmeticText depth rest).map fun (t, r) => (c :: t, r)

/-- The parameter in front: a name, a number, or one of the special signs. -/
def parameterIn (cs : List Char) (braces : Bool) : List Char × List Char :=
  match cs with
  | c :: rest =>
    if isNameStart c then nameIn cs
    else if c.isDigit then
      if braces then (cs.takeWhile Char.isDigit, cs.dropWhile Char.isDigit) else ([c], rest)
    else if "@*#?$!-".toList.contains c then ([c], rest)
    else ([], cs)
  | [] => ([], [])

/-- What follows a parameter in braces: its use, whether empty counts as not set, and the number of
symbols that say so. -/
def useIn (cs : List Char) : Option (ParameterUse × Bool × Nat) :=
  let afterColon (orEmpty : Bool) (n : Nat) : List Char → Option (ParameterUse × Bool × Nat)
    | '-' :: _ => some (.otherwise, orEmpty, n)
    | '=' :: _ => some (.assign, orEmpty, n)
    | '+' :: _ => some (.instead, orEmpty, n)
    | '?' :: _ => some (.demand, orEmpty, n)
    | _ => none
  match cs with
  | '#' :: '#' :: _ => some (.cutFront true, false, 2)
  | '#' :: _ => some (.cutFront false, false, 1)
  | '%' :: '%' :: _ => some (.cutBack true, false, 2)
  | '%' :: _ => some (.cutBack false, false, 1)
  | ':' :: rest => afterColon true 2 rest
  | '\x7d' :: _ => some (.value, false, 0)
  | cs => afterColon false 1 cs

/-- Whether an assignment stands here: a name and an equals sign. -/
def assignmentIn (cs : List Char) : Option (List Char × List Char) :=
  match nameIn cs with
  | ([], _) => none
  | (name, '=' :: rest) => some (name, rest)
  | _ => none

/-- The number in front of a redirection. -/
def redirectIn (cs : List Char) : Option (Option Nat × List Char) :=
  let digits := cs.takeWhile Char.isDigit
  match cs.drop digits.length with
  | '<' :: rest => some (number digits, '<' :: rest)
  | '>' :: rest => some (number digits, '>' :: rest)
  | _ => none
where
  number (digits : List Char) : Option Nat := (String.ofList digits).toNat?

/-- Reads another text in place of the script. -/
def within {α : Type} (text : List Char) (reader : Reader α) : Reader α := do
  let outer ← get
  set { outer with rest := text, ahead := 0 }
  let a ← reader
  set outer
  return a

mutual

/-- Pieces up to the end of their context, which stays. -/
def pieces (fuel : Nat) (k : Context) : Reader (List Piece) :=
  match fuel with
  | 0 => syntaxError "script too long"
  | fuel + 1 => do
    match ← look with
    | [] =>
      match k with
      | .word | .document => return []
      | .quoted | .braces true => syntaxError "Unterminated quoted string"
      | .braces false => syntaxError "Missing '\x7d'"
    | c :: rest =>
      if k.closes c then return []
      else if c = '\\' then
        match rest with
        | '\n' :: _ =>
          takeCounting ['\\', '\n']
          pieces fuel k
        | d :: _ =>
          takeCounting ['\\', d]
          let chars := if k.escapes d then [d] else ['\\', d]
          return .literal chars true :: (← pieces fuel k)
        | [] =>
          take 1
          return .literal ['\\'] true :: (← pieces fuel k)
      else if c = '\'' && !k.isQuoted then
        let inner := rest.takeWhile (· != '\'')
        if rest.length = inner.length then
          takeCounting (c :: rest)
          syntaxError "Unterminated quoted string"
        else
          takeCounting ('\'' :: inner ++ ['\''])
          return .literal inner true :: (← pieces fuel k)
      else if c = '"' && k != .document then
        take 1
        let inner ← pieces fuel .quoted
        take 1
        let inner := if inner.isEmpty then [.literal [] true] else inner
        return inner ++ (← pieces fuel k)
      else if c = '$' then
        let first ← dollar fuel k.isQuoted
        return first ++ (← pieces fuel k)
      else if c = backquote then
        match backquoted rest with
        | none =>
          takeCounting (c :: rest)
          syntaxError "EOF in backquote substitution"
        | some (inner, after) =>
          let body ← within inner (commands fuel)
          takeCounting ((c :: rest).take ((c :: rest).length - after.length))
          return .output body k.isQuoted :: (← pieces fuel k)
      else
        takeCounting [c]
        return .literal [c] k.isQuoted :: (← pieces fuel k)
  termination_by structural fuel

/-- What stands for something else after a dollar sign. -/
def dollar (fuel : Nat) (quoted : Bool) : Reader (List Piece) :=
  match fuel with
  | 0 => syntaxError "script too long"
  | fuel + 1 => do
    match (← look).drop 1 with
    | '(' :: '(' :: rest =>
      match arithmeticText 0 rest with
      | none =>
        takeCounting ('$' :: '(' :: '(' :: rest)
        syntaxError "Missing '))'"
      | some (inner, _) =>
        takeCounting (['$', '(', '('] ++ inner ++ [')', ')'])
        let expression ← within inner (pieces fuel .document)
        return [.arithmetic expression quoted]
    | '(' :: _ =>
      take 2
      let body ← commands fuel
      match ← takeBlanks with
      | ')' :: _ =>
        take 1
        return [.output body quoted]
      | _ => unexpected (some "\")\"")
    | '\x7b' :: '#' :: rest =>
      let (name, after) := parameterIn rest true
      match name, after with
      | _ :: _, '\x7d' :: _ =>
        take (name.length + 4)
        return [.parameter name .length false [] quoted]
      | _, _ => braces fuel quoted
    | '\x7b' :: _ => braces fuel quoted
    | rest =>
      let (name, _) := parameterIn rest false
      take (name.length + 1)
      if name = [] then return [.literal ['$'] quoted]
      else return [.parameter name .value false [] quoted]
  termination_by structural fuel

/-- A parameter in braces. -/
def braces (fuel : Nat) (quoted : Bool) : Reader (List Piece) :=
  match fuel with
  | 0 => syntaxError "script too long"
  | fuel + 1 => do
    let (name, after) := parameterIn ((← look).drop 2) true
    let (use, orEmpty, n) := match name, useIn after with
      | _ :: _, some found => found
      | _, _ => (.unknown, false, if after.head? = some '\x7d' then 0 else 1)
    take (name.length + 2 + n)
    let word ← pieces fuel (.braces quoted)
    take 1
    return [.parameter name use orEmpty word quoted]
  termination_by structural fuel

/-- Commands up to a token that no command starts with. -/
def commands (fuel : Nat) : Reader (List Command) :=
  match fuel with
  | 0 => syntaxError "script too long"
  | fuel + 1 => do
    takeBreaks (← look).length
    if endsList (← look) then return []
    else
      let first ← andOr fuel
      match ← takeBlanks with
      | ';' :: ';' :: _ => return [first]
      | ';' :: _ | '&' :: _ =>
        take 1
        return first :: (← commands fuel)
      | '\n' :: _ => return first :: (← commands fuel)
      | _ => return [first]
  termination_by structural fuel

/-- One command at least, unless the script ends, which is a fault for what comes after. -/
def body (fuel : Nat) : Reader Command :=
  match fuel with
  | 0 => syntaxError "script too long"
  | fuel + 1 => do
    match ← commands fuel, ← look with
    | [], _ :: _ => unexpected none
    | list, _ => return .sequence list
  termination_by structural fuel

/-- Pipelines that run on condition of those before them. -/
def andOr (fuel : Nat) : Reader Command :=
  match fuel with
  | 0 => syntaxError "script too long"
  | fuel + 1 => do
    let first ← pipeline fuel
    furtherPipelines fuel first
  termination_by structural fuel

def furtherPipelines (fuel : Nat) (first : Command) : Reader Command :=
  match fuel with
  | 0 => syntaxError "script too long"
  | fuel + 1 => do
    let join (k : Connective) : Reader Command := do
      take 2
      takeBreaks (← look).length
      furtherPipelines fuel (.joined k first (← pipeline fuel))
    match ← takeBlanks with
    | '&' :: '&' :: _ => join .and
    | '|' :: '|' :: _ => join .or
    | _ => return first
  termination_by structural fuel

def pipeline (fuel : Nat) : Reader Command :=
  match fuel with
  | 0 => syntaxError "script too long"
  | fuel + 1 => do
    let isNegated := bareWord (← takeBlanks) = "!"
    if isNegated then take 1
    let first ← command fuel
    let whole : Command := match ← furtherStages fuel with
      | [] => first
      | more => .pipeline (first :: more)
    return if isNegated then .negated whole else whole
  termination_by structural fuel

def furtherStages (fuel : Nat) : Reader (List Command) :=
  match fuel with
  | 0 => syntaxError "script too long"
  | fuel + 1 => do
    match ← takeBlanks with
    | '|' :: '|' :: _ => return []
    | '|' :: _ =>
      take 1
      takeBreaks (← look).length
      let next ← command fuel
      return next :: (← furtherStages fuel)
    | _ => return []
  termination_by structural fuel

/-- A command with its redirections. -/
def command (fuel : Nat) : Reader Command :=
  match fuel with
  | 0 => syntaxError "script too long"
  | fuel + 1 => do
    let rest ← takeBlanks
    let line := (← get).line
    let compound (c : Reader Command) : Reader Command := do
      let c ← c
      match ← redirects fuel with
      | [] => return c
      | more => return .redirected line c more
    match rest with
    | '(' :: _ => compound do
      take 1
      let inner ← body fuel
      match ← takeBlanks with
      | ')' :: _ =>
        take 1
        return .subshell inner
      | _ => unexpected (some "\")\"")
    | _ =>
      match bareWord rest with
      | "\x7b" => compound do
        take 1
        let inner ← body fuel
        expectWord "\x7d"
        return inner
      | "if" => compound do
        take 2
        conditional fuel
      | "while" => compound do
        take 5
        loop fuel false
      | "until" => compound do
        take 5
        loop fuel true
      | "for" => compound do
        take 3
        each fuel line
      | "case" => compound do
        take 4
        let _ ← takeBlanks
        let word ← pieces fuel .word
        if word.isEmpty then unexpected (some "word")
        takeBreaks (← look).length
        expectWord "in"
        return .choice line word (← clauses fuel)
      | word =>
        if closers.contains word || word = "!" || word = "in" then unexpected none
        else simple fuel
  termination_by structural fuel

def conditional (fuel : Nat) : Reader Command :=
  match fuel with
  | 0 => syntaxError "script too long"
  | fuel + 1 => do
    let condition ← body fuel
    expectWord "then"
    let yes ← body fuel
    match bareWord (← takeBlanks) with
    | "elif" =>
      take 4
      return .conditional condition yes (← conditional fuel)
    | "else" =>
      take 4
      let no ← body fuel
      expectWord "fi"
      return .conditional condition yes no
    | _ =>
      expectWord "fi"
      return .conditional condition yes (.sequence [])
  termination_by structural fuel

def loop (fuel : Nat) (negated : Bool) : Reader Command :=
  match fuel with
  | 0 => syntaxError "script too long"
  | fuel + 1 => do
    let condition ← body fuel
    expectWord "do"
    let inner ← body fuel
    expectWord "done"
    return .loop negated condition inner
  termination_by structural fuel

def each (fuel : Nat) (line : Nat) : Reader Command :=
  match fuel with
  | 0 => syntaxError "script too long"
  | fuel + 1 => do
    let (name, _) := nameIn (← takeBlanks)
    if name = [] then syntaxError "Bad for loop variable"
    else
      take name.length
      takeBreaks (← look).length
      let list ← if bareWord (← look) = "in" then do
          take 2
          some <$> words fuel
        else pure none
      match ← takeBlanks with
      | ';' :: _ => take 1
      | '\n' :: _ => pure ()
      | _ => if list.isSome then unexpected none
      takeBreaks (← look).length
      expectWord "do"
      let inner ← body fuel
      expectWord "done"
      return .each line name list inner
  termination_by structural fuel

/-- The clauses of a choice, with the keyword after them. -/
def clauses (fuel : Nat) : Reader (List (List (List Piece) × Command)) :=
  match fuel with
  | 0 => syntaxError "script too long"
  | fuel + 1 => do
    takeBreaks (← look).length
    if bareWord (← look) = "esac" then
      take 4
      return []
    else
      match ← look with
      | '(' :: _ => take 1
      | _ => pure ()
      let patterns ← alternatives fuel
      let inner ← commands fuel
      match ← takeBlanks with
      | ';' :: ';' :: _ => take 2
      | _ => pure ()
      if endsList (← takeBlanks) && bareWord (← look) != "esac" then
        unexpected (some "\";;\"")
      else return (patterns, .sequence inner) :: (← clauses fuel)
  termination_by structural fuel

/-- Patterns up to the closing bracket. -/
def alternatives (fuel : Nat) : Reader (List (List Piece)) :=
  match fuel with
  | 0 => syntaxError "script too long"
  | fuel + 1 => do
    let _ ← takeBlanks
    let pattern ← pieces fuel .word
    if pattern.isEmpty then
      if (← look).head? != some '\n' then take 1
      let _ ← takeBlanks
      unexpected (some "\")\"")
    else match ← takeBlanks with
      | '|' :: _ =>
        take 1
        return pattern :: (← alternatives fuel)
      | ')' :: _ =>
        take 1
        return [pattern]
      | _ => unexpected (some "\")\"")
  termination_by structural fuel

def words (fuel : Nat) : Reader (List (List Piece)) :=
  match fuel with
  | 0 => syntaxError "script too long"
  | fuel + 1 => do
    match ← takeBlanks with
    | [] => return []
    | c :: _ =>
      if isMeta c then return []
      else
        let word ← pieces fuel .word
        return word :: (← words fuel)
  termination_by structural fuel

def redirects (fuel : Nat) : Reader (List Redirect) :=
  match fuel with
  | 0 => syntaxError "script too long"
  | fuel + 1 => do
    if (redirectIn (← takeBlanks)).isSome then
      let first ← redirect fuel
      return first :: (← redirects fuel)
    else return []
  termination_by structural fuel

/-- A redirection, which is known to stand here. -/
def redirect (fuel : Nat) : Reader Redirect :=
  match fuel with
  | 0 => syntaxError "script too long"
  | fuel + 1 => do
    let rest ← look
    let (number, operator) := (redirectIn rest).getD (none, rest)
    take (rest.length - operator.length)
    let target (n : Nat) : Reader (List Piece) := do
      take n
      match ← takeBlanks with
      | [] => unexpected none
      | c :: _ => if isMeta c then unexpected none else pieces fuel .word
    let document (n : Nat) (withoutTabs : Bool) : Reader Redirect := do
      take n
      let (mark, quoted) ← takeMark
      let text ← takeDocument mark withoutTabs
      if quoted then return .document (number.getD 0) [.literal text true]
      else return .document (number.getD 0) (← within text (pieces fuel .document))
    match operator with
    | '<' :: '<' :: '-' :: _ => document 3 true
    | '<' :: '<' :: _ => document 2 false
    | '<' :: '&' :: _ => return .duplicate (number.getD 0) (← target 2)
    | '<' :: '>' :: _ => return .file (number.getD 0) .readWrite (← target 2)
    | '<' :: _ => return .file (number.getD 0) .read (← target 1)
    | '>' :: '>' :: _ => return .file (number.getD 1) .append (← target 2)
    | '>' :: '&' :: _ => return .duplicate (number.getD 1) (← target 2)
    | '>' :: '|' :: _ => return .file (number.getD 1) .write (← target 2)
    | _ => return .file (number.getD 1) .write (← target 1)
  termination_by structural fuel

/-- A simple command, or the definition of a function. -/
def simple (fuel : Nat) : Reader Command :=
  match fuel with
  | 0 => syntaxError "script too long"
  | fuel + 1 => do
    let text ← look
    let word := (bareWord text).toList
    match word, assignmentIn text, dropBlanks (text.drop word.length) 0 with
    | _ :: _, none, ('(' :: rest, lines) =>
      modify fun c => { c with rest := rest, line := c.line + lines }
      match ← takeBlanks with
      | ')' :: _ =>
        if (nameIn word).1 != word then syntaxError "Bad function name"
        take 1
        takeBreaks (← look).length
        return .define word (← command fuel)
      | _ => unexpected (some "\")\"")
    | _, _, _ => assembled fuel
  termination_by structural fuel

/-- The parts of a simple command, of which there is one at least. -/
def assembled (fuel : Nat) : Reader Command :=
  match fuel with
  | 0 => syntaxError "script too long"
  | fuel + 1 => do
    let line := (← get).line
    match ← parts fuel true with
    | ([], [], []) => unexpected none
    | (assignments, list, redirects) => return .simple line assignments list redirects
  termination_by structural fuel

/-- Assignments, words and redirections, each in order. Assignments come before the first word. -/
def parts (fuel : Nat) (mayAssign : Bool) :
    Reader (List (List Char × List Piece) × List (List Piece) × List Redirect) :=
  match fuel with
  | 0 => syntaxError "script too long"
  | fuel + 1 => do
    let rest ← takeBlanks
    if (redirectIn rest).isSome then
      let first ← redirect fuel
      let (assignments, list, redirects) ← parts fuel mayAssign
      return (assignments, list, first :: redirects)
    else match rest with
      | [] => return ([], [], [])
      | c :: _ =>
        if isMeta c then return ([], [], [])
        else match if mayAssign then assignmentIn rest else none with
          | some (name, _) =>
            take (name.length + 1)
            let value ← pieces fuel .word
            let (assignments, list, redirects) ← parts fuel mayAssign
            return ((name, value) :: assignments, list, redirects)
          | none =>
            let word ← pieces fuel .word
            let (assignments, list, redirects) ← parts fuel false
            return (assignments, word :: list, redirects)
  termination_by structural fuel

end

/-- More steps than reading a script can take. -/
def readingFuel (cs : List Char) : Nat := 16 * cs.length + 64

/-- The commands of a line. -/
def lineOfCommands (fuel : Nat) : Nat → Reader (List Command)
  | 0 => return []
  | n + 1 => do
    let first ← andOr fuel
    match ← takeBlanks with
    | ';' :: ';' :: _ => unexpected none
    | ';' :: _ | '&' :: _ =>
      take 1
      match ← takeBlanks with
      | [] | '\n' :: _ => return [first]
      | _ => return first :: (← lineOfCommands fuel n)
    | [] | '\n' :: _ => return [first]
    | _ => unexpected none

/-- The lines of a script, up to a fault. -/
def linesFrom (fuel : Nat) : Nat → Cursor → Program
  | 0, _ => ⟨[], none⟩
  | n + 1, cursor =>
    let ((_, cursor) : Except String Unit × Cursor) := (takeBreaks cursor.rest.length).run cursor
    if cursor.rest = [] then ⟨[], none⟩
    else match (lineOfCommands fuel cursor.rest.length).run cursor with
      | (.ok list, cursor) =>
        let later := linesFrom fuel n cursor
        ⟨list ++ later.commands, later.fault⟩
      | (.error message, cursor) => ⟨[], some (cursor.line, message)⟩

def Program.read (cs : List Char) : Program :=
  linesFrom (readingFuel cs) (cs.length + 1) ⟨cs, 1, 0⟩

end Treewire.Shell
