import Treewire.Text

/-!
# Cutting texts

Cutting at a separator gives one more piece than the separator occurs, possibly empty ones.
Joining the pieces with the separator gives the text back.
-/

namespace Treewire

variable {α : Type} [DecidableEq α]

/-- The pieces between occurrences of a separator. -/
def pieces (separator : α) : List α → List (List α)
  | [] => [[]]
  | x :: rest =>
    match pieces separator rest with
    | [] => [[x]]
    | piece :: more => if x = separator then [] :: piece :: more else (x :: piece) :: more

theorem pieces_ne_nil (separator : α) (xs : List α) : pieces separator xs ≠ [] := by
  cases xs with
  | nil => simp [pieces]
  | cons x rest =>
    simp only [pieces]
    split
    · simp
    · split <;> simp

/-- The lists with a separator between neighbours. -/
def joinWith (separator : List α) : List (List α) → List α
  | [] => []
  | [xs] => xs
  | xs :: rest => xs ++ separator ++ joinWith separator rest

/-- The pieces of a string between occurrences of a character. -/
def splitString (at_ : Char) (s : String) : List String :=
  (pieces at_ s.toList).map String.ofList

/-- The strings with a separator between neighbours. -/
def joinStrings (separator : String) : List String → String
  | [] => ""
  | [s] => s
  | s :: rest => s ++ separator ++ joinStrings separator rest

/-- Line breaks of every spelling, a carriage return with or without a line feed, as line feeds. -/
def unifyBreaks : List Char → List Char
  | [] => []
  | '\r' :: '\n' :: rest => '\n' :: unifyBreaks rest
  | '\r' :: rest => '\n' :: unifyBreaks rest
  | c :: rest => c :: unifyBreaks rest

end Treewire
