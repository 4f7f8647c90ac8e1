import Treewire.Schema
import Treewire.Number.Binary

/-!
# Messages

A message is its set fields in number order; the elements of a repeated field stand side by side
under one number. A field that is not set has no entry, so two messages are equal exactly when they
agree on every field.
-/

namespace Treewire

mutual
inductive Value where
  /-- Integers of all widths, and the numbers of enumerations. -/
  | int (i : Int)
  | bool (b : Bool)
  | double (x : Binary64)
  | float (x : Binary32)
  | string (s : String)
  | bytes (b : Bytes)
  | message (m : Message)
inductive Message where
  | empty
  | entry (number : Nat) (value : Value) (rest : Message)
end

instance : Inhabited Message := ⟨.empty⟩

namespace Message

def toList : Message → List (Nat × Value)
  | .empty => []
  | .entry number value rest => (number, value) :: rest.toList

def ofList : List (Nat × Value) → Message
  | [] => .empty
  | (number, value) :: rest => .entry number value (ofList rest)

theorem ofList_toList (m : Message) : ofList m.toList = m := by
  induction m using Message.rec (motive_1 := fun _ => True) with
  | empty => rfl
  | entry _ _ _ _ ih => simp [toList, ofList, ih]
  | _ => trivial

theorem toList_ofList (entries : List (Nat × Value)) : (ofList entries).toList = entries := by
  induction entries with
  | nil => rfl
  | cons e rest ih => simp [ofList, toList, ih]

/-- The values of a field, in order. -/
def values (number : Nat) : Message → List Value
  | .empty => []
  | .entry n value rest => if n = number then value :: rest.values number else rest.values number

/-- The first value of a field. -/
def get? (number : Nat) (m : Message) : Option Value := (m.values number).head?

/-- Without any value of a field. -/
def erase (number : Nat) : Message → Message
  | .empty => .empty
  | .entry n value rest =>
    if n = number then rest.erase number else .entry n value (rest.erase number)

/-- With one more value of a field, after those it has. -/
def append (number : Nat) (value : Value) : Message → Message
  | .empty => .entry number value .empty
  | .entry n v rest =>
    if n ≤ number then .entry n v (rest.append number value)
    else .entry number value (.entry n v rest)

/-- With a field set to one value. -/
def set (number : Nat) (value : Value) (m : Message) : Message :=
  (m.erase number).append number value

end Message

/-- Whether a value is the one that an unset field stands for. A negative zero is not. -/
def Value.isDefault : Value → Bool
  | .int i => i == 0
  | .bool b => !b
  | .double x => x.bits == 0
  | .float x => x.bits == 0
  | .string s => s.isEmpty
  | .bytes b => b.isEmpty
  | .message _ => false

end Treewire
