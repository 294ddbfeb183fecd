import TemplateMarkup.Source.Position

/-!
# The source buffer

All the text a document has delivered so far, parted at the cursor. The part before the cursor is
kept newest character first, so that moving the cursor moves one character from the one list to
the other. The buffer only grows: what is pushed later goes to the end of the unread part.
-/

namespace TemplateMarkup

structure Buffer where
  /-- The characters before the cursor, the last one first. -/
  consumed : List Char
  /-- The characters from the cursor on. -/
  unread : List Char
  /-- The position of the cursor. -/
  position : Position
deriving DecidableEq, Repr

namespace Buffer

def empty : Buffer := ⟨[], [], .start⟩

instance : EmptyCollection Buffer := ⟨empty⟩

/-- The whole text, without regard to the cursor. -/
def toList (b : Buffer) : List Char :=
  b.consumed.reverse ++ b.unread

/-- The number of characters before the cursor. -/
def index (b : Buffer) : Nat :=
  b.consumed.length

def length (b : Buffer) : Nat :=
  b.consumed.length + b.unread.length

def isAtEnd (b : Buffer) : Bool :=
  b.unread.isEmpty

def push (b : Buffer) (cs : List Char) : Buffer :=
  { b with unread := b.unread ++ cs }

def peek? (b : Buffer) : Option Char :=
  b.unread.head?

def peekNext? (b : Buffer) : Option Char :=
  b.unread[1]?

/-- Moves the cursor over `n` characters, or to the end if there are fewer. -/
def advance (b : Buffer) : Nat → Buffer
  | 0 => b
  | n + 1 =>
    match b.unread with
    | [] => b
    | c :: rest => advance ⟨c :: b.consumed, rest, b.position.next c⟩ n

/-- The first offset, at the cursor or after it, that holds `c`. -/
def find? (b : Buffer) (c : Char) : Option Nat :=
  (b.unread.idxOf? c).map (b.index + ·)

/-- The text between two offsets, if they are in order and inside the buffer. -/
def slice? (b : Buffer) (start stop : Nat) : Option String :=
  if start ≤ stop ∧ stop ≤ b.length then
    some (String.ofList ((b.toList.drop start).take (stop - start)))
  else
    none

@[simp] theorem unread_push (b : Buffer) (cs : List Char) :
    (b.push cs).unread = b.unread ++ cs := rfl

@[simp] theorem unread_advance (b : Buffer) (n : Nat) :
    (b.advance n).unread = b.unread.drop n := by
  induction n generalizing b with
  | zero => rfl
  | succ n ih =>
    cases h : b.unread with
    | nil => simp [advance, h]
    | cons c rest => simp [advance, h, ih]

end Buffer

end TemplateMarkup
