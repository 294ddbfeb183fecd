import TemplateMarkup.Lexer.Text
import TemplateMarkup.Proofs.Reference.Lookup
import TemplateMarkup.Proofs.Source.Position

/-!
# The buffer kept flat

The buffer can be kept as one text with an offset and a position, and nothing that ties the three
together. An access by offsets then may miss the text, and gives no answer where it does. Seen flat
(`Buffer.flat`), a buffer never misses, and every access to it is the access to the flat text: what is
looked at, what is consumed, where a character is found, and how a reference is read.
-/

namespace TemplateMarkup

structure Flat where
  text : List Char
  /-- The offset of the next character. -/
  index : Nat
  position : Position
deriving DecidableEq, Repr

namespace Flat

def empty : Flat := ⟨[], 0, .start⟩

def push (f : Flat) (cs : List Char) : Flat :=
  { f with text := f.text ++ cs }

def peek? (f : Flat) : Option Char :=
  f.text[f.index]?

def peekNext? (f : Flat) : Option Char :=
  f.text[f.index + 1]?

/-- Moves over the next character, if there is one. -/
def consume (f : Flat) : Option Char × Flat :=
  match f.peek? with
  | none => (none, f)
  | some c => (some c, { f with index := f.index + 1, position := f.position.next c })

/-- Consumes until `count` characters are consumed or there is none. -/
def skip (f : Flat) (count : Nat) : Flat :=
  match count with
  | 0 => f
  | n + 1 =>
    match f.consume with
    | (none, _) => f
    | (some _, f') => f'.skip n

/-- Looks for `c` in the rest of the text, which is missed if it begins beyond the end. -/
def find? (f : Flat) (c : Char) : Option (Option Nat) :=
  if f.index ≤ f.text.length then some (((f.text.drop f.index).idxOf? c).map (f.index + ·))
  else none

/-- The text between two offsets, which is missed if they are not in order or not inside. -/
def slice? (f : Flat) (start stop : Nat) : Option String :=
  if start ≤ stop ∧ stop ≤ f.text.length then
    some (String.ofList ((f.text.drop start).take (stop - start)))
  else none

/-- Reads the reference behind an `&`: what it stands for, if it is known, and the text behind it. -/
def reference? (resolve : Resolver) (f : Flat) : Option (Option String × Flat) := do
  match ← f.find? ';' with
  | none => return (none, f)
  | some stop =>
    match resolve (← f.slice? f.index stop) with
    | none => return (none, f)
    | some text => return (some text, f.skip (stop + 1 - f.index))

end Flat

namespace Buffer

variable {b : Buffer} {c : Char}

/-! ## Access by offsets -/

theorem find?_eq_none (h : c ∉ b.unread) : b.find? c = none := by
  simp [find?, List.idxOf?_eq_none_iff.mpr h]

theorem find?_append_cons {before after : List Char}
    (hb : b.unread = before ++ c :: after) (h : c ∉ before) :
    b.find? c = some (b.index + before.length) := by
  have hidx : (before ++ c :: after).idxOf? c = some before.length := by
    rw [List.idxOf?, List.findIdx?_append, List.findIdx?_eq_none_iff.mpr]
    · simp [List.findIdx?_cons]
    · intro d hd
      rw [beq_eq_false_iff_ne]
      rintro rfl
      exact h hd
  rw [find?, hb, hidx, Option.map_some]

theorem slice?_unread {before after : List Char} (hb : b.unread = before ++ after) :
    b.slice? b.index (b.index + before.length) = some (String.ofList before) := by
  have hrange : b.index ≤ b.index + before.length ∧ b.index + before.length ≤ b.length := by
    simp [index, length, hb]
  rw [slice?, if_pos hrange, toList, hb]
  simp [index]

/-! ## Seen flat -/

def flat (b : Buffer) : Flat :=
  ⟨b.toList, b.index, b.position⟩

theorem flat_push (b : Buffer) (cs : List Char) : (b.push cs).flat = b.flat.push cs := by
  simp [flat, Flat.push, index, push, toList]

theorem getElem?_index_add (b : Buffer) (n : Nat) : b.toList[b.index + n]? = b.unread[n]? := by
  simp [toList, index, List.getElem?_append_right]

theorem flat_peek? (b : Buffer) : b.flat.peek? = b.peek? := by
  have hindex := getElem?_index_add b 0
  rw [Nat.add_zero] at hindex
  show b.toList[b.index]? = b.unread.head?
  rw [hindex, List.head?_eq_getElem?]

theorem flat_peekNext? (b : Buffer) : b.flat.peekNext? = b.peekNext? :=
  getElem?_index_add b 1

theorem flat_consume (b : Buffer) : b.flat.consume = (b.peek?, (b.advance 1).flat) := by
  unfold Flat.consume
  rw [flat_peek?]
  cases h : b.unread with
  | nil => simp [peek?, h, advance]
  | cons c rest => simp [peek?, h, advance, flat, toList, index]

theorem flat_skip (b : Buffer) (n : Nat) : b.flat.skip n = (b.advance n).flat := by
  induction n generalizing b with
  | zero => rfl
  | succ n ih =>
      rw [Flat.skip, flat_consume]
      cases h : b.unread with
      | nil => simp [peek?, h, advance]
      | cons c rest =>
          have hnext : (b.advance 1).flat.skip n = ((b.advance 1).advance n).flat := ih (b.advance 1)
          simpa [peek?, h, advance] using hnext

theorem flat_find? (b : Buffer) (c : Char) : b.flat.find? c = some (b.find? c) := by
  have hindex : b.flat.index ≤ b.flat.text.length := by simp [flat, toList, index]
  unfold Flat.find? find?
  rw [if_pos hindex]
  simp [flat, toList, index]

theorem flat_slice? (b : Buffer) (start stop : Nat) :
    b.flat.slice? start stop = b.slice? start stop := by
  have hlength : b.flat.text.length = b.length := by simp [flat, toList, length]
  unfold Flat.slice? slice?
  rw [hlength]
  rfl

/-- A known reference is read inside the text, which goes on behind the name and its `;`. -/
theorem flat_reference?_of_known {resolve : Resolver} {length : Nat} {text : String}
    (h : (Reference.lookup resolve b.unread).known? = some (length, text)) :
    b.flat.reference? resolve = some (some text, (b.advance (length + 1)).flat) := by
  obtain ⟨name, tail, hb, hname, rfl, hresolve⟩ := Reference.known?_lookup_eq_some h
  have hslice : b.flat.slice? b.flat.index (b.index + name.length) = some (String.ofList name) := by
    rw [flat_slice?]
    exact slice?_unread hb
  have hcount : b.index + name.length + 1 - b.flat.index = name.length + 1 := by
    show b.index + name.length + 1 - b.index = name.length + 1
    omega
  unfold Flat.reference?
  rw [flat_find?, find?_append_cons hb hname]
  simp [hslice, hresolve, hcount, flat_skip]

/-- Where no reference is known the text is looked at, and nothing is missed either. -/
theorem flat_reference?_of_unknown {resolve : Resolver}
    (h : (Reference.lookup resolve b.unread).known? = none) :
    b.flat.reference? resolve = some (none, b.flat) := by
  unfold Flat.reference?
  rw [flat_find?]
  by_cases hmem : ';' ∈ b.unread
  · obtain ⟨name, tail, hb, hname⟩ := Reference.exists_name hmem
    rw [hb, Reference.known?_lookup_append_cons hname, Option.map_eq_none_iff] at h
    have hslice : b.flat.slice? b.flat.index (b.index + name.length) = some (String.ofList name) := by
      rw [flat_slice?]
      exact slice?_unread hb
    rw [find?_append_cons hb hname]
    simp [hslice, h]
  · rw [find?_eq_none hmem]
    rfl

end Buffer

end TemplateMarkup
