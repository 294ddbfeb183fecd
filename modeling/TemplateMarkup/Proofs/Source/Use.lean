import Mathlib.Data.List.Induction
import Mathlib.Order.Bounds.Basic
import TemplateMarkup.Proofs.Source.Flat

/-!
# A buffer in use

However a buffer is used, it is a function of two texts: the one pushed since it was cleared, and the
beginning of it that was passed since then. The offset of the cursor is the length of what was passed,
and its position is found by counting in it (`Tracks`, kept by every command). The flat buffer does the
same under the same commands and never misses its text (`run_flat`).
-/

namespace TemplateMarkup

/-! ## Positions by counting -/

namespace Position

/-- The line counts the line feeds in the text, the column the characters behind the last one. -/
def counted (cs : List Char) : Position :=
  ⟨1 + cs.count '\n', (cs.reverse.takeWhile (· != '\n')).length⟩

theorem counted_concat (cs : List Char) (c : Char) : counted (cs ++ [c]) = (counted cs).next c := by
  unfold counted next
  by_cases hc : c = '\n'
  · simp [hc, Nat.add_assoc]
  · simp [hc]

theorem after_start (cs : List Char) : start.after cs = counted cs := by
  induction cs using List.reverseRecOn with
  | nil => rfl
  | append_singleton cs c ih => rw [after_append, ih, counted_concat, after_cons, after_nil]

theorem counted_take_before {text : List Char} {j k : Nat} (hjk : j < k) (hk : k ≤ text.length) :
    (counted (text.take j)).Before (counted (text.take k)) := by
  rw [← after_start, ← after_start]
  exact atOffset_before hjk hk

end Position

/-! ## Commands -/

namespace Buffer

/-- What is asked of a buffer. -/
inductive Command where
  | push (text : String)
  | consume
  /-- Consumes a number of characters, or as many as there are. -/
  | skip (count : Nat)
  | peek
  | peekNext
  | find (c : Char)
  | clear
deriving DecidableEq, Repr

inductive Answer where
  | done
  | character (found : Option Char)
  | offset (found : Option Nat)
deriving DecidableEq, Repr

/-- Whether the command is to move the cursor. -/
def Command.moves : Command → Bool
  | .consume | .skip _ | .clear => true
  | .push _ | .peek | .peekNext | .find _ => false

def perform (b : Buffer) : Command → Answer × Buffer
  | .push text => (.done, b.push text.toList)
  | .consume => (.character b.peek?, b.advance 1)
  | .skip count => (.done, b.advance count)
  | .peek => (.character b.peek?, b)
  | .peekNext => (.character b.peekNext?, b)
  | .find c => (.offset (b.find? c), b)
  | .clear => (.done, ∅)

theorem perform_of_not_moves {b : Buffer} {command : Command} (h : command.moves = false) :
    (b.perform command).2.index = b.index ∧ (b.perform command).2.position = b.position := by
  cases command with
  | push text => exact ⟨rfl, rfl⟩
  | peek => exact ⟨rfl, rfl⟩
  | peekNext => exact ⟨rfl, rfl⟩
  | find c => exact ⟨rfl, rfl⟩
  | _ => cases h

def answers (b : Buffer) : List Command → List Answer
  | [] => []
  | command :: commands => (b.perform command).1 :: (b.perform command).2.answers commands

end Buffer

namespace Flat

/-- There is no answer where the text is missed. -/
def perform (f : Flat) : Buffer.Command → Option (Buffer.Answer × Flat)
  | .push text => some (.done, f.push text.toList)
  | .consume => some (.character f.consume.1, f.consume.2)
  | .skip count => some (.done, f.skip count)
  | .peek => some (.character f.peek?, f)
  | .peekNext => some (.character f.peekNext?, f)
  | .find c => (f.find? c).map fun found => (.offset found, f)
  | .clear => some (.done, .empty)

def run (f : Flat) : List Buffer.Command → Option (List Buffer.Answer × Flat)
  | [] => some ([], f)
  | command :: commands => do
    let (answer, f) ← f.perform command
    let (answers, f) ← f.run commands
    return (answer :: answers, f)

end Flat

namespace Buffer

variable {b : Buffer} {c : Char}

theorem flat_perform (b : Buffer) (command : Command) :
    b.flat.perform command = some ((b.perform command).1, (b.perform command).2.flat) := by
  cases command with
  | push text => rw [Flat.perform, perform, flat_push]
  | consume => rw [Flat.perform, perform, flat_consume]
  | skip count => rw [Flat.perform, perform, flat_skip]
  | peek => rw [Flat.perform, perform, flat_peek?]
  | peekNext => rw [Flat.perform, perform, flat_peekNext?]
  | find c => rw [Flat.perform, perform, flat_find?, Option.map_some]
  | clear => rfl

/-! ## What was pushed and what was passed -/

/-- What `count` calls to consume one character return, up to the first that returns none. -/
def taken (b : Buffer) : Nat → List Char
  | 0 => []
  | n + 1 =>
    match b.peek? with
    | none => []
    | some c => c :: (b.advance 1).taken n

theorem taken_eq_take (b : Buffer) (n : Nat) : b.taken n = b.unread.take n := by
  induction n generalizing b with
  | zero => rfl
  | succ n ih =>
      rw [taken]
      cases h : b.unread with
      | nil => simp [peek?, h]
      | cons c rest => simp [peek?, h, ih]

/-- A buffer, what was pushed to it since it was cleared, and what was consumed and skipped. -/
structure History where
  buffer : Buffer
  pushed : List Char
  passed : List Char
deriving DecidableEq, Repr

namespace History

def start : History := ⟨∅, [], []⟩

def record (h : History) (command : Command) : History :=
  let b := (h.buffer.perform command).2
  match command with
  | .push text => ⟨b, h.pushed ++ text.toList, h.passed⟩
  | .consume => ⟨b, h.pushed, h.passed ++ h.buffer.taken 1⟩
  | .skip count => ⟨b, h.pushed, h.passed ++ h.buffer.taken count⟩
  | .peek | .peekNext | .find _ => { h with buffer := b }
  | .clear => ⟨b, [], []⟩

theorem buffer_record (h : History) (command : Command) :
    (h.record command).buffer = (h.buffer.perform command).2 := by
  cases command <;> rfl

def after (commands : List Command) : History :=
  commands.foldl record start

/-- The buffer is what its history says. -/
structure Tracks (h : History) : Prop where
  text : h.buffer.toList = h.pushed
  passed : h.buffer.consumed.reverse = h.passed
  placed : h.buffer.Placed

theorem tracks_start : start.Tracks := ⟨rfl, rfl, rfl⟩

theorem Tracks.advance {h : History} (ht : h.Tracks) (n : Nat) :
    (⟨h.buffer.advance n, h.pushed, h.passed ++ h.buffer.taken n⟩ : History).Tracks where
  text := by rw [toList_advance, ht.text]
  passed := by simp [consumed_advance, taken_eq_take, ht.passed]
  placed := ht.placed.advance n

theorem Tracks.record {h : History} (ht : h.Tracks) (command : Command) :
    (h.record command).Tracks := by
  cases command with
  | push text =>
      have htext : (h.buffer.push text.toList).toList = h.pushed ++ text.toList := by
        rw [toList_push, ht.text]
      exact ⟨htext, ht.passed, ht.placed.push _⟩
  | consume => exact ht.advance 1
  | skip count => exact ht.advance count
  | peek => exact ⟨ht.text, ht.passed, ht.placed⟩
  | peekNext => exact ⟨ht.text, ht.passed, ht.placed⟩
  | find c => exact ⟨ht.text, ht.passed, ht.placed⟩
  | clear => exact tracks_start

theorem Tracks.passed_eq_take {h : History} (ht : h.Tracks) :
    h.passed = h.pushed.take h.buffer.index := by
  rw [← ht.text, ← ht.passed]
  simp [toList, index]

theorem Tracks.position {h : History} (ht : h.Tracks) : h.buffer.position = .counted h.passed := by
  rw [ht.placed, ht.passed, Position.after_start]

theorem tracks_after (commands : List Command) : (after commands).Tracks := by
  induction commands using List.reverseRecOn with
  | nil => exact tracks_start
  | append_singleton commands command ih =>
      have hlast : after (commands ++ [command]) = (after commands).record command := by
        simp [after]
      rw [hlast]
      exact ih.record command

/-- The flat buffer gives the same answers and ends up as the same text with the same cursor. -/
theorem run_flat (h : History) (commands : List Command) :
    h.buffer.flat.run commands =
      some (h.buffer.answers commands, (commands.foldl History.record h).buffer.flat) := by
  induction commands generalizing h with
  | nil => rfl
  | cons command commands ih =>
      rw [Flat.run, flat_perform]
      simp only [Option.bind_eq_bind, Option.bind_some]
      rw [← buffer_record, ih, answers, List.foldl_cons, buffer_record]
      rfl

end History

/-! ## Searching -/

/-- The first character of its kind ahead stands at the least offset from the cursor on. -/
theorem isLeast_of_unread {before rest : List Char} (hb : b.unread = before ++ c :: rest)
    (h : c ∉ before) :
    IsLeast {k | b.index ≤ k ∧ b.toList[k]? = some c} (b.index + before.length) := by
  constructor
  · refine ⟨Nat.le_add_right _ _, ?_⟩
    rw [getElem?_index_add, hb]
    simp
  · rintro k ⟨hk, hfound⟩
    obtain ⟨d, rfl⟩ := Nat.exists_eq_add_of_le hk
    rw [getElem?_index_add, hb] at hfound
    by_contra hless
    rw [List.getElem?_append_left (by omega)] at hfound
    exact h (List.mem_of_getElem? hfound)

theorem mem_unread_of_getElem? {k : Nat} (hk : b.index ≤ k) (h : b.toList[k]? = some c) :
    c ∈ b.unread := by
  obtain ⟨d, rfl⟩ := Nat.exists_eq_add_of_le hk
  rw [getElem?_index_add] at h
  exact List.mem_of_getElem? h

theorem find?_eq_some_iff {k : Nat} :
    b.find? c = some k ↔ IsLeast {k | b.index ≤ k ∧ b.toList[k]? = some c} k := by
  by_cases hmem : c ∈ b.unread
  · obtain ⟨before, rest, hb, hbefore⟩ := List.eq_append_cons_of_mem hmem
    have hleast := isLeast_of_unread hb hbefore
    rw [find?_append_cons hb hbefore, Option.some.injEq]
    constructor
    · rintro rfl
      exact hleast
    · exact hleast.unique
  · rw [find?_eq_none hmem]
    constructor
    · intro h
      cases h
    · rintro ⟨⟨hk, hfound⟩, -⟩
      exact absurd (mem_unread_of_getElem? hk hfound) hmem

theorem find?_eq_none_iff : b.find? c = none ↔ ∀ k, b.index ≤ k → b.toList[k]? ≠ some c := by
  constructor
  · intro h k hk hfound
    obtain ⟨before, rest, hb, hbefore⟩ :=
      List.eq_append_cons_of_mem (mem_unread_of_getElem? hk hfound)
    rw [find?_append_cons hb hbefore] at h
    cases h
  · intro h
    apply find?_eq_none
    intro hmem
    obtain ⟨before, rest, hb, hbefore⟩ := List.eq_append_cons_of_mem hmem
    obtain ⟨hk, hfound⟩ := (isLeast_of_unread hb hbefore).1
    exact h _ hk hfound

/-! ## References -/

/-- At an `&`, the move of the lexer is what the flat buffer does behind it. A known reference ends
behind the next `;`, and where none is known only the `&` is passed. -/
theorem reference_flat (resolve : Resolver) (stay : State) (append : String → Event)
    {rest : List Char} (hb : b.unread = '&' :: rest) :
    ∃ t decoded?, Move.reference resolve stay append rest = .take t ∧
      t.events = [append (decoded?.getD "&")] ∧
      (b.advance 1).flat.reference? resolve = some (decoded?, (b.advance (t.extra + 1)).flat) ∧
      (decoded? = none → t.extra = 0) ∧
      (decoded? ≠ none → ∃ stop, IsLeast {k | b.index < k ∧ b.toList[k]? = some ';'} stop ∧
        (b.advance (t.extra + 1)).index = stop + 1) := by
  have hunread : (b.advance 1).unread = rest := by simp [hb]
  cases hlookup : Reference.lookup resolve rest with
  | unterminated =>
      have hunknown : (Reference.lookup resolve (b.advance 1).unread).known? = none := by
        rw [hunread, hlookup]
        rfl
      exact ⟨_, none, by rw [Move.reference, hlookup], rfl, flat_reference?_of_unknown hunknown,
        fun _ => rfl, fun h => absurd rfl h⟩
  | unknown name =>
      have hunknown : (Reference.lookup resolve (b.advance 1).unread).known? = none := by
        rw [hunread, hlookup]
        rfl
      exact ⟨_, none, by rw [Move.reference, hlookup], rfl, flat_reference?_of_unknown hunknown,
        fun _ => rfl, fun h => absurd rfl h⟩
  | resolved length text =>
      have hknown : (Reference.lookup resolve (b.advance 1).unread).known? = some (length, text) := by
        rw [hunread, hlookup]
        rfl
      obtain ⟨name, tail, hname, hnot, rfl, -⟩ := Reference.known?_lookup_eq_some hknown
      refine ⟨_, some text, by rw [Move.reference, hlookup], rfl, ?_, ?_, ?_⟩
      · have hread := flat_reference?_of_known hknown
        rw [advance_succ] at hread
        exact hread
      · intro h
        cases h
      · intro _
        have hindex : (b.advance 1).index = b.index + 1 := index_advance b (by simp [hb])
        have hleast := isLeast_of_unread hname hnot
        rw [hindex, toList_advance] at hleast
        have hlands : (b.advance (name.length + 1 + 1)).index = b.index + (name.length + 1 + 1) := by
          apply index_advance
          rw [hb, ← hunread, hname]
          simp
        refine ⟨_, hleast, ?_⟩
        show (b.advance (name.length + 1 + 1)).index = _
        omega

/-! ## Any use -/

/-- **A buffer is a function of what was pushed and passed.** Whatever is done to it: the flat buffer
does the same and never misses its text. What was passed since the buffer was cleared is the beginning
of what was pushed since then, up to the offset of the cursor, which is inside. The position is found by
counting in it, and positions in one text grow with the offset. A search finds the least offset from the
cursor on, if there is one. Only consuming, skipping and clearing move the cursor. A reference is read
inside the text, and reading goes on directly behind its `;`. -/
theorem tracks_use (resolve : Resolver) (commands : List Command) :
    let h := History.after commands
    let b := h.buffer
    Flat.empty.run commands = some (answers ∅ commands, b.flat) ∧
      b.toList = h.pushed ∧ b.index ≤ b.length ∧ h.passed = h.pushed.take b.index ∧
      b.position = .counted h.passed ∧
      (∀ j k, j < k → k ≤ h.pushed.length →
        (Position.counted (h.pushed.take j)).Before (.counted (h.pushed.take k)) ∧
          Position.counted (h.pushed.take j) ≠ .counted (h.pushed.take k)) ∧
      (∀ c k, b.find? c = some k ↔ IsLeast {k | b.index ≤ k ∧ h.pushed[k]? = some c} k) ∧
      (∀ c, b.find? c = none ↔ ∀ k, b.index ≤ k → h.pushed[k]? ≠ some c) ∧
      (∀ command : Command, command.moves = false →
        (b.perform command).2.index = b.index ∧ (b.perform command).2.position = b.position) ∧
      ∀ stay append rest, b.unread = '&' :: rest →
        ∃ t decoded?, Move.reference resolve stay append rest = .take t ∧
          t.events = [append (decoded?.getD "&")] ∧
          (b.advance 1).flat.reference? resolve = some (decoded?, (b.advance (t.extra + 1)).flat) ∧
          (decoded? = none → t.extra = 0) ∧
          (decoded? ≠ none → ∃ stop, IsLeast {k | b.index < k ∧ h.pushed[k]? = some ';'} stop ∧
            (b.advance (t.extra + 1)).index = stop + 1) := by
  intro h b
  have ht : h.Tracks := History.tracks_after commands
  refine ⟨History.run_flat .start commands, ht.text, Nat.le_add_right _ _, ht.passed_eq_take,
    ht.position, ?_, ?_, ?_, ?_, ?_⟩
  · intro j k hjk hk
    have hbefore := Position.counted_take_before hjk hk
    exact ⟨hbefore, hbefore.ne⟩
  · intro c k
    rw [← ht.text]
    exact find?_eq_some_iff
  · intro c
    rw [← ht.text]
    exact find?_eq_none_iff
  · intro command hmoves
    exact perform_of_not_moves hmoves
  · intro stay append rest hunread
    rw [← ht.text]
    exact reference_flat resolve stay append hunread

/-- A reference arrives in two parts, behind a line feed, and after a skip that met the end. -/
theorem tracks_use_of_parts :
    let commands : List Command := [.push "&lt;", .skip 9, .clear, .push "x\n&am", .skip 2, .push "p;y",
      .peekNext, .find ';']
    let h := History.after commands
    h.passed = ['x', '\n'] ∧ h.buffer.index = 2 ∧ h.buffer.position = ⟨2, 0⟩ ∧
      h.buffer.find? ';' = some 6 ∧ h.buffer.unread = '&' :: "amp;y".toList ∧
      ∃ t, Move.reference Reference.standard .data .appendChars "amp;y".toList = .take t ∧
        ∃ stop, IsLeast {k | 2 < k ∧ h.pushed[k]? = some ';'} stop ∧
          (h.buffer.advance (t.extra + 1)).index = stop + 1 := by
  intro commands h
  have hunread : h.buffer.unread = '&' :: "amp;y".toList := by decide
  obtain ⟨-, -, -, -, -, -, -, -, -, href⟩ := tracks_use Reference.standard commands
  obtain ⟨t, decoded?, ht, -, -, hunknown, hknown⟩ := href .data .appendChars _ hunread
  refine ⟨by decide, by decide, by decide, by decide, hunread, t, ht, ?_⟩
  apply hknown
  intro hnone
  have hlookup : Reference.lookup Reference.standard "amp;y".toList = .resolved 3 "&" := by decide
  have hextra := hunknown hnone
  rw [Move.reference, hlookup] at ht
  cases ht
  cases hextra

end Buffer

end TemplateMarkup
