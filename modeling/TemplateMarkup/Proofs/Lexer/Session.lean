import TemplateMarkup.Proofs.Lexer.Extend
import TemplateMarkup.Proofs.Text.LineEnding

/-!
# Sessions

A session is a list of calls that go on with one document: chunks of its text, and ends of the
input, any number of them and in any order. A call that fails ends the session. With resets among
them, the operations on a lexer are carried out to their end: one that fails leaves a lexer to go on
with.

The main result is that a text may be cut anywhere except inside a known reference: fed chunk by
chunk, it gives the same events and the same outcome as fed at once (`session_agrees_feed`).
-/

namespace TemplateMarkup

/-- A call that goes on with the document. -/
inductive Call where
  | part (text : String)
  | eof
deriving DecidableEq, Repr

/-- The text that the call brings. -/
def Call.text : Call → String
  | part text => text
  | eof => ""

/-- What can be done to a lexer, in any order. -/
inductive Operation where
  | call (call : Call)
  | reset
deriving DecidableEq, Repr

namespace Scan

/-- Goes on with the lexer that is left, if nothing went wrong so far. -/
def andThen (s : Scan) (next : Lexer → Scan) : Scan :=
  match s.error? with
  | some _ => s
  | none =>
      let later := next s.lexer
      ⟨later.lexer, s.events ++ later.events, s.log ++ later.log, later.error?⟩

/-- Two scans that tell the same, and leave the same lexer unless both fail. -/
structure Agrees (s t : Scan) : Prop where
  events : s.events = t.events
  error? : s.error? = t.error?
  lexer : t.error? = none → s.lexer = t.lexer

theorem Agrees.refl (s : Scan) : s.Agrees s := ⟨rfl, rfl, fun _ => rfl⟩

theorem Agrees.trans {s t u : Scan} (hst : s.Agrees t) (htu : t.Agrees u) : s.Agrees u :=
  ⟨hst.events.trans htu.events, hst.error?.trans htu.error?,
    fun h => (hst.lexer (htu.error?.trans h)).trans (htu.lexer h)⟩

theorem andThen_of_error {s : Scan} {e : SyntaxError} (h : s.error? = some e)
    (next : Lexer → Scan) : s.andThen next = s := by
  simp [andThen, h]

theorem andThen_of_ok {s : Scan} (h : s.error? = none) (next : Lexer → Scan) :
    s.andThen next =
      ⟨(next s.lexer).lexer, s.events ++ (next s.lexer).events, s.log ++ (next s.lexer).log,
        (next s.lexer).error?⟩ := by
  simp [andThen, h]

theorem andThen_assoc (s : Scan) (next later : Lexer → Scan) :
    (s.andThen next).andThen later = s.andThen fun l => (next l).andThen later := by
  cases hs : s.error? with
  | some e => rw [andThen_of_error hs, andThen_of_error hs, andThen_of_error hs]
  | none =>
      rw [andThen_of_ok hs, andThen_of_ok hs]
      cases hnext : (next s.lexer).error? with
      | some e => simp [andThen, hnext]
      | none => simp [andThen, hnext]

theorem Agrees.andThen {s t : Scan} {next next' : Lexer → Scan} (hst : s.Agrees t)
    (hnext : t.error? = none → (next t.lexer).Agrees (next' t.lexer)) :
    (s.andThen next).Agrees (t.andThen next') := by
  cases ht : t.error? with
  | some e =>
      rw [andThen_of_error ht, andThen_of_error (hst.error?.trans ht)]
      exact hst
  | none =>
      obtain ⟨hes, he, hlexer⟩ := hnext ht
      rw [andThen_of_ok ht, andThen_of_ok (hst.error?.trans ht), hst.lexer ht, hst.events]
      exact ⟨congrArg (t.events ++ ·) hes, he, hlexer⟩

end Scan

namespace Lexer

variable {resolve : Resolver} {l : Lexer}

def call (resolve : Resolver) (l : Lexer) : Call → Scan
  | .part text => l.feed resolve text
  | .eof => l.flush

def session (resolve : Resolver) (l : Lexer) : List Call → Scan
  | [] => ⟨l, [], [], none⟩
  | call :: calls => (l.call resolve call).andThen fun l' => session resolve l' calls

def perform (resolve : Resolver) (l : Lexer) : Operation → Scan
  | .call call => l.call resolve call
  | .reset => reset

/-- The events of all the operations, whether or not one of them fails. -/
def reported (resolve : Resolver) (l : Lexer) : List Operation → List Event
  | [] => []
  | op :: ops =>
      (l.perform resolve op).events ++ reported resolve (l.perform resolve op).lexer ops

theorem session_cons (call : Call) (calls : List Call) :
    l.session resolve (call :: calls) =
      (l.call resolve call).andThen fun l' => l'.session resolve calls := rfl

theorem events_session_eof (l : Lexer) : (l.session resolve [.eof]).events = l.flush.events := by
  simp [session, call, Scan.andThen, flush]

/-- A session that succeeds does so call by call. -/
theorem session_cons_of_ok {call : Call} {calls : List Call}
    (h : (l.session resolve (call :: calls)).error? = none) :
    (l.call resolve call).error? = none ∧
      ((l.call resolve call).lexer.session resolve calls).error? = none ∧
      (l.session resolve (call :: calls)).lexer =
        ((l.call resolve call).lexer.session resolve calls).lexer ∧
      (l.session resolve (call :: calls)).events =
        (l.call resolve call).events ++
          ((l.call resolve call).lexer.session resolve calls).events := by
  rw [session_cons] at h ⊢
  cases hcall : (l.call resolve call).error? with
  | some e =>
      rw [Scan.andThen_of_error hcall, hcall] at h
      cases h
  | none =>
      rw [Scan.andThen_of_ok hcall] at h ⊢
      exact ⟨rfl, h, rfl, rfl⟩

theorem session_append (calls later : List Call) :
    l.session resolve (calls ++ later) =
      (l.session resolve calls).andThen fun l' => l'.session resolve later := by
  induction calls generalizing l with
  | nil => simp [session, Scan.andThen]
  | cons call calls ih =>
      rw [List.cons_append, session_cons, session_cons, Scan.andThen_assoc]
      simp only [ih]

/-! ## Feeding as reading -/

/-- The lexer with a chunk of raw text behind what is unread. -/
def receive (l : Lexer) (text : String) : Lexer :=
  l.extend (LineEnding.fold l.afterReturn text.toList)
    (LineEnding.endsInReturn l.afterReturn text.toList)

theorem receive_append (l : Lexer) (s t : String) :
    l.receive (s ++ t) = (l.receive s).receive t := by
  simp [receive, extend, Buffer.push, LineEnding.fold_append, LineEnding.endsInReturn_append]

theorem reads_feed (resolve : Resolver) (l : Lexer) (text : String) :
    Reads resolve (l.receive text) (l.feed resolve text).events (l.feed resolve text).lexer
      (l.feed resolve text).error? :=
  reads_run resolve (l.receive text)

theorem feed_of_reads {text : String} {es : List Event} {l' : Lexer} {error? : Option SyntaxError}
    (h : Reads resolve (l.receive text) es l' error?) :
    (l.feed resolve text).events = es ∧ (l.feed resolve text).lexer = l' ∧
      (l.feed resolve text).error? = error? :=
  run_of_reads h

theorem receive_empty (l : Lexer) : l.receive "" = l := by
  simp [receive, extend, Buffer.push]

/-- Feeding nothing to a lexer at rest does nothing. -/
theorem feed_empty (h : Halts resolve l l none) :
    (l.feed resolve "").Agrees ⟨l, [], [], none⟩ := by
  have hreads : Reads resolve (l.receive "") [] l none := by
    rw [receive_empty]
    exact ⟨l, .refl l, h⟩
  obtain ⟨hes, hl, he⟩ := feed_of_reads hreads
  exact ⟨hes, he, fun _ => hl⟩

/-- A lexer at rest has read all that it can. -/
theorem Halts.eq_of_ok {m : Lexer} (h : Halts resolve m l none) : m = l := by
  cases h <;> rfl

/-- A lexer at rest has nothing left to read but a character that waits for the one after it. -/
theorem Halts.unread {m : Lexer} (h : Halts resolve m l none) :
    l.buffer.unread = [] ∨ ∃ c, l.buffer.unread = [c] ∧ l.state.peeks c = true := by
  cases h with
  | exhausted hunread => exact Or.inl hunread
  | @waiting c rest hunread hmove =>
      obtain ⟨hpeek, rfl⟩ := State.move_eq_wait_iff.mp hmove
      exact Or.inr ⟨c, hunread, hpeek⟩

/-- Feeding that succeeds takes steps up to a lexer at rest. -/
theorem steps_feed {text : String} (he : (l.feed resolve text).error? = none) :
    Steps resolve (l.receive text) (l.feed resolve text).events (l.feed resolve text).lexer ∧
      Halts resolve (l.feed resolve text).lexer (l.feed resolve text).lexer none := by
  obtain ⟨m, hsteps, hhalts⟩ := reads_feed resolve l text
  rw [he] at hhalts
  obtain rfl := hhalts.eq_of_ok
  exact ⟨hsteps, hhalts⟩

theorem Steps.receive {m : Lexer} {es : List Event} {text : String} (h : Steps resolve l es m)
    (hcut : ¬ Reference.CutsReference resolve l.buffer.toList
      (LineEnding.fold l.afterReturn text.toList)) :
    Steps resolve (l.receive text) es (m.receive text) := by
  rw [Lexer.receive, Lexer.receive, h.afterReturn]
  exact h.extend hcut _

/-- A text may be fed in two parts, if the cut between them is outside every known reference. -/
theorem feed_append {s t : String}
    (hcut : ¬ Reference.CutsReference resolve (l.receive s).buffer.toList
      (LineEnding.fold (l.receive s).afterReturn t.toList)) :
    ((l.feed resolve s).andThen fun l' => l'.feed resolve t).Agrees (l.feed resolve (s ++ t)) := by
  cases he : (l.feed resolve s).error? with
  | some e =>
      obtain ⟨m, hsteps, hhalts⟩ := reads_feed resolve l s
      rw [he] at hhalts
      have hwhole := hsteps.receive hcut
      rw [← receive_append] at hwhole
      rw [← hsteps.toList, ← hsteps.afterReturn] at hcut
      have hreads := feed_of_reads ⟨_, hwhole, hhalts.extend hcut _⟩
      obtain ⟨hes, -, he'⟩ := hreads
      rw [Scan.andThen_of_error he]
      exact ⟨hes.symm, he.trans he'.symm, by simp [he']⟩
  | none =>
      obtain ⟨hsteps, -⟩ := steps_feed he
      have hwhole := hsteps.receive hcut
      rw [← receive_append] at hwhole
      -- the second part is read on from where the first was left
      have hreads := hwhole.reads (reads_feed resolve _ t)
      obtain ⟨hes, hl, he'⟩ := feed_of_reads hreads
      rw [Scan.andThen_of_ok he]
      exact ⟨hes.symm, he'.symm, fun _ => hl.symm⟩

/-! ## Cutting a text into chunks -/

/-- No border between two chunks cuts a known reference of the folded text. -/
def KeepsReferences (resolve : Resolver) (chunks : List String) : Prop :=
  ∀ earlier ∈ chunks.inits,
    let text := LineEnding.fold false (String.join chunks).toList
    let border := (LineEnding.fold false (String.join earlier).toList).length
    ¬ Reference.CutsReference resolve (text.take border) (text.drop border)

instance (resolve : Resolver) (chunks : List String) :
    Decidable (KeepsReferences resolve chunks) := by
  unfold KeepsReferences
  infer_instance

theorem keepsReferences_blind (chunks : List String) : KeepsReferences Reference.blind chunks :=
  fun _ _ => Reference.not_cutsReference_blind _ _

theorem KeepsReferences.border {earlier later : List String}
    (h : KeepsReferences resolve (earlier ++ later)) :
    ¬ Reference.CutsReference resolve (LineEnding.fold false (String.join earlier).toList)
      (LineEnding.fold (LineEnding.endsInReturn false (String.join earlier).toList)
        (String.join later).toList) := by
  have hborder := h earlier ((List.mem_inits _ _).mpr (List.prefix_append _ _))
  simpa [LineEnding.fold_append] using hborder

/-- The lexer holds the text of the chunks, and remembers a return if they end in one. -/
structure HoldsText (chunks : List String) (l : Lexer) : Prop where
  text : l.buffer.toList = LineEnding.fold false (String.join chunks).toList
  afterReturn : l.afterReturn = LineEnding.endsInReturn false (String.join chunks).toList

theorem HoldsText.receive {chunks : List String} (h : HoldsText chunks l) (chunk : String) :
    HoldsText (chunks ++ [chunk]) (l.receive chunk) := by
  constructor <;>
    simp [Lexer.receive, extend, h.text, h.afterReturn, LineEnding.fold_append,
      LineEnding.endsInReturn_append]

/-- The lexer has read the chunks `earlier` of a new document, and is at rest. -/
structure HasRead (resolve : Resolver) (earlier : List String) (l : Lexer) : Prop where
  text : l.buffer.toList = LineEnding.fold false (String.join earlier).toList
  afterReturn : l.afterReturn = LineEnding.endsInReturn false (String.join earlier).toList
  rest : Halts resolve l l none

theorem hasRead_nil : HasRead resolve [] {} := ⟨rfl, rfl, .exhausted rfl⟩

theorem HasRead.holdsText {earlier : List String} (h : HasRead resolve earlier l) :
    HoldsText earlier l :=
  ⟨h.text, h.afterReturn⟩

theorem HasRead.feed {earlier : List String} (h : HasRead resolve earlier l) {chunk : String}
    (he : (l.feed resolve chunk).error? = none) :
    HasRead resolve (earlier ++ [chunk]) (l.feed resolve chunk).lexer := by
  obtain ⟨hsteps, hrest⟩ := steps_feed he
  obtain ⟨htext, hafter⟩ := h.holdsText.receive chunk
  exact ⟨hsteps.toList.trans htext, hsteps.afterReturn.trans hafter, hrest⟩

/-- **A text in chunks.** Whatever the chunks, as long as no known reference is cut. -/
theorem session_agrees_feed {earlier chunks : List String} (h : HasRead resolve earlier l)
    (hkeeps : KeepsReferences resolve (earlier ++ chunks)) :
    (session resolve l (chunks.map .part)).Agrees (l.feed resolve (String.join chunks)) := by
  induction chunks generalizing l earlier with
  | nil =>
      have hempty := feed_empty h.rest
      exact ⟨hempty.events.symm, hempty.error?.symm, fun he => (hempty.lexer rfl).symm⟩
  | cons chunk chunks ih =>
      have hkeeps' : KeepsReferences resolve ((earlier ++ [chunk]) ++ chunks) := by
        simpa using hkeeps
      have hcut := hkeeps'.border
      rw [← (h.holdsText.receive chunk).text, ← (h.holdsText.receive chunk).afterReturn] at hcut
      rw [String.join_cons]
      have hlater : (l.feed resolve chunk).error? = none →
          ((l.feed resolve chunk).lexer.session resolve (chunks.map .part)).Agrees
            ((l.feed resolve chunk).lexer.feed resolve (String.join chunks)) :=
        fun he => ih (h.feed he) hkeeps'
      exact ((Scan.Agrees.refl _).andThen hlater).trans (feed_append hcut)

end Lexer

end TemplateMarkup
