import TemplateMarkup.Proofs.Assembler.Outline
import TemplateMarkup.Proofs.Lexer.References
import TemplateMarkup.Proofs.Lexer.Session

/-!
# What references stand for

The text that a reference stands for goes into the events and nowhere else. With two resolvers that
know the same names a lexer makes the same steps, keeps the same log and rejects the same character;
only the text events can differ.
-/

namespace TemplateMarkup

/-- The resolvers know the same names, which may stand for different texts. -/
def Resolver.SameNames (resolve resolve' : Resolver) : Prop :=
  ∀ name, (resolve name).isSome = (resolve' name).isSome

theorem Resolver.SameNames.symm {resolve resolve' : Resolver} (h : resolve.SameNames resolve') :
    resolve'.SameNames resolve :=
  fun name => (h name).symm

variable {resolve resolve' : Resolver} {s : State} {here : Position} {c : Char}
  {rest : List Char} {append : String → Event} {t : Take}

/-! ## Moves -/

theorem Move.reference_of_sameNames (h : resolve.SameNames resolve')
    (happend : ∀ text, (append text).isText = true)
    (hmove : reference resolve s append rest = .take t) :
    ∃ es, reference resolve' s append rest = .take { t with events := es } ∧
      skeleton es = skeleton t.events := by
  unfold reference Reference.lookup at *
  cases hname : Reference.nameAhead? rest with
  | none =>
      rw [hname] at hmove
      cases hmove
      exact ⟨_, rfl, rfl⟩
  | some name =>
      have hknown := h (String.ofList name)
      simp only [hname] at hmove ⊢
      cases htext : resolve (String.ofList name) with
      | none =>
          rw [htext, Option.isSome_none, eq_comm, Option.isSome_eq_false_iff,
            Option.isNone_iff_eq_none] at hknown
          simp only [htext] at hmove
          cases hmove
          simp only [hknown]
          exact ⟨_, rfl, rfl⟩
      | some text =>
          rw [htext, Option.isSome_some, eq_comm, Option.isSome_iff_exists] at hknown
          obtain ⟨text', htext'⟩ := hknown
          simp only [htext] at hmove
          cases hmove
          simp only [htext']
          exact ⟨_, rfl, by simp [skeleton, happend]⟩

/-- What a name stands for is no more than an event of the move. -/
theorem State.take_of_sameNames (h : resolve.SameNames resolve')
    (hmove : s.move resolve here c rest = .take t) :
    ∃ es, s.move resolve' here c rest = .take { t with events := es } ∧
      skeleton es = skeleton t.events := by
  by_cases hblind : c ≠ '&' ∨ s.textEvent? = none
  · rw [State.move_blind hblind] at hmove
    exact ⟨_, hmove, rfl⟩
  · push Not at hblind
    obtain ⟨rfl, htext⟩ := hblind
    obtain ⟨append, hs⟩ := Option.ne_none_iff_exists'.mp htext
    rw [State.move_ampersand here hs] at hmove ⊢
    exact Move.reference_of_sameNames h (State.isText_of_textEvent? hs) hmove

/-- Where nothing is taken the resolver has no say. -/
theorem State.move_of_ne_take {m : Move} (hmove : s.move resolve here c rest = m)
    (hm : ∀ t, m ≠ .take t) (resolve' : Resolver) : s.move resolve' here c rest = m := by
  rw [← hmove]
  exact State.move_blind (State.blind_of_ne_take fun t => hmove ▸ hm t)

/-- Two scans that tell the same but for text. -/
structure Scan.SameOutline (scan scan' : Scan) : Prop where
  lexer : scan.lexer = scan'.lexer
  events : skeleton scan.events = skeleton scan'.events
  log : scan.log = scan'.log
  error? : scan.error? = scan'.error?

theorem skeleton_reverse (es : List Event) : skeleton es.reverse = (skeleton es).reverse :=
  List.filter_reverse

namespace Lexer

variable {l l' m : Lexer} {es : List Event}

/-! ## Steps -/

theorem Step.of_sameNames (h : resolve.SameNames resolve') (hstep : Step resolve l es l') :
    ∃ es', Step resolve' l es' l' ∧ skeleton es' = skeleton es := by
  cases hstep with
  | @reexamine c rest next es hunread hmove =>
      have hmove' := State.move_of_ne_take hmove (by simp) resolve'
      exact ⟨es, .reexamine hunread hmove', rfl⟩
  | @take c rest t hunread hmove =>
      obtain ⟨es', hmove', hes⟩ := State.take_of_sameNames h hmove
      exact ⟨es', .take hunread hmove', hes⟩

theorem Steps.of_sameNames (h : resolve.SameNames resolve') (hsteps : Steps resolve l es m) :
    ∃ es', Steps resolve' l es' m ∧ skeleton es' = skeleton es := by
  induction hsteps with
  | refl l => exact ⟨[], .refl l, rfl⟩
  | head first _ ih =>
      obtain ⟨es₁, hfirst, hes₁⟩ := first.of_sameNames h
      obtain ⟨es₂, hlater, hes₂⟩ := ih
      exact ⟨es₁ ++ es₂, .head hfirst hlater, by simp [hes₁, hes₂]⟩

/-! ## The run of the lexer -/

theorem runFrom_of_sameNames (h : resolve.SameNames resolve') (l : Lexer)
    {before before' : List Event} (hbefore : skeleton before = skeleton before')
    (log : List LogEntry) :
    (runFrom resolve l before log).SameOutline (runFrom resolve' l before' log) := by
  have hreverse : ∀ {es es' : List Event}, skeleton es = skeleton es' →
      skeleton es.reverse = skeleton es'.reverse := by
    intro es es' hes
    rw [skeleton_reverse, skeleton_reverse, hes]
  induction hwork : l.workLeft using Nat.strong_induction_on
    generalizing l before before' log with
  | h n ih =>
      cases hunread : l.buffer.unread with
      | nil =>
          rw [runFrom_nil hunread, runFrom_nil hunread]
          exact ⟨rfl, hreverse hbefore, rfl, rfl⟩
      | cons c rest =>
          rw [runFrom_cons hunread, runFrom_cons hunread]
          cases hmove : l.state.move resolve l.position c rest with
          | wait =>
              rw [State.move_of_ne_take hmove (by simp) resolve']
              exact ⟨rfl, hreverse hbefore, rfl, rfl⟩
          | reject cause =>
              rw [State.move_of_ne_take hmove (by simp) resolve']
              exact ⟨rfl, hreverse hbefore, rfl, rfl⟩
          | reexamine next sent =>
              rw [State.move_of_ne_take hmove (by simp) resolve']
              apply ih _ (hwork ▸ workLeft_reexamine l resolve hunread hmove) _ ?_ _ rfl
              rw [skeleton_append, skeleton_append, hbefore]
          | take t =>
              obtain ⟨es, hmove', hes⟩ := State.take_of_sameNames h hmove
              rw [hmove']
              apply ih _ (hwork ▸ workLeft_take l t hunread) _ ?_ _ rfl
              rw [skeleton_append, skeleton_append, hbefore, hreverse hes]

theorem feed_of_sameNames (h : resolve.SameNames resolve') (l : Lexer) (text : String) :
    (l.feed resolve text).SameOutline (l.feed resolve' text) := by
  have hrun : (run resolve (l.receive text)).SameOutline (run resolve' (l.receive text)) :=
    runFrom_of_sameNames h (l.receive text) rfl []
  simp only [receive, extend] at hrun
  refine ⟨hrun.lexer, hrun.events, ?_, hrun.error?⟩
  simp only [feed, hrun.log, hrun.lexer, hrun.error?]

theorem call_of_sameNames (h : resolve.SameNames resolve') (l : Lexer) (call : Call) :
    (l.call resolve call).SameOutline (l.call resolve' call) := by
  cases call with
  | part text => exact feed_of_sameNames h l text
  | eof => exact ⟨rfl, rfl, rfl, rfl⟩

end Lexer

end TemplateMarkup
