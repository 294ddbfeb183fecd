import Mathlib
import TemplateMarkup.Proofs.Assembler.Constructs
import TemplateMarkup.Proofs.Lexer.Words
import TemplateMarkup.Proofs.Token.ExpressionLayout

/-!
# Reading expressions

The lexer reads what spells a token as the events of one construct, and that construct is the token
(`Spells`). Every layout of an expression spells the token that it stands for (`spells_expressionLayout`),
and so does the expression on a line. With the expressions come the names and the pieces of text that
tags and comments have as well.
-/

namespace TemplateMarkup.Lexer

variable {resolve : Resolver} {s : State} {c : Char} {w : List Char} {es : List Event}
  {finish : Position → Event} {k : TokenKind} {name : String}

/-- In the state `s` the lexer reads `w`, whatever follows, as a construct that is the token. -/
def Spells (resolve : Resolver) (s : State) (w : List Char) (k : TokenKind) : Prop :=
  ∀ (l : Lexer) (rest : List Char), l.state = s → l.buffer.unread = w ++ rest →
    ∃ (c : Construct) (l' : Lexer), c.kind = k ∧ Steps resolve l c.events l' ∧
      l'.state = .beforeData ∧ l'.buffer.unread = rest

theorem Closes.spells (h : Closes resolve s w es finish)
    (hc : ∀ stop, ∃ c : Construct, c.kind = k ∧ c.events = es ++ [finish stop]) :
    Spells resolve s w k := by
  intro l rest hs hunread
  obtain ⟨l', stop, hsteps, hs', hunread'⟩ := h l rest hs hunread
  obtain ⟨c, hk, hevents⟩ := hc stop
  refine ⟨c, l', hk, ?_, hs', hunread'⟩
  rwa [hevents]

/-- What is read without an event may stand in front. -/
theorem Passes.spells {s' : State} {w' : List Char} (h : Passes resolve s w [] s')
    (h' : Spells resolve s' w' k) : Spells resolve s (w ++ w') k := by
  intro l rest hs hunread
  rw [List.append_assoc] at hunread
  obtain ⟨l₁, hsteps, hs₁, hunread₁⟩ := h l _ hs hunread
  obtain ⟨c, l₂, hk, hsteps', hs₂, hunread₂⟩ := h' l₁ rest hs₁ hunread₁
  exact ⟨c, l₂, hk, hsteps.trans hsteps', hs₂, hunread₂⟩

/-! ## Openings -/

theorem passes_tagOpening (resolve : Resolver) : Passes resolve .beforeData ['<'] [] .tagOpen :=
  .take (t := { next := .tagOpen, mark := some .tag }) (w := []) (fun _ _ => rfl) rfl

/-- The opening braces of an expression, with the first of them marked. -/
theorem steps_expressionOpening (resolve : Resolver) {l : Lexer} (hl : l.state = .beforeData)
    (hunread : l.buffer.unread = '{' :: '{' :: w) :
    ∃ l', Steps resolve l [] l' ∧ l'.state = .expressionOpen ∧ l'.buffer.unread = w ∧
      l'.expressionStart = l.position := by
  have hmove : l.state.move resolve l.position '{' ('{' :: w) =
      .take { next := .expressionOpen, extra := 1, mark := some .expression } := by
    simp [hl, State.move]
  exact ⟨_, .single (.take hunread hmove), rfl, by simp [hunread], rfl⟩

theorem passes_expressionOpening (resolve : Resolver) :
    Passes resolve .beforeData ['{', '{'] [] .expressionOpen := by
  intro l rest hl hunread
  obtain ⟨l', hsteps, hl', hunread', -⟩ := steps_expressionOpening resolve hl hunread
  exact ⟨l', hsteps, hl', hunread'⟩

theorem Spells.tag (h : Spells resolve .tagOpen w k) : Spells resolve .beforeData ('<' :: w) k :=
  (passes_tagOpening resolve).spells h

theorem Spells.expression (h : Spells resolve .expressionOpen w k) :
    Spells resolve .beforeData ('{' :: '{' :: w) k :=
  (passes_expressionOpening resolve).spells h

/-! ## Names -/

theorem ne_nil_of_isWord {first later : Char → Bool} {s : String}
    (h : isWord first later s = true) : s.toList ≠ [] := by
  obtain ⟨c, cs, hcs, -⟩ := isWord_iff.mp h
  simp [hcs]

theorem ne_of_isAlpha {d : Char} (h : c.isAlpha = true) (hd : d.isAlpha = false) : c ≠ d := by
  rintro rfl
  rw [h] at hd
  cases hd

theorem isWord_isAlpha {later : Char → Bool} (h : isWord Char.isLower later name = true) :
    isWord Char.isAlpha later name = true := by
  obtain ⟨c, cs, hcs, hc, hcs'⟩ := isWord_iff.mp h
  exact isWord_iff.mpr ⟨c, cs, hcs, by simp [Char.isAlpha, hc], hcs'⟩

theorem modifyHead_toLower {later : Char → Bool} (h : isWord Char.isLower later name = true) :
    name.toList.modifyHead Char.toLower = name.toList := by
  obtain ⟨c, cs, hcs, hc, -⟩ := isWord_iff.mp h
  rw [hcs, List.modifyHead_cons, Char.toLower_eq_of_not_isUpper (Char.not_isUpper_of_isLower hc)]

/-- What stands between the `<` of a tag and its name. -/
def tagMark : Bool → List Char
  | false => []
  | true => ['/']

/-- What stands between the opening braces of an expression and its name. -/
def expressionMark : Option Bool → List Char
  | none => ['/']
  | some false => []
  | some true => ['#']

/-- The first letter of the name of a tag. -/
theorem passes_tagLetter (resolve : Resolver) (ending : Bool) (hc : c.isAlpha = true) :
    Passes resolve .tagOpen (tagMark ending ++ [c])
      [Construct.openTag ending, .appendTagName c.toLower] .tagName := by
  cases ending with
  | false =>
      have hbang : c ≠ '!' := ne_of_isAlpha hc (by decide)
      have hslash : c ≠ '/' := ne_of_isAlpha hc (by decide)
      exact .char fun _ _ => by simp [State.move, hbang, hslash, hc, Construct.openTag]
  | true =>
      have hmark : Passes resolve .tagOpen ['/'] [] .endTagOpen := .char fun _ _ => rfl
      have hletter : Passes resolve .endTagOpen [c] [.beginEndTag, .appendTagName c.toLower]
          .tagName := .char fun _ _ => by simp [State.move, hc]
      exact hmark.trans hletter

/-- The first letter of the name of an expression. -/
theorem passes_expressionLetter (resolve : Resolver) (isBlock? : Option Bool)
    (hc : c.isAlpha = true) :
    Passes resolve .expressionOpen (expressionMark isBlock? ++ [c])
      [Construct.openExpression isBlock?, .appendExpressionName c.toLower] .expressionName := by
  cases isBlock? with
  | none =>
      have hmark : Passes resolve .expressionOpen ['/'] [] .endExpressionOpen := .char fun _ _ => rfl
      have hletter : Passes resolve .endExpressionOpen [c]
          [.beginEndExpression, .appendExpressionName c.toLower] .expressionName :=
        .char fun _ _ => by simp [State.move, hc]
      exact hmark.trans hletter
  | some isBlock =>
      cases isBlock with
      | false =>
          have hbang : c ≠ '!' := ne_of_isAlpha hc (by decide)
          have hslash : c ≠ '/' := ne_of_isAlpha hc (by decide)
          have hhash : c ≠ '#' := ne_of_isAlpha hc (by decide)
          exact .char fun _ _ => by
            simp [State.move, hbang, hslash, hhash, hc, Construct.openExpression]
      | true =>
          have hmark : Passes resolve .expressionOpen ['#'] [] .expressionOpenBlock :=
            .char fun _ _ => rfl
          have hletter : Passes resolve .expressionOpenBlock [c]
              [.beginStartExpression true, .appendExpressionName c.toLower] .expressionName :=
            .char fun _ _ => by simp [State.move, hc]
          exact hmark.trans hletter

/-- The name of a tag or an expression, with the mark in front of it. Its first letter is made small. -/
theorem Passes.alphaWord {s' : State} {later : Char → Bool} {mark : List Char} {opening : Event}
    (event : Char → Event)
    (hfirst : ∀ {c}, c.isAlpha = true →
      Passes resolve s (mark ++ [c]) [opening, event c.toLower] s')
    (hlater : ∀ c, later c = true → ∀ here rest,
      s'.move resolve here c rest = Move.advance s' [event c])
    (hname : isWord Char.isAlpha later name = true) :
    Passes resolve s (mark ++ name.toList)
      (opening :: (name.toList.modifyHead Char.toLower).map event) s' := by
  obtain ⟨c, cs, hcs, hc, hcs'⟩ := isWord_iff.mp hname
  have hrest : Passes resolve s' cs (cs.map event) s' := .chars event hlater hcs'
  rw [hcs]
  simpa using (hfirst hc).trans hrest

theorem passes_expressionName (resolve : Resolver) (isBlock? : Option Bool)
    (hname : isWord Char.isAlpha isExpressionNameChar name = true) :
    Passes resolve .expressionOpen (expressionMark isBlock? ++ name.toList)
      (Construct.openExpression isBlock? ::
        (name.toList.modifyHead Char.toLower).map .appendExpressionName) .expressionName := by
  refine .alphaWord _ (passes_expressionLetter resolve isBlock?) ?_ hname
  intro c hc _ _
  simp only [isExpressionNameChar, Bool.and_eq_true, Bool.not_eq_true', bne_iff_ne, ne_eq] at hc
  simp [State.move, hc]

/-- The pieces in which the lexer reports a text without references. -/
def pieces (s : String) : List String :=
  s.toList.map String.singleton

theorem join_pieces (s : String) : String.join (pieces s) = s := by
  rw [← String.toList_inj, String.toList_join, pieces, List.flatMap_map]
  simp

/-! ## Keys and values of expressions -/

/-- A word in either form. In quotes it is read by a state of its own, and the closing quote leads to the
state `closed`. -/
theorem Passes.wordLayout {first later : Char → Bool} (opening : Bool → Event) (event : Char → Event)
    (inside : Quote → State) {bare closed : State}
    (hopen : ∀ q here rest,
      s.move resolve here (Quote.char q) rest = Move.advance (inside q) [opening true])
    (hinside : ∀ q c, c ≠ Quote.char q → ∀ here rest,
      (inside q).move resolve here c rest = Move.advance (inside q) [event c])
    (hclose : ∀ q here rest,
      (inside q).move resolve here (Quote.char q) rest = Move.advance closed [])
    (hfirst : ∀ c, first c = true → ∀ here rest,
      s.move resolve here c rest = Move.advance bare [opening false, event c])
    (hlater : ∀ c, later c = true → ∀ here rest,
      bare.move resolve here c rest = Move.advance bare [event c])
    {w : WordLayout} (hw : w.WellFormed first later) :
    Passes resolve s w.source (opening w.isQuoted :: w.text.toList.map event)
      (if w.isQuoted then closed else bare) := by
  cases w with
  | bare text => exact .word [opening false] event hfirst hlater hw
  | quoted q text =>
      have hpasses := Passes.quoted (inside q) (p := fun _ => True) event (hopen q)
        (fun c hc _ => hinside q c hc) (hclose q) hw fun _ _ => trivial
      simpa [WordLayout.source, WordLayout.text, WordLayout.isQuoted] using hpasses

theorem passes_expressionKey (resolve : Resolver) {w : WordLayout}
    (hw : w.WellFormed isExpressionAttributeStart isExpressionAttributeChar) :
    Passes resolve .beforeExpressionAttributeName w.source
      (.beginExpressionAttribute w.isQuoted :: w.text.toList.map .appendExpressionAttributeName)
      (if w.isQuoted then .afterExpressionAttributeNameQuoted else .expressionAttributeName) := by
  refine .wordLayout .beginExpressionAttribute .appendExpressionAttributeName
    .expressionAttributeNameQuoted ?_ ?_ ?_ ?_ ?_ hw
  · rintro (_ | _) _ _ <;> rfl
  · intro q c hc _ _
    simp [State.move, hc]
  · intro q _ _
    simp [State.move]
  · intro c hc _ _
    simp only [isExpressionAttributeStart, isExpressionNameChar, isQuote, Bool.and_eq_true,
      Bool.not_eq_true', Bool.or_eq_false_iff, beq_eq_false_iff_ne, bne_iff_ne, ne_eq] at hc
    simp [State.move, hc]
  · intro c hc _ _
    simp only [isExpressionAttributeChar, isExpressionNameChar, Bool.and_eq_true,
      Bool.not_eq_true', bne_iff_ne, ne_eq] at hc
    simp [State.move, hc]

theorem passes_expressionValue (resolve : Resolver) {w : WordLayout}
    (hw : w.WellFormed isExpressionValueStart isExpressionNameChar) :
    Passes resolve .beforeExpressionAttributeValue w.source
      (.beginExpressionAttributeValue w.isQuoted ::
        w.text.toList.map .appendExpressionAttributeValue)
      (if w.isQuoted then .afterExpressionAttributeValueQuoted else .expressionAttributeValue) := by
  refine .wordLayout .beginExpressionAttributeValue .appendExpressionAttributeValue
    .expressionAttributeValueQuoted ?_ ?_ ?_ ?_ ?_ hw
  · rintro (_ | _) _ _ <;> rfl
  · intro q c hc _ _
    simp [State.move, hc]
  · intro q _ _
    simp [State.move]
  · intro c hc _ _
    simp only [isExpressionValueStart, isQuote, Bool.and_eq_true, Bool.not_eq_true',
      Bool.or_eq_false_iff, beq_eq_false_iff_ne, ne_eq] at hc
    simp [State.move, hc]
  · intro c hc _ _
    simp only [isExpressionNameChar, Bool.and_eq_true, Bool.not_eq_true', bne_iff_ne, ne_eq] at hc
    simp [State.move, hc]

/-! ## Attributes of expressions -/

/-- The states in which an expression may end, or go on behind white space. -/
inductive MayClose : ExpressionBorder → State → Prop
  | name : MayClose .free .expressionName
  | spaces : MayClose .free .beforeExpressionAttributeName
  | key : MayClose .free .expressionAttributeName
  | value : MayClose .free .expressionAttributeValue
  | quotedKey : MayClose .quotedKey .afterExpressionAttributeNameQuoted
  | quotedValue : MayClose .quotedValue .afterExpressionAttributeValueQuoted

variable {b : ExpressionBorder} {a : ExpressionAttributeLayout} {e : ExpressionLayout}

theorem MayClose.passes_brace (resolve : Resolver) (h : MayClose b s) :
    Passes resolve s ['}'] [] .possibleExpressionEnd := by
  cases h <;> exact .char fun _ _ => rfl

theorem MayClose.closes (h : MayClose b s) : Closes resolve s ['}', '}'] [] .finishExpression := by
  have hclose : Closes resolve .possibleExpressionEnd ['}'] [] .finishExpression :=
    .char fun _ _ => rfl
  exact (h.passes_brace resolve).closes hclose

theorem MayClose.passes_spaces (resolve : Resolver) (h : MayClose b s)
    (hw : w.all isSpace = true) (hne : w ≠ []) :
    Passes resolve s w [] .beforeExpressionAttributeName := by
  obtain ⟨c, w, rfl⟩ := List.exists_cons_of_ne_nil hne
  rw [List.all_cons, Bool.and_eq_true, List.all_eq_true] at hw
  have hfirst : Passes resolve s [c] [] .beforeExpressionAttributeName := by
    cases h <;> exact .char fun _ _ => by simp [State.move, hw.1]
  have hlater : Passes resolve .beforeExpressionAttributeName w []
      .beforeExpressionAttributeName :=
    .skip (fun c hc _ _ => by simp [State.move, hc]) hw.2
  exact hfirst.trans hlater

/-- The `=` of an attribute and its value, behind a key. -/
theorem passes_expressionEquals (resolve : Resolver) (quoted : Bool) {v : ExpressionValueLayout}
    (hv : v.WellFormed) :
    Passes resolve
      (if quoted then .afterExpressionAttributeNameQuoted else .expressionAttributeName) v.source
      (.beginExpressionAttributeValue v.word.isQuoted ::
        v.word.text.toList.map .appendExpressionAttributeValue)
      (if v.word.isQuoted then .afterExpressionAttributeValueQuoted
        else .expressionAttributeValue) := by
  have hequals : Passes resolve
      (if quoted then .afterExpressionAttributeNameQuoted else .expressionAttributeName) ['='] []
      .beforeExpressionAttributeValue := by
    cases quoted <;> exact .char fun _ _ => rfl
  have hspaces : Passes resolve .beforeExpressionAttributeValue v.spaces []
      .beforeExpressionAttributeValue :=
    .skip (fun c hc _ _ => by simp [State.move, hc]) (List.all_eq_true.mp hv.spaces)
  exact (hequals.trans hspaces).trans (passes_expressionValue resolve hv.word)

theorem WordLayout.exists_word {first later : Char → Bool} {w : WordLayout}
    (hw : w.WellFormed first later) :
    ∃ word : Construct.Word, word.quoted = w.isQuoted ∧ word.chars = w.text.toList := by
  refine ⟨⟨w.isQuoted, w.text.toList, ?_⟩, rfl, rfl⟩
  intro hbare
  cases w with
  | bare text => exact ne_nil_of_isWord hw
  | quoted q text => cases hbare

theorem mayClose_key (h : a.value? = none) : MayClose a.border
    (if a.key.isQuoted then .afterExpressionAttributeNameQuoted else .expressionAttributeName) := by
  rw [ExpressionAttributeLayout.border, h]
  cases a.key.isQuoted <;> constructor

theorem mayClose_value {v : ExpressionValueLayout} (h : a.value? = some v) : MayClose a.border
    (if v.word.isQuoted then .afterExpressionAttributeValueQuoted
      else .expressionAttributeValue) := by
  rw [ExpressionAttributeLayout.border, h]
  cases hword : v.word.isQuoted <;> simp only [hword] <;> constructor

/-- An attribute with the white space in front of it. -/
theorem MayClose.attribute (resolve : Resolver) (h : MayClose b s) (ha : a.WellFormed) :
    ∃ built : Construct.ExpressionAttribute, built.attribute = a.attribute ∧
      ∃ s', Passes resolve s a.source built.events s' ∧ MayClose a.border s' := by
  obtain ⟨hne, hseparator⟩ := ha.separator
  obtain ⟨word, hquoted, hchars⟩ := WordLayout.exists_word ha.key
  have hkey :=
    (h.passes_spaces resolve hseparator hne).trans (passes_expressionKey resolve ha.key)
  cases hvalue : a.value? with
  | none =>
      refine ⟨⟨word, none⟩, ?_, _, ?_, mayClose_key hvalue⟩
      · simp [Construct.ExpressionAttribute.attribute, ExpressionAttributeLayout.attribute, hquoted,
          hchars, hvalue]
      · simpa [Construct.ExpressionAttribute.events, ExpressionAttributeLayout.source, hquoted,
          hchars, hvalue] using hkey
  | some v =>
      have hv := ha.value v hvalue
      obtain ⟨word', hquoted', hchars'⟩ := WordLayout.exists_word hv.word
      have hwhole := hkey.trans (passes_expressionEquals resolve a.key.isQuoted hv)
      refine ⟨⟨word, some word'⟩, ?_, _, ?_, mayClose_value hvalue⟩
      · simp [Construct.ExpressionAttribute.attribute, ExpressionAttributeLayout.attribute, hquoted,
          hchars, hquoted', hchars', hvalue]
      · simpa [Construct.ExpressionAttribute.events, Construct.Word.valueEvents,
          ExpressionAttributeLayout.source, hquoted, hchars, hquoted', hchars', hvalue] using hwhole

/-- Attributes, each with the white space in front of it. -/
theorem MayClose.attributes (resolve : Resolver) (h : MayClose b s)
    {attributes : List ExpressionAttributeLayout} (hattributes : ∀ a ∈ attributes, a.WellFormed) :
    ∃ built : List Construct.ExpressionAttribute,
      built.map Construct.ExpressionAttribute.attribute =
        attributes.map ExpressionAttributeLayout.attribute ∧
      ∃ s', Passes resolve s (attributes.flatMap ExpressionAttributeLayout.source)
          (built.flatMap Construct.ExpressionAttribute.events) s' ∧
        MayClose ((attributes.getLast?.map (·.border)).getD b) s' := by
  induction attributes generalizing s b with
  | nil => exact ⟨[], rfl, s, .nil s, h⟩
  | cons a attributes ih =>
      obtain ⟨first, hfirst, s₁, hpasses, h₁⟩ := h.attribute resolve (hattributes a (by simp))
      obtain ⟨later, hlater, s₂, hpasses', h₂⟩ := ih h₁ fun a ha => hattributes a (by simp [ha])
      refine ⟨first :: later, by simp [hfirst, hlater], s₂, hpasses.trans hpasses', ?_⟩
      rw [List.getLast?_cons]
      cases hlast : attributes.getLast? <;> simpa [hlast] using h₂

/-! ## Expressions -/

/-- All that stands between the braces, in any layout. -/
theorem passes_expressionBody (resolve : Resolver) (h : e.WellFormed) :
    ∃ built : List Construct.ExpressionAttribute,
      built.map Construct.ExpressionAttribute.attribute =
        e.attributes.map ExpressionAttributeLayout.attribute ∧
      ∃ s', Passes resolve .expressionOpen e.body
          (.beginStartExpression e.isBlock ::
            (e.name.toList.modifyHead Char.toLower).map .appendExpressionName ++
              built.flatMap Construct.ExpressionAttribute.events) s' ∧
        MayClose e.border s' := by
  obtain ⟨built, hbuilt, s₁, hpasses, h₁⟩ := MayClose.name.attributes resolve h.attributes
  have hmark : expressionMark (some e.isBlock) = if e.isBlock then ['#'] else [] := by
    cases e.isBlock <;> rfl
  have hopen := passes_expressionName resolve (some e.isBlock) h.name
  rw [hmark] at hopen
  have hwhole := hopen.trans hpasses
  by_cases htrailer : e.trailer = []
  · refine ⟨built, hbuilt, s₁, ?_, ?_⟩
    · rw [ExpressionLayout.body, htrailer, List.append_nil]
      exact hwhole
    · rwa [ExpressionLayout.border, if_pos htrailer]
  · refine ⟨built, hbuilt, .beforeExpressionAttributeName, ?_, ?_⟩
    · simpa [ExpressionLayout.body, Construct.openExpression] using
        hwhole.trans (h₁.passes_spaces resolve h.trailer htrailer)
    · rw [ExpressionLayout.border, if_neg htrailer]
      exact .spaces

/-- **An expression in any layout.** -/
theorem spells_expressionLayout (resolve : Resolver) (h : e.WellFormed) :
    Spells resolve .expressionOpen (e.body ++ ['}', '}']) e.kind := by
  obtain ⟨built, hbuilt, s', hpasses, hclose⟩ := passes_expressionBody resolve h
  have hne : e.name.toList.modifyHead Char.toLower ≠ [] := by
    simpa using ne_nil_of_isWord h.name
  refine (hpasses.closes hclose.closes).spells fun stop =>
    ⟨.expression (some e.isBlock) _ hne built stop, ?_, ?_⟩
  · simp [Construct.kind, ExpressionLayout.kind, hbuilt]
  · simp [Construct.events, Construct.openExpression]

/-- The expression on a line. -/
theorem spells_startExpression (resolve : Resolver) {attributes : List ExpressionAttribute}
    {isBlock : Bool} (h : (TokenKind.startExpression name attributes isBlock).Printable) :
    Spells resolve .expressionOpen
      ((if isBlock then ['#'] else []) ++ name.toList ++
        (attributes.flatMap fun a => ' ' :: a.display.toList) ++ ['}', '}'])
      (.startExpression name attributes isBlock) := by
  obtain ⟨hname, hattributes⟩ := h
  have hwell := ExpressionLayout.wellFormed_printed isBlock (isWord_isAlpha hname) hattributes
  have hspells := spells_expressionLayout resolve hwell
  rwa [ExpressionLayout.body_printed, ExpressionLayout.kind_printed hattributes,
    modifyHead_toLower hname, String.ofList_toList] at hspells

theorem spells_endExpression (resolve : Resolver) (hname : isExpressionName name = true) :
    Spells resolve .expressionOpen ('/' :: name.toList ++ ['}', '}']) (.endExpression name) := by
  have hopen := passes_expressionName resolve none (isWord_isAlpha hname)
  rw [modifyHead_toLower hname] at hopen
  refine (hopen.closes MayClose.name.closes).spells fun stop =>
    ⟨.expression none name.toList (ne_nil_of_isWord hname) [] stop, ?_, ?_⟩
  · simp [Construct.kind]
  · simp [Construct.events, Construct.openExpression]

end TemplateMarkup.Lexer
