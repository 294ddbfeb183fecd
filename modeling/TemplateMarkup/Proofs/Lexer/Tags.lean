import TemplateMarkup.Proofs.Lexer.Spelling
import TemplateMarkup.Proofs.Token.Layout

/-!
# Reading tags

Between two attributes of a tag the lexer is in one of a few states, and in some of them it still owes
the events of the last attribute, which the next character brings (`AttributeBorder`). Separators lead
from one such state to another, so a start tag is read in every layout, as the events of one construct
(`spells_layout`). What is written on a line is one of the layouts (`spells_startTag`).
-/

namespace TemplateMarkup

namespace Lexer

variable {resolve : Resolver} {s : State} {c : Char} {owed : List Event} {b : Border} {mark : Bool}
  {name : String} {separator trailer : List Char}

/-! ## Between two attributes -/

/-- The states between two attributes, each with its border, with whether a `/` stands directly in
front, and with the events that the last attribute still owes. -/
inductive AttributeBorder : Border → Bool → State → List Event → Prop
  | tagName : AttributeBorder .name false .tagName []
  | named : AttributeBorder .name false .attributeName Move.noValue
  | unquoted : AttributeBorder .bareValue false .attributeValueUnquoted [.finishAttributeValue]
  | quoted : AttributeBorder .free false .afterAttributeValueQuoted []
  | before : AttributeBorder .free false .beforeAttributeName []
  | after : AttributeBorder .free false .afterAttributeName Move.noValue
  | slash : AttributeBorder .free true .selfClosingStartTag []

/-- White space, which pays what is owed unless a `=` may still follow. -/
theorem AttributeBorder.passes_space (resolve : Resolver) (h : AttributeBorder b mark s owed)
    (hspace : isSpace c = true) :
    ∃ s' paid owed', Passes resolve s [c] paid s' ∧ AttributeBorder .free false s' owed' ∧
      paid ++ owed' = owed := by
  have hend : c ≠ '>' := by
    rintro rfl
    cases hspace
  have hbefore : Passes resolve .beforeAttributeName [c] [] .beforeAttributeName :=
    .char fun _ _ => by simp [State.move, hspace]
  cases h with
  | tagName =>
      have hname : Passes resolve .tagName [c] [] .beforeAttributeName :=
        .char fun _ _ => by simp [State.move, hspace]
      exact ⟨_, _, _, hname, .before, rfl⟩
  | named =>
      have hname : Passes resolve .attributeName [c] [] .afterAttributeName :=
        .char fun _ _ => by simp [State.move, hspace]
      exact ⟨_, _, _, hname, .after, rfl⟩
  | unquoted =>
      have hvalue : Passes resolve .attributeValueUnquoted [c] [.finishAttributeValue]
          .beforeAttributeName :=
        .char fun _ _ => by simp [State.move, hspace]
      exact ⟨_, _, _, hvalue, .before, rfl⟩
  | quoted =>
      have hquoted : Passes resolve .afterAttributeValueQuoted [c] [] .beforeAttributeName :=
        .char fun _ _ => by simp [State.move, hspace]
      exact ⟨_, _, _, hquoted, .before, rfl⟩
  | before => exact ⟨_, _, _, hbefore, .before, rfl⟩
  | after =>
      have hafter : Passes resolve .afterAttributeName [c] [] .afterAttributeName :=
        .char fun _ _ => by simp [State.move, hspace]
      exact ⟨_, _, _, hafter, .after, rfl⟩
  | slash =>
      have hagain : Passes resolve .selfClosingStartTag [c] [] .beforeAttributeName :=
        .handOn (fun _ _ => by simp [State.move, hend]) hbefore
      exact ⟨_, _, _, hagain, .before, rfl⟩

/-- A `/` pays what is owed. In a bare value it would be a character of the value. -/
theorem AttributeBorder.passes_slash (resolve : Resolver) (h : AttributeBorder b mark s owed)
    (hbare : b ≠ .bareValue) : Passes resolve s ['/'] owed .selfClosingStartTag := by
  cases h with
  | unquoted => exact absurd rfl hbare
  | slash => exact .handOn (fun _ _ => rfl) (.char fun _ _ => rfl)
  | _ => exact .char fun _ _ => rfl

/-- One separator. -/
theorem AttributeBorder.passes_separator (resolve : Resolver) (h : AttributeBorder b mark s owed)
    (hc : isSeparator c = true) (hbare : b = .bareValue → isSpace c = true) :
    ∃ s' paid owed', Passes resolve s [c] paid s' ∧ AttributeBorder .free (c == '/') s' owed' ∧
      paid ++ owed' = owed := by
  by_cases hslash : c = '/'
  · subst hslash
    have hb : b ≠ .bareValue := by
      intro hb
      cases hbare hb
    exact ⟨_, owed, [], h.passes_slash resolve hb, .slash, List.append_nil owed⟩
  · rw [beq_false_of_ne hslash]
    exact h.passes_space resolve (by simpa [isSeparator, hslash] using hc)

/-- Any number of separators. The last of them shows whether a `/` stands directly in front. -/
theorem AttributeBorder.passes_more (resolve : Resolver) (h : AttributeBorder .free mark s owed)
    (hseparator : ∀ c ∈ separator, isSeparator c = true) :
    ∃ s' paid owed', Passes resolve s separator paid s' ∧
      AttributeBorder .free ((separator.getLast?.map (· == '/')).getD mark) s' owed' ∧
        paid ++ owed' = owed := by
  induction separator using List.reverseRecOn with
  | nil => exact ⟨s, [], owed, .nil s, h, rfl⟩
  | append_singleton separator c ih =>
      obtain ⟨s₁, paid, owed₁, hfirst, h₁, rfl⟩ := ih fun d hd => hseparator d (by simp [hd])
      have hc : isSeparator c = true := hseparator c (by simp)
      obtain ⟨s₂, paid', owed₂, hlast, h₂, rfl⟩ := h₁.passes_separator resolve hc (by simp)
      refine ⟨s₂, paid ++ paid', owed₂, hfirst.trans hlast, ?_, by simp⟩
      simpa using h₂

/-- The separators behind a border. -/
theorem AttributeBorder.passes_separators (resolve : Resolver) (h : AttributeBorder b mark s owed)
    (hseparator : ∀ d ∈ c :: separator, isSeparator d = true)
    (hbare : b = .bareValue → isSpace c = true) :
    ∃ s' paid owed', Passes resolve s (c :: separator) paid s' ∧
      AttributeBorder .free ((c :: separator).getLast? == some '/') s' owed' ∧
        paid ++ owed' = owed := by
  rw [List.forall_mem_cons] at hseparator
  obtain ⟨s₁, paid, owed₁, hfirst, h₁, rfl⟩ := h.passes_separator resolve hseparator.1 hbare
  obtain ⟨s₂, paid', owed₂, hlater, h₂, rfl⟩ := h₁.passes_more resolve hseparator.2
  have hmark : (separator.getLast?.map (· == '/')).getD (c == '/') =
      ((c :: separator).getLast? == some '/') := by
    rw [List.getLast?_cons]
    cases separator.getLast? <;> simp
  rw [hmark] at h₂
  exact ⟨s₂, paid ++ paid', owed₂, hfirst.trans hlater, h₂, by simp⟩

/-- What parts an attribute from what is in front of it. -/
theorem AttributeBorder.passes_parts (resolve : Resolver) (h : AttributeBorder b mark s owed)
    (hparts : b.Parts separator) :
    ∃ mark' s' paid owed', Passes resolve s separator paid s' ∧
      AttributeBorder .free mark' s' owed' ∧ paid ++ owed' = owed := by
  obtain ⟨hseparator, hborder⟩ := hparts
  rw [List.all_eq_true] at hseparator
  cases separator with
  | nil =>
      cases b with
      | name => exact absurd rfl hborder
      | bareValue => cases hborder
      | free => exact ⟨mark, s, [], owed, .nil s, h, rfl⟩
  | cons c separator =>
      have hbare : b = .bareValue → isSpace c = true := by
        rintro rfl
        exact hborder
      exact ⟨_, h.passes_separators resolve hseparator hbare⟩

/-- The name of an attribute, where one may begin. -/
theorem AttributeBorder.passes_name (h : AttributeBorder .free mark s owed)
    (hname : isWord isAttributeNameChar isAttributeNameChar name = true) :
    Passes resolve s name.toList
      (owed ++ .beginAttribute :: name.toList.map .appendAttributeName) .attributeName := by
  have hchar : ∀ {c}, isAttributeNameChar c = true →
      isSpace c = false ∧ c ≠ '/' ∧ c ≠ '>' ∧ c ≠ '=' := by
    intro c hc
    simpa [isAttributeNameChar, isTagNameChar, and_assoc] using hc
  have hlater : ∀ c, isAttributeNameChar c = true → ∀ here rest,
      State.move resolve .attributeName here c rest =
        Move.advance .attributeName [.appendAttributeName c] := by
    intro c hc _ _
    simp [State.move, hchar hc]
  have hbefore : Passes resolve .beforeAttributeName name.toList
      ([.beginAttribute] ++ name.toList.map .appendAttributeName) .attributeName := by
    refine .word [.beginAttribute] _ ?_ hlater hname
    intro c hc _ _
    simp [State.move, hchar hc]
  obtain ⟨c, cs, hcs, hc, -⟩ := isWord_iff.mp hname
  cases h with
  | before => exact hbefore
  | after =>
      refine .word (Move.noValue ++ [.beginAttribute]) _ ?_ hlater hname
      intro c hc _ _
      simp [State.move, hchar hc]
  | quoted =>
      rw [hcs] at hbefore ⊢
      exact .handOn (fun _ _ => by simp [State.move, hchar hc]) hbefore
  | slash =>
      rw [hcs] at hbefore ⊢
      exact .handOn (fun _ _ => by simp [State.move, hchar hc]) hbefore

/-- The name of the next attribute, with the separator in front of it. -/
theorem AttributeBorder.passes_attributeName (h : AttributeBorder b mark s owed)
    (hparts : b.Parts separator)
    (hname : isWord isAttributeNameChar isAttributeNameChar name = true) :
    Passes resolve s (separator ++ name.toList)
      (owed ++ .beginAttribute :: name.toList.map .appendAttributeName) .attributeName := by
  obtain ⟨mark', s', paid, owed', hpasses, hstart, rfl⟩ := h.passes_parts resolve hparts
  simpa using hpasses.trans (hstart.passes_name hname)

/-- The `>` of a tag. -/
theorem AttributeBorder.closes (resolve : Resolver) (h : AttributeBorder b mark s owed) :
    Closes resolve s ['>'] (owed ++ if mark then [Event.markSelfClosing] else []) .finishTag := by
  cases h <;> exact .char fun _ _ => rfl

/-- The end of a tag, with what stands in front of it. -/
theorem AttributeBorder.closes_trailer (h : AttributeBorder b false s owed)
    (htrails : b.Trails trailer) :
    Closes resolve s (trailer ++ ['>'])
      (owed ++ if trailer.getLast? == some '/' then [Event.markSelfClosing] else []) .finishTag := by
  obtain ⟨hseparator, hborder⟩ := htrails
  rw [List.all_eq_true] at hseparator
  cases trailer with
  | nil => exact h.closes resolve
  | cons c trailer =>
      have hbare : b = .bareValue → isSpace c = true := by
        intro hb
        simpa using hborder hb
      obtain ⟨s', paid, owed', hpasses, h', rfl⟩ := h.passes_separators resolve hseparator hbare
      have hcloses := hpasses.closes (h'.closes resolve)
      simpa using hcloses

/-! ## Attributes -/

/-- The `=` of an attribute, with white space around it. -/
theorem passes_equals (resolve : Resolver) {before after : List Char}
    (h : (before ++ after).all isSpace = true) :
    Passes resolve .attributeName (before ++ '=' :: after) [] .beforeAttributeValue := by
  rw [List.all_eq_true] at h
  have hbefore : ∀ c ∈ before, isSpace c = true := fun c hc => h c (by simp [hc])
  have hafter : Passes resolve .beforeAttributeValue after [] .beforeAttributeValue :=
    .skip (fun c hc _ _ => by simp [State.move, hc]) fun c hc => h c (by simp [hc])
  cases before with
  | nil =>
      have hequals : Passes resolve .attributeName ['='] [] .beforeAttributeValue :=
        .char fun _ _ => rfl
      exact hequals.trans hafter
  | cons c before =>
      rw [List.forall_mem_cons] at hbefore
      have hfirst : Passes resolve .attributeName [c] [] .afterAttributeName :=
        .char fun _ _ => by simp [State.move, hbefore.1]
      have hspaces : Passes resolve .afterAttributeName before [] .afterAttributeName :=
        .skip (fun c hc _ _ => by simp [State.move, hc]) hbefore.2
      have hequals : Passes resolve .afterAttributeName ['='] [] .beforeAttributeValue :=
        .char fun _ _ => rfl
      simpa using hfirst.trans (hspaces.trans (hequals.trans hafter))

/-- A bare value that is not empty. -/
theorem passes_bareValue {v : String} (hv : isWord isBareValueStart isBareValueChar v = true) :
    Passes resolve .beforeAttributeValue v.toList
      (.beginAttributeValue false :: (pieces v).map .appendAttributeValue)
      .attributeValueUnquoted := by
  rw [pieces, List.map_map]
  refine .word [.beginAttributeValue false] _ ?_ ?_ hv
  · intro c hc _ _
    simp only [isBareValueStart, isBareValueChar, isQuote, Bool.and_eq_true, Bool.not_eq_true',
      Bool.or_eq_false_iff, beq_eq_false_iff_ne, bne_iff_ne, ne_eq] at hc
    simp [State.move, hc]
  · intro c hc _ _
    simp only [isBareValueChar, Bool.and_eq_true, Bool.not_eq_true', bne_iff_ne, ne_eq] at hc
    simp [State.move, hc]

theorem passes_quotedValue {q : Quote} {v : String} (hquote : q.char ∉ v.toList)
    (hamp : '&' ∉ v.toList) :
    Passes resolve .beforeAttributeValue (q.char :: v.toList ++ [q.char])
      (.beginAttributeValue true :: (pieces v).map .appendAttributeValue ++
        [Event.finishAttributeValue])
      .afterAttributeValueQuoted := by
  rw [pieces, List.map_map]
  show Passes resolve .beforeAttributeValue _ ([Event.beginAttributeValue true] ++ _ ++ _) _
  refine .quoted (.attributeValueQuoted q) (p := (· ≠ '&')) _ ?_ ?_ ?_ hquote
    fun c hc h => hamp (h ▸ hc)
  · cases q <;> exact fun _ _ => rfl
  · intro c hc hc' _ _
    simp [State.move, hc, hc']
  · intro _ _
    simp [State.move]

/-- The value of an attribute, as far as it is there. -/
theorem passes_value (resolve : Resolver) {v : ValueLayout} (hv : v.WellFormed) :
    ∃ s' es owed', Passes resolve .attributeName v.source es s' ∧
      AttributeBorder v.border false s' owed' ∧ es ++ owed' = .beginAttributeValue v.isQuoted ::
        (pieces v.value).map .appendAttributeValue ++ [Event.finishAttributeValue] := by
  cases v with
  | absent => exact ⟨_, _, _, .nil _, .named, rfl⟩
  | bare before after value =>
      obtain ⟨hspace, hvalue⟩ := hv
      exact ⟨_, _, _, (passes_equals resolve hspace).trans (passes_bareValue hvalue), .unquoted, rfl⟩
  | quoted before after quote value =>
      obtain ⟨hspace, hquote, hamp⟩ := hv
      have hpasses := (passes_equals resolve hspace).trans (passes_quotedValue hquote hamp)
      refine ⟨_, _, _, ?_, .quoted, List.append_nil _⟩
      simpa [ValueLayout.source, ValueLayout.isQuoted, ValueLayout.value] using hpasses

/-- An attribute with the separator in front of it. -/
theorem AttributeBorder.passes_attribute (resolve : Resolver) (h : AttributeBorder b mark s owed)
    {a : AttributeLayout} (ha : a.WellFormed b) :
    ∃ b : Construct.TagAttribute, b.attribute = a.attribute ∧ ∃ s' es owed',
      Passes resolve s a.source es s' ∧ AttributeBorder a.value.border false s' owed' ∧
        es ++ owed' = owed ++ b.events := by
  obtain ⟨hseparator, hname, hvalue⟩ := ha
  obtain ⟨s', es, owed', hpasses, hend, hes⟩ := passes_value resolve hvalue
  refine ⟨⟨a.name.toList, ne_nil_of_isWord hname, a.value.isQuoted, pieces a.value.value⟩, ?_,
    s', _, owed', (h.passes_attributeName hseparator hname).trans hpasses, hend, ?_⟩
  · simp [Construct.TagAttribute.attribute, AttributeLayout.attribute, join_pieces]
  · rw [List.append_assoc, hes]
    simp [Construct.TagAttribute.events]

/-- All that stands between a border and the end of the tag. -/
theorem AttributeBorder.closes_attributes (resolve : Resolver) {attributes : List AttributeLayout}
    (h : AttributeBorder b false s owed) (hattributes : b.Precedes attributes trailer) :
    ∃ bs : List Construct.TagAttribute,
      bs.map Construct.TagAttribute.attribute = attributes.map AttributeLayout.attribute ∧
        Closes resolve s (attributes.flatMap AttributeLayout.source ++ trailer ++ ['>'])
          (owed ++ bs.flatMap Construct.TagAttribute.events ++
            if trailer.getLast? == some '/' then [Event.markSelfClosing] else []) .finishTag := by
  induction attributes generalizing b s owed with
  | nil => exact ⟨[], rfl, by simpa using h.closes_trailer hattributes⟩
  | cons a attributes ih =>
      obtain ⟨ha, hlater⟩ := hattributes
      obtain ⟨b, hb, s₁, es, owed₁, hpasses, hend, hes⟩ := h.passes_attribute resolve ha
      obtain ⟨bs, hbs, hcloses⟩ := ih hend hlater
      refine ⟨b :: bs, by simp [hb, hbs], ?_⟩
      have hevents : es ++ (owed₁ ++ bs.flatMap Construct.TagAttribute.events ++
          if trailer.getLast? == some '/' then [Event.markSelfClosing] else []) =
          owed ++ (b :: bs).flatMap Construct.TagAttribute.events ++
            if trailer.getLast? == some '/' then [Event.markSelfClosing] else [] := by
        rw [List.append_assoc owed₁, ← List.append_assoc es, hes, List.flatMap_cons]
        simp only [List.append_assoc]
      have hwhole := hpasses.closes hcloses
      rw [hevents] at hwhole
      simpa using hwhole

/-! ## Tags -/

theorem passes_tagName (resolve : Resolver) (ending : Bool)
    (hname : isWord Char.isAlpha isTagNameChar name = true) :
    Passes resolve .tagOpen (tagMark ending ++ name.toList)
      (Construct.openTag ending :: (name.toList.modifyHead Char.toLower).map .appendTagName)
      .tagName := by
  refine .alphaWord _ (passes_tagLetter resolve ending) ?_ hname
  intro c hc _ _
  simp only [isTagNameChar, Bool.and_eq_true, Bool.not_eq_true', bne_iff_ne, ne_eq] at hc
  simp [State.move, hc]

/-- **A start tag in any layout.** -/
theorem spells_layout (resolve : Resolver) {t : TagLayout} (h : t.WellFormed) :
    Spells resolve .tagOpen t.body t.kind := by
  obtain ⟨hname, hattributes⟩ := h
  obtain ⟨bs, hbs, hcloses⟩ := AttributeBorder.tagName.closes_attributes resolve hattributes
  have hne : t.name.toList.modifyHead Char.toLower ≠ [] := by
    simpa using ne_nil_of_isWord hname
  have hwhole := (passes_tagName resolve false hname).closes hcloses
  have hbody : tagMark false ++ t.name.toList ++
      (t.attributes.flatMap AttributeLayout.source ++ t.trailer ++ ['>']) = t.body := by
    simp [TagLayout.body, tagMark]
  rw [hbody] at hwhole
  refine hwhole.spells fun stop => ⟨.tag false _ hne bs t.selfClosing stop, ?_, ?_⟩
  · simp [Construct.kind, TagLayout.kind, hbs]
  · simp [Construct.events, Construct.openTag, TagLayout.selfClosing]

theorem spells_endTag (resolve : Resolver) (hname : isTagName name = true) :
    Spells resolve .tagOpen ('/' :: name.toList ++ ['>']) (.endTag name) := by
  have hopen := passes_tagName resolve true (isWord_isAlpha hname)
  rw [modifyHead_toLower hname] at hopen
  refine (hopen.closes (AttributeBorder.tagName.closes resolve)).spells fun stop =>
    ⟨.tag true name.toList (ne_nil_of_isWord hname) [] false stop, ?_, ?_⟩
  · simp [Construct.kind]
  · simp [Construct.events]

/-- The tag on a line. -/
theorem spells_startTag (resolve : Resolver) {attributes : List Attribute} {selfClosing : Bool}
    (h : (TokenKind.startTag name attributes selfClosing).Printable) :
    Spells resolve .tagOpen
      (name.toList ++ (attributes.flatMap fun a => ' ' :: a.display.toList) ++
        if selfClosing then [' ', '/', '>'] else ['>'])
      (.startTag name attributes selfClosing) := by
  obtain ⟨hname, hattributes⟩ := h
  have hwell := TagLayout.wellFormed_printed selfClosing (isWord_isAlpha hname) hattributes
  have hspells := spells_layout resolve hwell
  rw [TagLayout.body_printed, TagLayout.kind_printed hattributes, modifyHead_toLower hname,
    String.ofList_toList] at hspells
  exact hspells

end Lexer

end TemplateMarkup
