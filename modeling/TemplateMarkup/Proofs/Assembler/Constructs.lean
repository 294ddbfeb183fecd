import TemplateMarkup.Proofs.Assembler.Targets
import TemplateMarkup.Proofs.Event.Construct

/-!
# The token of a construct

An assembler that holds nothing makes one token of the events of a construct (`receiveAll_events`):
the pieces of a text are joined, the attributes are in order, and what an end tag or an end expression
has no place for is gone.
-/

namespace TemplateMarkup

namespace Construct

/-- The attribute of a start tag, with the pieces of its value joined. -/
def TagAttribute.attribute (a : TagAttribute) : Attribute :=
  ⟨String.ofList a.name, [String.join a.pieces], [], a.quoted⟩

def ExpressionAttribute.attribute (a : ExpressionAttribute) : TemplateMarkup.ExpressionAttribute :=
  ⟨String.ofList a.name.chars, (a.value?.map fun w => String.ofList w.chars).getD "",
    a.name.quoted, a.value?.map Word.quoted⟩

/-- What the construct is as a token. -/
def kind : Construct → TokenKind
  | text pieces _ _ => .chars (String.join pieces)
  | comment pieces _ => .comment (String.join pieces)
  | tag ending name _ attributes selfClosing _ =>
      if ending then .endTag (String.ofList name)
      else .startTag (String.ofList name) (attributes.map TagAttribute.attribute) selfClosing
  | expression isBlock? name _ attributes _ =>
      match isBlock? with
      | none => .endExpression (String.ofList name)
      | some isBlock =>
          .startExpression (String.ofList name) (attributes.map ExpressionAttribute.attribute)
            isBlock

/-- Where the construct ends. -/
def stop : Construct → Position
  | text _ _ stop => stop
  | comment _ stop => stop
  | tag _ _ _ _ _ stop => stop
  | expression _ _ _ _ stop => stop

/-- The construct as a token that begins at `start`. -/
def token (track : Bool) (start : Position) (c : Construct) : Token :=
  ⟨c.kind, if track then some ⟨start, c.stop⟩ else none⟩

/-- One token for each construct. The first begins at `start`, and every other where the construct
before it stops. -/
def tokens (track : Bool) (start : Position) (cs : List Construct) : List Token :=
  List.zipWith (token track) (start :: cs.map stop) cs

@[simp] theorem tokens_nil (track : Bool) (start : Position) : tokens track start [] = [] := rfl

@[simp] theorem tokens_cons (track : Bool) (start : Position) (c : Construct)
    (cs : List Construct) :
    tokens track start (c :: cs) = c.token track start :: tokens track c.stop cs := rfl

theorem map_kind_tokens (track : Bool) (start : Position) (cs : List Construct) :
    (tokens track start cs).map Token.kind = cs.map kind := by
  induction cs generalizing start with
  | nil => rfl
  | cons c cs ih => simp [token, ih]

theorem tokens_untracked (start : Position) (cs : List Construct) :
    tokens false start cs = cs.map fun c => ⟨c.kind, none⟩ := by
  induction cs generalizing start with
  | nil => rfl
  | cons c cs ih => simp [token, ih]

theorem ExpressionAttribute.reset_notMem_events (a : ExpressionAttribute) : .reset ∉ a.events := by
  cases hvalue : a.value? <;> simp [events, Word.valueEvents, hvalue]

/-- No construct is broken off by a reset. -/
theorem reset_notMem_events (c : Construct) : .reset ∉ c.events := by
  cases c with
  | text pieces pieces_ne stop => simp [events]
  | comment pieces stop => simp [events]
  | tag ending name name_ne attributes selfClosing stop =>
      cases ending <;> cases selfClosing <;> simp [events, openTag, TagAttribute.events]
  | expression isBlock? name name_ne attributes stop =>
      cases isBlock? <;>
        simp [events, openExpression, ExpressionAttribute.reset_notMem_events]

end Construct

namespace Assembler

/-! ## Runs of events of one kind -/

section Runs

variable {α β : Type}

/-- A text grows by pieces. -/
theorem receiveAll_pieces (st : String → Assembler) (event : String → Event)
    (h : ∀ s piece, (st s).receive (event piece) = .ok (st (s ++ piece))) (s : String)
    (pieces : List String) :
    (st s).receiveAll (pieces.map event) = .ok (st (s ++ String.join pieces)) := by
  induction pieces generalizing s with
  | nil => simp [receiveAll, pure, Except.pure]
  | cons piece pieces ih =>
      rw [List.map_cons, receiveAll_cons_of_ok (h s piece), ih, String.join_cons,
        String.append_assoc]

/-- A text grows by characters. -/
theorem receiveAll_chars (st : String → Assembler) (event : Char → Event)
    (h : ∀ s c, (st s).receive (event c) = .ok (st (s.push c))) (s : String) (cs : List Char) :
    (st s).receiveAll (cs.map event) = .ok (st (s ++ String.ofList cs)) := by
  induction cs generalizing s with
  | nil => simp [receiveAll, pure, Except.pure]
  | cons c cs ih =>
      rw [List.map_cons, receiveAll_cons_of_ok (h s c), ih, String.ofList_cons,
        ← String.append_assoc, String.append_singleton]

/-- A list grows by the elements that groups of events stand for. -/
theorem receiveAll_groups (st : List β → Assembler) (events : α → List Event) (value : α → β)
    (h : ∀ done x, (st done).receiveAll (events x) = .ok (st (done ++ [value x])))
    (done : List β) (xs : List α) :
    (st done).receiveAll (xs.flatMap events) = .ok (st (done ++ xs.map value)) := by
  induction xs generalizing done with
  | nil => simp [receiveAll, pure, Except.pure]
  | cons x xs ih =>
      rw [List.flatMap_cons, receiveAll_append_of_ok (h done x), ih, List.map_cons,
        List.append_assoc, List.singleton_append]

end Runs

/-! ## Parts of a construct -/

/-- The assembler with this token and this attribute under construction. -/
def holding (a : Assembler) (k : TokenKind) (b? : Option OpenAttribute) : Assembler :=
  { a with current := some k, pending := b? }

variable {a : Assembler} {k k' : TokenKind}

/-- An attribute of a tag is pushed when its value is closed. -/
theorem receiveAll_tagAttribute (b : Construct.TagAttribute)
    (hk : k.pushAttribute b.attribute = .ok k') :
    (a.holding k none).receiveAll b.events = .ok (a.holding k' none) := by
  have hname : (a.holding k none).receiveAll
      (.beginAttribute :: b.name.map .appendAttributeName) =
        .ok (a.holding k (some ⟨String.ofList b.name, [], false⟩)) := by
    have hbegin : (a.holding k none).receive .beginAttribute = .ok (a.holding k (some {})) := rfl
    rw [receiveAll_cons_of_ok hbegin]
    exact receiveAll_chars (fun s => a.holding k (some ⟨s, [], false⟩)) _ (fun _ _ => rfl) ""
      b.name
  have hvalue : (a.holding k (some ⟨String.ofList b.name, [], false⟩)).receiveAll
      (.beginAttributeValue b.quoted :: b.pieces.map .appendAttributeValue) =
        .ok (a.holding k (some ⟨String.ofList b.name, [String.join b.pieces], b.quoted⟩)) := by
    rw [receiveAll_cons_of_ok rfl]
    exact receiveAll_pieces
      (fun s => a.holding k (some ⟨String.ofList b.name, [s], b.quoted⟩)) _ (fun _ _ => rfl) ""
      b.pieces
  rw [Construct.TagAttribute.events, List.append_assoc, receiveAll_append_of_ok hname,
    receiveAll_append_of_ok hvalue]
  have hclose : (a.holding k (some ⟨String.ofList b.name, [String.join b.pieces],
      b.quoted⟩)).receive .finishAttributeValue = .ok (a.holding k' none) := by
    show (k.pushAttribute b.attribute).map _ = _
    rw [hk]
    rfl
  rw [receiveAll_cons_of_ok hclose]
  rfl

/-- An attribute of an expression is there from its first event on. An end expression stays as it
is. -/
theorem receiveAll_expressionAttribute (grown : ExpressionAttribute → TokenKind)
    (b : Construct.ExpressionAttribute)
    (hnew : ∀ quoted, k.newExpressionAttribute quoted = .ok (grown ⟨"", "", quoted, none⟩))
    (hmodify : ∀ b f, (grown b).modifyExpressionAttribute f = .ok (grown (f b))) :
    (a.holding k none).receiveAll b.events = .ok (a.holding (grown b.attribute) none) := by
  have hedit : ∀ {e f b b'}, e.attributeEdit? = some f → f b = b' →
      (a.holding (grown b) none).receive e = .ok (a.holding (grown b') none) := by
    rintro e f b _ he rfl
    rw [receive_of_attributeEdit he]
    show ((grown b).modifyExpressionAttribute f).map _ = _
    rw [hmodify]
    rfl
  have hname : (a.holding k none).receiveAll
      (.beginExpressionAttribute b.name.quoted :: b.name.chars.map .appendExpressionAttributeName) =
        .ok (a.holding (grown ⟨String.ofList b.name.chars, "", b.name.quoted, none⟩) none) := by
    have hbegin : (a.holding k none).receive (.beginExpressionAttribute b.name.quoted) =
        .ok (a.holding (grown ⟨"", "", b.name.quoted, none⟩) none) := by
      show (k.newExpressionAttribute b.name.quoted).map _ = _
      rw [hnew]
      rfl
    rw [receiveAll_cons_of_ok hbegin]
    exact receiveAll_chars (fun s => a.holding (grown ⟨s, "", b.name.quoted, none⟩) none) _
      (fun _ _ => hedit rfl rfl) "" b.name.chars
  rw [Construct.ExpressionAttribute.events, receiveAll_append_of_ok hname]
  cases hvalue : b.value? with
  | none => simp [Construct.ExpressionAttribute.attribute, hvalue, receiveAll, pure, Except.pure]
  | some w =>
      have hbegin : (a.holding (grown ⟨String.ofList b.name.chars, "", b.name.quoted, none⟩)
          none).receive (.beginExpressionAttributeValue w.quoted) =
            .ok (a.holding (grown ⟨String.ofList b.name.chars, "", b.name.quoted,
              some w.quoted⟩) none) := hedit rfl rfl
      rw [Option.map_some, Option.getD_some, Construct.Word.valueEvents,
        receiveAll_cons_of_ok hbegin]
      rw [receiveAll_chars (fun s => a.holding (grown ⟨String.ofList b.name.chars, s,
        b.name.quoted, some w.quoted⟩) none) _ (fun _ _ => hedit rfl rfl) "" w.chars]
      simp [Construct.ExpressionAttribute.attribute, hvalue]

/-! ## Constructs -/

theorem receiveAll_startTag (name : List Char) (attributes : List Construct.TagAttribute)
    (selfClosing : Bool) :
    (a.holding (.startTag "" [] false) none).receiveAll
      (name.map .appendTagName ++ attributes.flatMap Construct.TagAttribute.events ++
        (if selfClosing then [.markSelfClosing] else [])) =
      .ok (a.holding (.startTag (String.ofList name)
        (attributes.map Construct.TagAttribute.attribute) selfClosing) none) := by
  have hname := receiveAll_chars (fun s => a.holding (.startTag s [] false) none) .appendTagName
    (fun _ _ => rfl) "" name
  have hattributes := receiveAll_groups
    (fun done => a.holding (.startTag (String.ofList name) done false) none)
    Construct.TagAttribute.events Construct.TagAttribute.attribute
    (fun _ b => receiveAll_tagAttribute b rfl) [] attributes
  rw [String.empty_append] at hname
  rw [List.append_assoc, receiveAll_append_of_ok hname, receiveAll_append_of_ok hattributes]
  cases selfClosing <;> rfl

theorem receiveAll_endTag (name : List Char) (attributes : List Construct.TagAttribute)
    (selfClosing : Bool) :
    (a.holding (.endTag "") none).receiveAll
      (name.map .appendTagName ++ attributes.flatMap Construct.TagAttribute.events ++
        (if selfClosing then [.markSelfClosing] else [])) =
      .ok (a.holding (.endTag (String.ofList name)) none) := by
  have hname := receiveAll_chars (fun s => a.holding (.endTag s) none) .appendTagName
    (fun _ _ => rfl) "" name
  have hattributes := receiveAll_groups (fun _ => a.holding (.endTag (String.ofList name)) none)
    Construct.TagAttribute.events Construct.TagAttribute.attribute
    (fun _ b => receiveAll_tagAttribute b rfl) [] attributes
  rw [String.empty_append] at hname
  rw [List.append_assoc, receiveAll_append_of_ok hname, receiveAll_append_of_ok hattributes]
  cases selfClosing <;> rfl

theorem receiveAll_startExpression (name : List Char)
    (attributes : List Construct.ExpressionAttribute) (isBlock : Bool) :
    (a.holding (.startExpression "" [] isBlock) none).receiveAll
      (name.map .appendExpressionName ++
        attributes.flatMap Construct.ExpressionAttribute.events) =
      .ok (a.holding (.startExpression (String.ofList name)
        (attributes.map Construct.ExpressionAttribute.attribute) isBlock) none) := by
  have hname := receiveAll_chars (fun s => a.holding (.startExpression s [] isBlock) none)
    .appendExpressionName (fun _ _ => rfl) "" name
  have hmodify : ∀ done b f, TokenKind.modifyExpressionAttribute
      (.startExpression (String.ofList name) (done ++ [b]) isBlock) f =
        .ok (.startExpression (String.ofList name) (done ++ [f b]) isBlock) := by
    intro done b f
    rw [TokenKind.modifyExpressionAttribute, modifyLast_concat]
  have hattributes := receiveAll_groups
    (fun done => a.holding (.startExpression (String.ofList name) done isBlock) none)
    Construct.ExpressionAttribute.events Construct.ExpressionAttribute.attribute
    (fun done b => receiveAll_expressionAttribute
      (fun b => .startExpression (String.ofList name) (done ++ [b]) isBlock) b (fun _ => rfl)
      (hmodify done)) [] attributes
  rw [String.empty_append] at hname
  rw [receiveAll_append_of_ok hname]
  exact hattributes

theorem receiveAll_endExpression (name : List Char)
    (attributes : List Construct.ExpressionAttribute) :
    (a.holding (.endExpression "") none).receiveAll
      (name.map .appendExpressionName ++
        attributes.flatMap Construct.ExpressionAttribute.events) =
      .ok (a.holding (.endExpression (String.ofList name)) none) := by
  have hname := receiveAll_chars (fun s => a.holding (.endExpression s) none)
    .appendExpressionName (fun _ _ => rfl) "" name
  have hattributes := receiveAll_groups
    (fun _ => a.holding (.endExpression (String.ofList name)) none)
    Construct.ExpressionAttribute.events Construct.ExpressionAttribute.attribute
    (fun _ b => receiveAll_expressionAttribute (fun _ => .endExpression (String.ofList name)) b
      (fun _ => rfl) (fun _ _ => rfl)) [] attributes
  rw [String.empty_append] at hname
  rw [receiveAll_append_of_ok hname]
  exact hattributes

theorem receive_of_begins {e : Event} (he : e.begins? = some k) (hpending : a.pending = none) :
    a.receive e = .ok (a.holding k none) := by
  cases e <;> cases he <;> simp [receive, begin, holding, hpending]

/-- What an assembler that holds nothing makes of a construct. -/
theorem receiveAll_events (hpending : a.pending = none) (c : Construct) :
    a.receiveAll c.events = .ok ((a.holding c.kind none).complete c.stop) := by
  have hstop : ∀ {e : Event} {a' : Assembler}, e.stop? = some c.stop →
      a'.receiveAll [e] = .ok (a'.complete c.stop) := by
    intro e a' he
    rw [receiveAll_cons_of_ok (receive_of_stop he)]
    rfl
  cases c with
  | text pieces pieces_ne stop =>
      rw [Construct.events, List.cons_append, receiveAll_cons_of_ok (receive_of_begins rfl hpending),
        receiveAll_append_of_ok (receiveAll_pieces (fun s => a.holding (.chars s) none) _
          (fun _ _ => rfl) "" pieces)]
      exact hstop rfl
  | comment pieces stop =>
      rw [Construct.events, List.cons_append, receiveAll_cons_of_ok (receive_of_begins rfl hpending),
        receiveAll_append_of_ok (receiveAll_pieces (fun s => a.holding (.comment s) none) _
          (fun _ _ => rfl) "" pieces)]
      exact hstop rfl
  | tag ending name name_ne attributes selfClosing stop =>
      rw [Construct.events, List.cons_append, List.cons_append, List.cons_append]
      cases ending with
      | true =>
          have hbegin : a.receive (Construct.openTag true) = .ok (a.holding (.endTag "") none) :=
            receive_of_begins rfl hpending
          rw [receiveAll_cons_of_ok hbegin,
            receiveAll_append_of_ok (receiveAll_endTag name attributes selfClosing)]
          exact hstop rfl
      | false =>
          have hbegin : a.receive (Construct.openTag false) =
              .ok (a.holding (.startTag "" [] false) none) := receive_of_begins rfl hpending
          rw [receiveAll_cons_of_ok hbegin,
            receiveAll_append_of_ok (receiveAll_startTag name attributes selfClosing)]
          exact hstop rfl
  | expression isBlock? name name_ne attributes stop =>
      rw [Construct.events, List.cons_append, List.cons_append]
      cases isBlock? with
      | none =>
          have hbegin : a.receive (Construct.openExpression none) =
              .ok (a.holding (.endExpression "") none) := receive_of_begins rfl hpending
          rw [receiveAll_cons_of_ok hbegin,
            receiveAll_append_of_ok (receiveAll_endExpression name attributes)]
          exact hstop rfl
      | some isBlock =>
          have hbegin : a.receive (Construct.openExpression (some isBlock)) =
              .ok (a.holding (.startExpression "" [] isBlock) none) :=
            receive_of_begins rfl hpending
          rw [receiveAll_cons_of_ok hbegin,
            receiveAll_append_of_ok (receiveAll_startExpression name attributes isBlock)]
          exact hstop rfl

/-- Each construct becomes its token, in order, and nothing is left under construction. -/
theorem receiveAll_flatMap_events (hpending : a.pending = none) (cs : List Construct) :
    ∃ a', a.receiveAll (cs.flatMap Construct.events) = .ok a' ∧
      a'.tokens.toList = a.tokens.toList ++ Construct.tokens a.trackLocations a.tokenStart cs ∧
      a'.pending = none ∧ (a.current = none → a'.current = none) := by
  induction cs generalizing a with
  | nil => exact ⟨a, rfl, by simp, hpending, id⟩
  | cons c cs ih =>
      have hfirst := receiveAll_events hpending c
      rw [complete_of_some (a := a.holding c.kind none) rfl c.stop] at hfirst
      obtain ⟨a', ha', htokens, hpending', hcurrent⟩ := ih (a := { a.holding c.kind none with
        tokens := a.tokens.push (c.token a.trackLocations a.tokenStart)
        current := none
        tokenStart := c.stop }) rfl
      refine ⟨a', ?_, ?_, hpending', fun _ => hcurrent rfl⟩
      · rw [List.flatMap_cons, receiveAll_append_of_ok hfirst]
        exact ha'
      · rw [htokens, Construct.tokens_cons]
        simp [holding]

/-- Each construct becomes a token, in order; without locations it is no more than the kind. -/
theorem receiveAll_constructs (hpending : a.pending = none) (cs : List Construct) :
    ∃ a', a.receiveAll (cs.flatMap Construct.events) = .ok a' ∧
      a'.tokens.toList.map Token.kind = a.tokens.toList.map Token.kind ++ cs.map Construct.kind ∧
      (a.trackLocations = false →
        a'.tokens.toList = a.tokens.toList ++ cs.map fun c => ⟨c.kind, none⟩) := by
  obtain ⟨a', ha', htokens, -⟩ := receiveAll_flatMap_events hpending cs
  refine ⟨a', ha', ?_, ?_⟩
  · rw [htokens, List.map_append, Construct.map_kind_tokens]
  · intro htrack
    rw [htokens, htrack, Construct.tokens_untracked]

end Assembler

end TemplateMarkup
