import TemplateMarkup.Lexer.Move
import TemplateMarkup.Token.Basic

/-!
# How tokens open

A tag, a comment and an expression begin with an opening, behind which characters may stand that are
dropped (`Opener.Layout`). The opening ends where it is known what kind of token follows: at the first
letter of a name, or at the dashes of a comment (`TokenKind.Opening`). Whatever is dropped, the opening
begins with a `<` or with the two braces of an expression (`TokenKind.Opening.text_prefix`).
-/

namespace TemplateMarkup

/-- The characters with which a mark is set. -/
def Mark.text : Mark → List Char
  | tag => ['<']
  | expression => ['{', '{']

namespace Opener

/-- The mark that is set at the first character of the opening. -/
def mark : Opener → Mark
  | tag => .tag
  | endTag => .tag
  | expression => .expression
  | block => .expression
  | endExpression => .expression

/-- The characters that turn an opening into a longer one. -/
def marks : Opener → List Char
  | tag => ['!', '/']
  | endTag => []
  | expression => ['/', '#']
  | block => []
  | endExpression => []

/-- Whether a character is dropped behind the opening. -/
def drops (o : Opener) (c : Char) : Bool :=
  !c.isAlpha && !o.marks.contains c

/-- The opening as it may stand in a document, with dropped characters behind each part of it. -/
inductive Layout : Opener → List Char → Prop
  | tag : Layout .tag ['<']
  | expression : Layout .expression ['{', '{']
  | endTag {w : List Char} (h : Layout .tag w) : Layout .endTag (w ++ ['/'])
  | block {w : List Char} (h : Layout .expression w) : Layout .block (w ++ ['#'])
  | endExpression {w : List Char} (h : Layout .expression w) : Layout .endExpression (w ++ ['/'])
  | dropped {o : Opener} {w : List Char} {c : Char} (h : Layout o w) (hc : o.drops c = true) :
      Layout o (w ++ [c])

theorem Layout.text_prefix {o : Opener} {w : List Char} (h : o.Layout w) : o.mark.text <+: w := by
  induction h with
  | tag => exact List.prefix_rfl
  | expression => exact List.prefix_rfl
  | endTag _ ih => exact ih.trans (List.prefix_append _ _)
  | block _ ih => exact ih.trans (List.prefix_append _ _)
  | endExpression _ ih => exact ih.trans (List.prefix_append _ _)
  | dropped _ _ ih => exact ih.trans (List.prefix_append _ _)

end Opener

namespace TokenKind

/-- The opening of a token that has a name. -/
def opener? : TokenKind → Option Opener
  | chars _ => none
  | comment _ => none
  | startTag _ _ _ => some .tag
  | endTag _ => some .endTag
  | startExpression _ _ isBlock => some (if isBlock then .block else .expression)
  | endExpression _ => some .endExpression

/-- The mark that is set where the token begins. Nothing marks the beginning of a text run. -/
def mark? : TokenKind → Option Mark
  | chars _ => none
  | comment _ => some .tag
  | k => k.opener?.map Opener.mark

/-- A text up to where it is known that a token of the kind has begun. Between the `<!` of a comment and
its dashes anything may be dropped, also a dash at which the input was said to end. -/
inductive Opening : TokenKind → List Char → Prop
  | letter {k : TokenKind} {o : Opener} {w : List Char} {c : Char} (hk : k.opener? = some o)
      (hw : o.Layout w) (hc : c.isAlpha = true) : Opening k (w ++ [c])
  | comment {w : List Char} (hw : Opener.tag.Layout w) (dropped : List Char) (text : String) :
      Opening (.comment text) (w ++ '!' :: dropped ++ ['-', '-'])

/-- The first characters of an opening are those that are marked. -/
theorem Opening.text_prefix {k : TokenKind} {w : List Char} (h : k.Opening w) {m : Mark}
    (hm : k.mark? = some m) : m.text <+: w := by
  cases h with
  | letter hk hw hc =>
      have hmark : k.mark? = k.opener?.map Opener.mark := by
        cases k with
        | comment => cases hk
        | _ => rfl
      rw [hmark, hk] at hm
      obtain rfl := Option.some.inj hm
      exact hw.text_prefix.trans (List.prefix_append _ _)
  | comment hw dropped text =>
      obtain rfl := Option.some.inj hm
      exact (hw.text_prefix.trans (List.prefix_append _ _)).trans (List.prefix_append _ _)

end TokenKind

end TemplateMarkup
