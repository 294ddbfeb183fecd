import TemplateMarkup.Reference.Lookup
import TemplateMarkup.Reference.Numeric

/-!
# Named references

The commonly used names, case-sensitive, and the resolver that knows them and every numeric
reference.
-/

namespace TemplateMarkup.Reference

/-- The known names and what they stand for. No name is listed twice. -/
def names : List (String × String) := [
  -- markup-significant
  ("amp", "&"), ("AMP", "&"), ("lt", "<"), ("LT", "<"), ("gt", ">"), ("GT", ">"), ("quot", "\""),
  ("QUOT", "\""), ("apos", "'"), ("nbsp", "\u00a0"),
  -- punctuation and symbols
  ("copy", "\u00a9"), ("COPY", "\u00a9"), ("reg", "\u00ae"), ("REG", "\u00ae"),
  ("trade", "\u2122"), ("mdash", "\u2014"), ("ndash", "\u2013"), ("hellip", "\u2026"),
  ("bull", "\u2022"), ("middot", "\u00b7"), ("sect", "\u00a7"), ("para", "\u00b6"),
  ("dagger", "\u2020"), ("Dagger", "\u2021"), ("lsquo", "\u2018"), ("rsquo", "\u2019"),
  ("ldquo", "\u201c"), ("rdquo", "\u201d"), ("laquo", "\u00ab"), ("raquo", "\u00bb"),
  ("iexcl", "\u00a1"), ("iquest", "\u00bf"), ("shy", "\u00ad"), ("ensp", "\u2002"),
  ("emsp", "\u2003"), ("thinsp", "\u2009"),
  -- block elements
  ("blk12", "\u2592"), ("blk14", "\u2591"), ("blk34", "\u2593"), ("block", "\u2588"),
  -- currency
  ("cent", "\u00a2"), ("pound", "\u00a3"), ("euro", "\u20ac"), ("yen", "\u00a5"),
  ("curren", "\u00a4"),
  -- math
  ("times", "\u00d7"), ("divide", "\u00f7"), ("plusmn", "\u00b1"), ("minus", "\u2212"),
  ("ne", "\u2260"), ("le", "\u2264"), ("ge", "\u2265"), ("leqq", "\u2266"), ("geqq", "\u2267"),
  ("nleqq", "\u2266\u0338"), ("ngeqq", "\u2267\u0338"), ("NotGreaterFullEqual", "\u2267\u0338"),
  ("infin", "\u221e"), ("sum", "\u2211"), ("prod", "\u220f"), ("radic", "\u221a"),
  ("asymp", "\u2248"), ("equiv", "\u2261"), ("deg", "\u00b0"), ("micro", "\u00b5"),
  ("frac12", "\u00bd"), ("frac14", "\u00bc"), ("frac34", "\u00be"), ("sup1", "\u00b9"),
  ("sup2", "\u00b2"), ("sup3", "\u00b3"),
  -- arrows
  ("larr", "\u2190"), ("rarr", "\u2192"), ("uarr", "\u2191"), ("darr", "\u2193"),
  ("harr", "\u2194"), ("lArr", "\u21d0"), ("rArr", "\u21d2"),
  -- greek
  ("alpha", "\u03b1"), ("beta", "\u03b2"), ("gamma", "\u03b3"), ("delta", "\u03b4"),
  ("epsilon", "\u03b5"), ("lambda", "\u03bb"), ("mu", "\u03bc"), ("pi", "\u03c0"),
  ("sigma", "\u03c3"), ("tau", "\u03c4"), ("phi", "\u03c6"), ("omega", "\u03c9"),
  ("Delta", "\u0394"), ("Sigma", "\u03a3"), ("Omega", "\u03a9"),
  -- accented letters
  ("Agrave", "\u00c0"), ("Aacute", "\u00c1"), ("Acirc", "\u00c2"), ("Atilde", "\u00c3"),
  ("Auml", "\u00c4"), ("Aring", "\u00c5"), ("AElig", "\u00c6"), ("agrave", "\u00e0"),
  ("aacute", "\u00e1"), ("acirc", "\u00e2"), ("atilde", "\u00e3"), ("auml", "\u00e4"),
  ("aring", "\u00e5"), ("aelig", "\u00e6"), ("Egrave", "\u00c8"), ("Eacute", "\u00c9"),
  ("Euml", "\u00cb"), ("egrave", "\u00e8"), ("eacute", "\u00e9"), ("ecirc", "\u00ea"),
  ("euml", "\u00eb"), ("Igrave", "\u00cc"), ("Iacute", "\u00cd"), ("igrave", "\u00ec"),
  ("iacute", "\u00ed"), ("iuml", "\u00ef"), ("Ograve", "\u00d2"), ("Oacute", "\u00d3"),
  ("Ouml", "\u00d6"), ("Oslash", "\u00d8"), ("ograve", "\u00f2"), ("oacute", "\u00f3"),
  ("ocirc", "\u00f4"), ("ouml", "\u00f6"), ("oslash", "\u00f8"), ("Ugrave", "\u00d9"),
  ("Uacute", "\u00da"), ("Uuml", "\u00dc"), ("ugrave", "\u00f9"), ("uacute", "\u00fa"),
  ("uuml", "\u00fc"), ("ntilde", "\u00f1"), ("Ntilde", "\u00d1"), ("ccedil", "\u00e7"),
  ("Ccedil", "\u00c7"), ("szlig", "\u00df"), ("yuml", "\u00ff")]

/-- What a name from the list stands for. -/
def named? (name : String) : Option String :=
  names.lookup name

/-- Resolves the names of the list, and `#` followed by the number of a character. -/
def standard : Resolver := fun name =>
  match name.toList with
  | '#' :: number => (numeric? number).map String.singleton
  | _ => named? name

end TemplateMarkup.Reference
