/-
  EventTable — locales and the number separators of their languages.

  * `Locale.language` is the part of the tag before the first underscore or
    hyphen, trimmed and in lower case;
  * `Locale.symbols` are a comma and points for the languages in
    `commaLanguages`, and a point and commas for all others.
-/
import EventTable.Number.Render

namespace EventTable

open Text Number

/-- A language tag such as `en_US`, as configured. -/
structure Locale where
  tag : String := "en"
  deriving DecidableEq, Repr

namespace Locale

/-- The languages that put a comma before the fraction digits and points
    between groups. -/
def commaLanguages : List String :=
  ["cs", "da", "de", "el", "es", "fi", "fr", "hu", "id", "it", "nb", "nl", "no", "pl", "pt",
    "ro", "ru", "sv", "tr", "uk"]

/-- The language of the tag. -/
def language (l : Locale) : String :=
  String.ofList (lowerAscii (trimChars (l.tag.toList.takeWhile fun c => c != '_' && c != '-')))

/-- The separators of the language. -/
def symbols (l : Locale) : Symbols :=
  if commaLanguages.contains l.language then ⟨',', '.'⟩ else {}

end Locale

end EventTable
