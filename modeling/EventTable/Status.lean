/-
  EventTable — status codes and their presentation.

  * `hexCode` writes a code in hexadecimal, with four digits at least;
  * `StatusStyle` is the configured description and colours of a code;
  * `StatusArgument` is what the argument of a status column asks for;
  * `parseStatusCode?` reads a code as it is configured.
-/
import EventTable.Text.Blank
import EventTable.Number.Numeral

namespace EventTable

open Text Number

/-- The code of what happened to a vehicle. -/
abbrev StatusCode := UInt32

/-- The code in hexadecimal, as in `0xF020`. -/
def hexCode (code : StatusCode) : String :=
  String.ofList ('0' :: 'x' :: paddedHex 4 code.toNat)

/-- Description and colours of a code. -/
structure StatusStyle where
  description : String := ""
  foreground : Option String := none
  background : Option String := none
  deriving DecidableEq, Repr

/-- Whether the style sets a colour. -/
def StatusStyle.hasColors (s : StatusStyle) : Bool :=
  s.foreground.any (!isBlank ·) || s.background.any (!isBlank ·)

/-- What the argument of a status column asks for. -/
structure StatusArgument where
  /-- Codes in decimal. -/
  decimal : Bool
  /-- The colours of the style are used. -/
  colored : Bool
  deriving DecidableEq, Repr

/-- A blank argument asks for colours, and so does one with `color` in it that
    does not start with `no`; one that starts with `dec` asks for decimal codes. -/
def StatusArgument.parse (argument : String) : StatusArgument :=
  let cs := lowerAscii (trimChars argument.toList)
  { decimal := startsWith "dec".toList cs
    colored := cs.isEmpty || (occursIn "color".toList cs && !startsWith "no".toList cs) }

/-- The code as the argument asks for it. -/
def StatusArgument.formatCode (a : StatusArgument) (code : StatusCode) : String :=
  if a.decimal then String.ofList (digits code.toNat) else hexCode code

/-- A code, trimmed: hexadecimal after `0x` or `0X`, else decimal. -/
def parseStatusCode? (text : String) : Option StatusCode :=
  let number := match trimChars text.toList with
    | '0' :: 'x' :: r | '0' :: 'X' :: r => hexNat? r
    | cs => nat? cs
  (number.filter (· < UInt32.size)).map UInt32.ofNat

end EventTable
