import Backtrack.Text.Printable

/-!
# Quoted texts and byte strings

The written form of a text stands between quotes: single ones, unless the text holds a single quote
and no double one.  The quote in use and the backslash are escaped, tab, line feed and carriage
return have short escapes, and any other unprintable code point is written in hexadecimal with two,
four or eight digits, the fewest that hold it.  A byte string is quoted in the same way after a `b`,
only printable ASCII standing for itself; a growable one escapes the single quote even where the
double quote is in use.
-/

namespace Backtrack

/-- The lowercase hexadecimal digits of `n`, padded with zeros to at least `width`. -/
def hexDigits (width n : Nat) : List Char :=
  let digits := Nat.toDigits 16 n
  List.replicate (width - digits.length) '0' ++ digits

/-- The quote for a text, given the code points it holds. -/
def quoteFor (codes : List Nat) : Char :=
  if codes.contains '\''.toNat && !codes.contains '"'.toNat then '"' else '\''

/-- The written form of a code where the given quote is escaped; `printable` tells whether the code
may stand for itself. -/
def escapedCode (quote : Char) (printable : Bool) (c : Nat) : List Char :=
  if c = quote.toNat ∨ c = '\\'.toNat then ['\\', Char.ofNat c]
  else if c = '\t'.toNat then ['\\', 't']
  else if c = '\n'.toNat then ['\\', 'n']
  else if c = '\r'.toNat then ['\\', 'r']
  else if printable then [Char.ofNat c]
  else if c < 0x100 then '\\' :: 'x' :: hexDigits 2 c
  else if c < 0x10000 then '\\' :: 'u' :: hexDigits 4 c
  else '\\' :: 'U' :: hexDigits 8 c

/-- A text between quotes. -/
def Text.quoted (t : Text) : String :=
  let quote := quoteFor (t.map Fin.val)
  String.ofList (quote :: t.flatMap (fun c => escapedCode quote c.isPrintable c.val) ++ [quote])

/-- The quote for a byte string. -/
def quoteForBytes (data : List UInt8) : Char := quoteFor (data.map UInt8.toNat)

/-- The written form of a byte where the given quote is escaped. -/
def escapedByte (quote : Char) (b : UInt8) : List Char :=
  escapedCode quote (0x20 ≤ b && b < 0x7f) b.toNat

/-- A byte string between quotes. -/
def quotedBytes (data : List UInt8) : String :=
  let quote := quoteForBytes data
  String.ofList ('b' :: quote :: data.flatMap (escapedByte quote) ++ [quote])

/-- A byte string between quotes, with every single quote escaped. -/
def quotedGrowableBytes (data : List UInt8) : String :=
  let quote := quoteForBytes data
  String.ofList ('b' :: quote :: data.flatMap (escapedByte '\'') ++ [quote])

end Backtrack
