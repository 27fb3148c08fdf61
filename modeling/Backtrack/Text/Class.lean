import Backtrack.Text

/-!
# Character classes

The classes that lexical rules are made of, each in ascending order.  All of them lie within ASCII.
`Text.Class.codes` gives the byte values of a class, for grammars over byte strings.
-/

namespace Backtrack.Text.Class

open CodePoint (interval ofChar)

/-- Tab, line feed, form feed, carriage return and space. -/
def whitespace : Text := ofChars ['\t', '\n', '\x0c', '\r', ' ']

def binary : Text := interval '0' '1'

def octal : Text := interval '0' '7'

def decimal : Text := interval '0' '9'

def hexadecimal : Text := decimal ++ interval 'A' 'F' ++ interval 'a' 'f'

def lowercase : Text := interval 'a' 'z'

def uppercase : Text := interval 'A' 'Z'

def alphabetic : Text := uppercase ++ lowercase

def alphanumeric : Text := decimal ++ alphabetic

/-- What an identifier may start with: a letter or an underscore. -/
def identifierStart : Text := uppercase ++ [ofChar '_'] ++ lowercase

/-- What an identifier may go on with: a letter, a digit or an underscore. -/
def identifierContinue : Text := decimal ++ identifierStart

/-- The byte values of the members of a class. -/
def codes (t : Text) : List UInt8 := t.map fun c => c.val.toUInt8

end Backtrack.Text.Class
