import Backtrack.Parser.Basic

/-!
# Building parsers

Wherever a parser is expected, a text or a byte string may stand for the literal and a function for
the rule; `Operand.toParser` decides.  Building may be refused, and the refusals are faults.
Alternation flattens on its left: adding an alternative to a choice extends that choice.
-/

namespace Backtrack

/-- What may stand where a parser is expected. -/
inductive Operand where
  | parser (p : Parser)
  | value (v : Value)
  | function (rule : Rule)
  /-- An object of the caller's, known by its written form. -/
  | other (written : String)

namespace Parser

/-- The literal of a source. -/
def literalOf (s : Source) : Except Fault Parser := do
  return literal (← s.items) s.output

/-- The literal of a text. -/
def word (t : Text) : Parser := literal (.ofText t) (.text t)

/-- The literal of a string over the bytes of its UTF-8 encoding; the output is the text. -/
def utf8 (s : String) : Parser :=
  literal (.ofBytes (s.toList.flatMap String.utf8EncodeChar)) (.text (.ofString s))

/-- One item that equals an item of a source.  The items are hashed, unless one is of a kind without
hashes. -/
def memberOf (s : Source) : Except Fault Parser := do
  let group ← s.items
  if group.obstacle? = some .writable then throw .writableHash
  return oneOf group

/-- One code point of a class. -/
def charOf (t : Text) : Parser := oneOf (.ofText t)

end Parser

namespace Operand

/-- The parser that an operand stands for. -/
def toParser : Operand → Except Fault Parser
  | parser p => .ok p
  | value (.text t) => Parser.literalOf (.value (.text t))
  | value (.bytes .fixed data) => Parser.literalOf (.value (.bytes .fixed data))
  | value v => .error (.notAParser v.written)
  | function r => .ok (.custom r)
  | other written => .error (.notAParser written)

end Operand

namespace Parser

/-- The choice among a list of alternatives, which must not be empty. -/
def choiceOf : List Parser → Except Fault Parser
  | [] => .error .emptyChoice
  | p :: ps => .ok (choice p ps)

/-- The choice among a list of operands. -/
def choiceAmong (members : List Operand) : Except Fault Parser := do
  choiceOf (← members.mapM Operand.toParser)

/-- The choice among separate arguments; a list or tuple that stands alone gives the members. -/
def choiceFrom : List Operand → Except Fault Parser
  | [.value (.list vs)] => choiceAmong (vs.map .value)
  | [.value (.tuple vs)] => choiceAmong (vs.map .value)
  | members => choiceAmong members

/-- The parser, or `other` where it declines. -/
def orElse : Parser → Parser → Parser
  | choice p ps, other => choice p (ps ++ [other])
  | p, other => choice p [other]

/-- Replaces the output by nothing. -/
def void (p : Parser) : Parser := map p fun _ => .ok .nothing

/-- Any number of matches. -/
def many (p : Parser) : Parser := times p (.atLeast 0)

/-- One match or more. -/
def many1 (p : Parser) : Parser := times p (.atLeast 1)

/-- Fails where the parser matches, and matches nothing elsewhere. -/
def forbid (p : Parser) (error : Span → Value → Except Fault Value) : Parser :=
  void (optional (reject p error))

/-- The parser, then the one that its output chooses, given as an operand. -/
def seqByOperand (p : Parser) (choose : Value → Except Fault Operand) : Parser :=
  seqBy p fun v => choose v >>= Operand.toParser

/-- The parser, if the one that its output chooses, given as an operand, matches after it. -/
def lookingAtByOperand (p : Parser) (choose : Value → Except Fault Operand) : Parser :=
  lookingAtBy p fun v => choose v >>= Operand.toParser

/-- The alternatives of a choice. -/
def members? : Parser → Option (List Parser)
  | choice p ps => some (p :: ps)
  | _ => none

/-- The bounds of a repetition. -/
def bounds? : Parser → Option Bounds
  | times _ b => some b
  | _ => none

end Parser

end Backtrack
