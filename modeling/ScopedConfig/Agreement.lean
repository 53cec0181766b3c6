import ScopedConfig.Error

namespace ScopedConfig

inductive Agree {ε α β : Type} (errors : ε → ε → Prop) (values : α → β → Prop) :
    Except ε α → Except ε β → Prop where
  | error {left right : ε} (alike : errors left right) :
    Agree errors values (.error left) (.error right)
  | ok {left : α} {right : β} (alike : values left right) :
    Agree errors values (.ok left) (.ok right)

/-- What of one text stands for what of another: paths, lines, and the number that a text gives to
the place after its last line. -/
structure Correspondence where
  path : Text → Text → Prop
  line : Nat → Nat → Prop
  last : Nat → Nat → Prop

/-- Two errors of one kind. Names, tokens and quotes are the same in both; paths and lines of one
stand for those of the other. -/
inductive ParseError.Alike (same : Correspondence) : ParseError → ParseError → Prop where
  | strayClose {line line' : Nat} (lines : same.line line line') :
    Alike same (.strayClose line) (.strayClose line')
  | nameExpected {line line' : Nat} (lines : same.line line line') :
    Alike same (.nameExpected line) (.nameExpected line')
  | duplicateKey {path path' : Text} {line line' : Nat} (paths : same.path path path')
    (lines : same.line line line') :
    Alike same (.duplicateKey path line) (.duplicateKey path' line')
  | duplicateVariable {path path' : Text} {line line' first first' : Nat}
    (paths : same.path path path') (lines : same.line line line')
    (firsts : same.line first first') :
    Alike same (.duplicateVariable path line first) (.duplicateVariable path' line' first')
  | variableHoldsGroup {path path' : Text} {line line' : Nat} (paths : same.path path path')
    (lines : same.line line line') :
    Alike same (.variableHoldsGroup path line) (.variableHoldsGroup path' line')
  | unfinished {line line' : Nat} (lasts : same.last line line') :
    Alike same (.unfinished line) (.unfinished line')
  | unmatchedQuote {line line' : Nat} (quote : Char) (lines : same.line line line') :
    Alike same (.unmatchedQuote quote line) (.unmatchedQuote quote line')
  | unrecognizedToken {line line' : Nat} (token : Text) (lines : same.line line line') :
    Alike same (.unrecognizedToken token line) (.unrecognizedToken token line')
  | unknownVariable {path path' : Text} {line line' : Nat} (name : Text)
    (paths : same.path path path') (lines : same.line line line') :
    Alike same (.unknownVariable name path line) (.unknownVariable name path' line')

end ScopedConfig
