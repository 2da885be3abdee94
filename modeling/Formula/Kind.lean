/-! The kinds of value an expression ranges over, nested by what may be done with their values. -/

namespace Formula

inductive Width
  | int
  | long
  deriving DecidableEq, Repr

inductive Numeric
  | whole (width : Width)
  | double
  deriving DecidableEq, Repr

inductive Ordered
  | string
  | instant
  | number (numeric : Numeric)
  deriving DecidableEq, Repr

inductive Kind
  | ordered (ordered : Ordered)
  | boolean
  deriving DecidableEq, Repr

namespace Kind

@[match_pattern] abbrev number (numeric : Numeric) : Kind := .ordered (.number numeric)
@[match_pattern] abbrev whole (width : Width) : Kind := .number (.whole width)
@[match_pattern] abbrev int : Kind := .whole .int
@[match_pattern] abbrev long : Kind := .whole .long
@[match_pattern] abbrev double : Kind := .number .double
@[match_pattern] abbrev string : Kind := .ordered .string
@[match_pattern] abbrev instant : Kind := .ordered .instant

def name : Kind → String
  | .int => "Int"
  | .long => "Long"
  | .double => "Double"
  | .string => "String"
  | .instant => "Instant"
  | .boolean => "Boolean"

end Kind

end Formula
