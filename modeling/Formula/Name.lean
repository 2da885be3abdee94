/-! Dotted names and their segments. -/

namespace Formula

/-- The segments of a name, of which there is at least one; a segment may be empty. -/
structure Name where
  first : String
  rest : List String
  deriving DecidableEq, Repr

namespace Name

def split : List Char → List Char × List (List Char)
  | [] => ([], [])
  | c :: chars =>
    let (first, rest) := split chars
    if c = '.' then ([], first :: rest) else (c :: first, rest)

def ofText (text : String) : Name :=
  let (first, rest) := split text.toList
  ⟨String.ofList first, rest.map String.ofList⟩

def segments (name : Name) : List String := name.first :: name.rest

def text (name : Name) : String := String.intercalate "." name.segments

end Name

end Formula
