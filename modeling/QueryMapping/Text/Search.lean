/-! Occurrence of one text in another. -/

namespace QueryMapping.Text

def occursIn (pattern : List Char) : List Char → Bool
  | [] => pattern.isEmpty
  | c :: cs => pattern.isPrefixOf (c :: cs) || occursIn pattern cs

end QueryMapping.Text
