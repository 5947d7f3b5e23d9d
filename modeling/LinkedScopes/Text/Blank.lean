import LinkedScopes.Text.Runs

/-! Blank characters and the trimming of text. The class is the standard's
`White_Space` property, twenty-five code points in ten runs; the four ASCII blanks
of `Char.isWhitespace` are only part of it. -/
namespace LinkedScopes.Text

def blankRuns : Runs :=
  [(0x9, 0xD), (0x20, 0x20), (0x85, 0x85), (0xA0, 0xA0), (0x1680, 0x1680),
   (0x2000, 0x200A), (0x2028, 0x2029), (0x202F, 0x202F), (0x205F, 0x205F), (0x3000, 0x3000)]

def isBlank (c : Char) : Bool := blankRuns.has c

def trimBlanks (text : List Char) : List Char :=
  ((text.dropWhile isBlank).reverse.dropWhile isBlank).reverse

end LinkedScopes.Text
