namespace SegmentClient.Text

/-- The characters with the Unicode property White_Space, as ranges from a first to a last one. -/
def blankRanges : List (Char × Char) :=
  [('\u0009', '\u000d'), ('\u0020', '\u0020'), ('\u0085', '\u0085'), ('\u00a0', '\u00a0'),
    ('\u1680', '\u1680'), ('\u2000', '\u200a'), ('\u2028', '\u2029'), ('\u202f', '\u202f'),
    ('\u205f', '\u205f'), ('\u3000', '\u3000')]

def isBlank (c : Char) : Bool :=
  blankRanges.any fun (first, last) => decide (first ≤ c ∧ c ≤ last)

def dropEndWhile (p : Char → Bool) (text : List Char) : List Char :=
  (text.reverse.dropWhile p).reverse

def trim (text : List Char) : List Char := dropEndWhile isBlank (text.dropWhile isBlank)

end SegmentClient.Text
