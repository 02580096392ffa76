namespace RecordFilter.Text

/-- Code points of blank characters: Unicode white space and the four ASCII separators. -/
def blankPoints : List Nat :=
  [0x09, 0x0a, 0x0b, 0x0c, 0x0d, 0x1c, 0x1d, 0x1e, 0x1f, 0x20, 0x85, 0xa0, 0x1680, 0x2000, 0x2001,
    0x2002, 0x2003, 0x2004, 0x2005, 0x2006, 0x2007, 0x2008, 0x2009, 0x200a, 0x2028, 0x2029, 0x202f,
    0x205f, 0x3000]

def isBlank (c : Char) : Bool := blankPoints.contains c.toNat

/-- Blanks allowed around a numeral: white space without the four ASCII separators. -/
def isSpacing (c : Char) : Bool := isBlank c && !(0x1c ≤ c.toNat && c.toNat ≤ 0x1f)

def dropEndWhile (p : Char → Bool) (s : List Char) : List Char :=
  (s.reverse.dropWhile p).reverse

def trim (s : List Char) : List Char := dropEndWhile isBlank (s.dropWhile isBlank)

/-- The text without spacing at either end. -/
def trimSpacing (s : List Char) : List Char := dropEndWhile isSpacing (s.dropWhile isSpacing)

def allBlank (s : List Char) : Bool := s.all isBlank

/-- Lower case of the ASCII letters; every other character stays. -/
def lowerAscii (s : List Char) : List Char := s.map Char.toLower

end RecordFilter.Text
