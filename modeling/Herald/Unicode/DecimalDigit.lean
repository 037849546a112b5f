import Herald.Unicode.Ranges

/-! The characters of general category Nd beyond ASCII: the decimal digits of all scripts. -/
namespace Herald.Unicode

/-- Every range holds the ten digits of one script, or of several that follow each other. -/
def digitTable : Array Range := Range.readAll "660,a 90,a d0,a 1a6,a 80,a 80,a 80,a 80,a 80,a 80,a 80,a 80,a 80,a 6a,a 80,a 50,a 120,a 50,a
  750,a 30,a 136,a 8a,a b0,a 10,a c0,a 60,a 90,a 10,a 89d0,a 2b0,a 30,a d0,a 20,a 60,a 1a0,a
  5320,a 590,a 890,a 10,a 326,a 8a,a 46,a 9a,a 120,a 160,a 80,a 180,a 70,a 10,14 60,a 1b0,a 70,a
  2a0,a 60,a 100,a 50,a 1b0,a 4b10,a 60,a 90,a 61a0,a ade,32 972,a 1b0,a 200,a 101,a 35f,a
  12a0,a"

def isDecimalDigit (c : Char) : Bool :=
  ('0' ≤ c && c ≤ '9') || (128 ≤ c.toNat && (Range.find? digitTable c).isSome)

end Herald.Unicode
