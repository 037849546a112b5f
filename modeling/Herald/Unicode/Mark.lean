import Herald.Unicode.Ranges

/-! The characters of general category M, which combine with the character before them. -/
namespace Herald.Unicode

def markTable : Array Range := Range.readAll "300,70 183,7 10e,2d 2e,1 2,2 3,2 3,1 49,b 3b,15 25,1 66,7 9,6 8,2 3,4 27,1 1f,1b 76,b 45,9
  12,1 19,4 5,9 a,3 4,5 30,3 3f,8 32,18 19,21 57,3 4,12 13,7 11,2 1f,3 3b,1 2,7 9,2 4,3 c,1 b,2
  1c,1 3,3 3b,1 2,5 9,2 4,3 6,1 1f,2 5,1 c,3 3b,1 2,8 9,3 4,3 17,2 18,6 7,3 3b,1 2,7 9,2 4,3 a,3
  d,2 20,1 3c,5 8,3 4,4 d,1 29,5 3c,1 2,7 8,3 4,4 b,2 d,2 1f,3 3b,1 2,7 8,3 4,4 b,2 d,2 1e,4
  3b,2 3,7 8,3 4,4 d,1 b,2 1f,3 49,1 5,6 7,1 2,8 1a,2 3f,1 3,7 13,8 6a,1 3,9 14,6 50,2 1d,1 2,1
  2,1 5,2 33,14 15,2 7,b c,24 2d,1 65,14 2b,4 8,3 4,3 5,7 a,4 11,c d,1 b,4 2c3,3 3b5,4 20,3 20,2
  20,2 42,20 29,1 2e,3 4,1 76,2 24,1 77,c 10,c e7,5 3e,a b,1d 1f,1 31,1f 50,5 34,11 37,9 15,3
  21,d 45,e 3e,14 ac,3 4,15 19,1 7,1 3,3 c9,40 310,21 c1f,3 90,1 61,20 24a,6 6f,2 75d6,4 5,a
  2a,2 52,2 112,1 4,1 5,1 18,5 9,1 54,2 34,12 2c,12 1f,1 27,8 21,d 39,4 33,e 32,1 44,e 1a,1 9,2
  2f,3 35,1 2,3 5,2 7,2 3,1 2a,5 a,2 ee,8 9,2 4f32,1 2e2,10 20,10 3dd,1 e3,1 96,5 68b,3 4,2 7,4
  2c,3 7,1 a6,2 23f,4 187,2 9b,b 3c,4 7e,3 38,f 38,1 3,2 c,4 31,b 12,1 3e,3 27,e 1e,2 2e,1 d,3
  33,e 16,4 5,2 5e,c 12,1 a1,c 21,4 3b,2 3,7 9,2 4,3 c,1 b,2 4,7 a,5 c5,12 29,1 52,14 ff,7 9,9
  24,2 54,11 7b,d 72,f 10f,f 104,6 7,2 4,4 5,1 2,2 8f,7 9,7 a,1 1d,a 32,7 8,4 c,1 a,b 39,10
  1a5,8 9,8 5a,16 17,e 88,6 9,1 2,2 3,7 8,1 43,5 6,2 3,5 160,4 4bfd,5 40,7 41f,1 2,37 3e,4 55,1
  c,2 4cad,2 1263,2e 30,17 235,5 8,6 e,8 a,7 25,4 98,3 7be,37 3b,32 3a,1 f,1 17,5 6,f 55f,7 8,11
  13,7 8,2 3,5 10a,7 17e,1 3e,4 5e4,7 74,7 c17bc,f0"

def isMark (c : Char) : Bool := 128 ≤ c.toNat && (Range.find? markTable c).isSome

end Herald.Unicode
