import Herald.Unicode.Ranges

/-! How a character joins its neighbours in cursive scripts: D joins on both sides, L and R on one,
T is passed over. -/
namespace Herald.Unicode

def joiningTable : Array Range := Range.readAll "ad,1:T 253,70:T 183,7:T 10e,2d:T 2e,1:T 2,2:T 3,2:T 3,1:T 39,6:T 10,b:T c,1:T 4,1:D 2,4:R
  4,1:D 1,1:R 1,1:D 1,1:R 1,5:D 5,4:R 4,d:D e,7:D 7,1:R 1,2:D 2,15:T 23,2:D 2,1:T 1,3:R 4,3:R
  3,10:D 10,12:R 12,26:D 26,1:R 1,2:D 2,9:R 9,1:D 1,1:R 1,1:D 1,1:R 1,2:D 2,2:R 3,1:R 1,8:T
  9,6:T 8,2:T 3,4:T 4,2:R c,3:D 5,1:D 10,1:T 1,1:R 1,1:T 1,3:D 3,5:R 5,4:D 4,1:R 1,9:D 9,1:R
  1,1:D 1,1:R 1,1:D 1,1:R 1,2:D 2,1:R 1,1b:T 1d,1:R 1,b:D b,3:R 3,f:D f,2:R 2,4:D 4,1:R 1,1:D
  1,2:R 2,3:D 3,2:R 2,6:D 2c,b:T 24,21:D 21,9:T 12,1:T 19,4:T 5,9:T a,3:T 4,5:T 17,1:R 1,5:D
  5,2:R 2,1:D 1,1:R 1,a:D a,1:R 1,1:D 1,3:R 3,3:T 7,1:D 2,4:D 5,1:R 1,1:D 1,2:R 7,13:R 16,1:D
  3,5:D 5,1:R 1,1:D 1,2:T 7,9:T 9,a:D a,3:R 4,1:R 1,2:D 2,2:R 2,6:D 6,1:R 1,f:D 10,39:T 70,1:T
  2,1:T 5,8:T c,1:T 4,7:T 11,2:T 1f,1:T 3b,1:T 5,4:T c,1:T 15,2:T 1c,1:T 3,2:T 3b,1:T 5,2:T
  6,2:T 4,3:T 6,1:T 1f,2:T 5,1:T c,2:T 3b,1:T 5,5:T 6,2:T 6,1:T 15,2:T 18,6:T 7,1:T 3b,1:T 3,1:T
  2,4:T c,1:T 8,2:T d,2:T 20,1:T 3e,1:T d,1:T 33,1:T 4,1:T 38,1:T 2,3:T 8,3:T 4,4:T b,2:T d,2:T
  1f,1:T 3b,1:T 3,1:T 7,1:T 6,2:T 16,2:T 1e,2:T 3b,2:T 6,4:T c,1:T 15,2:T 1f,1:T 49,1:T 8,3:T
  4,1:T 5b,1:T 3,7:T 13,8:T 6a,1:T 3,9:T 14,7:T 50,2:T 1d,1:T 2,1:T 2,1:T 38,e:T f,5:T 6,2:T
  7,b:T c,24:T 2d,1:T 67,4:T 5,6:T 7,2:T 4,2:T 1b,2:T 6,3:T 13,4:T 11,1:T 3,2:T 8,1:T 10,1:T
  2c0,3:T 3b5,3:T 20,2:T 20,2:T 20,2:T 42,2:T 3,7:T f,1:T 3,b:T 14,1:T 2a,1:D 4,5:T 15,59:D
  65,2:T 2,22:D 22,1:T 1,1:D 76,3:T 7,2:T b,1:T 7,3:T de,2:T 4,1:T 3b,1:T 2,7:T 8,1:T 2,1:T
  3,8:T e,a:T c,1:T 31,2e:T 30,c:T 20,4:T 34,1:T 2,5:T 6,1:T 6,1:T 29,9:T 15,2:T 22,4:T 6,2:T
  3,3:T 3b,1:T 2,2:T 5,1:T 2,3:T 3d,8:T a,2:T 9a,3:T 4,d:T e,7:T b,1:T 7,1:T 4,2:T c8,40:T
  24b,1:T 3,2:T 1c,5:T 36,5:T 6,a:T 6a,21:T c1f,3:T 90,1:T 61,20:T 24a,4:T 6f,2:T 75d6,4:T 5,a:T
  2a,2:T 52,2:T 112,1:T 4,1:T 5,1:T 1a,2:T 7,1:T 14,32:D 32,1:L 52,2:T 1c,12:T 1f,1:T 27,8:T
  21,b:T 39,3:T 33,1:T 3,4:T 6,2:T 29,1:T 44,6:T 8,2:T 4,2:T e,1:T 9,1:T 30,1:T 34,1:T 2,3:T
  5,2:T 7,2:T 3,1:T 2b,2:T a,1:T ef,1:T 3,1:T 5,1:T 4f31,1:T 2e2,10:T 20,10:T df,1:T fa,3:T
  204,1:T e3,1:T 96,5:T 68b,3:T 4,2:T 7,4:T 2c,3:T 7,1:T 81,5:D 5,1:R 2,1:R 2,2:R 4,1:L 1,5:R
  5,4:D 4,1:L 1,5:D 5,1:R 1,3:D 3,1:R 3,1:R 1,2:T 6,4:D 4,1:R 91,1:D 1,1:R 1,1:D 1,3:R 3,3:D
  3,1:R 1,2:D 2,1:R 1,1:D 1,2:R 2,1:D 1,1:R 18,4:R 4,2:D 153,1:L 1,21:D 21,1:R 1,1:D 1,4:T
  45,5:T 142,2:T 17,1:R 1,2:D 3,2:D 34,6:T 36,3:D 3,1:R 1,11:D 12,b:T b,3:D 3,1:R 1c,4:D 4,2:R
  2,c:D c,4:T 2e,1:D 2,2:D 2,3:R 4,1:D 1,2:R 2,2:D 2,1:R 1,2:D 3,1:D 1,2:R 2,1:D 5,1:R 1,1:D
  1,1:L 36,1:T 37,f:T 38,1:T 3,2:T c,3:T 34,4:T 6,2:T 4,1:T 5,1:T b,1:T 33,3:T 27,5:T 6,8:T
  46,1:T d,2:T 36,9:T 13,4:T 6,1:T 60,3:T 5,1:T 2,2:T 8,1:T 3,1:T 9e,1:T 4,8:T 1d,2:T 3b,2:T
  5,1:T 26,7:T a,5:T 4b,6:T 13,1:T 2,1:T 2,1:T f,2:T 57,8:T a,3:T 4,1:T 18,1:T 55,6:T 7,1:T
  5,2:T 3,2:T f0,4:T a,2:T 3,2:T 1d,2:T 57,8:T a,1:T 2,2:T 6c,1:T 2,1:T 3,6:T 7,1:T 66,3:T 5,4:T
  5,5:T 108,9:T a,2:T 102,2:T 3,1:T 5,1:T 91,4:T 6,2:T 6,1:T 21,a:T 32,6:T 8,4:T c,1:T a,6:T
  8,3:T 31,d:T e,2:T c8,1:T 2,3:T 4,1:T ca,7:T 8,6:T 7,1:T 53,16:T 18,7:T 8,2:T 3,2:T 7c,6:T
  9,1:T 2,2:T 3,7:T 8,1:T 49,2:T 5,1:T 2,1:T 15c,2:T d,2:T 36,5:T a,1:T 2,1:T 18,1:T 14d6,11:T
  17,f:T 2cd7,c:T f,3:T 9c3,5:T 40,7:T 41f,1:T 40,4:T 55,1:T 4cb9,2:T 3,4:T 1260,2e:T 30,17:T
  237,3:T c,10:T 12,7:T 25,4:T 98,3:T 7be,37:T 3b,32:T 3a,1:T f,1:T 17,5:T 6,f:T 55f,7:T 8,11:T
  13,7:T 8,2:T 3,5:T 69,1:T a1,7:T 17e,1:T 3e,4:T 200,4:T 102,2:T f5,1:T 3,1:T 8,2:T 7,1:T
  1db,7:T 30,44:D 44,8:T c16bd,1:T 1f,60:T e0,f0:T"

def joining (c : Char) : Option String := (Range.find? joiningTable c).map Range.tag

end Herald.Unicode
