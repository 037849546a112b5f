import Herald.Unicode.Ranges

/-! The bidirectional class of characters. Classes other than L are listed; a character that is in
no range has class L. -/
namespace Herald.Unicode

def directionTable : Array Range := Range.readAll "0,9:BN 9,1:S 1,1:B 1,1:S 1,1:WS 1,1:B 1,e:BN e,3:B 3,1:S 1,1:WS 1,2:ON 2,3:ET 3,5:ON 5,1:ES
  1,1:CS 1,1:ES 1,2:CS 2,a:EN a,1:CS 1,6:ON 20,6:ON 20,4:ON 4,6:BN 6,1:B 1,1a:BN 1a,1:CS 1,1:ON
  1,4:ET 4,4:ON 5,2:ON 2,1:BN 1,2:ON 2,2:ET 2,2:EN 2,1:ON 2,3:ON 3,1:EN 2,5:ON 1c,1:ON 20,1:ON
  1c2,2:ON 9,e:ON 10,e:ON 13,9:ON a,11:ON 11,70:NSM 74,2:ON a,1:ON 6,2:ON 3,1:ON 6f,1:ON
  8d,7:NSM 107,1:ON 3,2:ON 2,1:ET 2,2d:NSM 2d,1:R 1,1:NSM 1,1:R 1,2:NSM 2,1:R 1,2:NSM 2,1:R
  1,1:NSM 9,1b:R 1f,6:R 11,6:AN 6,2:ON 2,1:AL 1,2:ET 2,1:AL 1,1:CS 1,1:AL 1,2:ON 2,b:NSM b,30:AL
  30,15:NSM 15,a:AN a,1:ET 1,2:AN 2,3:AL 3,1:NSM 1,65:AL 65,7:NSM 7,1:AN 1,1:ON 1,6:NSM 6,2:AL
  2,2:NSM 2,1:ON 1,4:NSM 4,2:AL 2,a:EN a,14:AL 15,2:AL 2,1:NSM 1,1e:AL 1e,1b:NSM 1d,59:AL
  59,b:NSM b,1:AL f,2b:R 2b,9:NSM 9,2:R 2,4:ON 4,1:R 3,1:NSM 1,18:R 18,4:NSM 4,1:R 1,9:NSM 9,1:R
  1,3:NSM 3,1:R 1,5:NSM 7,f:R 10,19:R 19,3:NSM 5,1:R 2,b:AL 10,1f:AL 20,2:AN 8,8:NSM 8,2a:AL
  2a,18:NSM 18,1:AN 1,20:NSM 57,1:NSM 2,1:NSM 5,8:NSM c,1:NSM 4,7:NSM 11,2:NSM 1f,1:NSM 3b,1:NSM
  5,4:NSM c,1:NSM 15,2:NSM 10,2:ET 9,1:ET 3,1:NSM 3,2:NSM 3b,1:NSM 5,2:NSM 6,2:NSM 4,3:NSM
  6,1:NSM 1f,2:NSM 5,1:NSM c,2:NSM 3b,1:NSM 5,5:NSM 6,2:NSM 6,1:NSM 15,2:NSM f,1:ET 9,6:NSM
  7,1:NSM 3b,1:NSM 3,1:NSM 2,4:NSM c,1:NSM 8,2:NSM d,2:NSM 20,1:NSM 3e,1:NSM d,1:NSM 26,6:ON
  6,1:ET 1,1:ON 6,1:NSM 4,1:NSM 38,1:NSM 2,3:NSM 8,3:NSM 4,4:NSM b,2:NSM d,2:NSM 16,7:ON 9,1:NSM
  3b,1:NSM 10,2:NSM 16,2:NSM 1e,2:NSM 3b,2:NSM 6,4:NSM c,1:NSM 15,2:NSM 1f,1:NSM 49,1:NSM
  8,3:NSM 4,1:NSM 5b,1:NSM 3,7:NSM b,1:ET 8,8:NSM 6a,1:NSM 3,9:NSM 14,6:NSM 50,2:NSM 1d,1:NSM
  2,1:NSM 2,1:NSM 1,4:ON 37,e:NSM f,5:NSM 6,2:NSM 7,b:NSM c,24:NSM 2d,1:NSM 67,4:NSM 5,6:NSM
  7,2:NSM 4,2:NSM 1b,2:NSM 6,3:NSM 13,4:NSM 11,1:NSM 3,2:NSM 8,1:NSM 10,1:NSM 2c0,3:NSM 33,a:ON
  70,1:ON 280,1:WS 1b,2:ON 77,3:NSM 20,2:NSM 20,2:NSM 20,2:NSM 42,2:NSM 3,7:NSM f,1:NSM 3,b:NSM
  12,1:ET 2,1:NSM 13,a:ON 10,b:ON b,3:NSM 3,1:BN 1,1:NSM 76,2:NSM 24,1:NSM 77,3:NSM 7,2:NSM
  b,1:NSM 7,3:NSM 7,1:ON 4,2:ON 9a,22:ON 39,2:NSM 4,1:NSM 3b,1:NSM 2,7:NSM 8,1:NSM 2,1:NSM
  3,8:NSM e,a:NSM c,1:NSM 31,1f:NSM 50,4:NSM 34,1:NSM 2,5:NSM 6,1:NSM 6,1:NSM 29,9:NSM 15,2:NSM
  22,4:NSM 6,2:NSM 3,3:NSM 3b,1:NSM 2,2:NSM 5,1:NSM 2,3:NSM 3d,8:NSM a,2:NSM 9a,3:NSM 4,d:NSM
  e,7:NSM b,1:NSM 7,1:NSM 4,2:NSM c8,40:NSM 1fd,1:ON 2,3:ON e,3:ON 10,3:ON 10,3:ON 10,2:ON
  3,b:WS b,3:BN 4,1:R 1,18:ON 18,1:WS 1,1:B 1,1:LRE 1,1:RLE 1,1:PDF 1,1:LRO 1,1:RLO 1,1:CS
  1,5:ET 5,f:ON f,1:CS 1,1a:ON 1a,1:WS 1,5:BN 6,1:LRI 1,1:RLI 1,1:FSI 1,1:PDI 1,6:BN 6,1:EN
  4,6:EN 6,2:ES 2,3:ON 4,a:EN a,2:ES 2,3:ON 14,21:ET 30,21:NSM 30,2:ON 3,4:ON 5,2:ON c,1:ON
  2,3:ON 8,6:ON 7,1:ON 2,1:ON 2,1:ON 5,1:ET c,2:ON 6,5:ON a,4:ON 6,10:ON 39,3:ON 7,82:ON 82,1:ES
  1,1:ET 1,122:ON 167,1a:ON 1b,91:ON aa,b:ON 20,28:ON 28,14:EN 62,1c2:ON 1c3,153:ON 253,274:ON
  276,20:ON 21,69:ON 14e,6:ON a,3:NSM a,7:ON 86,1:NSM 61,20:NSM 20,5e:ON 80,1a:ON 1b,59:ON
  65,d6:ON f0,c:ON 10,1:WS 1,4:ON 7,19:ON 22,4:NSM 6,1:ON 6,2:ON 7,3:ON 5c,2:NSM 2,2:ON 5,1:ON
  5b,1:ON c5,24:ON 5d,2:ON 33,10:ON 2c,3:ON 35,f:ON 1b,4:ON ab,4:ON 67,2:ON 21,1:ON 19c1,40:ON
  56d0,37:ON 17d,3:ON 62,4:NSM 4,1:ON 1,a:NSM a,2:ON 20,2:NSM 52,2:NSM 10,22:ON 88,1:ON 7a,1:NSM
  4,1:NSM 5,1:NSM 1a,2:NSM 3,4:ON 4,1:NSM c,2:ET 3c,4:ON 50,2:NSM 1c,12:NSM 1f,1:NSM 27,8:NSM
  21,b:NSM 39,3:NSM 33,1:NSM 3,4:NSM 6,2:NSM 29,1:NSM 44,6:NSM 8,2:NSM 4,2:NSM e,1:NSM 9,1:NSM
  30,1:NSM 34,1:NSM 2,3:NSM 5,2:NSM 7,2:NSM 3,1:NSM 2b,2:NSM a,1:NSM 74,2:ON 7b,1:NSM 3,1:NSM
  5,1:NSM 4f30,1:R 1,1:NSM 1,a:R a,1:ES 1,d:R e,5:R 6,1:R 2,2:R 3,2:R 3,a:R a,73:AL 83,16b:AL
  16b,12:ON 12,40:AL 42,36:AL 3d,1:ON 21,d:AL d,3:ON 3,10:NSM 10,a:ON 10,10:NSM 10,20:ON 20,1:CS
  1,1:ON 1,1:CS 2,1:ON 1,1:CS 1,9:ON 9,1:ET 1,2:ON 2,2:ES 2,3:ON 4,1:ON 1,2:ET 2,1:ON 5,5:AL
  6,87:AL 89,1:BN 2,2:ON 2,3:ET 3,5:ON 5,1:ES 1,1:CS 1,1:ES 1,2:CS 2,a:EN a,1:CS 1,6:ON 20,6:ON
  20,b:ON 85,2:ET 2,3:ON 3,2:ET 3,7:ON 11,5:ON 108,1:ON 3f,4d:ON 50,d:ON 10,1:ON 5d,1:NSM
  e3,1:NSM 1,1b:EN 95,5:NSM 48a,6:R 8,1:R 2,2c:R 2d,2:R 5,1:R 3,17:R 18,48:R 50,9:R 39,13:R
  14,2:R 7,21:R 24,1:ON 1,1a:R 1f,1:R 41,38:R 3c,14:R 16,2f:R 2f,3:NSM 4,2:NSM 7,4:NSM 4,4:R
  5,3:R 4,1d:R 1f,3:NSM 7,1:NSM 1,9:R 10,9:R 10,40:R 60,25:R 25,2:NSM 6,c:R 15,36:R 39,7:ON
  7,16:R 18,1b:R 20,1a:R 21,4:R 10,7:R 57,49:R 80,33:R 40,33:R 3a,6:R 6,24:AL 24,4:NSM c,a:AN
  130,1f:AN 20,2a:R 2b,2:NSM 2,1:R 3,2:R 50,28:R 30,16:AL 16,b:NSM b,9:AL 1f,12:R 12,4:NSM 4,4:R
  2a,1c:R 30,17:R 21,1:NSM 37,f:NSM 1a,14:ON 1e,1:NSM 3,2:NSM c,3:NSM 34,4:NSM 6,2:NSM 9,1:NSM
  3e,3:NSM 27,5:NSM 6,8:NSM 46,1:NSM d,2:NSM 36,9:NSM 13,4:NSM 6,1:NSM 60,3:NSM 5,1:NSM 2,2:NSM
  8,1:NSM a1,1:NSM 4,8:NSM 1d,2:NSM 3b,2:NSM 5,1:NSM 26,7:NSM a,5:NSM c8,8:NSM a,3:NSM 4,1:NSM
  18,1:NSM 55,6:NSM 7,1:NSM 5,2:NSM 3,2:NSM f0,4:NSM a,2:NSM 3,2:NSM 1d,2:NSM 57,8:NSM a,1:NSM
  2,2:NSM 21,d:ON 4b,1:NSM 2,1:NSM 3,6:NSM 7,1:NSM 66,3:NSM 5,4:NSM 5,5:NSM 108,9:NSM a,2:NSM
  102,2:NSM 3,1:NSM 5,1:NSM 91,4:NSM 6,2:NSM 6,1:NSM 21,6:NSM 8,2:NSM 2a,6:NSM 8,4:NSM c,1:NSM
  a,6:NSM 8,3:NSM 31,d:NSM e,2:NSM 198,7:NSM 8,6:NSM 5a,16:NSM 18,7:NSM 8,2:NSM 3,2:NSM 7c,6:NSM
  9,1:NSM 2,2:NSM 3,7:NSM 8,1:NSM 49,2:NSM 5,1:NSM 2,1:NSM 15c,2:NSM e2,8:ON 8,4:ET 4,11:ON
  4b0f,5:NSM 40,7:NSM 41f,1:NSM 40,4:NSM 53,1:ON 2,1:NSM 4cb9,2:NSM 3,4:BN 1260,2e:NSM 30,17:NSM
  237,3:NSM c,8:BN 8,8:NSM a,7:NSM 25,4:NSM 3f,2:ON 17,42:ON 42,3:NSM 3,1:ON bb,57:ON 3db,1:ON
  3a,1:ON 3a,1:ON 3a,1:ON 3a,1:ON b,32:EN 232,37:NSM 3b,32:NSM 3a,1:NSM f,1:NSM 17,5:NSM 6,f:NSM
  55f,7:NSM 8,11:NSM 13,7:NSM 8,2:NSM 3,5:NSM 10a,7:NSM 17e,1:NSM 3e,4:NSM 13,1:ET 501,c5:R
  c7,9:R 9,7:NSM 30,44:R 44,7:NSM 7,1:R 5,a:R e,2:R 313,44:AL 90,3d:AL ff,4:AL 5,1b:AL 1c,2:AL
  3,1:AL 3,1:AL 2,a:AL b,4:AL 5,1:AL 2,1:AL 7,1:AL 5,1:AL 2,1:AL 2,1:AL 2,3:AL 4,2:AL 3,1:AL
  3,1:AL 2,1:AL 2,1:AL 2,1:AL 2,1:AL 2,2:AL 3,1:AL 3,4:AL 5,7:AL 8,4:AL 5,4:AL 5,1:AL 2,a:AL
  b,11:AL 16,3:AL 4,5:AL 6,11:AL 45,2:ON 110,2c:ON 30,64:ON 70,f:ON 11,f:ON 10,f:ON 10,25:ON
  2f,b:EN b,5:ON 24,1:ON 3b,6:ON 43,1:ON b3,6:ON a0,3d8:ON 3dd,10:ON 13,d:ON 10,74:ON 80,59:ON
  60,c:ON 10,1:ON 10,c:ON 10,38:ON 40,a:ON 10,28:ON 30,1e:ON 20,2:ON 50,154:ON 160,e:ON 10,5:ON
  8,5:ON 8,7:ON 10,1d:ON 20,b:ON 10,6:ON 10,a:ON 10,8:ON 10,7:ON 10,93:ON 94,37:ON 5c,a:EN
  c0411,1:BN 1f,60:BN e0,f0:NSM"

def direction (c : Char) : String := ((Range.find? directionTable c).map Range.tag).getD "L"

end Herald.Unicode
