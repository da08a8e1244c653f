import AssetCatalog.Text.Table.Coding

/-! How identifier characters differ from letters, above ASCII. -/

namespace AssetCatalog.Text.Table

def startNotLetter : List (Nat × Nat) := ranges
  "1wG+2 6x+1 zo m O+y 3+3 XR q+8 f+2 7U0+9 60V+Q 7r 9 2b+4 28P+1M"

def letterNotStart : List (Nat × Nat) := ranges
  "em Ih 24 260 dJl+5 6z+1 1T 2 2 2 2 2 2 2 4E+1"

def continueOnly : List (Nat × Nat) := ranges
  "2X 9r+1N o 44+4 4i+I 2 2+1 2+1 2 1b+a N+u 7 1E+6 3+5 3+1 2+3 3+9 o v+q 1u+a g+9 y+8 a p+3 2+8 2+2 2+4
  I+2 Z+7 H+n 2+w T+2 2+h 2+6 b+1 3+9 i+2 V 2+6 3+1 3+2 a b+1 3+9 f 3+2 V 2+4 5+1 3+2 4 l+b 4 c+2 V 2+7
  2+2 2+2 l+1 3+9 b+5 2+2 V 2+6 3+1 3+2 8+2 b+1 3+9 j Y+4 4+2 2+3 a f+9 h+4 U 2+6 2+2 2+3 8+1 c+1 3+9 i+2
  V 2+6 2+2 2+3 8+1 c+1 3+9 h+3 U+1 2+6 2+2 2+3 a b+1 3+9 i+2 19 5+5 2 2+7 7+9 3+1 10 2+7 d+7 2+9 1q 2+9
  c+5 3+9 11+1 7+9 c 2 2 5+1 O+j 2+1 6+a 2+z a 1D+j 2+9 d+3 5+2 2+2 3+6 4+3 e+b 2+e bm+2 a+8 eZ+3 t+2 u+1
  v+1 13+v a 3+9 y+2 2+a 2k 1V+b 5+b b+9 25+a Z+4 W+9 2+s 3+a 7+9 n+d 2+f O+4 M+g c+9 i+8 d+2 v+c 3+9 J+d
  N+j 9+9 7+9 1V+2 2+k 5 7 3+2 3d+11 9i+1 k 20+c 5 4+b Nx+2 2i 1z+v 8X+5 1I+1 7Pg+9 18 5+9 x+1 1j+1 4p 4
  5 o+4 5 1m+1 P+h b+9 7+h e+a t+7 q+c J+3 M+d g+9 c b+9 M+d d 9+1 3+9 y+2 P 2+2 3+1 6+1 2 G+4 6+1 3P+7
  2+1 3+9 5gN bU+f h+f 4+1 p+2 37+9 C 1x+1 9M 3F 2q+4 4K+9 m4+2 2+1 6+3 F+2 5 2G+1 9g+3 9+9 5Y+1 2u+a O+3
  1Z+2 S+e w+a 3+1 b+3 K+a 8 K+9 7+2 B+d 2+9 6+1 J d+2 N+d 9+3 2+b 1l+b 7 2B+b 6+9 7+3 U+1 2+6 3+1 3+2 a
  b+1 3+6 4+4 37+h a+9 5 1k+j d+9 3s+6 3+8 s+1 1l+g g+9 1k+c 9+9 1m+e 5+9 3V+e 2G+9 19+5 2+1 3+3 2 2+1
  d+9 1W+6 3+6 4 t+9 F+6 2+3 9 a+a L+f 6y+7 2+7 h+9 V+l 2+d 1Z+5 4 2+1 2+6 2 9+9 N+4 2+1 2+4 9+9 5k+3
  51o+9 1p+9 D+4 Y+6 q+9 gm 2+S 8+3 1k c+1 56A+1 1dU+J 3+m 8L+4 4+5 9+7 3+6 v+3 2p+2 mS+N 8h+S 5+N 9 f
  n+4 2+e lX+6 2+g 3+6 2+1 2+4 4e+6 a+9 5L 10+d o7+6 1M+6 6+9 1eL+9 3iV9+3R"

end AssetCatalog.Text.Table
