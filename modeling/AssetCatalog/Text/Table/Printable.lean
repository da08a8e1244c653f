import AssetCatalog.Text.Table.Coding

/-! Code points above ASCII with no visible form. -/

namespace AssetCatalog.Text.Table

def unprintable : List (Nat × Nat) := ranges
  "24+w d bx+1 7+3 8 2 l 6q D+1 P+1 4 U+7 s+3 7+g n 37 N+1 Y+1 1E+d Y+1 O+1 g t+1 2 c+4 w+8 1d 2C 9+1 3+1
  n 8 2+2 5+1 a+1 3+1 5+7 2+3 3 6+1 q+1 4 7+3 3+1 n 8 3 3 3+1 2 6+3 3+1 4+2 2+6 5 2+6 i+9 4 a 4 n 8 3 6+1
  b 4 4+1 2+e 5+1 d+6 8 4 9+1 3+1 n 8 3 6+1 a+1 3+1 4+6 4+3 3 6+1 j+9 3 7+2 4 5+2 3 2 3+2 3+2 4+2 d+3 6+2
  4 5+1 2+5 2+d m+4 e 4 o h+1 a 4 5+6 3 4+1 2+1 5+1 b+6 n 4 o b 6+1 a 4 5+6 3+5 3 5+1 b 3+c e 4 Q 4 7+3
  h+1 r 4 j+2 p a 2+1 8+2 2+3 7 2 9+5 b+1 4+b X+3 u+A 3 2 6 p 2 o+1 6 2 7+1 b+1 5+v 1b B+3 E B g e+A 3d
  2+4 2+1 66 5+1 8 2 5+1 G 5+1 y 5+1 8 2 5+1 g W 5+1 16+1 x+2 r+5 1p+1 7+1 al t+2 1s+6 n+8 p+8 l+b e 4
  3+b 1x+1 b+5 b+5 f c+5 1s+6 I+4 19+9 w d+3 d+3 2+2 H+1 6+a J+3 r+5 c+2 11+1 14 u+1 c+5 b+5 f+1 w+M 1g+2
  M 1T+7 Z+2 g+2 Z+6 I+1 c+7 I+4 8D+1 7+1 D+1 7+1 9 2 2 2 w+1 S g f+1 7 k+1 4 a+g p+7 M+g 3+1 s e+2 y+e
  y+e 2h+3 aI+o c+k tf+1 x 5E+4 K 2+4 2+1 V+6 3+d p+8 8 8 8 8 8 8 8 8 23+x r 1s+b 3t+p d+4 12 1p+1 1G+4 I
  1x 1n+b M 7Cu+2 U+8 5D+j 2Z+7 3i+4 3 2 6+n Y+2 b+5 V+7 19+7 d+5 1T+a v+2 1h c+3 y U+8 f+1 b+1 1G+n t+9
  7+1 7+1 7+8 8 8 Z+3 23+1 b+5 2Ud+b o+3 O+3 x3+1Fd 5V+1 1J+B 8+b 6+4 r 6 2 3 3 22+f 7c+1 T+6 2+v H+5 Q k
  5+3 6 2c+3 35+2 7+1 7+1 7+1 4+2 8 8+c 3+1 d r k 3 g+1 f+x 20+4 4+3 K+2 1r e+2 2+K L+25 u+2 O+e t+3 B+8
  v+4 I+4 v C+3 f+F 2z+1 b+5 B+3 B+3 F+7 R+a d g 8 3 c g 8 3+14 52+8 n+9 9+n 7 H a+16 7+1 2 J 3+2 2+1 o
  1b+7 a+L k 3+4 y+2 s+4 2+11 V+3 l+1 P 3+4 9 4 u+1 4+3 b+6 a+6 13+v E+3 d+8 T+2 u+1 s+4 r+6 5+b 8+1h
  1c+S Q+c Q+6 L+7 b+4J w H 4+1 3+1f F+7 H+l r+B t+j o+8 1h+3 B+8 11 6+c q+6 b+5 S j+7 E+8 1z l+a j J+12
  8 2 5 g c+5 Y+4 b+5 5 9+1 3+1 n 8 3 6 b+1 3+1 4+1 2+5 2+4 8+1 8+2 6+2e 1v 6+t 1b+7 b+2F T+1 D+x 18+a
  b+5 e+i X+5 b+R s+1 g+3 o+2Y Z+1B 1m+b 9+1 2+1 9 3 v 3+1 d+8 b+17 9+1 L+1 c+q 1b+7 1m+c 1c+4e a K f+9
  u+2 x+1 n f+1a 8 3 J+2 2 3 a+7 b+5 7 3 C 3 7+6 b+4Z q+2W 2+e P+c eU+1D 1O 6+a 3b+Gv 1C+c hi+13i 9q+2fe
  9c+6 w b+3 1k b+5 v+1 7+9 19+9 b 8 m+4 k+b5 1u+1C 1e+3 W+6 i+11 6+a 3+d 1AZ+7 jZ+F a+2k6 5 8 3 4I+I 4+g
  5+7 6p+Bd 1K+4 e+2 a+6 b+1 5+1dR L+1 o+8 1T+X 3Z+9 E+1 1d+7 1P+k 19+2t l+b 1q+8 q+2a 1o 1a 3+1 2+1 3+1
  5 d 2 8 14 5+1 9 8 t 5 6 2+2 8 5v+1 4J+1 bl+e 6 g+hN w+3C 8 i+1 8 3 6+3q K+2 f+1 b+3 3+59 w+g X+4 2+k7
  8 5 3 g 3c+1 h+E 1f+3 b+3 3+cE 17+1d 10+37 5 s 3 2+1 2 b 5 2 2+5 2+3 2 2 2 4 3 2+1 2 2 2 2 2 3 2+1 5 8
  5 5 2 b i+4 4 6 i+P 3+4l J+3 1D+b g+1 g g C+9 2P+T u+c J+3 a+6 3+d 7+2t fT+4 h+2 e+2 1T+b 1s+6 d+3 2+e
  d+3 V+7 b+5 F+7 v+1 3+1f 5v+b f+1 6+2 6+2 8+8 u+2 c+4 7+9 b+5 9+7 8+8 2o U+A b+gB b73+v 150+6 3B+1
  1uX+d 1Wy+O2 8L+oh 1hG+30jO 3T+P15"

end AssetCatalog.Text.Table
