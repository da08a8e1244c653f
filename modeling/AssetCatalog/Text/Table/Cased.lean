import AssetCatalog.Text.Table.Coding

/-! Code points above ASCII that take part in casing, and those that casing looks through. -/

namespace AssetCatalog.Text.Table

def cased : List (Nat × Nat) := ranges
  "2K b 5 6+m 2+u 2+38 2+3 5+3l 2+z 8+1 v+4 1z H+3 3+1 3+3 2 7 2+2 2 2+j 2+1k 2+2e 9+2F 2+B a+E JO+B 2 6
  3+G 3+2 aR+1n 3+5 z9+8 8+G 3+2 13+35 13+4t 3+5 3+B 3+5 3+7 2 2 2 2+u 3+Q 2+6 2 4+2 2+6 4+3 3+5 5+c 6+2
  2+6 1T e h+c 1E 5 3+9 2 4+4 7 2 2 2+3 2+5 5 3+3 6+4 5 i+v 4+1 dc+P th+3G 7+3 4+1 d+B 2 6 83V+J j+t
  29+1D 4+3 2+W 6+1 2 2+4 s+1 2+2 dg+G 2+c 8+1h 5hf+6 d+4 gG+p 7+p jc+1h 1z+z 5+z 1T+a 2+e 2+6 2+1 2+a
  2+e 2+6 2+1 7i 3+2 2+F 2+8 jI+O e+O Me+11 5Gx+11 6L7+1m 2+18 2+1 3 3+1 3+3 2+b 2 2+6 2+12 2+3 3+7 2+6
  2+r 2+3 2+4 2 4+6 2+5t 3+o 2+o 2+u 2+o 2+u 2+o 2+u 2+o 2+u 2+o 2+7 tL+9 2+j EO+15 wJ+p 7+p 7+p"

def caseIgnorable : List (Nat × Nat) := ranges
  "2I 5 2 5 3+1 88+35 5+1 5 a+1 2 44+6 3m 6 O+I 2 2+1 2+1 2 J c+5 b+a 2 A b+k h 1E+7 2+9 2+3 y 2 v+q 1u+a
  X+a 5 3 p+n I+2 J 8+1 7+7 G+V U 2 5+7 5 4+6 b+1 e g X 5+3 9 l+1 r 3+1 W 5+1 5+1 3+2 4 v+1 4 c+1 W 5+4
  2+1 5 l+1 n+5 2 X 3 2+3 9 8+1 c+1 v 10 d P 4 U 2+2 6+2 2+3 8+1 c+1 u X 3 7 6+1 l+1 t+1 W+1 5+3 9 l+1 u
  1b 8+2 2 1t 3+6 c+8 1B 3+8 a 2+5 1d+1 s 2 2 U+d 2+4 2+1 6+a 2+z a 1F+3 2+5 2+1 3+1 q+1 5+2 h+3 e 3+1 7
  g 1x 9P+2 fh+2 u+1 v+1 v+1 13+1 2+6 9 3+a 4 6 K+4 Q 14+1 z 1V+2 5+1 a 7+2 3y+1 3 X 2+6 2 2 3+7 7+9 3 E
  9+u O+3 N 2+4 2 6 F+8 d+1 x+3 3+1 2+2 V 2+1 4 2+2 X+7 3+1 13+5 1l+2 2+c 2+6 5 7 4+1 P+10 e z+1C 7c 2+2
  c+2 e+2 e+2 e+1 d+4 9+1 b 3 3+4 O+4 2+9 2 e h+c Q+w LG+1 1Q+2 22 g 1z+v M 7A B+3 4+4 6 1w+5 1w+2 7oH
  kb+5 4n 1B+3 2+9 2 t+3 1j+1 f+x 1h o+2 1G+2 4+1 9 4 5 q+1 6 2s+1 r+h e D+7 q+a L+2 N 3+3 3+1 i m+1 15+5
  3+1 3+1 d 9 A c Q 2+2 3+1 6+1 2 s f+1 6+1 2 1D+4 a+2 1Y 3 5 5gZ 2o+g 9g+f 4 d+f z 3 2K 8 7 c A 2 M K+1
  16 m+2 8i 3F 2q+4 gC+5 2+F 2+8 9p+2 2+1 6+3 F+2 5 2G+1 9g+3 6g+1 2u+a O+3 20 T+e G 3+1 b+2 O+3 3+1 3 5
  b P+2 B+4 2+7 11 d+1 R+8 b+3 3 1y+2 3 2+1 7 2B 4+7 m+1 W+1 4 C+6 4+4 3a+7 3+2 2 o 1n+5 2 5+1 2+1 3R+3
  7+1 2+1 s+1 1o+7 3 2+1 1J 2 3+5 2 1E+2 3+3 2+4 4c+8 2+1 49+1 2 5 2l+3 3+1 5 x+9 F+5 3+3 9 a+5 3+2 L+c
  2+1 6z+6 2+5 2 1l+l 3+6 2+1 2+1 1Z+5 4 2+1 2+6 2 1b+1 4 2 5C+1 1pG+8 3DW+4 Y+6 a+3 gI 12+g 13+1 2+1
  4gs+3 2+6 2+1 Q7+1 2+3 1dP+J 3+m 8N+2 a+f 3+6 v+3 2p+2 vW+S 5+N 9 f n+4 2+e lX+6 2+g 3+6 2+1 2+4 4e+d
  5X 10+3 oh+6 1M+7 I8+4 3jnY v+1x 25+3R"

end AssetCatalog.Text.Table
