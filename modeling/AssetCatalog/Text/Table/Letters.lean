import AssetCatalog.Text.Table.Coding

/-! Code points above ASCII that are letters or other number characters. -/

namespace AssetCatalog.Text.Table

def letters : List (Nat × Nat) := ranges
  "2K b 5 6+m 2+u 2+7n 5+b f+4 8 2 26+4 2+1 3+3 2 7 2+2 2 2+j 2+1k 2+2e 9+2F 2+B 3 7+E 1a+q 5+3 K+G A+1
  2+1A 2 g+1 8+1 b+2 3 h 2+t u+1q c p+w a+1 5 6+l 5 a 4 o+o 8+a 6+n 2+5 i+F X+R 4 j 8+9 g+f 5+7 3+1 3+l
  2+6 2 4+3 4 h e+1 2+2 f+1 b 9+5 5+1 3+l 2+6 2+1 2+1 2+1 w+3 2 k+2 h+8 2+2 2+l 2+6 2+1 2+4 4 j g+1 o c+7
  3+1 3+l 2+6 2+1 2+4 4 v+1 2+2 g i 2+5 4+2 2+3 4+1 2 2+1 4+1 4+2 4+b n R+7 2+2 2+m 2+f 4 r+2 3 3+1 v 5+7
  2+2 2+m 2+9 2+4 4 w+1 2+1 g+1 i+8 2+2 2+E 3 h 6+2 9+2 p+5 6+h 4+n 2+8 2 3+6 X+L 2+1 d+6 X+1 2 2+4 2+n 2
  2+9 2+1 a 3+4 2 m+3 x 12+7 2+z s+4 1S+G l h+5 5+3 4 4+1 8+2 5+c d i+B 2 6 3+G 2+5m 2+3 3+6 2 2+3 3+E
  2+3 3+w 2+3 3+6 2 2+3 3+e 2+U 2+3 3+14 C+f h+1n 3+5 4+9Z 3+g 2+p 6+1c 7+7 8+h e+i f+h f+c 2+2 g+P A 5
  16+1q 8+4 3+x 2 6+17 b+u O+t 3+4 c+H 5+p T+m a+Q 1l 1w+K i+7 T+t e+1 b+H r+z G+2 b+z 3+8 8+G 3+2 G+3
  2+5 2+1 4 6+35 13+4t 3+5 3+B 3+5 3+7 2 2 2 2+u 3+Q 2+6 2 4+2 2+6 4+3 3+5 5+c 6+2 2+6 1T e h+c 1E 5 3+9
  2 4+4 7 2 2 2+3 2+a 3+3 6+4 5 R+1 Hi+3G 7+3 4+1 d+B 2 6 3+T 8 h+m a+6 2+6 2+6 2+6 2+6 2+6 2+6 2+6 1j
  7A+1 H+4 6+1 5+1n 7+2 2+1r 2+3 6+G 2+1v i+v N+f 8h+1Ij 13+5Lm 16+J 3+4k 4+f b+1 l+K h+u 3+17 O+8 3+1E
  3+11 6+1 2 2+4 p+f 2+2 2+3 2+m u+P f+N 11+5 4 2+1 c+r b+m q+s 8+K t h+4 2+9 b+4 2+E o+2 2+7 l+m 4 4+N 2
  4+1 3+4 3 2 p+2 3+a 8+2 d+5 3+5 3+5 a+6 2+6 2+G 2+d 7+1Q u+2Ub d+m 5+M 2cl+5T 3+1H D+6 d+4 6 2+9 2+c
  2+4 2 2+1 2+1 2+1J y+5Q j+11 3+R F+b 1T+4 2+2a B+p 7+p c+1q 4+5 3+5 3+5 3+2 A+b 2+p 2+i 2+1 2+e 3+d
  z+1Y 6i+s 4+M M+v e+j 2+7 7+B b+t 3+z 5+7 N+2x j+z 5+z 5+D 9+P d+a 2+e 2+6 2+1 2+a 2+e 2+6 2+1 16+50
  a+l b+7 p+5 2+F 2+8 18+5 3 2+H 2+1 4 3+m b+m a+u 14+i 2+1 b+l b+p 19+T 7+1 13 g+3 2+2 2+s H+s 4+s A+7
  2+r s+R b+l b+i e+h 1N+1a U+O e+O e+z 5D+F 7+1 1h+s b 9+l H+h L+k s+m d+Q W+1 3 e+I x+o r+z u 3 9+y 4
  d+L f+3 m 2 A+h 2+o 1n+6 2 2+3 2+e 2+9 8+K D+7 3+1 3+l 2+6 2+1 2+4 4 j d+4 2z+Q j+3 l+2 v+L l+1 2 2Z+K
  G+3 B+L l Y+G e 1a+q C+6 30+H 1T+11 w+7 3 3+7 2+1 2+n g 2 1x+7 3+C h 2 t b+D 8 m c+J k j+1a 4g+8 2+A i
  O+t 1P+6 2+1 2+B m q+5 2+1 2+v f 5i+i 34 1i+eR 3J+39 Gx+1y g+hg 13k+9o 2fg+9a 8+u i+1g i+t j+L h+3 w+k
  6+i b7+11 25+1c 6 15+c 13+1 2 t+1AX 9+jX H+8 2k8+3 2+6 2+1 2+4G K+2 i+3 9+6n Bf+1I 6+c 4+8 8+9 1yD+1m
  2+18 2+1 3 3+1 3+3 2+b 2 2+6 2+12 2+3 3+7 2+6 2+r 2+3 2+4 2 4+6 2+5t 3+o 2+o 2+u 2+o 2+u 2+o 2+u 2+o
  2+u 2+o 2+7 tL+u 7M+I b+6 h 5c+t j+H kt+6 2+3 2+1 2+e 2+3a Y+15 8 jr+3 2+q 2+1 2 3 2+9 2+3 2 2 7 5 2 2
  2+2 2+1 2 3 2 2 2 2 2+1 2 3+3 2+6 2+3 2+3 2 2+9 2+g 6+2 2+4 2+g 19j+b71 x+14Y 8+3z 3+1uV f+1Ww O4+8J
  oj+1hE"

def numbers : List (Nat × Nat) := ranges
  "2S+1 6 3+2 ng+9 2b+9 3d+9 6F+9 1V+9 5+5 1L+9 1V+9 1V+9 3+5 1N+c 1S+9 9+6 1G+9 1H+6 8+i 1M+9 1z+9 1V+9
  19+j 4l+9 19+9 bC+j ee+2 3S+9 7+9 n+9 4R+9 25+a 2G+9 7+9 2X+9 1p+9 2b+9 7+9 gT 4+5 7+9 3d+O 3+4 bJ+X
  1h+l ab+t mm cy q+8 f+2 5y+3 2f+9 v+7 2+e x+9 E+e 7Gp+9 33+9 5b+5 2v+9 D+9 3d+9 n+9 1p+9 6z+9 5x5+9
  7Y+I d+U i+1 5w+q B+3 u 9 2b+4 3h+9 fd+7 q+6 E+8 1e+4 n+5 2B+1 3+f 3+J 13+8 R+1 v+2 1e+4 1H+7 p+7 G+6
  5l+5 N+9 4L+u 2z+9 H+3 1P+6 2b+t 25+9 Z+9 2l+9 8+j 44+9 5x+9 1V+9 63+9 1F+9 1F+b 6N+i 1w+9 cf+s 3G+9
  19+9 8D+k he+1M 4EO+9 1p+9 2b+9 2+6 cT+m 6G6+j 1L+o hU+N Cd+9 6P+9 nY+8 25+9 cM+W 2+2 2+3 1f+I 2+e fx+c
  IY+9"

end AssetCatalog.Text.Table
