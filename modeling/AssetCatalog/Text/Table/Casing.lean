import AssetCatalog.Text.Table.Coding

/-! Case mappings above ASCII: runs of characters that move by one distance, and expansions. -/

namespace AssetCatalog.Text.Table

def lowerRuns : List CaseRun := caseRuns
  "36+m:w 2+6:w y/n:1 4/2:1 3/7:1 3/m:1 2:-1X /2:1 4:3o /1:1 2:3k :1 2+1:3j :1 3:1h :3g :3h :1 2:3j :3l
  2:3p :3n :1 4:3p :3r 2:3s /2:1 2:3w :1 2:3w 3:1 2:3w :1 2+1:3v /1:1 2:3x :1 4:1 8:2 :1 2:2 :1 2:2 /8:1
  3/8:1 3:2 /1:1 2:-1z :-U /j:1 2:-26 2/8:1 8:2O7 :1 2:-2D :2O4 3:1 2:-39 :17 :19 /4:1 4G/1:1 4:1 9:1S
  7:C 2+2:B 2:12 2+1:11 2+g:w 2+8:w A:8 9/b:1 6:-Y 3:1 2:-7 :1 3+2:-26 +f:1i +v:w N/g:1 a/q:1 2:f /6:1
  3/L:1 3+B:M KC+B:1Ta 2:1Ta 6:1Ta bF+1h:a6Q +5:8 zx+G:-Mw 3+2:-Mw 5b/1c:1 a:-1YP 2/L:1 a+7:-8 9+5:-8
  b+7:-8 9+7:-8 9+5:-8 c/3:-8 9+7:-8 p+7:-8 9+7:-8 9+7:-8 9+1:-8 +1:-1c :-9 c+3:-1o :-9 c+1:-8 +1:-1C
  d+1:-8 +1:-1O :-7 c+1:-24 +1:-22 :-9 4O:-1Xf 4:-2bd :-29g 7:s K+f:g k:1 dd+p:q tH+L:M N:1 2:-2Nh :-Zw
  :-2N1 3/2:1 2:-2NS :-2Nn :-2NV :-2NU 2:1 3:1 9+1:-2Or /N:1 9/1:1 5:1 84S/m:1 k/d:1 2c/6:1 4/u:1 b/1:1
  2:-9bS /4:1 5:1 2:-aZW 3/1:1 4/9:1 2:-b0o :-b0z :-b0v :-b0l :-b0o 2:-aZA :-aZY :-aZD :eY /7:1 2:-M
  :-b0n :-9cI /1:1 7:1 6/1:1 t:1 5NW+p:w jI+D:E 2d+z:E 2x+a:D 2+e:D 2+6:D 2+1:D sz+O:12 Ng+v:w 5H3+v:w
  8al+x:y"

def lowerExpansions : List (Nat × List Nat) :=
  [(304, [105, 775])]

def upperRuns : List CaseRun := caseRuns
  "2V:bZ H+m:-w 2+6:-w :1X 2/n:-1 2:-3K 2/2:-1 3/7:-1 3/m:-1 3/2:-1 :-4Q :39 3/1:-1 3:-1 4:-1 6:-1 3:1z
  4:-1 :2D 4:26 3/2:-1 3:-1 5:-1 3:-1 4/1:-1 3:-1 4:-1 2:U 6:-1 :-2 2:-1 :-2 2:-1 :-2 2/7:-1 :-1h 2/8:-1
  3:-1 :-2 2:-1 4/j:-1 4/8:-1 9:-1 3+1:2Or 2:-1 5/4:-1 :2NV :2NS :2NU :-3o :-3k 2+1:-3j 2:-3g 2:-3h :b0z
  4:-3j :b0v 2:-3l 2:aZW :b0o 2:-3n :-3p :b0o :2Nh :b0l 3:-3p 2:2Nn :-3r 3:-3s 8:2N1 3:-3w 2:b0n :-3w
  4:aZY :-3w :-17 +1:-3v :-19 6:-3x b:aZD :aZA 2H:1m I/1:-1 4:-1 4+2:26 L:-C +2:-B 2+g:-w :-v +8:-w :-12
  +1:-11 2:-10 :-V 4:-L :-S :-8 2/b:-1 :-1o :-1i :7 :-1S 2:-1y 3:-1 3:-1 R+v:-w +f:-1i 2/g:-1 a/q:-1
  3/6:-1 :-f 2/L:-1 O+B:-M KC+G:Mw 3+2:Mw ch+5:-8 z9:-1CS :-1CR :-1CI +1:-1CG :-1CH :-1CA :-1BH :9aO
  3T:9bS 4:Zw h:9cI 1R/1c:-1 6:-X 6/L:-1 +7:8 9+5:8 b+7:8 9+7:8 9+5:8 c/3:8 9+7:8 9+1:1c +3:1o +1:1C
  +1:24 +1:1O +1:22 P+1:8 d:-1Sd i+1:8 f+1:8 4:7 5P:-s y+f:-g 5:-1 dC+p:-q u3+L:-M 2:-1 4:-2O7 :-2O4
  2/2:-1 7:-1 3:-1 b/N:-1 9/1:-1 5:-1 d+B:-1Ta 2:-1Ta 6:-1Ta 83W/m:-1 k/d:-1 2c/6:-1 4/u:-1 b/1:-1 3/4:-1
  5:-1 5/1:-1 :M 3/9:-1 c/7:-1 5/1:-1 7:-1 6/1:-1 t:-1 dT:-eY t+1h:-a6Q 5yO+p:-w jQ+D:-E 2d+z:-E 2w+a:-D
  2+e:-D 2+6:-D 2+1:-D sY+O:-12 MK+v:-w 5H3+v:-w 8an+x:-y"

def upperExpansions : List (Nat × List Nat) := expansions
  "3B:1l,1l 1I:bi,1g 2H:1c,cA 6I:eR,cw,cp w:f3,cw,cp 7B:lv,lY 1Ft:1a,db :1m,cw :1p,cy :1r,cy :13,bk
  2W:f3,cH 2:f3,cH,co 2:f3,cH,cp 2:f3,cH,ds G+7:248,eR +7:248,eR +7:24E,eR +7:24E,eR +7:25G,eR +7:25G,eR
  3:270,eR :eJ,eR :ey,eR 2:eJ,ds :eJ,ds,eR 5:eJ,eR 6:27g,eR :eP,eR :eB,eR 2:eP,ds :eP,ds,eR 5:eP,eR
  6:eR,cw,co :eR,cw,cp 3:eR,ds :eR,cw,ds b:f3,cw,co :f3,cw,cp :eZ,cH 2:f3,ds :f3,cw,ds b:282,eR :f7,eR
  :eH,eR 2:f7,ds :f7,ds,eR 5:f7,eR eAk:18,18 :18,1b :18,1e :18,18,1b :18,18,1e :1l,1m :1l,1m d:lK,lM
  :lK,lv :lK,lB :lU,lM :lK,lD"

def titleOwn : List (Nat × List Nat) := expansions
  "3B:1l,1R 3H:7j :7j :7j :7m :7m :7m :7p :7p :7p B:82 :82 :82 eM:lv,mK KB+G:17q 3+2:189 XT+7:26c +7:26c
  +7:26s +7:26s +7:26I +7:26I 3:270,dv :272 :ey,dv 3:eJ,ds,dv 5:272 6:27g,dv :27i :eB,dv 3:eP,ds,dv 5:27i
  C:282,dv :284 :eH,dv 3:f7,ds,dv 5:284 eAk:18,1E :18,1H :18,1K :18,1E,1H :18,1E,1K :1l,1S :1l,1S d:lK,my
  :lK,mh :lK,mn :lU,my :lK,mp"

end AssetCatalog.Text.Table
