import AssetCatalog.Text.Table.Coding

/-! Data of the compatibility normal form, for the characters that identifiers may hold. -/

namespace AssetCatalog.Text.Table

/-- Full decompositions that no pair gives. A word says it of the character at its place and of those
that follow, one after the other: `x+y` is a decomposition, and `x+y|z` stands for two, `x*n` is that
of `n` characters, with `x~n` the characters `x`, `x + 1`, … stand for `n` characters, and an
ideograph stands for one. -/
def decompositions : String :=
  "2K:1z b:fq 5:1N 1W:1b+1c,1H+1I d:1e+2X,1K+2X a:bi+1M S:1R
  17:16+1s+cA,16+1Y+cA,1C+1Y+cA,1e+1c|1I,1K+1I,1g+1c|1I,1M+1I J:16+1s|1Y,1C+1Y
  35:1G,9U,1I,1Q,ad,af,al,1V,1X M:9R,1K,1R,1W,aF 1y:co~2 3:cH,cw+cp N:bf j:2X 1b:fg,fm,f3 5:fA,fu
  r:fo,fv~2 4:eQ,fj 5:f1 6q:mh+mK 3Q:pp+qE,pW+qE,rZ+qE,pY+qE
  bV:Bv+C8,Bw+C8,Bx+C8,BC+C8,BH+C8,BI+C8,BR+C8,BV+C8 28:DL+Ec,DM+Ec 3:DZ+Ec 1m:G6+Gg 3:Gc+Gg
  z:FE+Gg,FF+Gg,FK+Gg 5:FZ+Gg 46:JX+Ko,JY+Ko bJ:X3+WC 24:Z7+YG F:Yz+Yh|Yp 1F:110+12T a:11a+12T 5:11f+12T
  5:11k+12T 5:11p+12T d:10Y+12R a:11L+11M 2:11L+11O,12O+120,12O+11L+120,12P+120,12P+11L+120 c:11L+120
  i:12i+12T a:12s+12T 5:12x+12T 5:12C+12T 5:12H+12T d:12g+12R 5d:17C Ok:13,3c,14 4:16~2,6q,19~8
  c:1h,8O,1i,1k,1m~2,1p,1z,9y~2,1VM,1A,1C~2,9H,9J~2,1F
  j:1J,1L,5l,1N,9C,1W6~2,1O,1S~2,1Wd,a3,1U,1Wl,fg~3,fA~2,1H,1Q,1T~2,fg~2,fv,fA~2 F:hv
  z:9A,1B,9D,3S,9K,1E,9N,9P,9T,9W~3,1XJ,aN,a1,1XT,aP,a5,a4,a6~4,ac,am~2 q:6T,at~2,1Wc,av~2,1Y,aA~3,fm
  3H:1z+bk 3t:ff+cp 2:fj+cp 2:fl+cp 2:fn+cp 2:ft+cp 2:fz+cp 2:fD+cp 10:eJ+cp 3:fn b:eN+cp 2:eP+cp
  8:fn+cw+cp 8:eR+cp 8:fz+cw+cp 8:f3+cp e:eX+cp 2:f7+cp 1U:1H e:1M h:1z,1D,1N,1W,9H,1G,1J~4,1O,1R~2 1Q:15
  5:6s 3:1F,1a*3,1G,4L,1b*2,1e,1K b:1g 4:1i~3,1k*2 b:1s 2:f7 2:1s 2:1d,13+cy,14~2 5:1D,17~2
  4:1f,1N,o0~4,1H 9:fu,fh,eL,eY 9:16,1C~2,1H~2
  r:1b,1b+1b,1b+1b+1b,1b+1o,1o,1o+1b,1o+1b+1b,1o+1b+1b+1b,1b+1q,1q,1q+1b,1q+1b+1b,1e,15~2
  f:1f,1H,1H+1H,1H+1H+1H,1H+1U,1U,1U+1H,1U+1H+1H,1U+1H+1H+1H,1H+1W,1W,1W+1H,1W+1H+1H,1K,1B~2 g:1L
  Jn:1I,1o 3V:31n bv:十卄卅 1F:3eo+3eq 1y:3f5+3fq
  O:18c~2,1aW,18e,1aY~2,18f~3,1b2~6,18C,18i~3,18J,18l~a,19L~l,19K,18w~2
  S:1bp~2,1bu,1bw,1bB,1bF,1bH,18E,1bL,1bN,18F~2,18I,18K~2,18P,18R,18T~5,190
  n:194,19e,19l,19q,1c5~2,19B~3,1ak~2,1ao,1ax~2,1aA,1aK,1aN 7NA:hI,hK 3q:b9l 26:15,18,1j 6:4K,5t
  e0:b8b,boX,9Z,bpo d:ax 5an:豈更車賈滑串句龜龜契金喇奈懶癩羅蘿螺裸邏樂洛烙珞落酪駱亂卵欄爛蘭鸞嵐濫藍襤拉臘蠟
  E:廊朗浪狼郎來冷勞擄櫓爐盧老蘆虜路露魯鷺碌祿綠菉錄鹿論壟弄籠聾牢磊賂雷壘屢樓淚漏累 E:縷陋勒肋凜凌稜綾菱陵讀拏樂諾丹寧怒率異北磻便復不泌數索參塞省葉說殺辰沈拾若掠略亮
  E:兩凉梁糧良諒量勵呂女廬旅濾礪閭驪麗黎力曆歷轢年憐戀撚漣煉璉秊練聯輦蓮連鍊列劣咽烈 E:裂說廉念捻殮簾獵令囹寧嶺怜玲瑩羚聆鈴零靈領例禮醴隸惡了僚寮尿料樂燎療蓼遼龍暈阮劉
  E:杻柳流溜琉留硫紐類六戮陸倫崙淪輪律慄栗率隆利吏履易李梨泥理痢罹裏裡里離匿溺吝燐璘 E:藺隣鱗麟林淋臨立笠粒狀炙識什茶刺切度拓糖宅洞暴輻行降見廓兀嗀 w:塚 2:晴 3:凞猪益礼神祥福靖精羽 b:蘒
  2:諸 3:逸都 5:飯飼館鶴郞隷侮僧免勉勤卑喝嘆器塀墨層屮悔慨憎懲敏既暑梅海渚漢煮爫琢碑社祉祈祐祖祝 E:禍禎穀突節練縉繁署者臭艹艹著褐視謁謹賓贈辶逸難響頻恵𤋮舘
  u:並况全侀充冀勇勺喝啕喙嗢塚墳奄奔婢嬨廒廙彩徭惘慎愈憎慠懲戴揄搜摒敖晴朗望杖歹殺流 E:滛滋漢瀞煮瞧爵犯猪瑱甆画瘝瘟益盛直睊着磌窱節类絛練缾者荒華蝹襁覆視調諸請謁諾諭謹
  E:變贈輸遲醙鉶陼難靖韛響頋頻鬒龜𢡊𢡄𣏕㮝䀘䀹𥉉𥳐𧻓齃龎 12:1E+1E|1H|1K,1E+1E+1H|1K,1R+1S*2 j:mw+my|mh|mn,mG+my,mw+mp a:o9+ny
  2:oy+nB,oi,o0,o3~2,ob~3,oo,oq b:op+nL|nM,op+nG+nL|nM,o0+nB|nC|nG,o1+nG,o2+nG,o3+nG,o4+nG,o5+nG c:o6+nG
  2:o8+nG,o9+nG,oa+nG,ob+nG,oc+nG 6:oe+nG 2:og+nG,oh+nG 3:oj+nG,ok+nG
  3:om+nG,on+nG,oo+nG,op+nG,oq+nG,o5+nD,o1+nJ,ob+nJ,ok+nJ,o0+oc,qB*2
  c:qL*4,qO*4,qQ*4,qK*4,qP*4,qJ*4,rq*4,rs*4,qU*4,qT*4,qW*4,qX*4,r3*2,r2*2
  Q:r4*2,qY*2,re*2,r7*2,rv*4,rB*4,rF*4,rD*4,rM*2,rN*4,sd+q8*2,rT*4,rQ*4,sa*2 G:sa+q8*2
  z:rz*4,rZ*2,rY*2,s0*2,rZ+qE,s3*2,rX*2,s1*2,s8*4,pX*2,pY+q8+pp*2
  p:pY+q8+sd*2,pY+q8+pW*2,pY+q8+rZ*2,pY+q8+rY*2,pY+q8+s0*2,pY+q8+s8*3
  d:pY+q8+pX*3,s4*4,pY+q8+pu|pv|pT|pX|pY,pq+pu|pv|pw|pT|pX|pY,ps+pu|pv
  k:ps+pw|pT|pX|pY,pt+pu|pT|pX|pY,pu+pv|pT,pv+pu|pT,pw+pu|pv|pT,pB+pu
  g:pB+pv|pw|pT,pD+pv|pT,pE+pu|pv|pw|pT,pF+pv|pT,pG+pT,pH+pu|pT,pI+pu
  f:pI+pT,pP+pu|pv|pw|pT|pX|pY,pQ+pv|pT|pX|pY,pR+pp|pu|pv|pw|pS|pT|pX
  i:pR+pY,pS+pu|pv|pw|pT|pX|pY,pT+pu|pv|pw|pT|pX|pY,pU+pu|pv|pw|pT|pX
  i:pU+pY,pV+pu|pT|pX|pY,pY+pu|pv|pw|pT|pX|pY,py+qA,pz+qA,pX+qA
  k:pY+q8+pz|pA|pT|pU|pX|pY,pq+pz|pA|pT|pU|pX|pY,ps+pz|pA|pT|pU|pX|pY
  i:pt+pz|pA|pT|pU|pX|pY,pP+pX|pY,pQ+pX|pY,pR+pp|pS|pT|pX|pY,pS+pT|pX
  h:pS+pY,pT+pp|pT,pU+pz|pA|pT|pU|pX|pY,pX+qA,pY+pz|pA|pT|pU|pX|pY
  g:pY+q8+pu|pv|pw|pT|pV,pq+pu|pv|pw|pT|pV,ps+pu|pv|pw|pT|pV,pt+pT
  g:pu+pv|pT,pv+pu|pT,pw+pu|pT,pB+pu|pv|pw|pT,pD+pv|pw|pT,pE+pu|pv|pw
  g:pE+pT,pF+pv,pG+pT,pH+pu|pT,pI+pu|pT,pP+pu|pv|pw|pT,pQ+pv|pT,pR+pu
  e:pR+pv|pw|pS|pT,pS+pu|pv|pw|pT|pV,pT+pu|pv|pw|pT,pU+pu|pv|pw|pT|pV
  i:pV+pu|pT|qA,pY+pu|pv|pw|pT|pV,pY+q8+pT|pV,pq+pT|pV,ps+pT|pV,pt+pT
  f:pt+pV,pB+pT|pV,pC+pT|pV,pR+pS|pT,pS+pT,pU+pT|pV,pY+pT|pV,pO+q2+q5
  d:pO+q3+q5,pO+q4+q5,pF+pX|pY,pH+pX|pY,pI+pX|pY,pB+pX|pY,pC+pX|pY
  c:pv+pX|pY,pu+pX|pY,pw+pX|pY,pD+pX|pY,pE+pX|pY,pC+pu|pv|pw|pT|pz
  f:pB+pz,pD+pz,pE+pz,pF+pX|pY,pH+pX|pY,pI+pX|pY,pB+pX|pY,pC+pX|pY
  d:pv+pX|pY,pu+pX|pY,pw+pX|pY,pD+pX|pY,pE+pX|pY,pC+pu|pv|pw|pT|pz
  f:pB+pz,pD+pz,pE+pz,pC+pu|pv|pw|pT,pB+pV,pC+pV,pF+pT,pB+pu|pv|pw d:pC+pu|pv|pw,pF+pT,pG+pT,pp+pZ*2
  p:ps+pu+pT,ps+pv+pu*2,ps+pv+pT,ps+pw+pT,ps+pT+pu|pv|pw,pu+pT+pv*2
  a:pv+pT+pY|pX,pB+pv+pu,pB+pu+pv|pX,pB+pT+pv*2,pB+pT+pu,pB+pT+pT*2
  a:pD+pv+pv*2,pD+pT+pT,pC+pv+pT*2,pC+pu+pY,pC+pT+pw*2,pC+pT+pT*2
  a:pE+pv+pX,pE+pw+pT*2,pF+pT+pv*2,pF+pT+pT|pY,pH+pu+pT,pH+pT+pT*2
  a:pH+pT+pX,pI+pT+pT|pY|pX,pP+pw+pT*2,pQ+pT+pv|pT,pS+pv+pT|pY|pX
  b:pS+pu+pu*2,pS+pw+pT*2,pS+pT+pv*2,pT+pv+pu|pT|pY,pT+pu+pv|pT b:pT+pw+pu|pT
  4:pT+pu+pw,pV+pT+pu|pT,pU+pv+pT|pX,pU+pu+pT*2,pU+pu+pX,pU+pT+pY|pX
  a:pY+pT+pT*2,pq+pw+pY,ps+pu+pY|pX,ps+pw+pY|pX,ps+pT+pY|pX,pu+pT+pY
  a:pu+pv+pX,pu+pT+pX,pB+pw+pX,pD+pv+pY,pC+pv+pY,pE+pv+pY,pS+pu+pY
  7:pS+pT+pY,pY+pv+pY,pY+pu+pY,pY+pT+pY,pT+pT+pY,pQ+pT+pY,pU+pv+pY
  7:pQ+pT+pv,pS+pv+pT,pH+pT+pY,pR+pT+pY,pU+pu+pv,pT+pw+pY,pS+pu+pT
  7:pR+pT+pT,pS+pu+pT,pU+pu+pv,pu+pv+pY,pv+pu+pY,pT+pu+pY,pP+pT+pY
  7:pq+pv+pY,pR+pT+pT,pH+pu+pT,pD+pT+pT,pB+pw+pY,pU+pu+pY
  K:pD+pS+sa,pQ+pS+sa,pp+pS+pS+pV,pp+pR+pq+pz,pT+pv+pT+px,pD+pS+pH+pT
  6:pz+pB+pW+pS,pH+pS+pY+pV,pW+pB+pS+pT,pD+pS+pX Z:1x*2 q:1x*3 A:pO+pZ 6:pO+q2 2:pO+q3 2:pO+q4 2:pO+q5
  2:pO+q6,pj,pp+q7*2,pp+q8*2,pW+q8*2,pp+q9*2,pY+q8*4,pp*2,pq*4,pr*2,ps*4
  q:pt*4,pu*4,pv*4,pw*4,px*2,py*2,pz*2,pA*2,pB*4,pC*4,pD*4,pE*4,pF*4,pG*4
  M:pH*4,pI*4,pP*4,pQ*4,pR*4,pS*4,pT*4,pU*4,pV*4,pW*2,pX*2,pY*4,pS+pp+q7*2
  K:pS+pp+q8*2,pS+pp+q9*2,pS+pp*2 p:M~a h:13~q u:1x 2:1z~q
  B:3g6,3eN,3eP,3eR,3eT,3eV,3fR,3fT,3fV,3fl,3gg,3eO,3eQ,3eS,3eU,3eW~2,3eZ
  i:3f1,3f3,3f5,3f7,3f9,3fb,3fd,3ff,3fh,3fj,3fm,3fo,3fq,3fs~6,3fA,3fD,3fG
  m:3fJ,3fM~5,3fS,3fU,3fW~6,3g3,3g7,3eF~2,19K,18c~2,1aW,18e,1aY~2,18f~3 s:1b2~6,18C,18i~3,18J,18l~a
  o:19L~6 8:19R~6 8:19X~6 8:1a3~3 vB:bC~2,3I,aJ,9B
  6:aT,bpI,aV,aU,9E~2,1Y5,9G,9M,aZ,9S,9Q,9O,aL,4L,aM,9V,ao,b0~2,a0,vTS
  m:b9Q,a2,vTT,ay,vTU,40,aa~2,1P,ae,vTW,ah~2,ak,aY,aW,bpJ,aX,as,2Xv l:az,aR~2,aI,7e~3,vTY,vUi
  dBA:13~q,1z~q,13~q,1z~7 1o:1H~i,13~q,1z~q,13 1a:15~2 4:19 3:1c~2 4:1g~4 5:1l~8,1z~4 d:1E 2:1G~7
  8:1O~b,13~q,1z~q,13~2 14:16~4 6:1c~8 9:1l~7 8:1z~q,13~2 t:16~4 5:1b~5 6:1h 4:1l~7
  8:1z~q,13~q,1z~q,13~q,1z~q,13~q,1z~q,13~q,1z~q,13~q,1z~q,13~q,1z~q,4V,99 5w:eJ~h,eQ,f1~7 q:ff~p
  q:fj,fm,fo,fA,fv,fu,eJ~h,eQ,f1~7 w:ff~p q:fj,fm,fo,fA,fv,fu,eJ~h,eQ,f1~7 w:ff~p
  q:fj,fm,fo,fA,fv,fu,eJ~h,eQ,f1~7 w:ff~p q:fj,fm,fo,fA,fv,fu,eJ~h,eQ,f1~7 w:ff~p
  q:fj,fm,fo,fA,fv,fu,fW~2 a:M~a,M~a,M~a,M~a,M~a 1tE:pp~2,pu,px
  5:pW,pA,pv,pF,pY,pR~4,pB,pH,pP,pD,pQ,pz,pC,ps~2,pw,py,pE,pG,pI,qy,rM p:rn,qz 3:pq,pu 3:pV 3:pv
  2:pY,pR~4,pB,pH,pP,pD,pQ b:pC,ps~2,pw 5:pE 2:pI 7:pu 5:pv 2:pY 2:pS 2:pU,pB,pH 4:pD,pQ 3:pC 3:pw 2:pE
  2:pI 2:rM 2:qz 2:pq,pu 3:pV 3:pv,pF,pY,pR 5:pT~2,pB,pH,pP,pD,pQ 8:pC,ps~2,pw 5:pE,pG,pI,qy 5:rn
  2:pp~2,pu,px,pV~2,pA,pv,pF,pY b:pS~3,pB,pH,pP,pD,pQ,pz,pC,ps~2,pw,py,pE,pG,pI m:pq,pu,px
  4:pW,pA,pv,pF,pY 6:pS~3,pB,pH,pP,pD,pQ,pz,pC,ps~2,pw,py,pE,pG,pI SN:M~a
  gMM:丽丸乁𠄢你侮侻倂偺備僧像㒞𠘺免兔兤具𠔜㒹內再𠕋冗冤仌冬况𩇟凵刃㓟刻剆割剷㔕勇勉勤 E:勺包匆北卉卑博即卽,5yL*3,𠨬灰及叟𠭣叫叱吆咞吸呈周咢哶唐啓啣善善喙喫喳嗂圖嘆圗噑
  D:噴切壮城埴堍型堲報墬𡓤売壷夆多夢奢𡚨𡛪姬娛娧姘婦㛮㛼嬈嬾嬾𡧈寃寘寧寳𡬘寿将当尢㞁 E:屠屮峀岍𡷤嵃𡷦嵮嵫嵼巡巢㠯巽帨帽幩㡢𢆃㡼庰庳庶廊𪎒廾𢌱𢌱舁弢弢㣇𣊸𦇚形彫㣣徚忍志
  E:忹悁㤺㤜悔𢛔惇慈慌慎慌慺憎憲憤憯懞懲懶成戛扝抱拔捐𢬌挽拼捨掃揤𢯱搢揅掩㨮摩摾撝摷 E:㩬敏敬𣀊旣書晉㬙暑㬈㫤冒冕最暜肭䏙朗望朡杞杓𣏃㭉柺枅桒梅𣑭梎栟椔㮝楂榣槪檨𣚣櫛㰘
  E:次𣢧歔㱎歲殟殺殻𣪍𡴋𣫺汎𣲼沿泍汧洖派海流浩浸涅𣴞洴港湮㴳滋滇𣻑淹潮𣽞𣾎濆瀹瀞瀛㶖
  E:灊災灷炭𠔥煅𤉣熜𤎫爨爵牐𤘈犀犕𤜵𤠔獺王㺬玥㺸㺸瑇瑜瑱璅瓊㼛甤𤰶甾𤲒異𢆟瘐𤾡𤾸𥁄㿼
  E:䀈直𥃳𥃲𥄙𥄳眞真真睊䀹瞋䁆䂖𥐝硎碌磌䃣𥘦祖𥚚𥛅福秫䄯穀穊穏𥥼𥪧𥪧竮䈂𥮫篆築䈧𥲀糒
  E:䊠糨糣紀𥾆絣䌁緇縂繅䌴𦈨𦉇䍙𦋙罺𦌾羕翺者𦓚𦔣聠𦖨聰𣍟䏕育脃䐋脾媵𦞧𦞵𣎓𣎜舁舄辞䑫
  E:芑芋芝劳花芳芽苦𦬼若茝荣莭茣莽菧著荓菊菌菜𦰶𦵫𦳕䔫蓱蓳蔖𧏊蕤𦼬䕝䕡𦾱𧃒䕫虐虜虧虩 E:蚩蚈蜎蛢蝹蜨蝫螆䗗蟡蠁䗹衠衣𧙧裗裞䘵裺㒻𧢮𧥦䚾䛇誠諭變豕𧲨貫賁贛起𧼯𠠄跋趼跰𠣞軔
  E:輸𨗒𨗭邔郱鄑𨜮鄛鈸鋗鋘鉼鏹鐕𨯺開䦕閷𨵷䧦雃嶲霣𩅅𩈚䩮䩶韠𩐊䪲𩒖頋頋頩𩖶飢䬳餩馧駂 E:駾䯎𩬰鬒鱀鳽䳎䳭鵧𪃎䳸𪄅𪈎𪊑麻䵖黹黾鼅鼏鼖鼻𪘀"

def combiningClasses : String :=
  "co+k :3K +3:3y :3K :3u +4:3y +1:3g +3:3y +1:3g +a:3y +4:1 +3:3y +7 :3S 1 +2:3y +2 +1:3y 2+2 +3:3y 1 :3K
  +1:3y 1 :3L +1:3M :3L +1:3M :3L +c 4s+4 4i:3y +3 :3y +2 :3A :3y +5 +5:3y +1 :3y +1 :3A :3G 1 :a :b :c
  :d :e :f :g :h :i +1:j :k :l :m 2:n 2:o :p 2 :3y 2:i 1b+7 :u :v :w N:r :s :t :u :v :w :x :y +1 +1:3y +4
  :3y +1 :3y h:z 1E+6 3+3 :3y 1 3+1 2:3y +1 :3y A:A v :3y +1 :3y +1 +2:3y 1 +1:3y 1 :3y +2 :3y 1 :3y 1
  :3y 1 :3y +1 2B+6 :3y 1 a:3y p+3 2+8 2+2 2+4 I+2:3y Z +2:3y +3 H+4 +4:3y +d 2:3y +1 :3y +1 :3y +2 +2:3y
  :r :s :t +2 :3y +1 +1:3y +4 Z:7 h:9 4 :3y +1 1G:7 h:9 N 10:7 h:9 1N:7 h:9 1N:7 h:9 24:9 1N:7 h:9 8:1m
  :1t 1E:7 h:9 1M+1:9 h:9 21:9 1M+1:1F :9 e+3:1J 1L+1:1U :9 e+3:1Y 1f+1:3y s:3y 2:3y 2:3u U:25 :26 2:28
  6+3:26 3:26 2+1 :9 2+1 11:3y 1P:7 2+1:9 1l:3y bC+2 fj+1:9 v:9 2y:9 b 3i:3G 2k:3A 1 :3y 3y :3y 1a:9 l+7
  3:3y N+4 +5:3y +1 :3y 2+1:3y +1 +1:3y +4 :3y +3 1E:7 g:9 D :3y +6 T+1:9 X:7 c+1:9 16:7 2t+2 2:1 +4:3y
  +1 +3:3y 1 2+6:1 5:3y 7 4+1 3d+1 :3y +6 :3y +1 :3M :3s :3y :3g +A :3K +1:3G :3y :3w 1 :3L :3y 1 :3y
  bD+1 +1:1 +3 +2:1 +1 5 4+1:1 1 :3y 1 +1:1 +3:3y 1 Nx+2 2i:9 1z+v 8X:3w :3G :3K :3A +1:3C 1I+1:8 7Qx 5+9
  x+1 1j+1 4t:9 C:9 2s:9 s+h W+2:3y C:9 1y:7 d:9 3S 2+1 :3y 3+1 6+1 2 R:9 3Z:9 5gZ:q cq+6 +6:3y +1 fI:3y
  3F:3y 2q+4 r9:3y 2 F :1 :3y 5:9 2G :3y 9g+3 6g+1 2u+1:3y +2 :3y 1 +3:3y O :3y 1 :3y 37:9 G:9 f:9 W:9 :7
  18+2 N+1:9 11:7 1f:9 a:7 1J:9 :7 2T:7 :9 1j+1:7 h:9 p+6 4+4 3k:9 4:7 o 1C:9 :7 44:9 :7 23:9 1V:9 :7
  1S:9 4m:9 :7 4b+1:9 5:7 2x:9 1m:9 j:9 1k:9 6O:9 4b:7 2+1:9 1k:9 59n+4:1 Y+6 jw+1:6 56B:1 1nN+1:3u +2:1
  4:3E +4:3u 9+7:3y 3+4 +1:3y v+3 2p+2 UI+6 2+g 3+6 2+1 2+4 4e+6 64 10+3 oh+6:3y 1M+5 :7"

/-- Pairs that one character stands for, and into which it is taken apart. The place is that of the
second character of the pairs. `x` gives the first one, counted from that of the pair before; with
`x+n` and `x-n` the distance from it to the one for both grows or shrinks by `n`. -/
def compositions : String :=
  "co:13+23,4+4,4,5+4L,1-4L,6+1,2+1Yp,2+1O,8-20i,4+4,4,5+4g,1-4g,6+1,2+1XU,2+1O,1b-2q
  0:3g+1ZI,a+8,8-1VJ,6+1UO,8+i,a+8,8-1VJ,6+1UW,1,f-2M,1,V+2,1,1l+U,1,e-1,1,7L-4q
  0:eN+1Sr,2,2+e,6+o,6-k,4+c,8-2m,4-2,2,2,6-4,6-4,4-2,1+1n,1+f,1c-1Sk,3+a,t+C,3+a
  0:240+2,1,7,1,7,1,7,1,7,1,7,1,7,1,7,1,7,1,7,1,7,1,8,7,1,7,1
  :13+24,2+15,2-11,2+4N,2-4N,2+1Xj,1-1VC,1+1VO,1-1VG,1-1P,1+1XO,2-1VM,1+5,2-26
  0:1p+20z,2-1Yr,1+2v,7-2z,2+A,2-w,2+4i,2-4i,2+1WO,1-1VC,1+1VO,1-1VG,1-1k,1+1Xj
  0:1Q+3F,1+5,2-1B,2+1XV,2-1XW,1+20,1a+1Vg,3-1Up,1+1,1+1RN,3+2T,5-2p,5+2x,1-29,3-1SV
  0:3y+43,6+1UQ,3-1Up,1+1,1+1RN,3+2T,5-2p,5+2x,1-29,3-1SV,4-H,6+1UY,1,f-2I,1,V+2,1
  0:5O+1W0,1,T+G,1,e-1,1,7L-1WQ,4-2,2-1,2-1,6-4,6-4,4-3,8+l,4-3,2-1,2-1,6+n,6-5,4-3
  0:fE-W,1+v,7+s,13-h,7+2,p+K,7+2,1My-u,1,7,1,7,1,7,1,7,1,7,1,7,1,7,1,7,1,7,1,7,1,8 0:25y+4,1,7,1
  :13+25,2+16,2-12,2+1i,1+7,1-1p,1+1D,5-1D,4+28,2-27,2+2r,2,1+1W9,7-1YF,2+B,2-x,2+N,1+7
  0:1H+29,1+18,5-18,4+1D,2-1C,2+1W,2,1+1W9,20u-203,1,n+2,1,j-2,1
  :13+26,4+1ZH,4-1Yc,5-1u,1+3,6+2h,1+1W3,3+1X,8-20l,4+1Zc,4-1Yc,5-Z,1+3,6+1M,1+1W3
  0:1X+21W,1b-2s,8+i,a+8,e-V,8+i,a+8,e-N,1,2x-1Q,1,e-1,1
  :13+35,4+e,2+1VW,2-1VC,6+s,6+o,4+3a,8-53,4+e,2+1VW,2-1VC,6+s,6+o,4+3a,1d-2A,2+2
  0:3r+5x,1-3,6-1t,8+2,2+2,f+X,1-3,6-1t,3Q-3u,1,X-1a,1,7+1a,1,5I+1Se,8+o,c+4,c-16,8+o
  0:fz+1S4,1l-1OO,b+1,l-w,b+1,1J9-2K,1,z,1
  2:13+37,4+e,2+8,2+c,6+s,6+o,c-1T,4+e,2+8,2+c,6+s,6+o,71+1Nq,1,5O+P,8+o,c+4,c-16
  0:fn+1RZ,c+4,1d-1OX,5+1,1-m,2-2K,b-m,d+2W,5+1,1-m,2-2f,b+q,1KR-5,1
  :13+7P,1+1R1,1-1VD,1+1VJ,1-1Vz,1+1VR,1-1VJ,1+1VL,1-1Vx,4+1VW,1+3,1-1RZ,1+1Sf,2
  0:1l+205,1+9,3+p,1+3,1+3,1-1W4,7+2F,1+1R1,1-1VD,1+1VJ,1-1Vz,1+1VR,1-1VJ,1+1VL
  0:1L+1Za,1+3,1-1RZ,1+1Sf,2,1+7,1+9,3+p,1+3,1+3,1-1W4,3C+1RK,1,5-4,1,u+m,1Vh-1W6,1
  :13+27,4+3,3+1Xa,1-1Xa,6+1,6,2+1Yq,1+7,1-1W5,8-2w,4+3,3+1WF,1-1WF,6+1,5+1Yg,1-1Yg
  0:1V+206,1+7,1-1Y3,1u+1Vx,w-v,1T-1c,1,90-1VJ,c-b,k+b,c-b,d-4,Q-1,a+37,5-3s,1+3w
  0:gT+3d,1+5,6-4,5+5,4,4,2-e,3-s,5-2b,1+2f,1+1,1+5,6-4,5+5,4,4,2-e,9-2z,26+1,1,f,1
  :13+21r,4+k,4+a,6,6+i,4+c,8-1t,4+k,4+a,6,6+i,4+c,1b-2s,8+i,a+8,e-V,8+i,a+8,e-N,1 0:6I+1WK,1,e-1,1
  :13+28,k+2p,c-2p,k+1U,2+1Wn,2-1 :1h+49,6+q,q-V,6+q,fc-J,w-v
  :13+6o,2-39,1+1,1+b,2+3g,1+T,1-1i,2+n,1-2M,2+8,1+2d,3-20,1+7,1+3,1+1M,5-1t,7+1c,2-39
  0:1C+2L,1+b,2+3g,1+T,1-1i,1+v,1-8,1-2M,2+8,1+2d,3-20,1+7,1+3,1+1M,5-1t,1A-7,w-v,31-2H 0:aC-2D
  3:13+7d,4,4,6-2,3+1,3+1,c-v,4,4,6-2,3+1,3+1,gv-6G,1 2:13+7f,4,4,6-2,3+1,3+1,c-v,4,4,6-2,3+1,3+1
  2:eJ+1Pp,4+c,2+e,2+e,6+a,a+m,8-1O,4+c,2+e,2+e,6+a,2+2C,4-2s,4+c
  :eJ+1Pq,4+c,2+e,2+e,6+a,2+2B,4-2r,4+c,8-1O,4+c,2+e,2+e,6+a,2+2C,4-2s,4+c 7:1h+5r,6+9,q-E,6+9
  8:13+21p,1-2x,2+6,1+2L,3-2r,1+2F,2-2u,1+3,1+b,1+3,1+29,3-1T,1+7,1+9,1+1V,1-1F,1+9,2+1I
  0:1s+20M,7+8,1-2x,2+6,1+2L,3-2r,1+2F,2-2u,1+3,1+b,1+3,1+29,3-1T,1+7,1+9,1+1V,1-1F,1+9,2+1I
  0:1Y+20h,4K-3t,1,e-1,1 :1n+20l,w-v :13+1YP,w-v :1l+7j,1+1,v-w,1+1
  :15+28,1+1WU,1-1Rf,2-4g,1+1VP,3-1Vz,1+4,2+8,4+d,1+7,1+3,f-2e,1+1Wp,1-1Rf,2-4g
  0:1G+1YR,3-1Vz,1+4,2+8,4+d,1+7,1+3 :13+39,4+g,4+i,6+2W,6-22,c-1X,4+g,4+i,6+2W,6-22
  5:16+1Z4,1+5,7+t,2+c,6+w,1+5,f-1Q,1+5,7+t,2+c,6+w,1+5 :1a+1Zo,w-v 2:17+1Zb,4+e,c+Y,g-1H,4+e,c+Y
  :14+1YU,2+6,7+v,1+5,2+c,4+i,2+e,6+w,8-2p,2+6,4+27,3-1C,1+5,2+c,4+i,2+e,6+w
  h:ff+1RH,6+a,2+e,c+4,4+c,1-w,1+f,1Ol-1RY,1,7,1,n,1,7,1,7,1,7,1,n,1,8,7,1,7,1
  3:eJ+1Sj,6+a,i+u,3-1d,2+e,3-k,6+a,i+u,5-4,1Oi-1Qa,1,1,1,1,1,1,1,1,1,1,1,1,1,1,1
  0:24w+1O,1,1,1,1,1,1,1,1,1,1,1,1,1,1,1,N-M,1,1,1,1,1,1,1,1,1,1,1,1,1,1,1,1+2,4+c,8+E 0:26W+1,g,M
  cC:pp-5 :pp-4,x-w,2,1V+B,h,3-m :pp-2 bZ:BO+1,8,3 26:En+4 p:En+5 5N:Kz+4 o:Kz+1 :Kz+5 1F:MC+4,1
  p:LM+2,Q+4 23:OG+2 1K:QK+4 j:QD+1,7,4 :QK+2 1G:SO+4,1 p:SO+6 1R:Vb+1,3 5:Vb+3 g:Vb+5 9x:14F+1
  Jx:1Nz+1,2,2,2,2,4,F,2,2+1,1,3-1
  1qk:3dk+1g,5-1f,2,2,2,2,2,2,2,2,2,2,2,3,2,2,7,3,3,3,3,y,9+1f,5-1f,2,2,2,2,2,2,2,2,2,2,2
  0:3fm+1,2,2,7,3,3,3,3,k+7,1,1,1,b-7 :3dZ+2,3,3,3,3,1m,3,3,3,3 eVq:i9z+1,2,a+5 1L:ic1-3,1 8D:ikD+4
  p:ikD+5 5z:iqB+3 a:iqB+2 3:iqB+5 3U:iuI+2,1 et:iJ7+3"

def oneWayCompositions : String :=
  "co:2I+257,24n-24T,11-L :2I+bP,24n-bA,11-L
  T:Y+2hc,1-f,1+e,2dA-2h1,2-1,2+h,Y-t,2,2-3,L+7,5,3,o,2,n+4,7-4,2+1,3-1,5+v,k-v
  0:2i0+c,1,d-a,1,3,1,3+4,1,1+1w,1,5-1A,1,3,1,a+1h,1,g-19,6-5,1,2-1,7+Q,1,1,1 a:2I+24p,24n-249,11-L"

end AssetCatalog.Text.Table
