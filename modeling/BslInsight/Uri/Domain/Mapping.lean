import BslInsight.Text.CodeRow
import BslInsight.Text.LowerCase

/-!
# Characters of domain names

How Unicode 17 prepares a domain name: some characters are left out, some stand for others, and some
must not occur at all.
-/

namespace BslInsight.Domain

def disallowedRanges : List (Nat × Nat) :=
  rangesFrom 0 (tableNumbers "
  .24V.Bl1738020L0.6Q0d1p140u7S37GN0.370n1y1.1eDy1o1G0T120C4X6.1E0.2c09131N0802251A13157233061Q14073
  31N08030303120633142265026I940A040N0803061B040412E51D680409131N0803061A13146433061J930724052302032
  3242D3624051252DM4E040O0H1A0405630403151B6N040O0B061A04056344051B04BE040q04073H1R040J2P0A021822370
  2095B14Bx3Ua302060P020O1602080B15V.1B0b3e0b0G0Ea.3D02421.66051802051g051Y051802051G0w051.161X2R5
  .1P171.AL0T2.1S6N8P8LBE0403B.1X1B5B5R5.1S6i4.199W0D3D322h16Aj3R5C2.111.140U1C5B5F1l1DJ.1G0.2h7z2G2
  .114i1C7i4.8d171d17190202020W1s0G0F170K140A0F1L226t491S0E2ZDYE.2H3.AlLCKfJ.SH1.6B4k02421v63DP88080
  808080808080.23XR0.1SB.3Tf.130.1P1.1g4i0.1X0.1P9m0.6l050H0:7VN2u8.5dJ.2z7.3aJz2B5v7.197D5.1tAV2.1H
  0C3Y0u8F1B1.1gNT97171788080z3.231B5:2uDBO3o:2CJ.5v1.1jb8B64R060203030.AVVZ076H0Y1K05360.2C120.3527
  1717142808GD0R0K030G1FX.20443k2.1R0E22kl.25U2oET3b8V4i4V0c3Ff.2Z1B5b3b3f7rAD0G08030C0G08032rB.528N
  99N70h0A.167120j03221O0.1B7AlK034Y2S4Sbv3L1p0349040U143B6A6.13Ve3D8t2U1S4R65B8.1H.1CsqCq6l7B5d2U73
  .3LW0h0413F77AWl7hLRbTJO8.1H3b8.1106CQ6B5s0J7e8.1Z0LAJ0mz802050G0C5y4B5509131N0803060B131412524818
  26AB02120d0B0212050B0373S.1V06T.1B7B.2ft1dX.18AB5EIx5B5LRS1G3O.2yz.1b.1MB91219030V031D8B.1791l1CQ
  .1B7.1MC.1C6B.1N9.1PZDB5A0k0F9U2X1N0F.1A8030j22030A7B57030c03076B5j3B.3xQ6I0g2U.1M2EpC.Eu.1d.1o06A
  .3B.gV.1cC.HJFN9:12S4.9Q:1mKx.Rx.9C6W0B3.1K0B5V179.199B080M4K.6xx.3B.1U4Q1Qh.1E3w6I.116A88:1v5eX
  .1Y.1s:2GK508030.4iE2S412D57.6P.bD.1k4E2A6B19:11P.462.735OEIEl1O8.1tx.3z9e1.39K.19.1xLBLB.1Q8Q.2A
  .1O0.1A031213150D02080.140519080T050602280.5V1.4j1.BLE60G.HnW57.3Q80I1803064.11W2.1nk2F1B33.59WGx4
  2.7Th.3Ri32.35W0N73.3b805030G0.3C1He.1F3B33.Ce.17.1D.10.3750S0302120B05020252320202040302120202020
  2030215080505020B0I44060Ip3.4Lj3.1dBG1G0G0cA.2otUCj3A63D7.2T.Fu2I2E2.3X5D32ED3v7B5f7V1D33DAc.5Z7F1
  E2C2w023H1D3B6.2O0.1g.Ga:B73V:18h1:1V91:1wYE.A3.dl.8l.OH:1Hg4:2Cx;2y6n.3t:p15".toList)

def ignoredRanges : List (Nat × Nat) := [
  (0xad, 0xad), (0x34f, 0x34f), (0x115f, 0x1160), (0x17b4, 0x17b5), (0x180b, 0x180f),
  (0x200b, 0x200b), (0x2060, 0x2064), (0x206a, 0x206f), (0x3164, 0x3164), (0xfe00, 0xfe0f),
  (0xfeff, 0xfeff), (0xffa0, 0xffa0), (0x1bca0, 0x1bca3), (0x1d173, 0x1d17a), (0xe0100, 0xe01ef)]

def lowMappings : String := "
  a0:20 a8:20.308 aa|a af:20.304 b2:32,33,20.301,3bc b8:20.327,31,6f
  bc:31.2044.34,31.2044.32,33.2044.34 132|ij|ij 13f:6c.b7,6c.b7 149:2bc.6e 17f|s
  1c4|dž|dž|dž|lj|lj|lj|nj|nj|nj 1f1|dz|dz|dz 2b0|h|ɦ|j|r|ɹ|ɻ|ʁ|w|y
  2d8:20.306,20.307,20.30a,20.328,20.303,20.30b 2e0|ɣ|l|s|x|ʕ 340-341:300 343+300:13,8.1,b9 374:2b9
  37a:20.3b9 37e:3b 384:20.301,20.308.301,3ac,b7 3d0=βθυύϋφπ 3f0=κρσ 3f5=ε 3f9=σ 587:565.582
  675+600:27.74,48.74,c7.74,4a.74 958+900:15.3c,16.3c,17.3c,1c.3c,21.3c,22.3c,2b.3c,2f.3c
  9dc:9a1.9bc,9a2.9bc 9df:9af.9bc a33:a32.a3c a36:a38.a3c a59+a00:16.3c,17.3c,1c.3c a5e:a2b.a3c
  b5c:b21.b3c,b22.b3c e33:e4d.e32 eb3:ecd.eb2 edc:eab.e99,eab.ea1 f0c:f0b f43:f42.fb7 f4d:f4c.fb7
  f52:f51.fb7 f57:f56.fb7 f5c:f5b.fb7 f69:f40.fb5 f73:f71.f72
  f75+f00:71.74,b2.80,b2.71.80,b3.80,b3.71.80 f81:f71.f80 f93:f92.fb7 f9d:f9c.fb7 fa2:fa1.fb7
  fa7:fa6.fb7 fac:fab.fb7 fb9:f90.fb5 10fc:10dc 13a0-13f5:13a0 13f8-13fd:13f0 1c80=вдосттъѣꙋ
  1d2c|a|æ 1d2e/1d30:62 1d31|e|ǝ 1d33-1d3a:67 1d3c|o|ȣ|p|r|t|u|w|a|ɐ|ɑ|ᴂ|b|d|e|ə|ɛ|ɜ|g
  1d4f|k|m|ŋ|o|ɔ|ᴖ|ᴗ|p|t|u|ᴝ|ɯ|v|ᴥ|β|γ|δ|φ|χ|i|r|u|v|β|γ|ρ|φ|χ 1d78=н 1d9b|ɒ|c|ɕ|ð|ɜ|f
  1da1=ɟɡɥɨɩɪᵻʝɭᶅʟɱɰ 1dae-1db1:272 1db2=ɸʂʃƫʉʊᴜʋʌ 1dbb|z|ʐ|ʑ|ʒ|θ 1e9a:61.2be,1e61 1f71=ά 1f73=έ
  1f75=ή 1f77=ί 1f79=ό 1f7b=ύ 1f7d=ώ 1f80|ἀι|ἁι|ἂι|ἃι|ἄι|ἅι|ἆι|ἇι|ἀι|ἁι|ἂι|ἃι|ἄι|ἅι|ἆι|ἇι|ἠι|ἡι
  1f92|ἢι|ἣι|ἤι|ἥι|ἦι|ἧι|ἠι|ἡι|ἢι|ἣι|ἤι|ἥι|ἦι|ἧι|ὠι|ὡι|ὢι|ὣι|ὤι|ὥι|ὦι|ὧι|ὠι|ὡι|ὢι|ὣι|ὤι|ὥι|ὦι|ὧι
  1fb2|ὰι|αι|άι 1fb7|ᾶι|ᾰ|ᾱ|ὰ|ά|αι 1fbd:20.313,3b9,20.313,20.342,20.308.342 1fc2|ὴι|ηι|ήι
  1fc7|ῆι|ὲ|έ|ὴ|ή|ηι 1fcd:20.313.300,20.313.301,20.313.342 1fd3=ΐ 1fdb=ί
  1fdd:20.314.300,20.314.301,20.314.342 1fe3=ΰ 1feb=ύ 1fed:20.308.300,20.308.301,60 1ff2|ὼι|ωι|ώι
  1ff7|ῶι|ὸ|ό|ὼ|ώ|ωι 1ffd:20.301,20.314 2000:20,20,20,20,20,20,20,20,20,20,20 2011:2010 2017:20.333
  202f:20 2033+2000:32.32,32.32.32 2036+2000:35.35,35.35.35 203c:21.21 203e:20.305
  2047:3f.3f,3f.21,21.3f 2057+2000:32.32.32.32 205f:20 2070|0|i 2074-2079:34
  207a:2b,2212,3d,28,29,6e 2080-2089:30 208a:2b,2212,3d,28,29 2090|a|e|o|x|ə|h|k|l|m|n|p|s|t 20a8|rs
  2100|a/c|a/s|c 2103:b0.63 2105|c/o|c/u|ɛ 2109:b0.66 210a|g|h|h|h|h|ħ|i|i|l 2113/2115:6c 2116|no
  2119|p|q|r|r|r 2120|sm|tel|tm 2124|z 2128|z 212c|b|c 212f:65,65,66,214e,6d,6f,5d0,5d1,5d2,5d3,69
  213b|fax|π|γ|γ|π 2140:2211 2145|d|d|e|i|j
  2150:31.2044.37,31.2044.39,31.2044.31.30,31.2044.33,32.2044.33,31.2044.35,32.2044.35,33.2044.35
  2158:34.2044.35,31.2044.36,35.2044.36,31.2044.38,33.2044.38,35.2044.38,37.2044.38,31.2044
  2160|i|ii|iii|iv|v|vi|vii|viii|ix|x|xi|xii|l|c|d|m|i|ii|iii|iv|v|vi|vii|viii|ix|x|xi|xii|l|c|d|m
  2189:30.2044.33 222c+2200:2b.2b,2b.2b.2b 222f+2200:2e.2e,2e.2e.2e 2329-232a:3008 2460-2468:31
  2469|10|11|12|13|14|15|16|17|18|19|20
  2474|(1)|(2)|(3)|(4)|(5)|(6)|(7)|(8)|(9)|(10)|(11)|(12)|(13)|(14)|(15)|(16)|(17)|(18)|(19)|(20)
  249c|(a)|(b)|(c)
  249f|(d)|(e)|(f)|(g)|(h)|(i)|(j)|(k)|(l)|(m)|(n)|(o)|(p)|(q)|(r)|(s)|(t)|(u)|(v)|(w)|(x)|(y)|(z)
  24b6-24cf:61 24d0-24e9:61 24ea|0 2a0c+2200:2b.2b.2b.2b 2a74:3a.3a.3d,3d.3d,3d.3d.3d 2adc:2add.338
  2c7c|j|v 2d6f:2d61 2e9f=母 2ef3=龟 2f00=一丨丶丿乙亅二亠人儿入八冂冖冫几凵刀力勹匕匚匸十卜卩厂厶又口囗土士夂
  2f22=夊夕大女子宀寸小尢尸屮山巛工己巾干幺广廴廾弋弓彐彡彳心戈戶手支攴文斗斤方无日曰月木欠止歹殳
  2f4f=毋比毛氏气水火爪父爻爿片牙牛犬玄玉瓜瓦甘生用田疋疒癶白皮皿目矛矢石示禸禾穴立竹米糸缶网羊羽
  2f7c=老而耒耳聿肉臣自至臼舌舛舟艮色艸虍虫血行衣襾見角言谷豆豕豸貝赤走足身車辛辰辵邑酉釆里金長門
  2fa9=阜隶隹雨靑非面革韋韭音頁風飛食首香馬骨高髟鬥鬯鬲鬼魚鳥鹵鹿麥麻黃黍黑黹黽鼎鼓鼠鼻齊齒龍龜龠"

def highMappings : String := "
  3000:20 3002:2e 3036:3012 3038=十卄卅 309b:20.3099,20.309a 309f|より 30ff|コト 3131+1100:0,1,aa,2,ac,ad
  3137-3139:1103 313a-313f:11b0 3140+1100:1a,6,7,8,21 3145-314e:1109 314f-3163:1161 3165-3166:1114
  3167+1100:c7,c8,cc,ce,d3,d7,d9,1c,dd,df,1d,1e,20,22,23,27,29 3178-317c:112b
  317d+1100:32,36,40,47,4c,f1,f2,57,58,59,84,85,88,91,92,94,9e,a1 3192=一二三四上中下甲乙丙丁天地人
  3200:28.1100.29,28.1102.29,28.1103.29,28.1105.29,28.1106.29,28.1107.29
  3206:28.1109.29,28.110b.29,28.110c.29,28.110e.29,28.110f.29,28.1110.29,28.1111.29,28.1112.29
  320e|(가)|(나)|(다)|(라)|(마)|(바)|(사)|(아)|(자)|(차)|(카)|(타)|(파)|(하)|(주)|(오전)|(오후)
  3220|(一)|(二)|(三)|(四)|(五)|(六)|(七)|(八)|(九)|(十)|(月)|(火)|(水)|(木)|(金)|(土)|(日)|(株)
  3232|(有)|(社)|(名)|(特)|(財)|(祝)|(労)|(代)|(呼)|(学)|(監)|(企)|(資)|(協)|(祭)|(休)|(自)|(至) 3244=問幼文箏
  3250|pte|21|22|23|24|25|26|27|28|29|30|31|32|33|34|35 3260+1100:0,2,3,5,6,7,9,b,c 3269-326d:110e
  326e=가나다라마바사아자차카타파하 327c|참고|주의|우 3280=一二三四五六七八九十月火水木金土日株有社名特財祝労秘男女適優印注項休写正上中下左右医宗学監
  32ad|企|資|協|夜|36|37|38|39|40|41
  32b7|42|43|44|45|46|47|48|49|50|1月|2月|3月|4月|5月|6月|7月|8月|9月|10月|11月|12月|hg|erg|ev|ltd
  32d0=アイウエオカキクケコサシスセソタチツテト 32e4-32e9:30ca 32ea=ヒフヘホ 32ee-32f2:30de 32f3=ヤユ 32f5-32fa:30e8
  32fb-32fe:30ef 32ff|令和|アパート|アルファ|アンペア|アール|イニング|インチ|ウォン
  3307+3000:a8.b9.af.fc.c9,a8.fc.ab.fc,aa.f3.b9,aa.fc.e0,ab.a4.ea,ab.e9.c3.c8,ab.ed.ea.fc,ac.ed.f3
  330f+3000:ac.f3.de,ae.ac,ae.cb.fc,ad.e5.ea.fc,ae.eb.c0.fc,ad.ed,ad.ed.b0.e9.e0,ad.ed.e1.fc.c8.eb
  3317+3000:ad.ed.ef.c3.c8,b0.e9.e0,b0.e9.e0.c8.f3,af.eb.bc.a4.ed,af.ed.fc.cd,b1.fc.b9,b3.eb.ca
  331e+3000:b3.fc.dd,b5.a4.af.eb,b5.f3.c1.fc.e0,b7.ea.f3.b0,bb.f3.c1,bb.f3.c8,c0.fc.b9,c7.b7
  3326+3000:c9.eb,c8.f3,ca.ce,ce.c3.c8,cf.a4.c4,d1.fc.bb.f3.c8,d1.fc.c4,d0.fc.ec.eb,d4.a2.b9.c8.eb
  332f+3000:d4.af.eb,d4.b3,d3.eb,d5.a1.e9.c3.c9,d5.a3.fc.c8,d6.c3.b7.a7.eb,d5.e9.f3,d8.af.bf.fc.eb
  3337+3000:da.bd,da.cb.d2,d8.eb.c4,da.f3.b9,da.fc.b8,d9.fc.bf,dd.a4.f3.c8,dc.eb.c8,db.f3,dd.f3.c9
  3341+3000:db.fc.eb,db.fc.f3,de.a4.af.ed,de.a4.eb,de.c3.cf,de.eb.af,de.f3.b7.e7.f3,df.af.ed.f3
  3349+3000:df.ea,df.ea.d0.fc.eb,e1.ac,e1.ac.c8.f3,e1.fc.c8.eb,e4.fc.c9,e4.fc.eb,e6.a2.f3
  3351|リットル|リラ|ルピー|ルーブル|レム|レントゲン|ワット|0点|1点|2点|3点|4点|5点|6点|7点|8点
  3361|9点|10点|11点|12点|13点|14点|15点|16点|17点|18点|19点|20点|21点|22点|23点|24点|hpa|da|au
  3374|bar|ov|pc|dm|dm2|dm3|iu|平成|昭和|大正|明治|株式会社|pa|na|μa|ma|ka|kb|mb|gb|cal|kcal|pf|nf
  338c|μf|μg|mg|kg|hz|khz|mhz|ghz|thz|μl|ml|dl|kl|fm|nm|μm|mm|cm|km|mm2|cm2|m2|km2|mm3|cm3|m3|km3
  33a7:6d.2215.73,6d.2215.73.32 33a9|pa|kpa|mpa|gpa|rad 33ae:72.61.64.2215.73,72.61.64.2215.73.32
  33b0|ps|ns|μs|ms|pv|nv|μv|mv|kv|mv|pw|nw|μw|mw|kw|mw|kω|mω 33c3|bq|cc|cd 33c6:63.2215.6b.67
  33c8|db|gy|ha|hp|in|kk|km|kt|lm|ln|log|lx|mb|mil|mol|ph 33d9|ppm|pr|sr|sv|wb
  33de:76.2215.6d,61.2215.6d 33e0|1日|2日|3日|4日|5日|6日|7日|8日|9日|10日|11日|12日|13日|14日
  33ee|15日|16日|17日|18日|19日|20日|21日|22日|23日|24日|25日|26日|27日|28日|29日|30日|31日|gal a69c=ъь a770=ꝯ
  a7f1|s|c|f|q a7f8=ħœ ab5c=ꜧꬷɫꭒ ab69=ʍ ab70-abbf:13a0
  f900=豈更車賈滑串句龜龜契金喇奈懶癩羅蘿螺裸邏樂洛烙珞落酪駱亂卵欄爛蘭鸞嵐濫藍襤拉臘蠟廊朗浪狼郎
  f92d=來冷勞擄櫓爐盧老蘆虜路露魯鷺碌祿綠菉錄鹿論壟弄籠聾牢磊賂雷壘屢樓淚漏累縷陋勒肋凜凌稜綾菱陵
  f95a=讀拏樂諾丹寧怒率異北磻便復不泌數索參塞省葉說殺辰沈拾若掠略亮兩凉梁糧良諒量勵呂女廬旅濾礪閭
  f987=驪麗黎力曆歷轢年憐戀撚漣煉璉秊練聯輦蓮連鍊列劣咽烈裂說廉念捻殮簾獵令囹寧嶺怜玲瑩羚聆鈴零靈
  f9b4=領例禮醴隸惡了僚寮尿料樂燎療蓼遼龍暈阮劉杻柳流溜琉留硫紐類六戮陸倫崙淪輪律慄栗率隆利吏履易
  f9e1=李梨泥理痢罹裏裡里離匿溺吝燐璘藺隣鱗麟林淋臨立笠粒狀炙識什茶刺切度拓糖宅洞暴輻行降見廓兀嗀 fa10=塚 fa12=晴 fa15=凞猪益礼神祥福靖精羽 fa20=蘒 fa22=諸
  fa25=逸都 fa2a=飯飼館鶴郞隷侮僧免勉勤卑喝嘆器塀墨層屮悔慨憎懲 fa41=敏既暑梅海渚漢煮爫琢碑社祉祈祐祖祝禍禎穀突節練縉繁署者臭艹艹著褐視謁謹賓贈辶逸難響頻恵𤋮舘
  fa70=並况全侀充冀勇勺喝啕喙嗢塚墳奄奔 fa80=婢嬨廒廙彩徭惘慎愈憎慠懲戴揄搜摒敖晴朗望杖歹殺流滛滋漢瀞煮瞧爵犯猪瑱甆画瘝瘟益盛直睊着磌窱
  faad=節类絛練缾者荒華蝹襁覆視調諸請謁諾諭謹變贈輸遲醙鉶陼難靖韛響頋頻鬒龜𢡊𢡄𣏕㮝䀘䀹𥉉𥳐𧻓齃龎 fb00|ff|fi|fl|ffi|ffl|st|st
  fb13+500:74.76,74.65,74.6b,7e.76,74.6d fb1d:5d9.5b4 fb1f+500:f2.b7,e2,d0,d3,d4,db,dc,dd,e8,ea
  fb29:2b
  fb2a+500:e9.c1,e9.c2,e9.bc.c1,e9.bc.c2,d0.b7,d0.b8,d0.bc,d1.bc,d2.bc,d3.bc,d4.bc,d5.bc,d6.bc
  fb38+500:d8.bc,d9.bc,da.bc,db.bc,dc.bc fb3e:5de.5bc fb40:5e0.5bc,5e1.5bc fb43:5e3.5bc,5e4.5bc
  fb46+500:e6.bc,e7.bc,e8.bc,e9.bc,ea.bc,d5.b9,d1.bf,db.bf,e4.bf,d0.dc
  fb50+600:71,71,7b,7b,7b,7b,7e,7e,7e,7e,80
  fb5b+600:80,80,80,7a,7a,7a,7a,7f,7f,7f,7f,79,79,79,79,a4,a4,a4,a4,a6,a6,a6,a6,84,84,84,84,83,83
  fb78+600:83,83,86,86,86,86,87,87,87,87,8d,8d,8c,8c,8e,8e,88,88,98,98,91,91,a9,a9,a9,a9,af,af,af
  fb95+600:af,b3,b3,b3,b3,b1,b1,b1,b1,ba,ba,bb,bb,bb,bb,c0,c0,c1,c1,c1,c1,be,be,be,be,d2,d2,d3,d3
  fbd3+600:ad,ad,ad,ad,c7,c7,c6,c6,c8,c8,c7.74,cb,cb,c5,c5,c9,c9,d0,d0,d0,d0 fbe8*621:e,e,56,56
  fbec+600:26.d5,26.d5 fbee*621:5d,5d fbf0+600:26.c7,26.c7,26.c6,26.c6,26.c8,26.c8,26.d0,26.d0,26.d0
  fbf9*621:5e,5e,5e fbfc+600:cc,cc,cc,cc
  fc00*621:5B,5C,5a,5e,5f,7B,7C,7D,7a,7e,7f,9B,9C,9D,9a,9e,9f,AB,Aa,Ae,Af,BC,Ba,CB,Ca,DB,DC,Da,IB
  fc1d*621:IC,ID,Ia,KC,Ka,LB,LC,LD,La,MC,Ma,Na,OB,Oa,PB,Pa,WB,WC,WD,Wa,We,Wf,XC,Xa,Xe,Xf,Y6,YB,YC
  fc3a*621:YD,YZ,Ya,Ye,Yf,ZB,ZC,ZD,Za,Ze,Zf,aB,aC,aD,aa,ae,af,bB,bC,bD,ba,be,bf,cB,ca,ce,cf,fB,fC
  fc57*621:fD,fa,fe,ff fc5b+600:30.70,31.70,49.70
  fc5e:20.64c.651,20.64d.651,20.64e.651,20.64f.651,20.650.651,20.651.670
  fc64*621:5G,5H,5a,5b,5e,5f,7G,7H,7a,7b,7e,7f,9G,9H,9a,9b,9e,9f,AG,AH,Aa,Ab,Ae,Af,We,Wf,Xe,Xf,Y6
  fc81*621:YZ,Ya,Ye,Yf,Za,Ze,Zf,a6,aa,bG,bH,ba,bb,be,bf fc90+600:49.70
  fc91*621:fG,fH,fa,fb,fe,ff,5B,5C,5D,5a,5c,7B,7C,7D,7a,7c,9B,9C,9D,9a,9c,Aa,BC,Ba,CB,Ca,DB,Da,IB
  fcae*621:IC,ID,Ia,KC,KD,Ka,LB,LC,LD,La,MC,Na,OB,Oa,PB,Pa,WB,WC,WD,Wa,XC,Xa,YB,YC,YD,YZ,Ya,ZB,ZC
  fccb*621:ZD,Za,Zc,aB,aC,aD,aa,bB,bC,bD,ba,bc,cB,ca fcd9+600:47.70
  fcda*621:fB,fC,fD,fa,fc,5a,5c,7a,7c,9a,9c,Aa,Ac,Ia,Ic,Ja,Jc,YZ,Ya,Za,ba,bc,fa,fc,Vjm,Vkm,Vlm,Me
  fcf6*621:Mf,Oe,Of,Pe,Pf,Ie,If,Je,Jf,Ce,Cf,Be,Bf,De,Df,Ke,Kf,Le,Lf,JB,JC,JD,Ja,JG,IG,KG,LG,Me,Mf
  fd13*621:Oe,Of,Pe,Pf,Ie,If,Je,Jf,Ce,Cf,Be,Bf,De,Df,Ke,Kf,Le,Lf,JB,JC,JD,Ja,JG,IG,KG,LG,JB,JC,JD
  fd30*621:Ja,Ic,Jc,Ma,IB,IC,ID,JB,JC,JD,Ma,Na,6g,6g
  fd50*621:9Ba,9CB,9CB,9Ca,9Da,9aB,9aC,9aD,BaC,BaC,Caf,Cae,ICB,IBC,IBe,IaC,IaC,IaB,Iaa,Iaa,KCC,KCC
  fd66*621:Kaa,JCa,JCa,JBf,JaD,JaD,Jaa,Jaa,LCe,LDa,LDa,MaC,MaC,Maa,Maf,OBa,Oaa,Oaa,Oae,Paa,Paf,Pae
  fd7c*621:WDa,WDa,XaC,Xaa,ZCa,ZCf,ZCe,ZBB,ZBB,ZDa,ZDa,ZaC,ZaC,aCB,aCa,aCf,aBC,aBa,aDB,aDa
  fd92*621:aBD,caB,caa,bCa,bCe,bBa,bBa,bBe,baf,bae,faa,faa,7Df,9Bf,9Be,9Df,9De,9af,9ae,Baf,BCe,Bae
  fda8*621:IDe,KCf,JCf,LCf,ZBf,Zaf,fCf,fBf,faf,aaf,Xaf,bCf,XaC,ZCa,Oaf,Yaf,bBC,aDf,ZBa,Yaa,ZBa,bBC
  fdbe*621:BCf,CBf,aBf,Waf,7Cf,Yaa,OBa,Kaa,IDf,bBf fdf0+600:35.44.d2,42.44.d2
  fdf2*621:6ZZc,6Y7G,aCaE,KZOa,GIdZ,OZfc,dIZa,KZe
  fdfa:635.644.649.20.627.644.644.647.20.639.644.64a.647.20.648.633.644.645
  fdfb:62c.644.20.62c.644.627.644.647 fdfc+600:31.cc.27.44 fe10:2c,3001 fe13:3a,3b,21,3f,3016,3017
  fe31:2014,2013,5f,5f,28,29,7b,7d fe39+3000:14,15,10,11,a,b,8,9 fe41-fe44:300c
  fe47:5b,5d,20.305,20.305,20.305,20.305,5f,5f,5f,2c,3001
  fe54:3b,3a,3f,21,2014,28,29,7b,7d,3014,3015,23,26,2a,2b,2d,3c,3e,3d fe68:5c,24,25,40 fe70:20.64b
  fe71*621:Vg fe72:20.64c fe74:20.64d fe76:20.64e fe77*621:Vj fe78:20.64f fe79*621:Vk fe7a:20.650
  fe7b*621:Vl fe7c:20.651 fe7d*621:Vm fe7e:20.652
  fe7f*621:Vn,0,1,1,2,2,3,3,4,4,5,5,5,5,6,6,7,7,7,7,8,8,9,9,9,9,A,A,A,A,B,B,B,B,C,C,C,C,D,D,D,D,E,E
  feab*621:F,F,G,G,H,H,I,I,I,I,J,J,J,J,K,K,K,K,L,L,L,L,M,M,M,M,N,N,N,N,O,O,O,O,P,P,P,P,W,W,W,W,X,X
  fed7*621:X,X,Y,Y,Y,Y,Z,Z,Z,Z,a,a,a,a,b,b,b,b,c,c,c,c,d,d,e,e,f,f,f,f,Z1,Z1,Z2,Z2,Z4,Z4,Z6,Z6
  ff01-ff20:21 ff21-ff3a:61 ff3b-ff5e:5b ff5f-ff60:2985 ff61:2e ff62+3000:c,d,1,fb
  ff66=ヲァィゥェォャュョッーアイウエオカキクケコサシスセソタチツテト ff85-ff8a:30ca ff8b=ヒフヘホ ff8f-ff93:30de ff94=ヤユ
  ff96-ff9b:30e8 ff9c+3000:ef,f3,99,9a ffa1+1100:0,1,aa,2,ac,ad ffa7-ffa9:1103 ffaa-ffaf:11b0
  ffb0+1100:1a,6,7,8,21 ffb5-ffbe:1109 ffc2-ffc7:1161 ffca-ffcf:1167 ffd2-ffd7:116d ffda-ffdc:1173
  ffe0:a2,a3,ac,20.304,a6,a5,20a9 ffe8:2502 ffe9-ffec:2190 ffed:25a0,25cb 10781:2d0,2d1,e6,299,253
  10787=ʣꭦʥʤɖɗᶑɘɞʩɤɢɠʛħʜɧʄʪʫɬ 1079c:1df04,a78e,26e,1df05,28e,1df06,f8,276,277,71,27a,1df08
  107a8=ɽɾʀʨʦꭧʧʈⱱ 107b2=ʏʡʢʘǀǁǂ 107b9+1df00:a,1e 1ccd6-1ccef:61 1ccf0-1ccf9:30
  1d15e+1d100:57.65,58.65,58.65.6e,58.65.6f,58.65.70,58.65.71,58.65.72
  1d1bb+1d100:b9.65,ba.65,b9.65.6e,ba.65.6e,b9.65.6f,ba.65.6f 1d400-1d419:61 1d41a-1d433:61
  1d434-1d44d:61 1d44e-1d454:61 1d456-1d467:69 1d468-1d481:61 1d482-1d49b:61 1d49c/1d49e:61 1d49f|d
  1d4a2|g 1d4a5|j|k 1d4a9-1d4ac:6e 1d4ae-1d4b5:73 1d4b6-1d4b9:61 1d4bb/1d4bd:66 1d4be-1d4c3:69
  1d4c5-1d4cf:70 1d4d0-1d4e9:61 1d4ea-1d503:61 1d504|a|b 1d507-1d50a:64 1d50d-1d514:6a
  1d516-1d51c:73 1d51e-1d537:61 1d538|a|b 1d53b-1d53e:64 1d540-1d544:69 1d546|o 1d54a-1d550:73
  1d552-1d56b:61 1d56c-1d585:61 1d586-1d59f:61 1d5a0-1d5b9:61 1d5ba-1d5d3:61 1d5d4-1d5ed:61
  1d5ee-1d607:61 1d608-1d621:61 1d622-1d63b:61 1d63c-1d655:61 1d656-1d66f:61 1d670-1d689:61
  1d68a-1d6a3:61 1d6a4=ıȷ 1d6a8-1d6b8:3b1 1d6b9=θ 1d6ba-1d6c0:3c3 1d6c1:2207 1d6c2-1d6d2:3b1 1d6d3=σ
  1d6d4-1d6da:3c3 1d6db:2202 1d6dc=εθκφρπ 1d6e2-1d6f2:3b1 1d6f3=θ 1d6f4-1d6fa:3c3 1d6fb:2207
  1d6fc-1d70c:3b1 1d70d=σ 1d70e-1d714:3c3 1d715:2202 1d716=εθκφρπ 1d71c-1d72c:3b1 1d72d=θ
  1d72e-1d734:3c3 1d735:2207 1d736-1d746:3b1 1d747=σ 1d748-1d74e:3c3 1d74f:2202 1d750=εθκφρπ
  1d756-1d766:3b1 1d767=θ 1d768-1d76e:3c3 1d76f:2207 1d770-1d780:3b1 1d781=σ 1d782-1d788:3c3
  1d789:2202 1d78a=εθκφρπ 1d790-1d7a0:3b1 1d7a1=θ 1d7a2-1d7a8:3c3 1d7a9:2207 1d7aa-1d7ba:3b1 1d7bb=σ
  1d7bc-1d7c2:3c3 1d7c3:2202 1d7c4=εθκφρπϝϝ 1d7ce-1d7d7:30 1d7d8-1d7e1:30 1d7e2-1d7eb:30
  1d7ec-1d7f5:30 1d7f6-1d7ff:30 1e030-1e038:430 1e039-1e03b:43a 1e03c-1e046:43e 1e047=ыэюꚉәіјөүӏ
  1e051-1e059:430 1e05a=клопс 1e05f-1e064:443 1e065=ъыґіѕџҫꙑұ 1ee00*621:6,7,B,E 1ee05*621:d,H,C,M,f
  1ee0a-1ee0d:643 1ee0e*621:I,O,W,K,X,G,J,9,A,D,F,L,N,P 1ee1c+600:6e,ba,a1,6f 1ee21*621:7,B
  1ee24*621:c 1ee27*621:C 1ee29*621:f,Y,Z,a,b,I,O,W,K,X 1ee34*621:J,9,A,D 1ee39*621:L 1ee3b*621:P
  1ee42*621:B 1ee47*621:C 1ee49*621:f 1ee4b/1ee4d:644 1ee4e*621:I,O 1ee51*621:K,X 1ee54*621:J
  1ee57*621:D 1ee59*621:L 1ee5b*621:P 1ee5d:6ba 1ee5f:66f 1ee61*621:7,B 1ee64*621:c 1ee67*621:C,M,f
  1ee6a/1ee6c:643 1ee6d*621:b,I,O,W,K,X 1ee74*621:J,9,A,D 1ee79*621:L,N,P 1ee7c+600:6e 1ee7e:6a1
  1ee80*621:6,7,B,E,c,d,H,C,M,f 1ee8b*621:Z,a,b,I,O,W,K,X,G,J,9,A,D,F,L,N,P 1eea1*621:7,B,E
  1eea5*621:d,H,C,M,f 1eeab*621:Z,a,b,I,O,W,K,X,G,J,9,A,D,F,L,N,P
  1f101|0,|1,|2,|3,|4,|5,|6,|7,|8,|9, 1f110|(a)|(b)|(c)|(d)
  1f114|(e)|(f)|(g)|(h)|(i)|(j)|(k)|(l)|(m)|(n)|(o)|(p)|(q)|(r)|(s)|(t)|(u)|(v)|(w)|(x)|(y)|(z)
  1f12a:3014.73.3015 1f12b|c|r|cd|wz 1f130-1f149:61 1f14a|hv|mv|sd|ss|ppv|wc 1f16a|mc|md|mr 1f190|dj
  1f200|ほか|ココ|サ 1f210=手字双デ二多解天交映無料前後再新初終生販声吹演投捕一三遊左中右指走打禁空合満有月申割営配
  1f240:3014.672c.3015,3014.4e09.3015,3014.4e8c.3015
  1f243:3014.5b89.3015,3014.70b9.3015,3014.6253.3015,3014.76d7.3015,3014.52dd.3015,3014.6557.3015
  1f250=得可 1fbf0-1fbf9:30 2f800=丽丸 2f802=乁𠄢你侮侻倂偺備僧像㒞𠘺免兔兤具𠔜㒹內再𠕋冗冤仌冬况𩇟凵刃㓟刻剆割剷㔕勇勉勤勺包匆北卉卑博
  2f82f=即卽卿卿卿𠨬灰及叟𠭣叫叱吆咞吸呈周咢哶唐啓啣善善喙喫喳嗂圖嘆圗噑噴切壮城埴堍型堲報墬𡓤売壷
  2f85c=夆多夢奢𡚨𡛪姬娛娧姘婦㛮㛼嬈嬾嬾𡧈寃寘寧寳𡬘寿将当尢㞁屠屮峀岍𡷤嵃𡷦嵮嵫嵼巡巢㠯巽帨帽幩㡢
  2f889=𢆃㡼庰庳庶廊𪎒廾𢌱𢌱舁弢弢㣇𣊸𦇚形彫㣣徚忍志忹悁㤺㤜悔𢛔惇慈慌慎慌慺憎憲憤憯懞懲懶成戛扝抱
  2f8b6=拔捐𢬌挽拼捨掃揤𢯱搢揅掩㨮摩摾撝摷㩬敏敬𣀊旣書晉㬙暑㬈㫤冒冕最暜肭䏙朗望朡杞杓𣏃㭉柺枅桒梅
  2f8e3=𣑭梎栟椔㮝楂榣槪檨𣚣櫛㰘次𣢧歔㱎歲殟殺殻𣪍𡴋𣫺汎𣲼沿泍汧洖派海流浩浸涅𣴞洴港湮㴳滋滇𣻑淹潮
  2f910=𣽞𣾎濆瀹瀞瀛㶖灊災灷炭𠔥煅𤉣熜𤎫爨爵牐𤘈犀犕𤜵𤠔獺王㺬玥㺸㺸瑇瑜瑱璅瓊㼛甤𤰶甾𤲒異𢆟瘐𤾡𤾸
  2f93d=𥁄㿼䀈直𥃳𥃲𥄙𥄳眞真真睊䀹瞋䁆䂖𥐝硎碌磌䃣𥘦祖𥚚𥛅福秫䄯穀穊穏𥥼𥪧𥪧竮䈂𥮫篆築䈧𥲀糒䊠糨糣
  2f96a=紀𥾆絣䌁緇縂繅䌴𦈨𦉇䍙𦋙罺𦌾羕翺者𦓚𦔣聠𦖨聰𣍟䏕育脃䐋脾媵𦞧𦞵𣎓𣎜舁舄辞䑫芑芋芝劳花芳芽苦
  2f997=𦬼若茝荣莭茣莽菧著荓菊菌菜𦰶𦵫𦳕䔫蓱蓳蔖𧏊蕤𦼬䕝䕡𦾱𧃒䕫虐虜虧虩蚩蚈蜎蛢蝹蜨蝫螆䗗蟡蠁䗹衠
  2f9c4=衣𧙧裗裞䘵裺㒻𧢮𧥦䚾䛇誠諭變豕𧲨貫賁贛起𧼯𠠄跋趼跰𠣞軔輸𨗒𨗭邔郱鄑𨜮鄛鈸鋗鋘鉼鏹鐕𨯺開䦕閷
  2f9f1=𨵷䧦雃嶲霣𩅅𩈚䩮䩶韠𩐊䪲𩒖頋頋頩𩖶飢䬳餩馧駂駾䯎𩬰鬒鱀鳽䳎䳭鵧𪃎䳸𪄅𪈎𪊑麻䵖黹黾鼅鼏鼖鼻𪘀"

def mappingRows : List CodeRow :=
  CodeRow.ofText lowMappings ++ CodeRow.ofText highMappings

/-- The characters that a character of a name becomes, unless it must not occur.  A capital letter
that is not in the table becomes the small one. -/
def mapChar? (c : Char) : Option (List Char) :=
  if inRanges disallowedRanges c.toNat then none
  else if inRanges ignoredRanges c.toNat then some []
  else some ((mappingRows.findSome? (·.image? c.toNat)).getD (lowerChar c))

def isValid (c : Char) : Bool :=
  mapChar? c == some [c]

end BslInsight.Domain
