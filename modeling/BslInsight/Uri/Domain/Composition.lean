import BslInsight.Text.CodeRow

/-!
# Composed characters

The composed form of a text has as few characters as possible: it is taken apart, marks are put into
the order of their classes, and then each character is joined with the nearest one before it that it
composes with.
-/

namespace BslInsight.Domain

/-- Ranges of marks as in `rangesFrom`, each with how far its class is below 240. -/
def classesFrom (last : Nat) : List Nat → List (Nat × Nat × Nat)
  | gap :: extent :: below :: rest =>
    (last + gap, last + gap + extent, 240 - below) :: classesFrom (last + gap + extent) rest
  | _ => []

def classRanges : List (Nat × Nat × Nat) :=
  classesFrom 0 (tableNumbers "
  .COKA10813K10810O14K11c13K11c1AK14.3r13K17A10010A12K12A11K22A13K10A10811K10A1071161071161071CA
  .4S4A.4I0K13A10K12A10I10K15A15K11A10K11A10I10C10A10.3i10.3h10.3g10.3f10.3e10.3d10.3c10.3b10.3a
  11.3Z10.3Y10.3X10.3W20.3V20.3U10.3T20A10K20.3a.1B7A10.3O10.3N10.3Mn0.3R10.3Q10.3P10.3O10.3N10.3M
  10.3L10.3K11A11K14A10K11A10KH0.3J.1e6A33A10K10A31A20K11A10Ka0.3IV0A10K11A10K11A12K10A11K10A10K12A
  10K10A10K10A10K10A10K11A.2b6A10K10AA0KP3A28A22A24Ai2Ky1A12K13Ah4A14K1DA20K11A10K11A10K12A12K10.3R
  10.3Q10.3P12A10K11A11K14Az0.3lH0.3j40A10K11A.1g0.3lH0.3jn0A.100.3lH0.3j.1n0.3lH0.3j.1n0.3lH0.3j
  .240.3j.1n0.3lH0.3j80.2W10.2P.1e0.3lH0.3j.1m1.3jH0.3j.210.3j.1m1.2D10.3jE3.29.1l1.1y10.3jE3.1u
  .1F1KS0K20K20Ou0.1n10.1m20.1k63.1m30.1m21A10.3j21A.110K.1p0.3l21.3j.1L0K.Bc2A.FJ1.3jV0.3j.2Y0.3j
  B0A.3I0C.2K0I10A10K.3Y0A10K.1A0.3jL7A30Kn4A15K11A10K21K11A11K14A10K1HA10K35A10K13A106.1B0.3lG0.3j
  d0A10K16At1.3jx0.3lC1.3j.160.3l.2T2A20.3r14K11A13K10A26.3r50K70A41A.3D1A10K16A10K11A10610Q10K10c
  1aA10811C10K10M10A10710K10A10K.Bd1A11.3r13A12.3r11A50A41.3r10A10K10A11.3r13K10A.nX2A.2I0.3j.1ZVA
  .8x0M10C10810I11G.1i1.3k:7qX0A59AX1A.1J1A.4T0.3jc0.3j.2S0.3jSHAw2Kc0.3j.1Y0.3lD0.3j.3s0A21A10K31A
  61A20Ar0.3j.3z0.3j:5Gz0.3S.CQ6A16K11A.Fi0K.3f0K.2Q4A.R90K20Af0A10.3r10K50.3j.2g0A10K.9G3A.144A
  .581A.1G1K22K.191K12A10K10A13Ko0A10K10A10K.370.3jg0.3jF0.3jw0.3j10.3l.182An1.3j.110.3l.1F0.3jA0.3l
  .1j0.3j10.3l.2t0.3l10.3j.1J1.3lH0.3jP6A44A.1S2.3j.1q0.3j40.3lO0A.1c0.3j10.3l.440.3j10.3l.230.3j
  .1v0.3j10.3l.1s0.3j.4M0.3j10.3l.4B1.3j50.3l.2X0.3j.1M0.3jJ0.3j.1K0.3j.6o0.3j.4B0.3l21.3j.1K0.3j
  .6s1.3j:4OD0.3j.eH4.3ry6A.JW1.3m:56b0.3r:1Nn1O12.3r40E14O97K34A11KV3A.2P2A.ui6A2GA36A21A24A.1d0A
  .2b6A.640A.103A.8D1810K10A.470A10K.3w0A30A81A60A.7f6K.1m5A10.3l".toList)

def markedPairs (mark : Nat) : List Char → List (Nat × Nat × Nat)
  | letter :: composed :: rest => (composed.toNat, letter.toNat, mark) :: markedPairs mark rest
  | _ => []

/-- Each composed character with the two that it is made of, under the second of them. -/
def compositions : List (Nat × Nat × Nat) :=
  (CodeRow.words "
  300:aàeèiìnǹoòuùwẁyỳâầêềôồüǜăằēḕōṑơờưừαὰεὲηὴιὶοὸυὺωὼϊῒϋῢеѐиѝἀἂἁἃἐἒἑἓἠἢἡἣἰἲἱἳὀὂὁὃὐὒὑὓὠὢὡὣ
  301:aácćeégǵiíkḱlĺmḿnńoópṕrŕsśuúwẃyýzźâấåǻæǽçḉêếïḯôốõṍøǿüǘăắēḗōṓũṹơớưứαάεέηήιίοόυύωώϊΐϋΰгѓкќἀἄ
  301:ἁἅἐἔἑἕἠἤἡἥἰἴἱἵὀὄὁὅὐὔὑὕὠὤὡὥ 302:aâcĉeêgĝhĥiîjĵoôsŝuûwŵyŷzẑạậẹệọộ
  303:aãeẽiĩnñoõuũvṽyỹâẫêễôỗăẵơỡưữ 304:aāeēgḡiīoōuūyȳäǟæǣõȭöȫüǖǫǭȧǡȯȱαᾱιῑυῡиӣуӯḷḹṛṝ
  306:aăeĕgğiĭoŏuŭȩḝαᾰιῐυῠаӑеӗжӂийуўạặ 307:aȧbḃcċdḋeėfḟgġhḣmṁnṅoȯpṗrṙsṡtṫwẇxẋyẏzżśṥšṧṣṩ
  308:aäeëhḧiïoötẗuüwẅxẍyÿõṏūṻιϊυϋаӓеёжӝзӟиӥоӧуӱчӵыӹэӭіїәӛөӫ 309:aảeẻiỉoỏuủyỷâẩêểôổăẳơởưử
  30a:aåuůwẘyẙ 30b:oőuűуӳ 30c:aǎcčdďeěgǧhȟiǐjǰkǩlľnňoǒrřsštťuǔzžüǚʒǯ 30f:aȁeȅiȉoȍrȑuȕѵѷ
  311:aȃeȇiȋoȏrȓuȗ 313:αἀεἐηἠιἰοὀρῤυὐωὠ 314:αἁεἑηἡιἱοὁρῥυὑωὡ 31b:oơuư
  323:aạbḅdḍeẹhḥiịkḳlḷmṃnṇoọrṛsṣtṭuụvṿwẉyỵzẓơợưự 324:uṳ 325:aḁ 326:sștț 327:cçdḑeȩgģhḩkķlļnņrŗsştţ
  328:aąeęiįoǫuų 32d:dḓeḙlḽnṋtṱuṷ 32e:hḫ 330:eḛiḭuṵ 331:bḇdḏhẖkḵlḻnṉrṟtṯzẕ
  338:<≮=≠>≯←↚→↛↔↮⇐⇍⇒⇏⇔⇎∃∄∈∉∋∌∣∤∥∦∼≁≃≄≅≇≈≉≍≭≡≢≤≰≥≱≲≴≳≵≶≸≷≹≺⊀≻⊁≼⋠≽⋡⊂⊄⊃⊅⊆⊈⊇⊉⊑⋢⊒⋣⊢⊬⊨⊭⊩⊮⊫⊯⊲⋪⊳⋫⊴⋬⊵⋭
  342:αᾶηῆιῖυῦωῶϊῗϋῧἀἆἁἇἠἦἡἧἰἶἱἷὐὖὑὗὠὦὡὧ 93c:नऩरऱळऴ bd7:ஒஔ 102e:ဥဦ 1b35:ᬅᬆᬇᬈᬉᬊᬋᬌᬍᬎᬑᬒ
  3099:うゔかがきぎくぐけげこごさざしじすずせぜそぞただちぢつづてでとどはばひびふぶへべほぼゝゞウヴカガキギクグケゲコゴサザシジスズセゼソゾタダチヂツヅテデトドハバヒビフブヘベホボワヷヰヸ
  3099:ヱヹヲヺヽヾ 309a:はぱひぴふぷへぺほぽハパヒピフプヘペホポ
  307:𐗒𐗉𐗚𐗤 653:اآ 654:اأوؤيئەۀہۂےۓ 655:اإ 9be:েো 9d7:েৌ b3e:େୋ b56:େୈ b57:େୌ bbe:ெொேோ bd7:ெௌ c56:ెై
  cc2:ೆೊ cd5:ಿೀೆೇೊೋ cd6:ೆೈ d3e:െൊേോ d57:െൌ dca:ෙේොෝ dcf:ෙො ddf:ෙෞ 1b35:ᬺᬻᬼᬽᬾᭀᬿᭁᭂᭃ 110ba:𑂙𑂚𑂛𑂜𑂥𑂫
  11127:𑄱𑄮𑄲𑄯 1133e:𑍇𑍋 11357:𑍇𑍌 113b8:𑏅𑎸 113bb:𑎄𑎅 113c2:𑎋𑎎𑏅𑏂 113c9:𑎂𑎃𑎐𑎑𑏅𑏉 114b0:𑒹𑒼 114ba:𑒹𑒻 114bd:𑒹𑒾
  115af:𑖸𑖺𑖹𑖻 11930:𑤵𑤸 1611e:𖄡𖄞 1611f:𖄦𖄩𖄤𖄡𖄦𖄢𖄧 16120:𖄨𖄡𖄨 16129:𖄡𖄩 16d67:𖵨𖵧𖵣𖵩𖵩𖵪").flatMap fun word =>
    let mark := word.takeWhile (· != ':')
    markedPairs (hexNumber mark) (word.drop (mark.length + 1))

def classIn : List (Nat × Nat × Nat) → Nat → Nat
  | [], _ => 0
  | (first, last, value) :: rest, code =>
    if code < first then 0 else if code ≤ last then value else classIn rest code

def combiningClass (c : Char) : Nat :=
  classIn classRanges c.toNat

def syllableCounts : Nat × Nat × Nat :=
  (19, 21, 28)

def syllableParts? (code : Nat) : Option (List Nat) :=
  let (leads, vowels, trails) := syllableCounts
  let index := code - 0xac00
  if code < 0xac00 ∨ leads * vowels * trails ≤ index then none
  else
    let lead := 0x1100 + index / (vowels * trails)
    let vowel := 0x1161 + index % (vowels * trails) / trails
    some (if index % trails = 0 then [lead, vowel] else [lead, vowel, 0x11a7 + index % trails])

def syllable? (first second : Nat) : Option Nat :=
  let (leads, vowels, trails) := syllableCounts
  if 0x1100 ≤ first ∧ first < 0x1100 + leads ∧ 0x1161 ≤ second ∧ second < 0x1161 + vowels then
    some (0xac00 + ((first - 0x1100) * vowels + (second - 0x1161)) * trails)
  else if 0xac00 ≤ first ∧ first < 0xac00 + leads * vowels * trails ∧
      (first - 0xac00) % trails = 0 ∧ 0x11a7 < second ∧ second < 0x11a7 + trails then
    some (first + (second - 0x11a7))
  else none

/-- A character taken apart.  No character is made of more than four others, so three rounds are
enough. -/
def takeApart : Nat → Nat → List Nat
  | 0, code => [code]
  | rounds + 1, code =>
    match syllableParts? code with
    | some parts => parts
    | none =>
      match compositions.lookup code with
      | some (first, second) => takeApart rounds first ++ [second]
      | none => [code]

def join? (first second : Char) : Option Char :=
  match syllable? first.toNat second.toNat with
  | some code => some (Char.ofNat code)
  | none =>
    (compositions.find? fun (_, parts) => parts == (first.toNat, second.toNat)).map fun (code, _) =>
      Char.ofNat code

def insertMark (mark : Char) : List Char → List Char
  | [] => [mark]
  | other :: rest =>
    if combiningClass mark < combiningClass other then mark :: other :: rest
    else other :: insertMark mark rest

/-- Puts each run of marks into the order of their classes; `run` is the run before the text. -/
def orderMarks (run : List Char) : List Char → List Char
  | [] => run
  | c :: rest =>
    if combiningClass c = 0 then run ++ c :: orderMarks [] rest
    else orderMarks (insertMark c run) rest

/-- Joins the characters of a text that has been taken apart.  `starter?` is the last character of
class zero and `marks` those after it, in reverse, that did not join with it. -/
def joinAll (starter? : Option Char) (marks : List Char) : List Char → List Char
  | [] => starter?.toList ++ marks.reverse
  | c :: rest =>
    let blocked := match marks with
      | [] => false
      | last :: _ => combiningClass c ≤ combiningClass last
    match if blocked then none else starter?.bind (join? · c) with
    | some joined => joinAll (some joined) marks rest
    | none =>
      if combiningClass c = 0 then starter?.toList ++ marks.reverse ++ joinAll (some c) [] rest
      else joinAll starter? (c :: marks) rest

def compose (text : List Char) : List Char :=
  let parts := text.flatMap fun c => (takeApart 3 c.toNat).map Char.ofNat
  joinAll none [] (orderMarks [] parts)

end BslInsight.Domain
