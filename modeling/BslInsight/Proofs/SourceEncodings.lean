import BslInsight.Text.SourceText
import Mathlib.Tactic.SplitIfs

/-!
# Source texts and their encodings

A text is found again from its bytes in each encoding in which modules are kept.  The decoder of
UTF-8 accepts exactly the encodings of texts, so that Windows-1251 is read whenever the bytes are
not one of them.
-/

namespace BslInsight

open List

/-! ## UTF-8 -/

namespace Utf8

variable {byte : UInt8} {tail rest bytes : List UInt8} {c : Char} {length : Nat}

lemma lead?_eq_some_iff {lead : Lead} : lead? byte = some lead ↔
      byte.toNat < 0x80 ∧ lead = ⟨0, byte.toNat, 0x80, 0xbf⟩ ∨
      (0xc2 ≤ byte.toNat ∧ byte.toNat < 0xe0) ∧ lead = ⟨1, byte.toNat - 0xc0, 0x80, 0xbf⟩ ∨
      (0xe0 ≤ byte.toNat ∧ byte.toNat < 0xf0) ∧ lead = ⟨2, byte.toNat - 0xe0,
        if byte.toNat = 0xe0 then 0xa0 else 0x80, if byte.toNat = 0xed then 0x9f else 0xbf⟩ ∨
      (0xf0 ≤ byte.toNat ∧ byte.toNat < 0xf5) ∧ lead = ⟨3, byte.toNat - 0xf0,
        if byte.toNat = 0xf0 then 0x90 else 0x80, if byte.toNat = 0xf4 then 0x8f else 0xbf⟩ := by
  unfold lead?
  grind

lemma continued_succ_eq_iff {value low high count whole : Nat} :
    continued value low high (count + 1) rest = (some whole, length) ↔
      ∃ second more later, rest = second :: more ∧ (low ≤ second.toNat ∧ second.toNat ≤ high) ∧
        length = later + 1 ∧
        continued (value * 64 + (second.toNat - 0x80)) 0x80 0xbf count more =
          (some whole, later) := by
  constructor
  · intro hcont
    cases rest with
    | nil => cases hcont
    | cons second more =>
      rw [continued] at hcont
      split at hcont
      next hbounds =>
        obtain ⟨hwhole, hlen⟩ := Prod.ext_iff.mp hcont
        exact ⟨second, more, _, rfl, hbounds, hlen.symm, Prod.ext hwhole rfl⟩
      next => cases hcont
  · rintro ⟨second, more, later, rfl, hbounds, rfl, hlater⟩
    rw [continued, if_pos hbounds, hlater]

lemma first_eq_some_iff : first byte rest = (some c, length) ↔
      ∃ lead value, lead? byte = some lead ∧ Char.ofNat value = c ∧
        continued lead.value lead.low lead.high lead.count rest = (some value, length) := by
  unfold first
  cases lead? byte with
  | none => simp
  | some lead => simp [Prod.ext_iff, and_assoc, and_left_comm, ← exists_and_right]

lemma toNat_ofNat_of_isValidChar {n : Nat} (hn : n.isValidChar) : (Char.ofNat n).val.toNat = n := by
  rw [Char.ofNat, dif_pos hn]
  rfl

lemma exists_encoded_of_first (hfirst : first byte rest = (some c, length)) :
    ∃ tail more, rest = tail ++ more ∧ length = tail.length ∧
      String.utf8EncodeChar c = byte :: tail := by
  obtain ⟨lead, value, hlead, rfl, hcont⟩ := first_eq_some_iff.mp hfirst
  rcases lead?_eq_some_iff.mp hlead with ⟨hbyte, rfl⟩ | ⟨hbyte, rfl⟩ | ⟨hbyte, rfl⟩ | ⟨hbyte, rfl⟩ <;>
    simp only [continued_succ_eq_iff, continued, Prod.mk.injEq, Option.some.injEq] at hcont
  · obtain ⟨rfl, rfl⟩ := hcont
    refine ⟨[], rest, rfl, rfl, ?_⟩
    have hvalid : byte.toNat.isValidChar := .inl (by omega)
    simp only [String.utf8EncodeChar, toNat_ofNat_of_isValidChar hvalid]
    rw [if_pos (by omega)]
    simp
  · obtain ⟨second, more, _, rfl, hsnd, rfl, hvalue, rfl⟩ := hcont
    refine ⟨[second], more, rfl, rfl, ?_⟩
    have hvalid : value.isValidChar := .inl (by omega)
    simp only [String.utf8EncodeChar, toNat_ofNat_of_isValidChar hvalid]
    rw [if_neg (by omega), if_pos (by omega)]
    simp only [cons.injEq, ← UInt8.toNat_inj, UInt8.toNat_ofNat', and_true]
    omega
  · obtain ⟨second, _, _, rfl, hsnd, rfl, third, more, _, rfl, hthird, rfl, hvalue, rfl⟩ := hcont
    -- The bounds of the second byte leave out overlong sequences and surrogates.
    have hbounds : (0x800 ≤ value ∧ value < 0x10000) ∧ (value < 0xd800 ∨ 0xdfff < value) ∧
        0x80 ≤ second.toNat ∧ second.toNat ≤ 0xbf := by
      split_ifs at hsnd <;> omega
    refine ⟨[second, third], more, rfl, rfl, ?_⟩
    have hvalid : value.isValidChar := hbounds.2.1.imp_right fun h => ⟨h, by omega⟩
    simp only [String.utf8EncodeChar, toNat_ofNat_of_isValidChar hvalid]
    rw [if_neg (by omega), if_neg (by omega), if_pos (by omega)]
    simp only [cons.injEq, ← UInt8.toNat_inj, UInt8.toNat_ofNat', and_true]
    omega
  · obtain ⟨second, _, _, rfl, hsnd, rfl, third, _, _, rfl, hthird, rfl, fourth, more, _, rfl,
      hfourth, rfl, hvalue, rfl⟩ := hcont
    have hbounds : (0x10000 ≤ value ∧ value < 0x110000) ∧
        0x80 ≤ second.toNat ∧ second.toNat ≤ 0xbf := by
      split_ifs at hsnd <;> omega
    refine ⟨[second, third, fourth], more, rfl, rfl, ?_⟩
    have hvalid : value.isValidChar := .inr (by omega)
    simp only [String.utf8EncodeChar, toNat_ofNat_of_isValidChar hvalid]
    rw [if_neg (by omega), if_neg (by omega), if_neg (by omega)]
    simp only [cons.injEq, ← UInt8.toNat_inj, UInt8.toNat_ofNat', and_true]
    omega

lemma first_encoded (henc : String.utf8EncodeChar c = byte :: tail) (rest : List UInt8) :
    first byte (tail ++ rest) = (some c, tail.length) := by
  have hvalid : c.val.toNat < 0xd800 ∨ 0xdfff < c.val.toNat ∧ c.val.toNat < 0x110000 := c.valid
  have hc : Char.ofNat c.val.toNat = c := Char.ofNat_toNat c
  have hlater (n : Nat) : (UInt8.ofNat (n % 64 + 128)).toNat = n % 64 + 128 := by
    rw [UInt8.toNat_ofNat']
    omega
  rw [first_eq_some_iff]
  unfold String.utf8EncodeChar at henc
  simp only at henc
  generalize c.val.toNat = value at *
  split_ifs at henc <;> obtain ⟨rfl, rfl⟩ := cons.inj henc
  · have hbyte : (UInt8.ofNat value).toNat = value := by
      rw [UInt8.toNat_ofNat']
      omega
    refine ⟨_, value, lead?_eq_some_iff.mpr (.inl ⟨by omega, rfl⟩), hc, ?_⟩
    rw [continued, hbyte]
    rfl
  · have hbyte : (UInt8.ofNat (value / 64 % 32 + 192)).toNat = value / 64 + 192 := by
      rw [UInt8.toNat_ofNat']
      omega
    refine ⟨_, value, lead?_eq_some_iff.mpr (.inr (.inl ⟨by omega, rfl⟩)), hc, ?_⟩
    simp only [cons_append, nil_append, continued, hbyte, hlater]
    rw [if_pos (by omega)]
    simp
    omega
  · have hbyte : (UInt8.ofNat (value / 4096 % 16 + 224)).toNat = value / 4096 + 224 := by
      rw [UInt8.toNat_ofNat']
      omega
    refine ⟨_, value, lead?_eq_some_iff.mpr (.inr (.inr (.inl ⟨by omega, rfl⟩))), hc, ?_⟩
    simp only [cons_append, nil_append, continued, hbyte, hlater]
    rw [if_pos (by split_ifs <;> omega), if_pos (by omega)]
    simp
    omega
  · have hbyte : (UInt8.ofNat (value / 262144 % 8 + 240)).toNat = value / 262144 + 240 := by
      rw [UInt8.toNat_ofNat']
      omega
    refine ⟨_, value, lead?_eq_some_iff.mpr (.inr (.inr (.inr ⟨by omega, rfl⟩))), hc, ?_⟩
    simp only [cons_append, nil_append, continued, hbyte, hlater]
    rw [if_pos (by split_ifs <;> omega), if_pos (by omega), if_pos (by omega)]
    simp
    omega

lemma toList_byteArray (bytes : ByteArray) : bytes.toList = bytes.data.toList := by
  have hloop (i : Nat) (found : List UInt8) :
      ByteArray.toList.loop bytes i found = found.reverse ++ bytes.data.toList.drop i := by
    fun_induction ByteArray.toList.loop bytes i found with
    | case1 i found h ih =>
      have hi : i < bytes.data.toList.length := by simpa using h
      have hbyte : bytes.get! i = bytes.data.toList[i] := getElem!_pos bytes.data i h
      rw [ih, drop_eq_getElem_cons hi, hbyte, reverse_cons, append_assoc, singleton_append]
    | case2 i found h => rw [drop_eq_nil_of_le (by simpa using h), append_nil]
  exact (hloop 0 []).trans (by simp)

lemma encode_eq (text : String) : encode text = text.toList.flatMap String.utf8EncodeChar := by
  rw [encode, toList_byteArray, String.toUTF8, ← String.utf8Encode_toList, utf8Encode,
    data_toByteArray]

lemma decode?_flatMap (text : List Char) :
    decode? (text.flatMap String.utf8EncodeChar) = some text := by
  induction text with
  | nil => rw [decode?, flatMap_nil, sequences]; rfl
  | cons c text ih =>
    obtain ⟨byte, tail, henc⟩ := exists_cons_of_ne_nil (String.utf8EncodeChar_ne_nil (c := c))
    rw [decode?] at ih ⊢
    rw [flatMap_cons, henc, cons_append, sequences, first_encoded henc, drop_left]
    simp [ih]

lemma eq_flatMap_of_decode? {text : List Char} (hdec : decode? bytes = some text) :
    bytes = text.flatMap String.utf8EncodeChar := by
  unfold decode? at hdec
  fun_induction sequences bytes generalizing text with
  | case1 =>
    obtain rfl : [] = text := by simpa using hdec
    rfl
  | case2 byte rest ih =>
    simp only [mapM_cons, id_eq, Option.bind_eq_bind, Option.bind_eq_some_iff] at hdec
    obtain ⟨c, hc, later, hlater, htext⟩ := hdec
    obtain rfl : c :: later = text := by simpa using htext
    have hfirst : first byte rest = (some c, (first byte rest).snd) := Prod.ext hc rfl
    obtain ⟨tail, more, hrest, hlen, henc⟩ := exists_encoded_of_first hfirst
    have hmore := ih hlater
    rw [hlen, hrest, drop_left] at hmore
    rw [flatMap_cons, henc, ← hmore, hrest, cons_append]

lemma decode?_eq_some_iff (text : String) :
    decode? bytes = some text.toList ↔ bytes = encode text := by
  rw [encode_eq]
  constructor
  · exact eq_flatMap_of_decode?
  · rintro rfl
    exact decode?_flatMap _

lemma decode?_of_large (hbyte : 0xf5 ≤ byte.toNat) : decode? (byte :: rest) = none := by
  have hlead : lead? byte = none := by
    rw [Option.eq_none_iff_forall_ne_some]
    intro lead hlead
    rcases lead?_eq_some_iff.mp hlead with h | h | h | h <;> omega
  rw [decode?, sequences, first, hlead]
  rfl

end Utf8

/-! ## UTF-16 -/

namespace Utf16

/-- The code units of a character: one, or a pair of surrogates. -/
def unitsOf (c : Char) : List Nat := if c.toNat < 0x10000 then [c.toNat]
  else [0xd800 + (c.toNat - 0x10000) / 0x400, 0xdc00 + (c.toNat - 0x10000) % 0x400]

def bytesOf (unit : Nat) : ByteOrder → List UInt8
  | .littleEndian => [UInt8.ofNat (unit % 256), UInt8.ofNat (unit / 256)]
  | .bigEndian => [UInt8.ofNat (unit / 256), UInt8.ofNat (unit % 256)]

def encode (order : ByteOrder) (text : String) : List UInt8 :=
  (text.toList.flatMap unitsOf).flatMap (bytesOf · order)

lemma units_append {code : Nat} (hcode : code < 65536) (order : ByteOrder) (rest : List UInt8) :
    units order (bytesOf code order ++ rest) =
      (code :: (units order rest).1, (units order rest).2) := by
  cases order <;> simp only [bytesOf, cons_append, nil_append, units, unit, UInt8.toNat_ofNat',
    Prod.mk.injEq, cons.injEq, and_true] <;> omega

lemma units_flatMap (order : ByteOrder) {codes : List Nat} (hcodes : ∀ code ∈ codes, code < 65536) :
    units order (codes.flatMap (bytesOf · order)) = (codes, false) := by
  induction codes with
  | nil => rfl
  | cons code codes ih =>
    obtain ⟨hcode, hcodes⟩ := forall_mem_cons.mp hcodes
    rw [flatMap_cons, units_append hcode, ih hcodes]

lemma ofUnits_cons {code : Nat} (hcode : code < 0xd800 ∨ 0xdfff < code) (codes : List Nat) :
    ofUnits false (code :: codes) = Char.ofNat code :: ofUnits false codes := by
  have hhigh : isHighSurrogate code = false := by simp [isHighSurrogate]; omega
  have hlow : isLowSurrogate code = false := by simp [isLowSurrogate]; omega
  cases codes <;> simp [ofUnits, scalar, hhigh, hlow]

lemma ofUnits_unitsOf (c : Char) (codes : List Nat) :
    ofUnits false (unitsOf c ++ codes) = c :: ofUnits false codes := by
  have hvalid : c.toNat < 0xd800 ∨ 0xdfff < c.toNat ∧ c.toNat < 0x110000 := c.valid
  unfold unitsOf
  split
  next => rw [singleton_append, ofUnits_cons (hvalid.imp_right And.left), Char.ofNat_toNat]
  next hlarge =>
    have hhigh : isHighSurrogate (0xd800 + (c.toNat - 0x10000) / 0x400) := by
      simp [isHighSurrogate]; omega
    have hlow : isLowSurrogate (0xdc00 + (c.toNat - 0x10000) % 0x400) := by
      simp [isLowSurrogate]; omega
    have hprd : 0x10000 + (0xd800 + (c.toNat - 0x10000) / 0x400 - 0xd800) * 0x400 +
        (0xdc00 + (c.toNat - 0x10000) % 0x400 - 0xdc00) = c.toNat := by
      omega
    rw [cons_append, singleton_append, ofUnits, hhigh, hlow, Bool.and_true, if_pos rfl, paired,
      hprd, Char.ofNat_toNat]

lemma decode_encode (order : ByteOrder) (text : String) :
    decode order (encode order text) = text.toList := by
  have hcodes : ∀ code ∈ text.toList.flatMap unitsOf, code < 65536 := by
    intro code hcode
    obtain ⟨c, -, hc⟩ := mem_flatMap.mp hcode
    have hvalid : c.toNat < 0xd800 ∨ 0xdfff < c.toNat ∧ c.toNat < 0x110000 := c.valid
    unfold unitsOf at hc
    grind
  rw [decode, encode, units_flatMap order hcodes]
  dsimp only
  induction text.toList with
  | nil => rfl
  | cons c rest ih => rw [flatMap_cons, ofUnits_unitsOf, ih]

end Utf16

/-! ## Windows-1251 -/

namespace Windows1251

def encodeChar? (c : Char) : Option UInt8 := if c.toNat < 128 then some (UInt8.ofNat c.toNat)
  else (upperHalf.findIdx? (· == c.toNat)).map fun place => UInt8.ofNat (128 + place)

def encode? (text : String) : Option (List UInt8) := text.toList.mapM encodeChar?

lemma decodeByte_of_encodeChar? {c : Char} {byte : UInt8} (hbyte : encodeChar? c = some byte) :
    decodeByte byte = c := by
  unfold encodeChar? at hbyte
  split at hbyte
  next hsmall =>
    obtain rfl := Option.some.inj hbyte
    have hcode : (UInt8.ofNat c.toNat).toNat = c.toNat := by
      rw [UInt8.toNat_ofNat']
      omega
    rw [decodeByte, hcode, if_pos hsmall, Char.ofNat_toNat]
  next =>
    obtain ⟨place, hplace, rfl⟩ := Option.map_eq_some_iff.mp hbyte
    obtain ⟨hlt, hfound, -⟩ := findIdx?_eq_some_iff_getElem.mp hplace
    have hlen : upperHalf.length = 128 := rfl
    have hcode : (UInt8.ofNat (128 + place)).toNat = 128 + place := by
      rw [UInt8.toNat_ofNat']
      omega
    rw [decodeByte, hcode, if_neg (by omega), Nat.add_sub_cancel_left,
      getD_eq_getElem?_getD, getElem?_eq_getElem hlt, Option.getD_some, eq_of_beq hfound,
      Char.ofNat_toNat]

lemma decode_of_encode? {text : List Char} {bytes : List UInt8}
    (hbytes : text.mapM encodeChar? = some bytes) : decode bytes = text := by
  induction text generalizing bytes with
  | nil =>
    obtain rfl : [] = bytes := by simpa using hbytes
    rfl
  | cons c rest ih =>
    simp only [mapM_cons, Option.bind_eq_bind, Option.bind_eq_some_iff] at hbytes
    obtain ⟨byte, hbyte, later, hlater, hall⟩ := hbytes
    obtain rfl : byte :: later = bytes := by simpa using hall
    rw [decode, map_cons, decodeByte_of_encodeChar? hbyte]
    exact congrArg (c :: ·) (ih hlater)

end Windows1251

/-! ## Sources -/

lemma dropByteOrderMark_of_head {text : List Char} (htext : text.head? ≠ some '\ufeff') :
    dropByteOrderMark text = text := by
  unfold dropByteOrderMark
  split
  · simp at htext
  · rfl

lemma decodeMarked_of_decode? {bytes : List UInt8} {text : List Char}
    (hdec : Utf8.decode? bytes = some text) : decodeMarked bytes = text := by
  unfold decodeMarked
  split
  · rw [Utf8.decode?_of_large (by decide)] at hdec
    cases hdec
  · rw [Utf8.decode?_of_large (by decide)] at hdec
    cases hdec
  · rw [hdec]

lemma decodeMarked_of_not_utf8 {bytes : List UInt8} (hutf8 : Utf8.decode? bytes = none)
    (hlittle : ¬[0xff, 0xfe] <+: bytes) (hbig : ¬[0xfe, 0xff] <+: bytes)
    (hmark : ¬[0xef, 0xbb, 0xbf] <+: bytes) : decodeMarked bytes = Windows1251.decode bytes := by
  unfold decodeMarked
  split
  · exact absurd (prefix_append [0xff, 0xfe] _) hlittle
  · exact absurd (prefix_append [0xfe, 0xff] _) hbig
  · split
    next hsome => rw [hutf8] at hsome; cases hsome
    next => exact absurd (prefix_append [0xef, 0xbb, 0xbf] _) hmark
    next => rfl

/-- Each encoding of a text is read as the text: the Unicode encodings unless the text itself begins
with a byte order mark, and Windows-1251 where its bytes are not taken for another encoding. -/
theorem decodeSource_encoded (text : String) : (text.toList.head? ≠ some '\ufeff' →
      decodeSource (Utf8.encode text) = text ∧
      decodeSource (Utf8.encode (String.singleton '\ufeff' ++ text)) = text ∧
      decodeSource ([0xff, 0xfe] ++ Utf16.encode .littleEndian text) = text ∧
      decodeSource ([0xfe, 0xff] ++ Utf16.encode .bigEndian text) = text) ∧
    ∀ bytes, Windows1251.encode? text = some bytes → (∀ other, bytes ≠ Utf8.encode other) →
      ¬[0xef, 0xbb, 0xbf] <+: bytes → ¬[0xff, 0xfe] <+: bytes → ¬[0xfe, 0xff] <+: bytes →
      decodeSource bytes = text := by
  constructor
  · intro hhead
    have hplain := dropByteOrderMark_of_head hhead
    refine ⟨?_, ?_, ?_, ?_⟩
    · rw [decodeSource, decodeMarked_of_decode? ((Utf8.decode?_eq_some_iff text).mpr rfl), hplain,
        String.ofList_toList]
    · rw [decodeSource, decodeMarked_of_decode? ((Utf8.decode?_eq_some_iff _).mpr rfl),
        String.toList_append, String.toList_singleton, singleton_append]
      exact String.ofList_toList
    · rw [decodeSource, cons_append, singleton_append, decodeMarked, Utf16.decode_encode, hplain,
        String.ofList_toList]
    · rw [decodeSource, cons_append, singleton_append, decodeMarked, Utf16.decode_encode, hplain,
        String.ofList_toList]
  · intro bytes hbytes hutf8 hmark hlittle hbig
    have hdecoded := Windows1251.decode_of_encode? hbytes
    have hnone : Utf8.decode? bytes = none := by
      rw [Option.eq_none_iff_forall_ne_some]
      intro other hother
      refine hutf8 (String.ofList other) ((Utf8.decode?_eq_some_iff _).mp ?_)
      rw [hother, String.toList_ofList]
    have hhead : text.toList.head? ≠ some '\ufeff' := by
      intro hfirst
      obtain ⟨rest, hrest⟩ := head?_eq_some_iff.mp hfirst
      have hnot : Windows1251.encodeChar? '\ufeff' = none := by decide
      rw [Windows1251.encode?, hrest, mapM_cons, hnot] at hbytes
      cases hbytes
    rw [decodeSource, decodeMarked_of_not_utf8 hnone hlittle hbig hmark, hdecoded,
      dropByteOrderMark_of_head hhead, String.ofList_toList]

theorem decodeSource_encoded_samples :
    decodeSource ([0xff, 0xfe] ++ Utf16.encode .littleEndian "Я😀") = "Я😀" ∧
      decodeSource [0xd2, 0xe5, 0xf1, 0xf2] = "Тест" := by
  have hhead : "Я😀".toList.head? ≠ some '\ufeff' := by decide
  refine ⟨((decodeSource_encoded "Я😀").1 hhead).2.2.1, ?_⟩
  refine (decodeSource_encoded "Тест").2 _ (by decide) ?_ (by decide) (by decide) (by decide)
  intro other hother
  have hdecoded := (Utf8.decode?_eq_some_iff other).mpr hother
  have hnone : Utf8.decode? [0xd2, 0xe5, 0xf1, 0xf2] = none := by decide +kernel
  rw [hnone] at hdecoded
  cases hdecoded

end BslInsight
