import FastapiTurbo.Lib.Search

/-! The UTF-8 bytes of a text, a text being the list of its characters. -/
namespace FastapiTurbo.Lib

open List

def utf8 (chars : List Char) : List UInt8 :=
  chars.flatMap String.utf8EncodeChar

def decodeUtf8 (bytes : List UInt8) : Option (List Char) :=
  (String.fromUTF8? ⟨bytes.toArray⟩).map String.toList

@[simp] theorem utf8_nil : utf8 [] = [] := rfl

theorem utf8_cons (char : Char) (rest : List Char) :
    utf8 (char :: rest) = String.utf8EncodeChar char ++ utf8 rest :=
  flatMap_cons

@[simp] theorem utf8_append (front back : List Char) :
    utf8 (front ++ back) = utf8 front ++ utf8 back :=
  flatMap_append

theorem toByteArray_ofList_eq (chars : List Char) :
    (String.ofList chars).toByteArray = ⟨(utf8 chars).toArray⟩ := by
  apply ByteArray.ext
  rw [String.toByteArray_ofList, List.utf8Encode, data_toByteArray]
  rfl

@[simp] theorem decodeUtf8_utf8 (chars : List Char) : decodeUtf8 (utf8 chars) = some chars := by
  have hv : ByteArray.IsValidUTF8 ⟨(utf8 chars).toArray⟩ := by
    rw [← toByteArray_ofList_eq]
    exact (String.ofList chars).isValidUTF8
  have hs : String.fromUTF8 ⟨(utf8 chars).toArray⟩ hv = String.ofList chars := by
    apply String.toByteArray_inj.1
    rw [toByteArray_ofList_eq]
    rfl
  rw [decodeUtf8, String.fromUTF8?, dif_pos hv, hs, Option.map_some, String.toList_ofList]

theorem utf8_of_decodeUtf8 {bytes : List UInt8} {chars : List Char}
    (hd : decodeUtf8 bytes = some chars) : utf8 chars = bytes := by
  obtain ⟨text, ht, rfl⟩ := Option.map_eq_some_iff.1 hd
  unfold String.fromUTF8? at ht
  split at ht
  · rename_i hv
    cases ht
    have hb := toByteArray_ofList_eq (String.fromUTF8 ⟨bytes.toArray⟩ hv).toList
    rw [String.ofList_toList] at hb
    exact (toArray_inj (congrArg ByteArray.data hb)).symm
  · cases ht

theorem utf8EncodeChar_of_ascii {char : Char} (ha : char.toNat < 128) :
    String.utf8EncodeChar char = [UInt8.ofNat char.toNat] := by
  rw [String.utf8EncodeChar, if_pos]
  · rfl
  · exact Nat.le_of_lt_succ ha

theorem le_of_mem_utf8EncodeChar {char : Char} (ha : ¬char.toNat < 128) {byte : UInt8}
    (hb : byte ∈ String.utf8EncodeChar char) : 128 ≤ byte.toNat := by
  have hl : ¬char.val.toNat ≤ 127 := fun hle => ha (Nat.lt_succ_of_le hle)
  simp only [String.utf8EncodeChar, if_neg hl] at hb
  split at hb
  · simp only [mem_cons, not_mem_nil, or_false] at hb
    rcases hb with rfl | rfl <;> rw [UInt8.toNat_ofNat'] <;> omega
  · split at hb
    · simp only [mem_cons, not_mem_nil, or_false] at hb
      rcases hb with rfl | rfl | rfl <;> rw [UInt8.toNat_ofNat'] <;> omega
    · simp only [mem_cons, not_mem_nil, or_false] at hb
      rcases hb with rfl | rfl | rfl | rfl <;> rw [UInt8.toNat_ofNat'] <;> omega

theorem utf8EncodeChar_ne_nil (char : Char) : String.utf8EncodeChar char ≠ [] := by
  intro he
  have hl := String.length_utf8EncodeChar char
  rw [he, length_nil] at hl
  exact absurd hl.symm (Nat.ne_of_gt (Char.utf8Size_pos char))

theorem ofNat_toNat_inj {one other : Char} (hone : one.toNat < 128) (ho : other.toNat < 128) :
    UInt8.ofNat one.toNat = UInt8.ofNat other.toNat ↔ one = other := by
  constructor
  · intro hs
    have hnat := congrArg UInt8.toNat hs
    rw [UInt8.toNat_ofNat', UInt8.toNat_ofNat'] at hnat
    apply Char.toNat_inj.1
    omega
  · rintro rfl
    rfl

theorem prefix_utf8_iff {needle : List Char} (hn : ∀ char ∈ needle, char.toNat < 128)
    (chars : List Char) : utf8 needle <+: utf8 chars ↔ needle <+: chars := by
  induction needle generalizing chars with
  | nil => simp
  | cons head needle ih =>
    have hh : head.toNat < 128 := hn head mem_cons_self
    have hr := ih fun char hmem => hn char (mem_cons_of_mem head hmem)
    cases chars with
    | nil => simp [utf8_cons, utf8EncodeChar_of_ascii hh]
    | cons char chars =>
      rw [utf8_cons, utf8_cons, utf8EncodeChar_of_ascii hh, singleton_append, cons_prefix_cons]
      by_cases ha : char.toNat < 128
      · rw [utf8EncodeChar_of_ascii ha, singleton_append, cons_prefix_cons, hr,
          ofNat_toNat_inj hh ha]
      · obtain ⟨byte, bytes, hb⟩ := exists_cons_of_ne_nil (utf8EncodeChar_ne_nil char)
        have hl := le_of_mem_utf8EncodeChar ha (hb ▸ mem_cons_self)
        have hne : ¬UInt8.ofNat head.toNat = byte := by
          rintro rfl
          rw [UInt8.toNat_ofNat'] at hl
          omega
        have hc : head ≠ char := by
          rintro rfl
          exact ha hh
        simp only [hb, cons_append, cons_prefix_cons, hne, hc, false_and]

theorem infix_utf8_iff {head : Char} {tail : List Char}
    (hn : ∀ char ∈ head :: tail, char.toNat < 128) (chars : List Char) :
    utf8 (head :: tail) <:+: utf8 chars ↔ head :: tail <:+: chars := by
  have hh : head.toNat < 128 := hn head mem_cons_self
  have hb : utf8 (head :: tail) = UInt8.ofNat head.toNat :: utf8 tail := by
    rw [utf8_cons, utf8EncodeChar_of_ascii hh, singleton_append]
  induction chars with
  | nil => simp [hb]
  | cons char chars ih =>
    rw [infix_cons_iff, ← prefix_utf8_iff hn, utf8_cons char]
    by_cases ha : char.toNat < 128
    · rw [utf8EncodeChar_of_ascii ha, singleton_append, infix_cons_iff]
      exact or_congr_right ih
    · have hhigh : UInt8.ofNat head.toNat ∉ String.utf8EncodeChar char := by
        intro hmem
        have hl := le_of_mem_utf8EncodeChar ha hmem
        rw [UInt8.toNat_ofNat'] at hl
        omega
      have hs : ¬utf8 (head :: tail) <+: String.utf8EncodeChar char ++ utf8 chars := by
        rw [← utf8_cons, prefix_utf8_iff hn, cons_prefix_cons]
        rintro ⟨rfl, -⟩
        exact ha hh
      rw [or_iff_right hs, hb, infix_append_iff_of_not_mem hhigh, ← hb]
      exact ih

/-- The number of bytes behind a lead byte, and the bounds of the first of them. -/
def continuation (lead : UInt8) : Nat × UInt8 × UInt8 :=
  if lead < 0xC2 then (0, 0, 0)
  else if lead < 0xE0 then (1, 0x80, 0xBF)
  else if lead < 0xF0 then
    (2, if lead = 0xE0 then 0xA0 else 0x80, if lead = 0xED then 0x9F else 0xBF)
  else if lead < 0xF5 then
    (3, if lead = 0xF0 then 0x90 else 0x80, if lead = 0xF4 then 0x8F else 0xBF)
  else (0, 0, 0)

/-- How many of the bytes behind a lead byte go on with its character. -/
def continued (lead : UInt8) (rest : List UInt8) : Nat :=
  let (count, low, high) := continuation lead
  match rest.take count with
  | [] => 0
  | second :: others =>
    if low ≤ second ∧ second ≤ high then
      1 + (others.takeWhile fun byte => 0x80 ≤ byte && byte ≤ 0xBF).length
    else 0

/-- A character, or U+FFFD for bytes that begin one but do not end it. -/
def decodeChar (lead : UInt8) (rest : List UInt8) : Char :=
  match decodeUtf8 (lead :: rest.take (continued lead rest)) with
  | some [char] => char
  | _ => Char.ofNat 0xFFFD

def decodeLossyFrom : Nat → List UInt8 → List Char
  | _, [] => []
  | skip + 1, _ :: rest => decodeLossyFrom skip rest
  | 0, lead :: rest => decodeChar lead rest :: decodeLossyFrom (continued lead rest) rest

/-- UTF-8 with U+FFFD for every maximal part that is not well formed. -/
def decodeLossy (bytes : List UInt8) : List Char :=
  decodeLossyFrom 0 bytes

def latin1 (bytes : List UInt8) : List Char :=
  bytes.map fun byte => Char.ofNat byte.toNat

theorem toNat_ofNat_byte (byte : UInt8) : (Char.ofNat byte.toNat).toNat = byte.toNat := by
  have hvalid : byte.toNat.isValidChar := Or.inl (Nat.lt_trans byte.toNat_lt (by decide))
  rw [Char.ofNat, dif_pos hvalid]
  rfl

theorem decodeChar_ascii {lead : UInt8} (hlead : lead.toNat < 128) (rest : List UInt8) :
    decodeChar lead rest = Char.ofNat lead.toNat ∧ continued lead rest = 0 := by
  have hlow : lead < 0xC2 := by
    rw [UInt8.lt_iff_toNat_lt]
    exact Nat.lt_trans hlead (by decide)
  have hcount : continued lead rest = 0 := by
    simp [continued, continuation, if_pos hlow]
  have hutf : utf8 [Char.ofNat lead.toNat] = [lead] := by
    have hchar := toNat_ofNat_byte lead
    rw [utf8_cons, utf8EncodeChar_of_ascii (by omega), hchar, UInt8.ofNat_toNat]
    rfl
  refine ⟨?_, hcount⟩
  rw [decodeChar, hcount, take_zero, ← hutf, decodeUtf8_utf8]

theorem decodeChar_wide {lead : UInt8} (hlead : ¬lead.toNat < 128) (rest : List UInt8) :
    128 ≤ (decodeChar lead rest).toNat := by
  unfold decodeChar
  split
  · next char hdecode =>
    refine Nat.le_of_not_lt fun hascii => hlead ?_
    have hutf := utf8_of_decodeUtf8 hdecode
    rw [utf8_cons, utf8EncodeChar_of_ascii hascii, singleton_append] at hutf
    rw [← (cons.inj hutf).1, UInt8.toNat_ofNat']
    omega
  · decide

/-- What holds of every code from 128 on holds of the decoded text if it holds of the
bytes. -/
theorem all_decodeLossyFrom (good : Nat → Prop) (hwide : ∀ code, 128 ≤ code → good code)
    (skip : Nat) (bytes : List UInt8) (hbytes : ∀ byte ∈ bytes, good byte.toNat) :
    ∀ char ∈ decodeLossyFrom skip bytes, good char.toNat := by
  induction bytes generalizing skip with
  | nil => cases skip <;> exact fun char hmem => nomatch hmem
  | cons lead rest ih =>
    have hrest := fun skip => ih skip fun byte hmem => hbytes byte (mem_cons_of_mem lead hmem)
    cases skip with
    | succ skip => exact hrest skip
    | zero =>
      refine forall_mem_cons.2 ⟨?_, hrest _⟩
      by_cases hlead : lead.toNat < 128
      · rw [(decodeChar_ascii hlead rest).1, toNat_ofNat_byte]
        exact hbytes lead mem_cons_self
      · exact hwide _ (decodeChar_wide hlead rest)

theorem decodeLossy_ascii {bytes : List UInt8} (hbytes : ∀ byte ∈ bytes, byte.toNat < 128) :
    decodeLossy bytes = latin1 bytes := by
  unfold decodeLossy
  induction bytes with
  | nil => rfl
  | cons lead rest ih =>
    obtain ⟨hlead, hrest⟩ := forall_mem_cons.1 hbytes
    obtain ⟨hchar, hcount⟩ := decodeChar_ascii hlead rest
    rw [decodeLossyFrom, hchar, hcount, ih hrest]
    rfl

theorem ascii_of_decodeLossy {bytes : List UInt8}
    (hchars : ∀ char ∈ decodeLossy bytes, char.toNat < 128) : ∀ byte ∈ bytes, byte.toNat < 128 := by
  unfold decodeLossy at hchars
  induction bytes with
  | nil => exact fun byte hmem => nomatch hmem
  | cons lead rest ih =>
    obtain ⟨hchar, hrest⟩ := forall_mem_cons.1 hchars
    have hlead : lead.toNat < 128 := by
      by_contra hwide
      exact absurd hchar (Nat.not_lt.2 (decodeChar_wide hwide rest))
    rw [(decodeChar_ascii hlead rest).2] at hrest
    exact forall_mem_cons.2 ⟨hlead, ih hrest⟩

theorem utf8_latin1 {bytes : List UInt8} (hbytes : ∀ byte ∈ bytes, byte.toNat < 128) :
    utf8 (latin1 bytes) = bytes := by
  induction bytes with
  | nil => rfl
  | cons lead rest ih =>
    obtain ⟨hlead, hrest⟩ := forall_mem_cons.1 hbytes
    have hchar := toNat_ofNat_byte lead
    rw [latin1, map_cons, utf8_cons, utf8EncodeChar_of_ascii (by omega), hchar,
      UInt8.ofNat_toNat, ← latin1, ih hrest]
    rfl

end FastapiTurbo.Lib
