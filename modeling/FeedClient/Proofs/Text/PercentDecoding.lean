import FeedClient.Exchange.Address
import FeedClient.Text.Percent

/-!
# Percent-decoding

Decoding takes an escape for the byte that its two hexadecimal digits say and any
other character for the bytes of its UTF-8 form. It refuses a percent sign without
two digits behind it, and bytes that spell no text. An encoded text is decoded to
itself, and a blank one to the empty text.
-/
namespace FeedClient.Percent

/-- The bytes that an encoded text stands for. -/
def decodeBytes? : List Char → Option (List UInt8)
  | [] => some []
  | '%' :: a :: b :: cs =>
    match Address.hexDigit? a, Address.hexDigit? b, decodeBytes? cs with
    | some x, some y, some bs => some (UInt8.ofNat (x * 16 + y) :: bs)
    | _, _, _ => none
  | c :: cs => if c = '%' then none else (decodeBytes? cs).map (String.utf8EncodeChar c ++ ·)

/-- The text that an encoded text stands for. -/
def decode? (cs : List Char) : Option String :=
  (decodeBytes? cs).bind fun bs => String.fromUTF8? bs.toByteArray

/-- The characters of encoded text: the unreserved ones and the percent sign. -/
def isEncodedChar (c : Char) : Bool := c.isAlphanum || "-_.~%".toList.contains c

theorem hexDigit?_hexDigit : ∀ n < 16, Address.hexDigit? (hexDigit n) = some n := by decide

theorem isEncodedChar_hexDigit : ∀ n < 16, isEncodedChar (hexDigit n) = true := by decide

theorem decodeBytes?_cons {c : Char} (h : c ≠ '%') (cs : List Char) :
    decodeBytes? (c :: cs) = (decodeBytes? cs).map (String.utf8EncodeChar c ++ ·) := by
  rw [decodeBytes?.eq_3 c cs fun a b rest hc _ => h hc, if_neg h]

/-- An unreserved byte is an ASCII character other than the percent sign. -/
theorem isUnreserved_lt {b : UInt8} (h : isUnreserved b = true) : b.toNat < 128 ∧ b.toNat ≠ 37 := by
  simp only [isUnreserved, Bool.or_eq_true, Bool.and_eq_true, decide_eq_true_eq, beq_iff_eq] at h
  omega

theorem toNat_ofNat_ascii {n : Nat} (h : n < 128) : (Char.ofNat n).toNat = n := by
  have hvalid : n.isValidChar := .inl (by omega)
  rw [Char.ofNat, dif_pos hvalid]
  rfl

theorem utf8EncodeChar_ascii {b : UInt8} (h : b.toNat < 128) :
    String.utf8EncodeChar (Char.ofNat b.toNat) = [b] := by
  have hval : (Char.ofNat b.toNat).val.toNat = b.toNat := toNat_ofNat_ascii h
  rw [String.utf8EncodeChar, if_pos (by omega), hval, UInt8.ofNat_toNat]

theorem isEncodedChar_ascii : ∀ n < 128, isUnreserved (UInt8.ofNat n) = true →
    isEncodedChar (Char.ofNat n) = true := by decide

/-- A percent sign, or an unreserved character. -/
theorem isEncodedChar_of_mem_encodeByte {b : UInt8} {c : Char} (h : c ∈ encodeByte b) :
    isEncodedChar c = true := by
  have hb : b.toNat < 256 := b.toNat_lt
  unfold encodeByte at h
  split at h
  · rename_i hu
    obtain rfl := List.mem_singleton.mp h
    apply isEncodedChar_ascii _ (isUnreserved_lt hu).1
    rwa [UInt8.ofNat_toNat]
  · simp only [List.mem_cons, List.not_mem_nil, or_false] at h
    rcases h with rfl | rfl | rfl
    · decide
    · exact isEncodedChar_hexDigit _ (by omega)
    · exact isEncodedChar_hexDigit _ (by omega)

theorem decodeBytes?_encodeByte (b : UInt8) (cs : List Char) :
    decodeBytes? (encodeByte b ++ cs) = (decodeBytes? cs).map (b :: ·) := by
  have hb : b.toNat < 256 := b.toNat_lt
  unfold encodeByte
  split
  · rename_i hu
    obtain ⟨hlt, hpercent⟩ := isUnreserved_lt hu
    have hne : Char.ofNat b.toNat ≠ '%' := by
      intro heq
      have hcode := congrArg Char.toNat heq
      rw [toNat_ofNat_ascii hlt] at hcode
      exact hpercent hcode
    rw [List.singleton_append, decodeBytes?_cons hne, utf8EncodeChar_ascii hlt]
    rfl
  · have hhigh := hexDigit?_hexDigit (b.toNat / 16) (by omega)
    have hlow := hexDigit?_hexDigit (b.toNat % 16) (by omega)
    have hbyte : UInt8.ofNat (b.toNat / 16 * 16 + b.toNat % 16) = b := by
      rw [Nat.div_add_mod', UInt8.ofNat_toNat]
    simp only [List.cons_append, List.nil_append, decodeBytes?, hhigh, hlow]
    cases decodeBytes? cs with
    | none => rfl
    | some bs => simp only [hbyte, Option.map_some]

theorem decodeBytes?_encodeBytes (bs : List UInt8) : decodeBytes? (encodeBytes bs) = some bs := by
  induction bs with
  | nil => rfl
  | cons b bs ih =>
      rw [encodeBytes] at ih ⊢
      rw [List.flatMap_cons, decodeBytes?_encodeByte, ih, Option.map_some]

/-- The bytes of a text spell it. -/
theorem fromUTF8?_utf8Bytes (s : String) :
    String.fromUTF8? (Text.utf8Bytes s).toByteArray = some s := by
  have hbytes : (Text.utf8Bytes s).toByteArray = s.toByteArray := String.utf8Encode_toList
  rw [hbytes, String.fromUTF8?, dif_pos s.isValidUTF8]
  rfl

/-- Decoding an encoded text recovers it; a blank text is encoded as the empty one. -/
theorem decode?_encode (s : String) :
    decode? (encode s).toList = some (if Text.isBlank s then "" else s) := by
  unfold encode
  split
  · rfl
  · rw [String.toList_ofList, decode?, decodeBytes?_encodeBytes]
    exact fromUTF8?_utf8Bytes s

theorem isEncodedChar_of_mem_encode {s : String} {c : Char} (h : c ∈ (encode s).toList) :
    isEncodedChar c = true := by
  unfold encode at h
  split at h
  · cases h
  · rw [String.toList_ofList, encodeBytes] at h
    obtain ⟨b, -, hc⟩ := List.mem_flatMap.mp h
    exact isEncodedChar_of_mem_encodeByte hc

end FeedClient.Percent
