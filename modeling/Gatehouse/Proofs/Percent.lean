import Gatehouse.Percent
import Gatehouse.Proofs.Text.Utf8

/-!
# Percent encoding can be undone

What is encoded is read back, as long as the characters that stay as they are belong to ASCII and
are neither the percent sign nor the plus sign. So the encoding is injective, and it writes only
characters that stay, percent signs and upper-case hexadecimal digits.

- `decode_encodeWith`: the round trip, for any choice of the characters that stay.
- `mem_encodeWith`: the alphabet of encoded texts.
- `decode_oauthEncode`, `oauthEncode_injective`, `mem_oauthEncode`: the same for signed names and
  values.
- `notMem_oauthEncode`: what can stand between them.
- `IsEncoded`, `isEncoded_oauthEncode`: their grammar, letter by letter.
-/

namespace Gatehouse.Percent

variable {keep : Char → Bool}

/-! ## Digits -/

theorem upperDigit_isAlphanum {n : Nat} (h : n < 16) : (Hex.upperDigit n).isAlphanum = true := by
  have hall : ∀ n < 16, (Hex.upperDigit n).isAlphanum = true := by decide
  exact hall n h

theorem value?_upperDigit {n : Nat} (h : n < 16) :
    Hex.value? (Hex.upperDigit n).toNat = some n := by
  have hall : ∀ n < 16, Hex.value? (Hex.upperDigit n).toNat = some n := by decide
  exact hall n h

/-! ## One character -/

/-- The characters that stay are of ASCII, and no sign of the encoding is among them. -/
def Plain (keep : Char → Bool) : Prop :=
  ∀ c, keep c = true → c.toNat < 0x80 ∧ c ≠ '%' ∧ c ≠ '+'

theorem encode_of_ascii {c : Char} (h : c.toNat < 0x80) :
    String.utf8EncodeChar c = [UInt8.ofNat c.toNat] :=
  if_pos (by show c.toNat ≤ 0x7F; omega)

theorem toNat_of_isAlphanum {c : Char} (h : c.isAlphanum = true) :
    0x30 ≤ c.toNat ∧ c.toNat ≤ 0x7A := by
  have hranges : (decide (c.val ≥ 'A'.val ∧ c.val ≤ 'Z'.val) ||
      (decide (c.val ≥ 'a'.val) && decide (c.val ≤ 'z'.val)) ||
      (decide (c.val ≥ '0'.val) && decide (c.val ≤ '9'.val))) = true := h
  simp only [Bool.or_eq_true, Bool.and_eq_true, decide_eq_true_eq, ge_iff_le,
    UInt32.le_iff_toNat_le] at hranges
  show 0x30 ≤ c.val.toNat ∧ c.val.toNat ≤ 0x7A
  have hA : 'A'.val.toNat = 65 := rfl
  have hZ : 'Z'.val.toNat = 90 := rfl
  have ha : 'a'.val.toNat = 97 := rfl
  have hz : 'z'.val.toNat = 122 := rfl
  have hzero : '0'.val.toNat = 48 := rfl
  have hnine : '9'.val.toNat = 57 := rfl
  omega

theorem toNat_lt_of_isAlphanum {c : Char} (h : c.isAlphanum = true) : c.toNat < 0x80 :=
  Nat.lt_of_le_of_lt (toNat_of_isAlphanum h).2 (by decide)

theorem decodeBytes_cons_of_ne {b : UInt8} (h : b ≠ 0x25) (rest : Bytes) :
    decodeBytes (b :: rest) = b :: decodeBytes rest := by
  match rest with
  | [] => rfl
  | [_] => rfl
  | _ :: _ :: _ => rw [decodeBytes, if_neg h]

/-- An escape is undone, whatever follows. -/
theorem decodeBytes_escape (b : UInt8) (rest : Bytes) :
    decodeBytes (Utf8.encode (escape b) ++ rest) = b :: decodeBytes rest := by
  have hlt := b.toNat_lt
  have hhigh : b.toNat / 16 < 16 := by omega
  have hlow : b.toNat % 16 < 16 := by omega
  have hbytes : Utf8.encode (escape b) = [0x25, UInt8.ofNat (Hex.upperDigit (b.toNat / 16)).toNat,
      UInt8.ofNat (Hex.upperDigit (b.toNat % 16)).toNat] := by
    rw [escape, Utf8.encode]
    simp only [List.flatMap_cons, List.flatMap_nil,
      encode_of_ascii (toNat_lt_of_isAlphanum (upperDigit_isAlphanum hhigh)),
      encode_of_ascii (toNat_lt_of_isAlphanum (upperDigit_isAlphanum hlow))]
    rfl
  have hdigit : ∀ n < 16,
      (UInt8.ofNat (Hex.upperDigit n).toNat).toNat = (Hex.upperDigit n).toNat := by
    intro n hn
    have := toNat_lt_of_isAlphanum (upperDigit_isAlphanum hn)
    exact Utf8.toNat_ofNat_of_lt (by omega)
  rw [hbytes]
  show decodeBytes (_ :: _ :: _ :: rest) = _
  rw [decodeBytes, if_pos rfl, hdigit _ hhigh, hdigit _ hlow, value?_upperDigit hhigh,
    value?_upperDigit hlow]
  show UInt8.ofNat (b.toNat / 16 * 16 + b.toNat % 16) :: _ = _
  rw [show b.toNat / 16 * 16 + b.toNat % 16 = b.toNat by omega, UInt8.ofNat_toNat]

/-- No escape contains a plus sign. -/
theorem plusToSpace_escape (b : UInt8) :
    plusToSpace (Utf8.encode (escape b)) = Utf8.encode (escape b) := by
  have hall : ∀ n < 256, plusToSpace (Utf8.encode (escape (UInt8.ofNat n))) =
      Utf8.encode (escape (UInt8.ofNat n)) := by decide +kernel
  have h := hall b.toNat b.toNat_lt
  rw [UInt8.ofNat_toNat] at h
  exact h

theorem plusToSpace_append (a b : Bytes) :
    plusToSpace (a ++ b) = plusToSpace a ++ plusToSpace b :=
  List.map_append

/-- The bytes of a text that was escaped byte by byte are read back. -/
theorem decodeBytes_escapes (bytes rest : Bytes) :
    decodeBytes (plusToSpace (Utf8.encode (bytes.flatMap escape)) ++ rest) =
      bytes ++ decodeBytes rest := by
  induction bytes with
  | nil => rfl
  | cons b bytes ih =>
    rw [List.flatMap_cons, Utf8.encode_append, plusToSpace_append, plusToSpace_escape,
      List.append_assoc, decodeBytes_escape, ih, List.cons_append]

/-- One character, kept or escaped, is read back as its bytes. -/
theorem decodeBytes_encodeChar (hkeep : Plain keep) (c : Char) (rest : Bytes) :
    decodeBytes (plusToSpace (Utf8.encode (encodeChar keep c)) ++ rest) =
      String.utf8EncodeChar c ++ decodeBytes rest := by
  by_cases hc : keep c = true
  · obtain ⟨hascii, hpercent, hplus⟩ := hkeep c hc
    -- characters of ASCII are told apart by their bytes
    have hbyte : ∀ d : Char, d.toNat < 0x80 → c ≠ d →
        UInt8.ofNat c.toNat ≠ UInt8.ofNat d.toNat := by
      intro d hd hne heq
      have h := congrArg UInt8.toNat heq
      rw [Utf8.toNat_ofNat_of_lt (by omega), Utf8.toNat_ofNat_of_lt (by omega)] at h
      exact hne (Char.toNat_inj.1 h)
    have hstays : UInt8.ofNat c.toNat ≠ 0x2B := hbyte '+' (by decide) hplus
    rw [encodeChar, if_pos hc, Utf8.encode, List.flatMap_singleton, encode_of_ascii hascii,
      plusToSpace, List.map_singleton, if_neg hstays]
    exact decodeBytes_cons_of_ne (hbyte '%' (by decide) hpercent) rest
  · rw [encodeChar, if_neg hc]
    exact decodeBytes_escapes _ rest

/-- One character becomes at most twelve, three for each of its bytes. -/
theorem length_encodeChar_le (c : Char) : (encodeChar keep c).length ≤ 12 := by
  have hbytes := Utf8.length_encodeChar_le c
  have hescapes : ∀ bytes : Bytes, (bytes.flatMap escape).length = 3 * bytes.length := by
    intro bytes
    induction bytes with
    | nil => rfl
    | cons b bytes ih =>
      rw [List.flatMap_cons, List.length_append, ih, List.length_cons, escape]
      simp only [List.length_cons, List.length_nil]
      omega
  rw [encodeChar]
  split
  · exact Nat.le_of_ble_eq_true rfl
  · rw [hescapes]
    omega

/-! ## Texts -/

theorem decodeBytes_encodeWith (hkeep : Plain keep) (s : List Char) :
    decodeBytes (plusToSpace (Utf8.encode (encodeWith keep s))) = Utf8.encode s := by
  induction s with
  | nil => rfl
  | cons c s ih =>
    rw [encodeWith, List.flatMap_cons, Utf8.encode_append, plusToSpace_append,
      decodeBytes_encodeChar hkeep, ← encodeWith, ih]
    rfl

/-- What is encoded is read back. -/
theorem decode_encodeWith (hkeep : Plain keep) (s : List Char) :
    decode (encodeWith keep s) = s := by
  rw [decode, decodeBytes_encodeWith hkeep, Utf8.decodeLossy_encode]

/-- An encoded text consists of characters that stay, percent signs and digits. -/
theorem mem_encodeWith {x : Char} {s : List Char} (h : x ∈ encodeWith keep s) :
    keep x = true ∨ x = '%' ∨ ∃ n < 16, x = Hex.upperDigit n := by
  obtain ⟨c, -, hx⟩ := List.mem_flatMap.1 h
  by_cases hc : keep c = true
  · rw [encodeChar, if_pos hc, List.mem_singleton] at hx
    exact .inl (hx ▸ hc)
  · rw [encodeChar, if_neg hc] at hx
    obtain ⟨b, -, hb⟩ := List.mem_flatMap.1 hx
    have hlt := b.toNat_lt
    simp only [escape, List.mem_cons, List.not_mem_nil, or_false] at hb
    rcases hb with rfl | rfl | rfl
    · exact .inr (.inl rfl)
    · exact .inr (.inr ⟨_, by omega, rfl⟩)
    · exact .inr (.inr ⟨_, by omega, rfl⟩)

/-! ## Signed names and values -/

theorem plain_isUnreserved : Plain isUnreserved := by
  intro c hc
  refine ⟨?_, ?_, ?_⟩
  · simp only [isUnreserved, isAlphanumeric, Bool.or_eq_true, beq_iff_eq] at hc
    rcases hc with (((halnum | rfl) | rfl) | rfl) | rfl
    · exact toNat_lt_of_isAlphanum halnum
    all_goals decide
  · rintro rfl
    exact absurd hc (by decide)
  · rintro rfl
    exact absurd hc (by decide)

/-- Signed names and values are read back. -/
theorem decode_oauthEncode (s : List Char) : decode (oauthEncode s) = s :=
  decode_encodeWith plain_isUnreserved s

/-- Different names and values are signed as different texts. -/
theorem oauthEncode_injective {s t : List Char} (h : oauthEncode s = oauthEncode t) : s = t := by
  rw [← decode_oauthEncode s, h, decode_oauthEncode]

/-- A signed name or value consists of unreserved characters and percent signs. -/
theorem mem_oauthEncode {x : Char} {s : List Char} (h : x ∈ oauthEncode s) :
    isUnreserved x = true ∨ x = '%' := by
  rcases mem_encodeWith h with hkeep | hpercent | ⟨n, hn, rfl⟩
  · exact .inl hkeep
  · exact .inr hpercent
  · refine .inl ?_
    rw [isUnreserved, isAlphanumeric, upperDigit_isAlphanum hn]
    rfl

/-- Any other character can separate signed names and values. -/
theorem notMem_oauthEncode {c : Char} (h : isUnreserved c = false) (hc : c ≠ '%')
    (s : List Char) : c ∉ oauthEncode s := by
  intro hmem
  rcases mem_oauthEncode hmem with hkeep | hpercent
  · rw [h] at hkeep
    cases hkeep
  · exact hc hpercent

/-- A text is encoded piece by piece. -/
theorem oauthEncode_append (s t : List Char) :
    oauthEncode (s ++ t) = oauthEncode s ++ oauthEncode t :=
  List.flatMap_append

/-! ## The grammar of encoded texts -/

/-- The characters that are written as they are. -/
def unreserved : List Char :=
  "ABCDEFGHIJKLMNOPQRSTUVWXYZabcdefghijklmnopqrstuvwxyz0123456789-_.~".toList

/-- The digits of escapes. -/
def upperDigits : List Char :=
  "0123456789ABCDEF".toList

/-- A text of unreserved characters, and of percent signs that are followed by two digits each. -/
inductive IsEncoded : List Char → Prop where
  | nil : IsEncoded []
  | plain {c : Char} {s : List Char} (hc : c ∈ unreserved) (h : IsEncoded s) : IsEncoded (c :: s)
  | triple {high low : Char} {s : List Char} (hhigh : high ∈ upperDigits)
    (hlow : low ∈ upperDigits) (h : IsEncoded s) : IsEncoded ('%' :: high :: low :: s)

theorem mem_unreserved {c : Char} (h : isUnreserved c = true) : c ∈ unreserved := by
  have hall : ∀ n < 0x80, isUnreserved (Char.ofNat n) = true → Char.ofNat n ∈ unreserved := by
    decide +kernel
  have hc := hall c.toNat (plain_isUnreserved c h).1
  rw [Char.ofNat_toNat] at hc
  exact hc h

theorem upperDigit_mem {n : Nat} (h : n < 16) : Hex.upperDigit n ∈ upperDigits := by
  have hall : ∀ n < 16, Hex.upperDigit n ∈ upperDigits := by decide
  exact hall n h

namespace IsEncoded

variable {s t : List Char}

theorem append (hs : IsEncoded s) (ht : IsEncoded t) : IsEncoded (s ++ t) := by
  induction hs with
  | nil => exact ht
  | plain hc _ ih => exact .plain hc ih
  | triple hhigh hlow _ ih => exact .triple hhigh hlow ih

/-- Escapes are triples, whatever bytes they stand for. -/
theorem escapes (bytes : Bytes) : IsEncoded (bytes.flatMap escape) := by
  induction bytes with
  | nil => exact .nil
  | cons b bytes ih =>
    have hlt := b.toNat_lt
    exact .triple (upperDigit_mem (by omega)) (upperDigit_mem (by omega)) ih

end IsEncoded

/-- Signed names and values keep to the grammar. -/
theorem isEncoded_oauthEncode (s : List Char) : IsEncoded (oauthEncode s) := by
  induction s with
  | nil => exact .nil
  | cons c s ih =>
    have hfirst : IsEncoded (encodeChar isUnreserved c) := by
      rw [encodeChar]
      split
      · next hc => exact .plain (mem_unreserved hc) .nil
      · exact .escapes (String.utf8EncodeChar c)
    exact hfirst.append ih

end Gatehouse.Percent
