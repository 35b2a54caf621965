import Gatehouse.Text.Utf8

/-!
# Reading back what was encoded

The reader of UTF-8 takes one byte at a time. Here it is run on the bytes of one character, by the
number of bytes, and then on the bytes of a text, by induction on the text. The other way round, a
text that was read begins with the character of the first bytes, and its bytes are told by
induction on the text again.

- `scanFrom_encodeChar`: the bytes of a character are read as that character, whatever follows.
- `decodeLossy_encode` and `decode?_encode`: a text is read back from its bytes.
- `encode_injective`: different texts have different bytes.
- `decode?_eq_some_iff`: a text is read from its bytes and from no others.
-/

namespace Gatehouse.Utf8

/-! ## Steps of the reader -/

theorem toNat_ofNat_of_lt {n : Nat} (h : n < 256) : (UInt8.ofNat n).toNat = n := by
  rw [UInt8.toNat_ofNat']
  exact Nat.mod_eq_of_lt h

theorem ofNat_eq {n : Nat} {b : UInt8} (h : n = b.toNat) : UInt8.ofNat n = b := by
  rw [h, UInt8.ofNat_toNat]

theorem scanFrom_whole {b : UInt8} {c : Char} (h : lead b = .whole c) (rest : Bytes) :
    scanFrom none (b :: rest) = some c :: scanFrom none rest := by
  simp only [scanFrom, start, h, List.cons_append, List.nil_append]

theorem scanFrom_opens {b : UInt8} {p : Pending} (h : lead b = .opens p) (rest : Bytes) :
    scanFrom none (b :: rest) = scanFrom (some p) rest := by
  simp only [scanFrom, start, h, List.nil_append]

/-- A byte in the wanted range carries six bits. -/
theorem scanFrom_wanted {p : Pending} {b : UInt8} (hlower : p.lower ≤ b.toNat)
    (hupper : b.toNat ≤ p.upper) (hmore : 1 < p.wanted) (rest : Bytes) :
    scanFrom (some p) (b :: rest) =
      scanFrom (some ⟨p.wanted - 1, p.code * 64 + (b.toNat - 0x80), 0x80, 0xBF⟩) rest := by
  have hcontinued : continued p b =
      ([], some ⟨p.wanted - 1, p.code * 64 + (b.toNat - 0x80), 0x80, 0xBF⟩) := by
    rw [continued, if_pos ⟨hlower, hupper⟩]
    exact if_neg (by omega)
  rw [scanFrom, hcontinued, List.nil_append]

/-- The last byte in the wanted range completes a character. -/
theorem scanFrom_last {p : Pending} {b : UInt8} (hlower : p.lower ≤ b.toNat)
    (hupper : b.toNat ≤ p.upper) (hlast : p.wanted ≤ 1) (rest : Bytes) :
    scanFrom (some p) (b :: rest) =
      some (Char.ofNat (p.code * 64 + (b.toNat - 0x80))) :: scanFrom none rest := by
  have hcontinued : continued p b =
      ([some (Char.ofNat (p.code * 64 + (b.toNat - 0x80)))], none) := by
    rw [continued, if_pos ⟨hlower, hupper⟩]
    exact if_pos hlast
  rw [scanFrom, hcontinued, List.cons_append, List.nil_append]

/-- A byte at the place of a later one, with its six bits. -/
theorem toNat_tail (n : Nat) : (UInt8.ofNat (n % 0x40 + 0x80)).toNat = n % 0x40 + 0x80 :=
  toNat_ofNat_of_lt (by omega)

/-! ## First bytes -/

theorem lead_one {b : UInt8} (h : b.toNat < 0x80) : lead b = .whole (Char.ofNat b.toNat) := by
  simp only [lead, h, if_true]

theorem lead_two {n : Nat} (hlow : 2 ≤ n) (h : n < 32) {b : UInt8} (hb : b.toNat = n + 0xC0) :
    lead b = .opens ⟨1, n, 0x80, 0xBF⟩ := by
  rw [lead, hb]
  simp only [show ¬n + 0xC0 < 0x80 by omega, show ¬n + 0xC0 < 0xC2 by omega,
    show n + 0xC0 < 0xE0 by omega, if_true, if_false, Nat.add_sub_cancel]

/-- A lead byte of three-byte characters narrows the range of the second byte, so that overlong
forms and surrogates are left out; the bytes of a character are within it. -/
theorem lead_three {n : Nat} (h : n < 16) {b : UInt8} (hb : b.toNat = n + 0xE0) :
    lead b = .opens ⟨2, n, if n = 0 then 0xA0 else 0x80, if n = 0xD then 0x9F else 0xBF⟩ := by
  rw [lead, hb]
  simp only [show ¬n + 0xE0 < 0x80 by omega, show ¬n + 0xE0 < 0xC2 by omega,
    show ¬n + 0xE0 < 0xE0 by omega, show n + 0xE0 < 0xF0 by omega, if_true, if_false,
    Nat.add_sub_cancel]
  by_cases hzero : n = 0
  · subst hzero
    rfl
  · by_cases hthirteen : n = 0xD
    · subst hthirteen
      rfl
    · simp only [show ¬n + 0xE0 = 0xE0 by omega, show ¬n + 0xE0 = 0xED by omega, hzero, hthirteen,
        if_false]

/-- The same for four-byte characters: overlong forms and numbers that are too great are left
out. -/
theorem lead_four {n : Nat} (h : n < 5) {b : UInt8} (hb : b.toNat = n + 0xF0) :
    lead b = .opens ⟨3, n, if n = 0 then 0x90 else 0x80, if n = 4 then 0x8F else 0xBF⟩ := by
  rw [lead, hb]
  simp only [show ¬n + 0xF0 < 0x80 by omega, show ¬n + 0xF0 < 0xC2 by omega,
    show ¬n + 0xF0 < 0xE0 by omega, show ¬n + 0xF0 = 0xE0 by omega, show ¬n + 0xF0 = 0xED by omega,
    show ¬n + 0xF0 < 0xF0 by omega, if_false, Nat.add_sub_cancel]
  by_cases hzero : n = 0
  · subst hzero
    rfl
  · by_cases hfour : n = 4
    · subst hfour
      rfl
    · simp only [show ¬n + 0xF0 = 0xF0 by omega, show n + 0xF0 < 0xF4 by omega, hzero, hfour,
        if_true, if_false]

/-- The other bytes begin no character. -/
theorem lead_stray {b : UInt8} (h : 0x80 ≤ b.toNat ∧ b.toNat < 0xC2 ∨ 0xF5 ≤ b.toNat) :
    lead b = .stray := by
  rw [lead]
  rcases h with ⟨hlow, hhigh⟩ | hbeyond
  · simp only [show ¬b.toNat < 0x80 by omega, hhigh, if_true, if_false]
  · simp only [show ¬b.toNat < 0x80 by omega, show ¬b.toNat < 0xC2 by omega,
      show ¬b.toNat < 0xE0 by omega, show ¬b.toNat = 0xE0 by omega, show ¬b.toNat = 0xED by omega,
      show ¬b.toNat < 0xF0 by omega, show ¬b.toNat = 0xF0 by omega, show ¬b.toNat < 0xF4 by omega,
      show ¬b.toNat = 0xF4 by omega, if_false]

/-! ## Characters by the number of their bytes -/

theorem encodeChar_one {c : Char} (h : c.toNat ≤ 0x7F) :
    String.utf8EncodeChar c = [UInt8.ofNat c.toNat] :=
  if_pos h

theorem encodeChar_two {c : Char} (hlow : 0x7F < c.toNat) (h : c.toNat ≤ 0x7FF) :
    String.utf8EncodeChar c =
      [UInt8.ofNat (c.toNat / 64 % 0x20 + 0xC0), UInt8.ofNat (c.toNat % 0x40 + 0x80)] :=
  (if_neg (by show ¬c.toNat ≤ 0x7F; omega)).trans (if_pos h)

theorem encodeChar_three {c : Char} (hlow : 0x7FF < c.toNat) (h : c.toNat ≤ 0xFFFF) :
    String.utf8EncodeChar c =
      [UInt8.ofNat (c.toNat / 4096 % 0x10 + 0xE0), UInt8.ofNat (c.toNat / 64 % 0x40 + 0x80),
        UInt8.ofNat (c.toNat % 0x40 + 0x80)] :=
  (if_neg (by show ¬c.toNat ≤ 0x7F; omega)).trans
    ((if_neg (by show ¬c.toNat ≤ 0x7FF; omega)).trans (if_pos h))

theorem encodeChar_four {c : Char} (hlow : 0xFFFF < c.toNat) :
    String.utf8EncodeChar c =
      [UInt8.ofNat (c.toNat / 262144 % 0x08 + 0xF0), UInt8.ofNat (c.toNat / 4096 % 0x40 + 0x80),
        UInt8.ofNat (c.toNat / 64 % 0x40 + 0x80), UInt8.ofNat (c.toNat % 0x40 + 0x80)] :=
  (if_neg (by show ¬c.toNat ≤ 0x7F; omega)).trans
    ((if_neg (by show ¬c.toNat ≤ 0x7FF; omega)).trans (if_neg (by show ¬c.toNat ≤ 0xFFFF; omega)))

theorem scanFrom_encodeChar_one {c : Char} (h : c.toNat ≤ 0x7F) (rest : Bytes) :
    scanFrom none (String.utf8EncodeChar c ++ rest) = some c :: scanFrom none rest := by
  rw [encodeChar_one h]
  refine scanFrom_whole ?_ rest
  have hb : (UInt8.ofNat c.toNat).toNat = c.toNat := toNat_ofNat_of_lt (by omega)
  rw [lead, hb]
  simp only [show c.toNat < 0x80 by omega, if_true, Char.ofNat_toNat]

theorem scanFrom_encodeChar_two {c : Char} (hlow : 0x7F < c.toNat) (h : c.toNat ≤ 0x7FF)
    (rest : Bytes) :
    scanFrom none (String.utf8EncodeChar c ++ rest) = some c :: scanFrom none rest := by
  have hb : (UInt8.ofNat (c.toNat / 64 % 0x20 + 0xC0)).toNat = c.toNat / 64 + 0xC0 := by
    rw [toNat_ofNat_of_lt (by omega)]
    omega
  rw [encodeChar_two hlow h]
  show scanFrom none (_ :: _ :: rest) = _
  rw [scanFrom_opens (lead_two (by omega) (by omega) hb), scanFrom_last]
  all_goals simp only [toNat_tail]
  · rw [show c.toNat / 64 * 64 + (c.toNat % 0x40 + 0x80 - 0x80) = c.toNat by omega,
      Char.ofNat_toNat]
  all_goals omega

theorem scanFrom_encodeChar_three {c : Char} (hlow : 0x7FF < c.toNat) (h : c.toNat ≤ 0xFFFF)
    (rest : Bytes) :
    scanFrom none (String.utf8EncodeChar c ++ rest) = some c :: scanFrom none rest := by
  have hvalid : c.toNat < 0xD800 ∨ 0xDFFF < c.toNat ∧ c.toNat < 0x110000 := c.valid
  have hb : (UInt8.ofNat (c.toNat / 4096 % 0x10 + 0xE0)).toNat = c.toNat / 4096 + 0xE0 := by
    rw [toNat_ofNat_of_lt (by omega)]
    omega
  rw [encodeChar_three hlow h]
  show scanFrom none (_ :: _ :: _ :: rest) = _
  rw [scanFrom_opens (lead_three (by omega) hb), scanFrom_wanted, scanFrom_last]
  -- the six bits of each byte are put together, and each byte is in the range that is wanted
  all_goals simp only [toNat_tail]
  · rw [show (c.toNat / 4096 * 64 + (c.toNat / 64 % 0x40 + 0x80 - 0x80)) * 64 +
      (c.toNat % 0x40 + 0x80 - 0x80) = c.toNat by omega, Char.ofNat_toNat]
  · omega
  · omega
  · omega
  · split <;> omega
  · split <;> omega
  · omega

theorem scanFrom_encodeChar_four {c : Char} (hlow : 0xFFFF < c.toNat) (rest : Bytes) :
    scanFrom none (String.utf8EncodeChar c ++ rest) = some c :: scanFrom none rest := by
  have hvalid : c.toNat < 0xD800 ∨ 0xDFFF < c.toNat ∧ c.toNat < 0x110000 := c.valid
  have hb : (UInt8.ofNat (c.toNat / 262144 % 0x08 + 0xF0)).toNat = c.toNat / 262144 + 0xF0 := by
    rw [toNat_ofNat_of_lt (by omega)]
    omega
  rw [encodeChar_four hlow]
  show scanFrom none (_ :: _ :: _ :: _ :: rest) = _
  rw [scanFrom_opens (lead_four (by omega) hb), scanFrom_wanted, scanFrom_wanted, scanFrom_last]
  all_goals simp only [toNat_tail]
  · rw [show ((c.toNat / 262144 * 64 + (c.toNat / 4096 % 0x40 + 0x80 - 0x80)) * 64 +
      (c.toNat / 64 % 0x40 + 0x80 - 0x80)) * 64 + (c.toNat % 0x40 + 0x80 - 0x80) = c.toNat by omega,
      Char.ofNat_toNat]
  · omega
  · omega
  · omega
  · omega
  · omega
  · omega
  · split <;> omega
  · split <;> omega
  · omega

/-! ## Texts -/

/-- The bytes of a character are read as that character. -/
theorem scanFrom_encodeChar (c : Char) (rest : Bytes) :
    scanFrom none (String.utf8EncodeChar c ++ rest) = some c :: scanFrom none rest := by
  by_cases h1 : c.toNat ≤ 0x7F
  · exact scanFrom_encodeChar_one h1 rest
  · by_cases h2 : c.toNat ≤ 0x7FF
    · exact scanFrom_encodeChar_two (by omega) h2 rest
    · by_cases h3 : c.toNat ≤ 0xFFFF
      · exact scanFrom_encodeChar_three (by omega) h3 rest
      · exact scanFrom_encodeChar_four (by omega) rest

/-- The bytes of a text spell its characters, without gaps. -/
theorem scan_encode (s : List Char) : scan (encode s) = s.map some := by
  unfold scan
  induction s with
  | nil => rfl
  | cons c s ih =>
    rw [encode, List.flatMap_cons, scanFrom_encodeChar, List.map_cons, ← ih]
    rfl

/-- A text is read back from its bytes. -/
theorem decodeLossy_encode (s : List Char) : decodeLossy (encode s) = s := by
  rw [decodeLossy, scan_encode, List.map_map]
  exact List.map_id s

/-- The bytes spell a text if no symbol is a gap. -/
theorem decode?_eq_some_iff_scan {bytes : Bytes} {s : List Char} :
    decode? bytes = some s ↔ scan bytes = s.map some := by
  rw [decode?]
  induction scan bytes generalizing s with
  | nil => cases s <;> simp
  | cons symbol symbols ih =>
    cases symbol with
    | none => cases s <;> simp
    | some c =>
      simp only [List.mapM_cons, id_eq, Option.bind_eq_bind, Option.bind_some,
        Option.bind_eq_some_iff, Option.pure_def, Option.some.injEq, ih]
      constructor
      · rintro ⟨more, rfl, rfl⟩
        rfl
      · intro hs
        obtain ⟨d, more, rfl, hd, rfl⟩ := List.map_eq_cons_iff.1 hs.symm
        exact ⟨more, rfl, congrArg (· :: more) (Option.some.inj hd).symm⟩

/-- The bytes of a text are well-formed. -/
theorem decode?_encode (s : List Char) : decode? (encode s) = some s :=
  decode?_eq_some_iff_scan.2 (scan_encode s)

theorem encode_append (s t : List Char) : encode (s ++ t) = encode s ++ encode t :=
  List.flatMap_append

theorem length_encodeChar_le (c : Char) : (String.utf8EncodeChar c).length ≤ 4 := by
  rw [String.length_utf8EncodeChar]
  exact c.utf8Size_le_four

/-- A text has at most four bytes for each of its characters. -/
theorem length_encode_le (s : List Char) : (encode s).length ≤ 4 * s.length := by
  induction s with
  | nil => exact Nat.le_refl 0
  | cons c s ih =>
    have hc := length_encodeChar_le c
    rw [encode] at ih ⊢
    rw [List.flatMap_cons, List.length_append, List.length_cons]
    omega

/-- Different texts have different bytes. -/
theorem encode_injective {s t : List Char} (h : encode s = encode t) : s = t := by
  rw [← decodeLossy_encode s, h, decodeLossy_encode]

/-! ## What is read was encoded -/

variable {code lower upper : Nat} {bytes : Bytes} {s : List Char}

/-- An open sequence that is not to be a gap goes on with a byte in the wanted range. -/
theorem exists_wanted {p : Pending} (h : scanFrom (some p) bytes = s.map some) :
    ∃ b rest, bytes = b :: rest ∧ p.lower ≤ b.toNat ∧ b.toNat ≤ p.upper := by
  have hgap : none ∉ s.map some := by simp
  cases bytes with
  | nil =>
    rw [← h] at hgap
    exact absurd List.mem_cons_self hgap
  | cons b rest =>
    by_cases hwanted : p.lower ≤ b.toNat ∧ b.toNat ≤ p.upper
    · exact ⟨b, rest, rfl, hwanted⟩
    · rw [← h, scanFrom, continued, if_neg hwanted] at hgap
      exact absurd List.mem_cons_self hgap

/-- If it wants several bytes, it stays open. -/
theorem exists_more {n : Nat} (h : scanFrom (some ⟨n + 2, code, lower, upper⟩) bytes = s.map some) :
    ∃ b rest, bytes = b :: rest ∧ lower ≤ b.toNat ∧ b.toNat ≤ upper ∧
      scanFrom (some ⟨n + 1, code * 64 + (b.toNat - 0x80), 0x80, 0xBF⟩) rest = s.map some := by
  obtain ⟨b, rest, rfl, hlower, hupper⟩ := exists_wanted h
  rw [scanFrom_wanted hlower hupper (Nat.le_add_left 2 n)] at h
  exact ⟨b, rest, rfl, hlower, hupper, h⟩

/-- If it wants one byte, it is a character with that byte. -/
theorem exists_last (h : scanFrom (some ⟨1, code, lower, upper⟩) bytes = s.map some) :
    ∃ b rest s', bytes = b :: rest ∧ lower ≤ b.toNat ∧ b.toNat ≤ upper ∧
      s = Char.ofNat (code * 64 + (b.toNat - 0x80)) :: s' ∧ scanFrom none rest = s'.map some := by
  obtain ⟨b, rest, rfl, hlower, hupper⟩ := exists_wanted h
  rw [scanFrom_last hlower hupper (Nat.le_refl 1)] at h
  obtain ⟨c, s', rfl, hc, hs'⟩ := List.map_eq_cons_iff.1 h.symm
  exact ⟨b, rest, s', rfl, hlower, hupper, by rw [Option.some.inj hc], hs'.symm⟩

theorem toNat_ofNat_char {n : Nat} (h : n < 0xD800 ∨ 0xDFFF < n ∧ n < 0x110000) :
    (Char.ofNat n).toNat = n := by
  rw [Char.ofNat, dif_pos (show n.isValidChar from h)]
  rfl

/-! ### One character -/

variable {b : UInt8} {rest : Bytes}

/-- A text begins with the character that its first bytes are. -/
def StartsWithChar (bytes : Bytes) (s : List Char) : Prop :=
  ∃ c s' rest, s = c :: s' ∧ bytes = String.utf8EncodeChar c ++ rest ∧
    scanFrom none rest = s'.map some

theorem startsWithChar_one (hb : b.toNat < 0x80) (h : scanFrom none (b :: rest) = s.map some) :
    StartsWithChar (b :: rest) s := by
  rw [scanFrom_whole (lead_one hb)] at h
  obtain ⟨c, s', rfl, hc, hs'⟩ := List.map_eq_cons_iff.1 h.symm
  rw [Option.some.inj hc]
  have hc : (Char.ofNat b.toNat).toNat = b.toNat := toNat_ofNat_char (by omega)
  refine ⟨_, s', rest, rfl, ?_, hs'.symm⟩
  rw [encodeChar_one (by omega), hc, UInt8.ofNat_toNat]
  rfl

theorem startsWithChar_two {n : Nat} (hlow : 2 ≤ n) (hn : n < 32) (hb : b.toNat = n + 0xC0)
    (h : scanFrom none (b :: rest) = s.map some) : StartsWithChar (b :: rest) s := by
  rw [scanFrom_opens (lead_two hlow hn hb)] at h
  obtain ⟨b₁, rest, s', rfl, hlower, hupper, rfl, hrest⟩ := exists_last h
  have hc : (Char.ofNat (n * 64 + (b₁.toNat - 0x80))).toNat = n * 64 + (b₁.toNat - 0x80) :=
    toNat_ofNat_char (by omega)
  refine ⟨_, s', rest, rfl, ?_, hrest⟩
  rw [encodeChar_two (by omega) (by omega), hc, ofNat_eq (show _ = b.toNat by omega),
    ofNat_eq (show _ = b₁.toNat by omega)]
  rfl

theorem startsWithChar_three {n : Nat} (hn : n < 16) (hb : b.toNat = n + 0xE0)
    (h : scanFrom none (b :: rest) = s.map some) : StartsWithChar (b :: rest) s := by
  rw [scanFrom_opens (lead_three hn hb)] at h
  obtain ⟨b₁, rest, rfl, hlower₁, hupper₁, h⟩ := exists_more h
  obtain ⟨b₂, rest, s', rfl, hlower₂, hupper₂, rfl, hrest⟩ := exists_last h
  have hc : (Char.ofNat ((n * 64 + (b₁.toNat - 0x80)) * 64 + (b₂.toNat - 0x80))).toNat =
      (n * 64 + (b₁.toNat - 0x80)) * 64 + (b₂.toNat - 0x80) :=
    toNat_ofNat_char (by split at hlower₁ <;> split at hupper₁ <;> omega)
  refine ⟨_, s', rest, rfl, ?_, hrest⟩
  rw [encodeChar_three (by split at hlower₁ <;> omega) (by split at hupper₁ <;> omega), hc,
    ofNat_eq (show _ = b.toNat by split at hupper₁ <;> omega),
    ofNat_eq (show _ = b₁.toNat by split at hlower₁ <;> split at hupper₁ <;> omega),
    ofNat_eq (show _ = b₂.toNat by omega)]
  rfl

theorem startsWithChar_four {n : Nat} (hn : n < 5) (hb : b.toNat = n + 0xF0)
    (h : scanFrom none (b :: rest) = s.map some) : StartsWithChar (b :: rest) s := by
  rw [scanFrom_opens (lead_four hn hb)] at h
  obtain ⟨b₁, rest, rfl, hlower₁, hupper₁, h⟩ := exists_more h
  obtain ⟨b₂, rest, rfl, hlower₂, hupper₂, h⟩ := exists_more h
  obtain ⟨b₃, rest, s', rfl, hlower₃, hupper₃, rfl, hrest⟩ := exists_last h
  have hc : (Char.ofNat (((n * 64 + (b₁.toNat - 0x80)) * 64 + (b₂.toNat - 0x80)) * 64 +
      (b₃.toNat - 0x80))).toNat =
      ((n * 64 + (b₁.toNat - 0x80)) * 64 + (b₂.toNat - 0x80)) * 64 + (b₃.toNat - 0x80) :=
    toNat_ofNat_char (by split at hlower₁ <;> split at hupper₁ <;> omega)
  refine ⟨_, s', rest, rfl, ?_, hrest⟩
  rw [encodeChar_four (by split at hlower₁ <;> omega), hc,
    ofNat_eq (show _ = b.toNat by split at hupper₁ <;> omega),
    ofNat_eq (show _ = b₁.toNat by split at hlower₁ <;> split at hupper₁ <;> omega),
    ofNat_eq (show _ = b₂.toNat by omega), ofNat_eq (show _ = b₃.toNat by omega)]
  rfl

/-- A byte that begins no character is a gap. -/
theorem not_stray (h : scanFrom none (b :: rest) = s.map some) : lead b ≠ .stray := by
  intro hstray
  have hgap : none ∉ s.map some := by simp
  rw [← h, scanFrom, start, hstray] at hgap
  exact hgap List.mem_cons_self

/-- The range of the first byte tells the number of bytes. -/
theorem startsWithChar (h : scanFrom none (b :: rest) = s.map some) :
    StartsWithChar (b :: rest) s := by
  have hlead := not_stray h
  by_cases hone : b.toNat < 0x80
  · exact startsWithChar_one hone h
  by_cases hlow : b.toNat < 0xC2
  · exact absurd (lead_stray (.inl ⟨by omega, hlow⟩)) hlead
  by_cases htwo : b.toNat < 0xE0
  · exact startsWithChar_two (n := b.toNat - 0xC0) (by omega) (by omega) (by omega) h
  by_cases hthree : b.toNat < 0xF0
  · exact startsWithChar_three (n := b.toNat - 0xE0) (by omega) (by omega) h
  by_cases hfour : b.toNat < 0xF5
  · exact startsWithChar_four (n := b.toNat - 0xF0) (by omega) (by omega) h
  · exact absurd (lead_stray (.inr (by omega))) hlead

/-! ### Texts -/

theorem eq_encode_of_scan {bytes : Bytes} (h : scan bytes = s.map some) : bytes = encode s := by
  unfold scan at h
  induction s generalizing bytes with
  | nil =>
    cases bytes with
    | nil => rfl
    | cons b rest =>
      obtain ⟨c, s', rest', hs, -⟩ := startsWithChar h
      cases hs
  | cons c s ih =>
    cases bytes with
    | nil => cases h
    | cons b rest =>
      obtain ⟨c', s', rest', hs, hbytes, hrest⟩ := startsWithChar h
      cases hs
      rw [hbytes, ih hrest]
      rfl

/-- The bytes of a text are the only ones that spell it. -/
theorem decode?_eq_some_iff {bytes : Bytes} : decode? bytes = some s ↔ bytes = encode s := by
  constructor
  · intro h
    exact eq_encode_of_scan (decode?_eq_some_iff_scan.1 h)
  · rintro rfl
    exact decode?_encode s

end Gatehouse.Utf8
