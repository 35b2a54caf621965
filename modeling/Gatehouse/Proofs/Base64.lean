import Gatehouse.Base64
import Gatehouse.Proofs.Text.Utf8

/-!
# Base64 can be undone

- `decode_encode`: what is written is read back, three bytes at a time.
- `encode_injective`: different bytes are written differently.
- `mem_encode`, `notMem_encode`: the alphabet of what is written.
- `decode_eq_some_iff`: nothing is read but what is written, so padding is not left out and spare
  bits are zero.
-/

namespace Gatehouse.Base64

/-! ## Single characters -/

theorem value?_sextet {n : Nat} (h : n < 64) : value? (sextet n) = some n := by
  have hall : ∀ n < 64, value? (sextet n) = some n := by decide
  exact hall n h

theorem sextet_alphabet {n : Nat} (h : n < 64) :
    (sextet n).isAlphanum = true ∨ sextet n = '+' ∨ sextet n = '/' := by
  have hall : ∀ n < 64, (sextet n).isAlphanum = true ∨ sextet n = '+' ∨ sextet n = '/' := by decide
  exact hall n h

theorem sextet_ne_padding {n : Nat} (h : n < 64) : sextet n ≠ '=' := by
  have hall : ∀ n < 64, sextet n ≠ '=' := by decide
  exact hall n h

/-! ## Groups -/

theorem threeBytes?_encode (a b c : UInt8) :
    let n := (a.toNat * 256 + b.toNat) * 256 + c.toNat
    threeBytes? (sextet (n / 262144)) (sextet (n / 4096 % 64)) (sextet (n / 64 % 64))
      (sextet (n % 64)) = some [a, b, c] := by
  intro n
  have ha := a.toNat_lt
  have hb := b.toNat_lt
  have hc := c.toNat_lt
  simp only [threeBytes?, value?_sextet (show n / 262144 < 64 by omega),
    value?_sextet (show n / 4096 % 64 < 64 by omega),
    value?_sextet (show n / 64 % 64 < 64 by omega),
    value?_sextet (show n % 64 < 64 by omega), Option.bind_eq_bind, Option.bind_some]
  rw [Utf8.ofNat_eq (show _ = a.toNat by omega), Utf8.ofNat_eq (show _ = b.toNat by omega),
    Utf8.ofNat_eq (show _ = c.toNat by omega)]

theorem twoBytes?_encode (a b : UInt8) :
    let n := a.toNat * 256 + b.toNat
    twoBytes? (sextet (n / 1024)) (sextet (n / 16 % 64)) (sextet (n % 16 * 4)) =
      some [a, b] := by
  intro n
  have ha := a.toNat_lt
  have hb := b.toNat_lt
  simp only [twoBytes?, value?_sextet (show n / 1024 < 64 by omega),
    value?_sextet (show n / 16 % 64 < 64 by omega), value?_sextet (show n % 16 * 4 < 64 by omega),
    Option.bind_eq_bind, Option.bind_some]
  rw [if_pos (by omega), Utf8.ofNat_eq (show _ = a.toNat by omega),
    Utf8.ofNat_eq (show _ = b.toNat by omega)]

theorem oneByte?_encode (a : UInt8) :
    oneByte? (sextet (a.toNat / 4)) (sextet (a.toNat % 4 * 16)) = some [a] := by
  have ha := a.toNat_lt
  simp only [oneByte?, value?_sextet (show a.toNat / 4 < 64 by omega),
    value?_sextet (show a.toNat % 4 * 16 < 64 by omega), Option.bind_eq_bind, Option.bind_some]
  rw [if_pos (by omega), Utf8.ofNat_eq (show _ = a.toNat by omega)]

/-- A group of four characters in front of others is read by itself. -/
theorem decode_cons {a b c d e : Char} {rest : List Char} :
    decode (a :: b :: c :: d :: e :: rest) =
      (threeBytes? a b c d).bind fun bytes =>
        (decode (e :: rest)).bind fun more => some (bytes ++ more) :=
  rfl

/-! ## Texts -/

/-- What is written is read back. -/
theorem decode_encode (bytes : Bytes) : decode (encode bytes) = some bytes := by
  match bytes with
  | [] => rfl
  | [a] =>
    show lastGroup? _ _ '=' '=' = _
    rw [lastGroup?, if_pos rfl, if_pos rfl, oneByte?_encode]
  | [a, b] =>
    have hpad : sextet ((a.toNat * 256 + b.toNat) % 16 * 4) ≠ '=' := sextet_ne_padding (by omega)
    show lastGroup? _ _ _ '=' = _
    rw [lastGroup?, if_pos rfl, if_neg hpad, twoBytes?_encode]
  | a :: b :: c :: rest =>
    have ih := decode_encode rest
    rw [encode]
    cases hrest : encode rest with
    | nil =>
      -- a full group at the end is read as a last group without padding
      have hpad : sextet (((a.toNat * 256 + b.toNat) * 256 + c.toNat) % 64) ≠ '=' :=
        sextet_ne_padding (by omega)
      rw [hrest] at ih
      cases ih
      show lastGroup? _ _ _ _ = _
      rw [lastGroup?, if_neg hpad, threeBytes?_encode]
    | cons e more =>
      rw [hrest] at ih
      rw [decode_cons, threeBytes?_encode, ih]
      rfl

/-- Different bytes are written differently. -/
theorem encode_injective {bytes bytes' : Bytes} (h : encode bytes = encode bytes') :
    bytes = bytes' := by
  have hread := congrArg decode h
  rw [decode_encode, decode_encode] at hread
  exact Option.some.inj hread

/-- Four characters are written for three bytes, or for the rest of them. -/
theorem length_encode (bytes : Bytes) : (encode bytes).length = (bytes.length + 2) / 3 * 4 := by
  match bytes with
  | [] => rfl
  | [_] => simp [encode]
  | [_, _] => simp [encode]
  | _ :: _ :: _ :: rest =>
    simp only [encode, List.length_cons, length_encode rest]
    omega

/-- What is written consists of letters, digits, and three signs. -/
theorem mem_encode {x : Char} {bytes : Bytes} (h : x ∈ encode bytes) :
    x.isAlphanum = true ∨ x = '+' ∨ x = '/' ∨ x = '=' := by
  have hsextet : ∀ n < 64, x = sextet n →
      x.isAlphanum = true ∨ x = '+' ∨ x = '/' ∨ x = '=' := by
    rintro n hn rfl
    rcases sextet_alphabet hn with halnum | hplus | hslash
    · exact .inl halnum
    · exact .inr (.inl hplus)
    · exact .inr (.inr (.inl hslash))
  match bytes with
  | [] => cases h
  | [a] =>
    have ha := a.toNat_lt
    simp only [encode, List.mem_cons, List.not_mem_nil, or_false] at h
    rcases h with h | h | h | h
    · exact hsextet _ (by omega) h
    · exact hsextet _ (by omega) h
    · exact .inr (.inr (.inr h))
    · exact .inr (.inr (.inr h))
  | [a, b] =>
    have ha := a.toNat_lt
    have hb := b.toNat_lt
    simp only [encode, List.mem_cons, List.not_mem_nil, or_false] at h
    rcases h with h | h | h | h
    · exact hsextet _ (by omega) h
    · exact hsextet _ (by omega) h
    · exact hsextet _ (by omega) h
    · exact .inr (.inr (.inr h))
  | a :: b :: c :: rest =>
    have ha := a.toNat_lt
    have hb := b.toNat_lt
    have hc := c.toNat_lt
    simp only [encode, List.mem_cons] at h
    rcases h with h | h | h | h | h
    · exact hsextet _ (by omega) h
    · exact hsextet _ (by omega) h
    · exact hsextet _ (by omega) h
    · exact hsextet _ (by omega) h
    · exact mem_encode h

theorem notMem_encode {x : Char} (halnum : x.isAlphanum = false) (hsign : x ∉ ['+', '/', '='])
    (bytes : Bytes) : x ∉ encode bytes := by
  intro hmem
  rcases mem_encode hmem with h | rfl | rfl | rfl
  · rw [h] at halnum
    cases halnum
  · exact hsign (by decide)
  · exact hsign (by decide)
  · exact hsign (by decide)

/-! ## What is read was written -/

theorem value?_eq_some {c : Char} {n : Nat} (h : value? c = some n) : n < 64 ∧ c = sextet n := by
  simp only [value?] at h
  split at h
  · next hupper =>
    cases h
    refine ⟨by omega, ?_⟩
    rw [sextet, if_pos (by omega), show 65 + (c.toNat - 65) = c.toNat by omega, Char.ofNat_toNat]
  · split at h
    · next hlower =>
      cases h
      refine ⟨by omega, ?_⟩
      rw [sextet, if_neg (by omega), if_pos (by omega),
        show 71 + (c.toNat - 71) = c.toNat by omega, Char.ofNat_toNat]
    · split at h
      · next hdigit =>
        cases h
        refine ⟨by omega, ?_⟩
        rw [sextet, if_neg (by omega), if_neg (by omega), if_pos (by omega),
          Nat.add_sub_cancel, Char.ofNat_toNat]
      · split at h
        · next hplus =>
          cases h
          exact ⟨by decide, hplus⟩
        · split at h
          · next hslash =>
            cases h
            exact ⟨by decide, hslash⟩
          · cases h

theorem eq_of_oneByte? {a b : Char} {bytes : Bytes} (h : oneByte? a b = some bytes) :
    [a, b, '=', '='] = encode bytes := by
  simp only [oneByte?, Option.bind_eq_bind, Option.bind_eq_some_iff, Option.ite_none_right_eq_some,
    Option.some.injEq] at h
  obtain ⟨x, hx, y, hy, hspare, rfl⟩ := h
  obtain ⟨hx, rfl⟩ := value?_eq_some hx
  obtain ⟨hy, rfl⟩ := value?_eq_some hy
  simp only [encode, Utf8.toNat_ofNat_of_lt (show x * 4 + y / 16 < 256 by omega)]
  rw [show (x * 4 + y / 16) / 4 = x by omega, show (x * 4 + y / 16) % 4 * 16 = y by omega]

theorem eq_of_twoBytes? {a b c : Char} {bytes : Bytes} (h : twoBytes? a b c = some bytes) :
    [a, b, c, '='] = encode bytes := by
  simp only [twoBytes?, Option.bind_eq_bind, Option.bind_eq_some_iff, Option.ite_none_right_eq_some,
    Option.some.injEq] at h
  obtain ⟨x, hx, y, hy, z, hz, hspare, rfl⟩ := h
  obtain ⟨hx, rfl⟩ := value?_eq_some hx
  obtain ⟨hy, rfl⟩ := value?_eq_some hy
  obtain ⟨hz, rfl⟩ := value?_eq_some hz
  simp only [encode, Utf8.toNat_ofNat_of_lt (show x * 4 + y / 16 < 256 by omega),
    Utf8.toNat_ofNat_of_lt (show y % 16 * 16 + z / 4 < 256 by omega)]
  rw [show ((x * 4 + y / 16) * 256 + (y % 16 * 16 + z / 4)) / 1024 = x by omega,
    show ((x * 4 + y / 16) * 256 + (y % 16 * 16 + z / 4)) / 16 % 64 = y by omega,
    show ((x * 4 + y / 16) * 256 + (y % 16 * 16 + z / 4)) % 16 * 4 = z by omega]

theorem eq_of_threeBytes? {a b c d : Char} {bytes : Bytes}
    (h : threeBytes? a b c d = some bytes) (more : Bytes) :
    a :: b :: c :: d :: encode more = encode (bytes ++ more) := by
  simp only [threeBytes?, Option.bind_eq_bind, Option.bind_eq_some_iff, Option.some.injEq] at h
  obtain ⟨x, hx, y, hy, z, hz, w, hw, rfl⟩ := h
  obtain ⟨hx, rfl⟩ := value?_eq_some hx
  obtain ⟨hy, rfl⟩ := value?_eq_some hy
  obtain ⟨hz, rfl⟩ := value?_eq_some hz
  obtain ⟨hw, rfl⟩ := value?_eq_some hw
  have hbits : ((x * 4 + y / 16) * 256 + (y % 16 * 16 + z / 4)) * 256 + (z % 4 * 64 + w) =
      ((x * 64 + y) * 64 + z) * 64 + w := by omega
  simp only [List.cons_append, List.nil_append, encode,
    Utf8.toNat_ofNat_of_lt (show x * 4 + y / 16 < 256 by omega),
    Utf8.toNat_ofNat_of_lt (show y % 16 * 16 + z / 4 < 256 by omega),
    Utf8.toNat_ofNat_of_lt (show z % 4 * 64 + w < 256 by omega), hbits]
  rw [show (((x * 64 + y) * 64 + z) * 64 + w) / 262144 = x by omega,
    show (((x * 64 + y) * 64 + z) * 64 + w) / 4096 % 64 = y by omega,
    show (((x * 64 + y) * 64 + z) * 64 + w) / 64 % 64 = z by omega,
    show (((x * 64 + y) * 64 + z) * 64 + w) % 64 = w by omega]

theorem eq_of_lastGroup? {a b c d : Char} {bytes : Bytes} (h : lastGroup? a b c d = some bytes) :
    [a, b, c, d] = encode bytes := by
  unfold lastGroup? at h
  split at h
  · next hd =>
    subst hd
    split at h
    · next hc =>
      subst hc
      exact eq_of_oneByte? h
    · exact eq_of_twoBytes? h
  · have hfull := eq_of_threeBytes? h []
    rwa [List.append_nil] at hfull

/-- Nothing is read but what was written. -/
theorem eq_encode_of_decode {s : List Char} {bytes : Bytes} (h : decode s = some bytes) :
    s = encode bytes := by
  fun_induction decode s generalizing bytes with
  | case1 =>
    cases h
    rfl
  | case2 a b c d => exact eq_of_lastGroup? h
  | case3 a b c d rest hrest ih =>
    simp only [Option.bind_eq_bind, Option.bind_eq_some_iff, Option.some.injEq] at h
    obtain ⟨group, hgroup, more, hmore, rfl⟩ := h
    rw [ih hmore]
    exact eq_of_threeBytes? hgroup more
  | case4 => cases h

/-- Reading accepts exactly what is written, so every byte list has one text. -/
theorem decode_eq_some_iff {s : List Char} {bytes : Bytes} :
    decode s = some bytes ↔ s = encode bytes :=
  ⟨eq_encode_of_decode, fun h => h ▸ decode_encode bytes⟩

end Gatehouse.Base64
