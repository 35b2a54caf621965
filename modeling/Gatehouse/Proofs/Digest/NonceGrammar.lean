import Gatehouse.Proofs.Digest.Nonce
import Gatehouse.Proofs.Text.Denotation
import Mathlib.Data.List.Basic

/-!
# The texts that are nonces

Every text is read in one way only: as a nonce, or as one of three refusals. A nonce is the padded
Base64 form of a text with one colon, in front of which an expiry stands. The refusals come in the
order of the layers: what is no Base64 form of a text, what has another number of colons, and what
has no expiry in front of the colon.

- `Reading`: what each text is to be read as, told without the reader.
- `codec_exact`: issued nonces come back, and every text is read as it is to be.
-/

namespace Gatehouse.Nonce

/-- A text in the outer form of a nonce. -/
def written (plain : List Char) : String :=
  String.ofList (Base64.encode (Utf8.encode plain))

/-- Whether a text denotes an instant of the calendar. -/
def IsExpiry (x : List Char) (t : Int) : Prop :=
  Numeral.Denotes x t ∧ Numeral.minSigned ≤ t ∧ t ≤ Numeral.maxSigned

/-- What a text is to be read as. -/
inductive Reading (nonce : String) : Except NonceError Nonce → Prop where
  | parts {x s : List Char} {t : Int} (h : nonce = written (x ++ ':' :: s)) (hs : ':' ∉ s)
      (hexpiry : IsExpiry x t) : Reading nonce (.ok ⟨t, String.ofList s⟩)
  | notBase64 (h : ∀ plain, nonce ≠ written plain) : Reading nonce (.error .notBase64)
  | wrongTokenCount {plain : List Char} (h : nonce = written plain) (hcount : plain.count ':' ≠ 1) :
      Reading nonce (.error (.wrongTokenCount (plain.count ':' + 1)))
  | nonNumericExpiry {x s : List Char} (h : nonce = written (x ++ ':' :: s)) (hx : ':' ∉ x)
      (hs : ':' ∉ s) (hexpiry : ∀ t, ¬IsExpiry x t) :
      Reading nonce (.error (.nonNumericExpiry (String.ofList x)))

/-! ## The layers -/

theorem plain_eq_some_iff {nonce : String} {plain : List Char} :
    (Base64.decode nonce.toList).bind Utf8.decode? = some plain ↔ nonce = written plain := by
  simp only [Option.bind_eq_some_iff, Base64.decode_eq_some_iff, Utf8.decode?_eq_some_iff]
  constructor
  · rintro ⟨bytes, hnonce, rfl⟩
    rw [written, ← hnonce, String.ofList_toList]
  · rintro rfl
    exact ⟨_, String.toList_ofList, rfl⟩

theorem IsExpiry.colon_notMem {x : List Char} {t : Int} (h : IsExpiry x t) : ':' ∉ x := by
  intro hmem
  rcases h.1.mem hmem with hplus | hminus | hdigit
  · exact absurd hplus (by decide)
  · exact absurd hminus (by decide)
  · exact absurd hdigit (by decide)

/-- A text has two pieces exactly if it has one colon. -/
theorem exists_split_iff {plain : List Char} :
    (∃ x s, Text.split ':' plain = [x, s]) ↔ plain.count ':' = 1 := by
  rw [← List.length_eq_two, Text.length_split, Nat.succ_inj]

/-! ## Reading -/

/-- The reader takes one of the four ways. -/
theorem reading_decode (nonce : String) : Reading nonce (decode nonce) := by
  unfold decode
  split
  · next hnone =>
    refine .notBase64 fun plain h => ?_
    rw [plain_eq_some_iff.2 h] at hnone
    cases hnone
  · next plain hplain =>
    have hwritten := plain_eq_some_iff.1 hplain
    split
    · next x s hsplit =>
      obtain ⟨rfl, hx, hs⟩ := Text.split_eq_pair_iff.1 hsplit
      split
      · next t ht => exact .parts hwritten hs (Numeral.signed?_eq_some_iff.1 ht)
      · next hnone =>
        refine .nonNumericExpiry hwritten hx hs fun t ht => ?_
        rw [Numeral.signed?_eq_some_iff.2 ht] at hnone
        cases hnone
    · next hpieces =>
      rw [Text.length_split]
      refine .wrongTokenCount hwritten fun hcount => ?_
      obtain ⟨x, s, hsplit⟩ := exists_split_iff.2 hcount
      exact hpieces x s hsplit

/-- A text that is read as a nonce is without colons. -/
theorem colon_notMem_of_decode {nonce : String} {n : Nonce} (h : decode nonce = .ok n) :
    ':' ∉ nonce.toList := by
  have hreading := reading_decode nonce
  rw [h] at hreading
  cases hreading with
  | parts hwritten =>
    rw [hwritten, written, String.toList_ofList]
    exact Base64.notMem_encode (by decide) (by decide) _

/-- The ways exclude each other: what a text is to be read as, it is read as. -/
theorem Reading.decode_eq {nonce : String} {r : Except NonceError Nonce} (h : Reading nonce r) :
    decode nonce = r := by
  cases h with
  | parts h hs hexpiry =>
    rw [decode, plain_eq_some_iff.2 h]
    dsimp only
    rw [Text.split_eq_pair_iff.2 ⟨rfl, hexpiry.colon_notMem, hs⟩]
    dsimp only
    rw [Numeral.signed?_eq_some_iff.2 hexpiry]
  | notBase64 h =>
    have hnone : (Base64.decode nonce.toList).bind Utf8.decode? = none :=
      Option.eq_none_iff_forall_ne_some.2 fun plain hplain => h plain (plain_eq_some_iff.1 hplain)
    rw [decode, hnone]
  | wrongTokenCount h hcount =>
    rw [decode, plain_eq_some_iff.2 h]
    dsimp only
    split
    · next x s hsplit => exact absurd (exists_split_iff.1 ⟨x, s, hsplit⟩) hcount
    · rw [Text.length_split]
  | nonNumericExpiry h hx hs hexpiry =>
    have hnone : Numeral.signed? _ = none :=
      Option.eq_none_iff_forall_ne_some.2 fun t ht => hexpiry t (Numeral.signed?_eq_some_iff.1 ht)
    rw [decode, plain_eq_some_iff.2 h]
    dsimp only
    rw [Text.split_eq_pair_iff.2 ⟨rfl, hx, hs⟩]
    dsimp only
    rw [hnone]

/-- What an issuer signed under a key is accepted under it. -/
theorem isSigned_issued (signer : Signer) (expiry : Int) (key : String) :
    isSigned signer ⟨expiry, signer expiry key⟩ key = true :=
  beq_self_eq_true _

/-- A nonce that was issued comes back and is found signed, if its expiry is an instant of the
calendar and the signature is without colon; digests are such signatures. And every text is read
exactly as it is to be read, be it as a nonce or as one of the refusals. -/
theorem codec_exact :
    (∀ (signer : Signer) (expiry : Int) (key : String),
      Numeral.minSigned ≤ expiry → expiry ≤ Numeral.maxSigned →
      ':' ∉ (signer expiry key).toList →
        decode (encode signer expiry key) = .ok ⟨expiry, signer expiry key⟩ ∧
          isSigned signer ⟨expiry, signer expiry key⟩ key = true) ∧
    (∀ (expiry : Int) (key : String), ':' ∉ (Signer.md5 expiry key).toList) ∧
    ∀ (nonce : String) (r : Except NonceError Nonce), decode nonce = r ↔ Reading nonce r := by
  refine ⟨fun signer expiry key hlow hhigh hsignature => ?_, Signer.colon_notMem_md5, ?_⟩
  · exact ⟨decode_encode hlow hhigh hsignature, isSigned_issued signer expiry key⟩
  · intro nonce r
    constructor
    · rintro rfl
      exact reading_decode nonce
    · exact Reading.decode_eq

/-- The nonce that expires first of all comes back. A plus sign may stand before an expiry, but
nothing after it, and no second colon may follow. -/
theorem codec_exact_sample :
    (Numeral.minSigned ≤ Numeral.minSigned ∧ Numeral.minSigned ≤ Numeral.maxSigned ∧
      ':' ∉ (Signer.md5 Numeral.minSigned "key").toList) ∧
    decode (encode Signer.md5 Numeral.minSigned "key") =
      .ok ⟨Numeral.minSigned, Signer.md5 Numeral.minSigned "key"⟩ ∧
    decode (written "+7:x".toList) = .ok ⟨7, "x"⟩ ∧
    decode (written "7a:x".toList) = .error (.nonNumericExpiry "7a") ∧
    decode (written "7:x:".toList) = .error (.wrongTokenCount 3) ∧
    decode "Nzp4" = .ok ⟨7, "x"⟩ ∧
    decode "Nzp4=" = .error .notBase64 := by
  have hcolon := codec_exact.2.1 Numeral.minSigned "key"
  have hback := codec_exact.1 Signer.md5 Numeral.minSigned "key" (by decide) (by decide) hcolon
  have hdigits : Numeral.IsDigits ['7'] :=
    ⟨List.cons_ne_nil _ _, List.forall_mem_singleton.2 rfl⟩
  have hseven : IsExpiry ['+', '7'] 7 := ⟨.plus hdigits, by decide, by decide⟩
  refine ⟨⟨by decide, by decide, hcolon⟩, hback.1, ?_, ?_, ?_, ?_, ?_⟩
  · exact (codec_exact.2.2 _ _).2 (.parts (x := ['+', '7']) (s := ['x']) rfl (by decide) hseven)
  · rfl
  · exact (codec_exact.2.2 _ _).2 (.wrongTokenCount rfl (by decide))
  · rfl
  · rfl

end Gatehouse.Nonce
