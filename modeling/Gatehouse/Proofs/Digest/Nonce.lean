import Gatehouse.Auth.Settings
import Gatehouse.Proofs.Base64
import Gatehouse.Proofs.Text.Numeral
import Gatehouse.Proofs.Text.Split
import Gatehouse.Proofs.Text.Utf8

/-!
# Nonces that come back

A nonce that was issued here is read as what it was made of. So the server gets back the expiry
that it has decided on, without having kept it.

- `decode_encode`: what an issued nonce is read as.
- `quote_notMem_encode`: a nonce can stand between quotes.
- `AuthSettings.expiryFrom_eq`: the expiry of a nonce, in exact numbers. Where the calendar ends,
  it is the last instant: it is neither earlier nor past.
-/

namespace Gatehouse

/-- A digest in hexadecimal digits contains nothing else. -/
theorem notMem_md5Hex {c : Char} (h : c ∉ "0123456789abcdef".toList) (s : List Char) :
    c ∉ md5Hex s :=
  fun hmem => h (Hex.mem_ofBytes hmem)

theorem Signer.colon_notMem_md5 (expiry : Int) (key : String) :
    ':' ∉ (Signer.md5 expiry key).toList := by
  rw [Signer.md5, String.toList_ofList]
  exact notMem_md5Hex (by decide) _

namespace Nonce

variable {signer : Signer} {expiry : Int} {key : String}

/-- A nonce whose expiry is an instant of the calendar, and whose signature is without colon, is
read back. -/
theorem decode_render {n : Nonce} (hlow : Numeral.minSigned ≤ n.expiry)
    (hhigh : n.expiry ≤ Numeral.maxSigned) (hsignature : ':' ∉ n.signature.toList) :
    decode n.render = .ok n := by
  have hexpiry : ':' ∉ Numeral.ofInt n.expiry := by
    intro hmem
    rcases Numeral.mem_ofInt hmem with hminus | hdigit
    · exact absurd hminus (by decide)
    · exact absurd hdigit (by decide)
  rw [decode, render, String.toList_ofList, Base64.decode_encode, Option.bind_some,
    Utf8.decode?_encode]
  dsimp only
  rw [Text.split_append_sep hexpiry, Text.split_of_notMem hsignature]
  dsimp only
  rw [Numeral.signed?_ofInt hlow hhigh, String.ofList_toList]

/-- A freshly signed nonce is read back, if signatures are without colons. -/
theorem decode_encode (hlow : Numeral.minSigned ≤ expiry) (hhigh : expiry ≤ Numeral.maxSigned)
    (hsignature : ':' ∉ (signer expiry key).toList) :
    decode (encode signer expiry key) = .ok ⟨expiry, signer expiry key⟩ :=
  decode_render hlow hhigh hsignature

theorem quote_notMem_encode : '"' ∉ (encode signer expiry key).toList := by
  rw [encode, render, String.toList_ofList]
  exact Base64.notMem_encode (by decide) (by decide) _

end Nonce

/-! ## When a nonce expires -/

namespace AuthSettings

variable (s : AuthSettings) {nowMs : Int}

/-- Nothing is cut off but what lies after the end of the calendar. -/
theorem expiryFrom_eq (h : Numeral.minSigned ≤ nowMs) :
    s.expiryFrom nowMs =
      min (nowMs + min (s.nonceValidity : Int) Numeral.maxSigned) Numeral.maxSigned := by
  simp only [expiryFrom, nonceValidityMillis, Numeral.clampSigned, Numeral.minSigned,
    Numeral.maxSigned] at *
  omega

/-- An expiry is an instant of the calendar. -/
theorem expiryFrom_mem (nowMs : Int) :
    Numeral.minSigned ≤ s.expiryFrom nowMs ∧ s.expiryFrom nowMs ≤ Numeral.maxSigned := by
  simp only [expiryFrom, Numeral.clampSigned, Numeral.minSigned, Numeral.maxSigned]
  omega

end AuthSettings

end Gatehouse
