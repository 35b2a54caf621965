import Gatehouse.Proofs.OAuth.Binding

/-!
# What a signing key tells

A signing key is made of two encoded secrets with an ampersand between them. Encoded texts contain
no ampersand, and no two texts are encoded alike, so that both secrets can be read off the key. A
plain signature is the key itself, and whoever sees one accepted knows the secret of the consumer.

- `signingKey_eq_iff`: a key is made of two secrets in one way only.
- `secretOf`, `keyOf_eq`: the secret behind the key under which a message is checked.
- `secret_of_plainText`: a plain signature is accepted for one secret only.
- `key_tells_secrets`: this, with the laws of the encoding that it rests on.
-/

namespace Gatehouse.OAuth

variable {σ : Type} {s : AuthSettings} {backend : IdentityBackend σ} {m m' : Message} {now : Int}

/-! ## Keys -/

/-- A key is made of two secrets in one way only. -/
theorem signingKey_eq_iff {secret token secret' token' : String} :
    signingKey secret token = signingKey secret' token' ↔ secret = secret' ∧ token = token' := by
  have hplain : ∀ text : List Char, '&' ∉ Percent.oauthEncode text :=
    Percent.notMem_oauthEncode (by decide) (by decide)
  have hkey : ∀ secret token : String, signingKey secret token =
      Percent.oauthEncode secret.toList ++ '&' :: Percent.oauthEncode token.toList := by
    intro secret token
    rw [signingKey, Text.join_cons (List.cons_ne_nil _ _), List.append_assoc]
    rfl
  rw [hkey, hkey, Text.append_sep_inj (hplain _) (hplain _)]
  constructor
  · rintro ⟨hsecret, htoken⟩
    exact ⟨String.toList_inj.1 (Percent.oauthEncode_injective hsecret),
      String.toList_inj.1 (Percent.oauthEncode_injective htoken)⟩
  · rintro ⟨rfl, rfl⟩
    exact ⟨rfl, rfl⟩

/-- The secret with which the signature of a message is checked. -/
def secretOf (backend : IdentityBackend σ) (m : Message) (identities : σ) : Option String :=
  match m.claim with
  | .error _ => none
  | .ok claim => ((backend.lookupConsumer claim.consumer).run identities).1.toOption.map (·.secret)

/-- The key of a message is made of that secret. -/
theorem keyOf_eq (backend : IdentityBackend σ) (m : Message) (identities : σ) :
    keyOf backend m identities =
      (secretOf backend m identities).map fun secret => Utf8.encode (signingKey secret "") := by
  unfold keyOf secretOf
  cases m.claim with
  | error e => rfl
  | ok claim =>
    dsimp only
    cases ((backend.lookupConsumer claim.consumer).run identities).1 with
    | error e => rfl
    | ok record => rfl

theorem secretOf_of_keyOf {identities : σ} {secret : String}
    (h : keyOf backend m identities = some (Utf8.encode (signingKey secret ""))) :
    secretOf backend m identities = some secret := by
  rw [keyOf_eq, Option.map_eq_some_iff] at h
  obtain ⟨found, hfound, hkey⟩ := h
  rw [hfound, (signingKey_eq_iff.1 (Utf8.encode_injective hkey)).1]

/-! ## Plain signatures -/

/-- A plain signature is the key itself. -/
theorem secret_of_sign_eq {method : SignatureMethod} {base base' secret secret' : String}
    (h : sign .plainText base secret "" = sign method base' secret' "") : secret = secret' := by
  cases method with
  | hmacSha1 => cases method_of_sign_eq h.symm
  | plainText => exact (signingKey_eq_iff.1 (String.ofList_inj.1 h)).1

/-- The method of a claim is the one that its parameter names. -/
theorem Message.Makes.method_eq_plainText {claim : Claim} (h : m.Makes claim)
    (hmethod : m.param? "oauth_signature_method" = some SignatureMethod.plainText.text) :
    claim.method = .plainText := by
  obtain ⟨name, hname, hof⟩ := h.method
  rw [hmethod] at hname
  cases hname
  exact (Except.ok.inj hof).symm

/-- A plain signature is accepted for one secret only: wherever it is accepted, with whatever
message and by whatever method, the secret of the consumer is the same. -/
theorem secret_of_plainText {σ' : Type} {s' : AuthSettings} {backend' : IdentityBackend σ'}
    {now' : Int} {st : AuthState σ} {st' : AuthState σ'}
    (h : accepts s backend m now st = true) (h' : accepts s' backend' m' now' st' = true)
    (hmethod : m.param? "oauth_signature_method" = some SignatureMethod.plainText.text)
    (hsame : m'.param? signatureName = m.param? signatureName) :
    ∃ secret, secretOf backend m st.identities = some secret ∧
      secretOf backend' m' st'.identities = some secret := by
  obtain ⟨claim, base, secret, hmakes, -, hkey, hsign⟩ := exists_sign_of_accepts h
  obtain ⟨claim', base', secret', hmakes', -, hkey', hsign'⟩ := exists_sign_of_accepts h'
  rw [hmakes.method_eq_plainText hmethod] at hsign
  rw [hmakes'.signature, hmakes.signature, ← hsign, ← hsign'] at hsame
  have heq : secret = secret' := secret_of_sign_eq (Option.some.inj hsame).symm
  exact ⟨secret, secretOf_of_keyOf hkey, heq ▸ secretOf_of_keyOf hkey'⟩

/-! ## The result -/

/-- Encoded texts keep to their grammar, are read back, differ if their texts differ, and are put
together as their texts are. So a signing key tells both secrets, and a plain signature is accepted
for one secret of a consumer only. -/
theorem key_tells_secrets :
    (∀ s : List Char, Percent.IsEncoded (Percent.oauthEncode s)) ∧
    (∀ s : List Char, Percent.decode (Percent.oauthEncode s) = s) ∧
    Function.Injective Percent.oauthEncode ∧
    (∀ s t : List Char,
      Percent.oauthEncode (s ++ t) = Percent.oauthEncode s ++ Percent.oauthEncode t) ∧
    (∀ secret token secret' token' : String,
      signingKey secret token = signingKey secret' token' ↔ secret = secret' ∧ token = token') ∧
    (∀ (σ σ' : Type) (s s' : AuthSettings) (backend : IdentityBackend σ)
      (backend' : IdentityBackend σ') (m m' : Message) (now now' : Int) (st : AuthState σ)
      (st' : AuthState σ'),
      accepts s backend m now st = true → accepts s' backend' m' now' st' = true →
      m.param? "oauth_signature_method" = some SignatureMethod.plainText.text →
      m'.param? signatureName = m.param? signatureName →
      ∃ secret, secretOf backend m st.identities = some secret ∧
        secretOf backend' m' st'.identities = some secret) :=
  ⟨Percent.isEncoded_oauthEncode, Percent.decode_oauthEncode,
    fun _ _ => Percent.oauthEncode_injective, Percent.oauthEncode_append,
    fun _ _ _ _ => signingKey_eq_iff,
    fun _ _ _ _ _ _ _ _ _ _ _ _ h h' hmethod hsame => secret_of_plainText h h' hmethod hsame⟩

/-! ## A secret that needs escapes -/

namespace Sample

/-- A secret with the sign that separates the parts of a key, and with a letter of two bytes. -/
def escapedSecret : String :=
  "a&é"

/-- A message that is signed with the key itself. -/
def plainMessage : Message :=
  ⟨"GET", "http://h/open", [⟨"oauth_consumer_key", "c"⟩, ⟨"oauth_signature_method", "PLAINTEXT"⟩,
    ⟨"oauth_timestamp", "1000"⟩, ⟨"oauth_nonce", "n"⟩, ⟨signatureName, "a%26%C3%A9&"⟩]⟩

/-- A new verifier that knows consumer `c` with that secret. -/
def escapedStart : AuthState Registry :=
  guarded settings ReplayGuard.defaultPurgeInterval
    (.ofDirectory (Directory.empty.withConsumer ⟨"c", escapedSecret, []⟩)) .off

end Sample

/-- The secret is encoded by the grammar and read back, the key differs from the one that has the
ampersand between its secrets elsewhere, and every verifier that accepts the plain signature has
this secret. -/
theorem key_tells_secrets_sample :
    Percent.IsEncoded (Percent.oauthEncode Sample.escapedSecret.toList) ∧
    Percent.decode "a%26%C3%A9".toList = Sample.escapedSecret.toList ∧
    signingKey Sample.escapedSecret "" ≠ signingKey "a" "é&" ∧
    accepts Sample.settings Registry.backend Sample.plainMessage 1000 Sample.escapedStart = true ∧
    ∀ (σ : Type) (s : AuthSettings) (backend : IdentityBackend σ) (now : Int) (st : AuthState σ),
      accepts s backend Sample.plainMessage now st = true →
      secretOf backend Sample.plainMessage st.identities = some Sample.escapedSecret := by
  obtain ⟨hgrammar, hread, -, -, hkey, hplain⟩ := key_tells_secrets
  have hencoded : Percent.oauthEncode Sample.escapedSecret.toList = "a%26%C3%A9".toList := by
    decide +kernel
  have haccepts : accepts Sample.settings Registry.backend Sample.plainMessage 1000
      Sample.escapedStart = true := by decide +kernel
  have hsecret : secretOf Registry.backend Sample.plainMessage Sample.escapedStart.identities =
      some Sample.escapedSecret := by decide +kernel
  refine ⟨hgrammar _, hencoded ▸ hread _, fun heq => ?_, haccepts, ?_⟩
  · exact absurd ((hkey _ _ _ _).1 heq).1 (by decide)
  · intro σ s backend now st h
    obtain ⟨secret, hfirst, hsecond⟩ :=
      hplain _ _ _ _ _ _ _ _ _ _ _ _ haccepts h (by decide) rfl
    rw [hsecret] at hfirst
    rw [hsecond, hfirst]

end Gatehouse.OAuth
