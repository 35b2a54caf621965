import Gatehouse.Proofs.Base64
import Gatehouse.Proofs.OAuth.Acceptance
import Gatehouse.Proofs.OAuth.BaseString

/-!
# What a signature binds

A signature that was made for one request is of no use for another one. The base string tells
canonical requests apart, so that whoever gets the signature of an accepted message accepted with
another canonical request has found two texts with the same code under HMAC-SHA1. The plain
method is no way around this, for its signatures contain an ampersand and codes do not.

Conversely the signature is good for every message of the same canonical request, in particular
for the same parameters in another order.

- `checkSignature_eq_ok_iff`: which signatures are right.
- `hmac_eq_of_accepts`: two accepted messages with the same signature have the same code.
- `verify_of_perm`: the order of the parameters does not matter.
- `signature_binds_request`: all of this in one statement.
-/

namespace Gatehouse.OAuth

variable {σ : Type} {s : AuthSettings} {backend : IdentityBackend σ} {m m' : Message} {now : Int}

/-- The canonical form of a message. -/
def Message.canonical (m : Message) : Except AuthError CanonicalRequest :=
  OAuth.canonical m.method m.url m.params

/-- The key under which the signature of a message is checked. -/
def keyOf (backend : IdentityBackend σ) (m : Message) (identities : σ) : Option Bytes :=
  match m.claim with
  | .error _ => none
  | .ok claim =>
    match ((backend.lookupConsumer claim.consumer).run identities).1 with
    | .error _ => none
    | .ok record => some (Utf8.encode (signingKey record.secret ""))

/-- Two messages with different base strings that have the same code, each under its own key. -/
def Collides (key : Option Bytes) (m : Message) (key' : Option Bytes) (m' : Message) : Prop :=
  ∃ k k' base base', key = some k ∧ key' = some k' ∧ m.baseString = .ok base ∧
    m'.baseString = .ok base' ∧ base ≠ base' ∧
    Hash.hmacSha1 k (Utf8.ofString base) = Hash.hmacSha1 k' (Utf8.ofString base')

/-! ## Signatures -/

/-- The signature of a message is right if it is the one over its own base string. -/
theorem checkSignature_eq_ok_iff {claim : Claim} {record : ConsumerRecord} :
    checkSignature m claim record = .ok () ↔
      ∃ base, m.baseString = .ok base ∧
        sign claim.method base record.secret "" = claim.signature := by
  unfold checkSignature
  cases m.baseString with
  | error e => simp
  | ok base => simp

theorem ampersand_mem_sign (base consumerSecret tokenSecret : String) :
    '&' ∈ (sign .plainText base consumerSecret tokenSecret).toList := by
  rw [sign, String.toList_ofList, signingKey]
  simp [Text.join]

theorem ampersand_notMem_sign (base consumerSecret tokenSecret : String) :
    '&' ∉ (sign .hmacSha1 base consumerSecret tokenSecret).toList := by
  rw [sign, String.toList_ofList]
  exact Base64.notMem_encode (by decide) (by decide) _

/-- Codes and plain signatures are never the same. -/
theorem method_of_sign_eq {method : SignatureMethod} {base base' secret secret' : String}
    (h : sign .hmacSha1 base secret "" = sign method base' secret' "") : method = .hmacSha1 := by
  cases method with
  | hmacSha1 => rfl
  | plainText =>
    refine absurd ?_ (ampersand_notMem_sign base secret "")
    rw [h]
    exact ampersand_mem_sign base' secret' ""

theorem hmac_of_sign_eq {base base' secret secret' : String}
    (h : sign .hmacSha1 base secret "" = sign .hmacSha1 base' secret' "") :
    Hash.hmacSha1 (Utf8.encode (signingKey secret "")) (Utf8.ofString base) =
      Hash.hmacSha1 (Utf8.encode (signingKey secret' "")) (Utf8.ofString base') :=
  Base64.encode_injective (String.ofList_inj.1 h)

/-! ## Accepted messages -/

/-- An accepted message makes a claim, and carries the right signature under its key. -/
theorem exists_sign_of_accepts {st : AuthState σ} (h : accepts s backend m now st = true) :
    ∃ claim base secret, m.Makes claim ∧ m.baseString = .ok base ∧
      keyOf backend m st.identities = some (Utf8.encode (signingKey secret "")) ∧
      sign claim.method base secret "" = claim.signature := by
  obtain ⟨claim, record, hscreen, -⟩ := accepts_iff_screen.1 h
  obtain ⟨hclaim, -, hlookup, hcheck⟩ := screen_ok_iff.1 (Prod.ext hscreen rfl)
  obtain ⟨base, hbase, hsign⟩ := checkSignature_eq_ok_iff.1 hcheck
  refine ⟨claim, base, record.secret, Message.claim_eq_ok_iff.1 hclaim, hbase, ?_, hsign⟩
  simp only [keyOf, hclaim, hlookup]

/-- The method of a claim is the one that its parameter names. -/
theorem Message.Makes.method_eq_hmac {claim : Claim} (h : m.Makes claim)
    (hmethod : m.param? "oauth_signature_method" = some SignatureMethod.hmacSha1.text) :
    claim.method = .hmacSha1 := by
  obtain ⟨name, hname, hof⟩ := h.method
  rw [hmethod] at hname
  cases hname
  exact (Except.ok.inj hof).symm

/-- Two accepted messages with the same signature, one of them a code: the texts that were signed
have the same code. -/
theorem hmac_eq_of_accepts {σ' : Type} {s' : AuthSettings} {backend' : IdentityBackend σ'}
    {now' : Int} {st : AuthState σ} {st' : AuthState σ'}
    (h : accepts s backend m now st = true) (h' : accepts s' backend' m' now' st' = true)
    (hmethod : m.param? "oauth_signature_method" = some SignatureMethod.hmacSha1.text)
    (hsame : m'.param? signatureName = m.param? signatureName) :
    ∃ k k' base base', keyOf backend m st.identities = some k ∧
      keyOf backend' m' st'.identities = some k' ∧ m.baseString = .ok base ∧
      m'.baseString = .ok base' ∧
      Hash.hmacSha1 k (Utf8.ofString base) = Hash.hmacSha1 k' (Utf8.ofString base') := by
  obtain ⟨claim, base, secret, hmakes, hbase, hkey, hsign⟩ := exists_sign_of_accepts h
  obtain ⟨claim', base', secret', hmakes', hbase', hkey', hsign'⟩ := exists_sign_of_accepts h'
  have hsignature : claim'.signature = claim.signature := by
    rw [hmakes'.signature, hmakes.signature] at hsame
    exact Option.some.inj hsame
  -- the first signature is a code, so the second one is no plain signature either
  rw [hmakes.method_eq_hmac hmethod] at hsign
  rw [← hsign] at hsignature
  rw [hsignature] at hsign'
  have hmethod' := method_of_sign_eq hsign'.symm
  rw [hmethod'] at hsign'
  exact ⟨_, _, base, base', hkey, hkey', hbase, hbase', hmac_of_sign_eq hsign'.symm⟩

/-- A message that is accepted with the signature of another one has the same canonical form, or
the two collide. -/
theorem rejected_or_collides {σ' : Type} {s' : AuthSettings} {backend' : IdentityBackend σ'}
    {now' : Int} {st : AuthState σ} {st' : AuthState σ'}
    (h : accepts s backend m now st = true)
    (hmethod : m.param? "oauth_signature_method" = some SignatureMethod.hmacSha1.text)
    (hsame : m'.param? signatureName = m.param? signatureName)
    (hne : m'.canonical ≠ m.canonical) :
    accepts s' backend' m' now' st' = false ∨
      Collides (keyOf backend m st.identities) m (keyOf backend' m' st'.identities) m' := by
  cases h' : accepts s' backend' m' now' st' with
  | false => exact .inl rfl
  | true =>
    obtain ⟨k, k', base, base', hkey, hkey', hbase, hbase', hcode⟩ :=
      hmac_eq_of_accepts h h' hmethod hsame
    refine .inr ⟨k, k', base, base', hkey, hkey', hbase, hbase', ?_, hcode⟩
    intro heq
    exact hne ((baseString_eq_iff hbase' hbase).1 heq.symm)

/-! ## The order of the parameters -/

/-- A message in another order of its parameters is verified in the same way, as long as its
canonical form is the same. -/
theorem verify_of_perm {st st₁ : AuthState σ} {p : Principal} (hperm : m.params.Perm m'.params)
    (hcanonical : m'.canonical = m.canonical)
    (h : (verify s backend m now).run st = (.ok p, st₁)) :
    (verify s backend m' now).run st = (.ok p, st₁) := by
  obtain ⟨claim, record, identities, hscreen, hadmission, hp, hst⟩ := verify_ok_iff.1 h
  obtain ⟨hclaim, htimely, hlookup, hcheck⟩ := screen_ok_iff.1 hscreen
  obtain ⟨base, hbase, hsign⟩ := checkSignature_eq_ok_iff.1 hcheck
  have hclaim' := Message.claim_eq_ok_iff.2
    (Message.makes_of_perm hperm (Message.claim_eq_ok_iff.1 hclaim))
  have hbase' : m'.baseString = .ok base := baseString_of_canonical_eq hcanonical hbase
  have hcheck' := checkSignature_eq_ok_iff.2 ⟨base, hbase', hsign⟩
  have hscreen' := screen_ok_iff.2 ⟨hclaim', htimely, hlookup, hcheck'⟩
  exact verify_ok_iff.2 ⟨claim, record, identities, hscreen', hadmission, hp, hst⟩

/-! ## The result -/

/-- Base strings are equal if and only if the canonical requests are. So a message that carries
the code of an accepted message and has another canonical form is rejected, unless the base
strings of the two collide; and a message that differs in the order of its parameters is
verified in the same way. -/
theorem signature_binds_request :
    (∀ (method url method' url' : String) (params params' : List Param) (base base' : String),
      baseString method url params = .ok base → baseString method' url' params' = .ok base' →
      (base = base' ↔ canonical method url params = canonical method' url' params')) ∧
    (∀ (σ σ' : Type) (s s' : AuthSettings) (backend : IdentityBackend σ)
      (backend' : IdentityBackend σ') (m m' : Message) (now now' : Int) (st : AuthState σ)
      (st' : AuthState σ'),
      accepts s backend m now st = true →
      m.param? "oauth_signature_method" = some SignatureMethod.hmacSha1.text →
      m'.param? signatureName = m.param? signatureName →
      m'.canonical ≠ m.canonical →
      accepts s' backend' m' now' st' = false ∨
        Collides (keyOf backend m st.identities) m (keyOf backend' m' st'.identities) m') ∧
    (∀ (σ : Type) (s : AuthSettings) (backend : IdentityBackend σ) (m m' : Message) (now : Int)
      (st st₁ : AuthState σ) (p : Principal),
      m.params.Perm m'.params → m'.canonical = m.canonical →
      (verify s backend m now).run st = (.ok p, st₁) →
      (verify s backend m' now).run st = (.ok p, st₁)) :=
  ⟨fun _ _ _ _ _ _ _ _ h h' => baseString_eq_iff h h',
    fun _ _ _ _ _ _ _ _ _ _ _ _ h hmethod hsame hne => rejected_or_collides h hmethod hsame hne,
    fun _ _ _ _ _ _ _ _ _ hperm hcanonical h => verify_of_perm hperm hcanonical h⟩

/-! ## A signed message -/

namespace Sample

/-- The parameters of a request, before it is signed. -/
def unsigned : List Param :=
  [⟨"oauth_consumer_key", "c"⟩, ⟨"oauth_signature_method", "HMAC-SHA1"⟩,
    ⟨"oauth_timestamp", "1000"⟩, ⟨"oauth_nonce", "n"⟩]

/-- The base string of the request, for one address. -/
def base : String :=
  baseText "POST".toList "http://h/open" unsigned

/-- The signature of the consumer over the base string. -/
def signature : String :=
  sign .hmacSha1 base "s" ""

/-- The parameters of the signed request. -/
def signed : List Param :=
  unsigned ++ [⟨signatureName, signature⟩]

/-- The signed request, as it is sent to an address. -/
def message (url : String) : Message :=
  ⟨"POST", url, signed⟩

theorem message_makes (url : String) :
    (message url).Makes ⟨"c", signature, .hmacSha1, "n", 1000⟩ where
  unique := rfl
  version := rfl
  consumer := rfl
  signature := rfl
  method := ⟨_, rfl, rfl⟩
  nonce := rfl
  timestamp := ⟨_, rfl, rfl⟩

/-- What the signature speaks about. -/
def request : CanonicalRequest :=
  ⟨"POST".toList, "http://h/open", unsigned⟩

theorem baseString_unsigned : baseString "POST" "http://h/open" unsigned = .ok base :=
  baseString_eq_ok_iff.2 ⟨"http://h/open", [], by decide +kernel, rfl⟩

theorem canonical_unsigned : canonical "POST" "http://h/open" unsigned = .ok request :=
  canonical_eq_ok_iff.2 ⟨"http://h/open", [], by decide +kernel, rfl⟩

theorem canonical_message {url : String} (h : normalizeUrl url = .ok ("http://h/open", [])) :
    (message url).canonical = .ok request := by
  have hmethod : "POST".toList = "POST".toList.map Char.toUpper := by decide
  have hparams : signedParams (signed ++ []) = unsigned := rfl
  refine canonical_eq_ok_iff.2 ⟨"http://h/open", [], h, ?_⟩
  rw [request, message, hparams, CanonicalRequest.mk.injEq]
  exact ⟨hmethod, rfl, rfl⟩

theorem baseString_message {url : String} (h : normalizeUrl url = .ok ("http://h/open", [])) :
    (message url).baseString = .ok base :=
  baseString_of_canonical_eq ((canonical_message h).trans canonical_unsigned.symm)
    baseString_unsigned

/-- The signed request is accepted at every address with the right normalized form. -/
theorem verify_message {url : String} (h : normalizeUrl url = .ok ("http://h/open", [])) :
    ∃ st, (verify settings Registry.backend (message url) 1000).run start =
      (.ok ⟨"c", .oauth, []⟩, st) := by
  have hclaim := Message.claim_eq_ok_iff.2 (message_makes url)
  have htimely : isTimely settings.timestampWindow 1000 1000 = true := by decide
  have hlookup : ((Registry.backend.lookupConsumer "c").run start.identities).1 =
      .ok ⟨"c", "s", []⟩ := by decide +kernel
  have hcheck : checkSignature (message url) ⟨"c", signature, .hmacSha1, "n", 1000⟩
      ⟨"c", "s", []⟩ = .ok () :=
    checkSignature_eq_ok_iff.2 ⟨base, baseString_message h, rfl⟩
  have hscreen := screen_ok_iff.2 ⟨hclaim, htimely, Prod.ext hlookup rfl, hcheck⟩
  have hadmission : (admission start.guard ⟨"c", "n", 1000⟩ 1000).1 = true := by decide +kernel
  exact ⟨_, verify_ok_iff.2 ⟨_, _, _, hscreen, hadmission, rfl, rfl⟩⟩

end Sample

/-- The signed request again: with its parameters in another order it has the same base string and
is accepted, and as a request of another method it is rejected or collides. -/
theorem signature_binds_sample :
    (∃ base', baseString "post" "HTTP://H:80/open" Sample.signed.reverse = .ok base' ∧
      Sample.base = base') ∧
    (accepts Sample.settings Registry.backend
        { Sample.message "http://h/open" with method := "GET" } 1000 Sample.start = false ∨
      Collides (keyOf Registry.backend (Sample.message "http://h/open") Sample.start.identities)
        (Sample.message "http://h/open")
        (keyOf Registry.backend { Sample.message "http://h/open" with method := "GET" }
          Sample.start.identities)
        { Sample.message "http://h/open" with method := "GET" }) ∧
    ∃ st, (verify Sample.settings Registry.backend
        { Sample.message "http://h/open" with params := Sample.signed.reverse } 1000).run
      Sample.start = (.ok ⟨"c", .oauth, []⟩, st) := by
  obtain ⟨hexact, htampering, hreordering⟩ := signature_binds_request
  have hurl : normalizeUrl "http://h/open" = .ok ("http://h/open", []) := by decide +kernel
  obtain ⟨st, haccepted⟩ := Sample.verify_message hurl
  have hreversed : signedParams (Sample.signed.reverse ++ []) = Sample.unsigned.reverse := rfl
  have hcanonical : ∀ method url : String, method.toList.map Char.toUpper = "POST".toList →
      normalizeUrl url = .ok ("http://h/open", []) →
      canonical method url Sample.signed.reverse = .ok Sample.request := by
    intro method url hmethod hnormal
    refine canonical_eq_ok_iff.2 ⟨"http://h/open", [], hnormal, ?_⟩
    rw [hmethod, hreversed, Sample.request, CanonicalRequest.mk.injEq]
    exact ⟨rfl, rfl, Multiset.coe_eq_coe.2 (List.reverse_perm _).symm⟩
  refine ⟨?exact, ?tampering, st, ?reordering⟩
  case exact =>
    have hother : normalizeUrl "HTTP://H:80/open" = .ok ("http://h/open", []) := by decide +kernel
    refine ⟨_, baseString_eq_ok_iff.2 ⟨"http://h/open", [], hother, rfl⟩, ?_⟩
    refine (hexact _ _ _ _ _ _ _ _ Sample.baseString_unsigned
      (baseString_eq_ok_iff.2 ⟨"http://h/open", [], hother, rfl⟩)).2 ?_
    rw [Sample.canonical_unsigned, hcanonical "post" _ (by decide) hother]
  case tampering =>
    refine htampering _ _ Sample.settings _ _ _ _ _ 1000 _ _ _ ?_ rfl rfl ?_
    · rw [accepts, haccepted]
      rfl
    · rw [Sample.canonical_message hurl]
      intro heq
      obtain ⟨_, _, -, hrequest⟩ := canonical_eq_ok_iff.1 heq
      have hmethods : "POST".toList = "GET".toList.map Char.toUpper :=
        congrArg CanonicalRequest.method hrequest
      exact absurd hmethods (by decide)
  case reordering =>
    refine hreordering _ _ _ _ _ _ _ _ _ (List.reverse_perm _).symm ?_ haccepted
    rw [Sample.canonical_message hurl]
    exact hcanonical "POST" _ (by decide) hurl

end Gatehouse.OAuth
