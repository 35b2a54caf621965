import Gatehouse.OAuth.SignedUrl
import Gatehouse.Proofs.Form
import Gatehouse.Proofs.OAuth.Binding
import Gatehouse.Proofs.Text.Numeral
import Gatehouse.Proofs.Uri.Absolute

/-!
# Signed addresses are accepted

Signer and verifier come to the base string in different ways. The signer takes the query out of
an address and puts its parameters in front of those of the protocol; the verifier is given an
address without a query, and reads the parameters back from the form that the signer wrote. Both
ways lead to the same normalized address and to the same signed parameters, so that the signature
is the right one, whatever the query, the secret and the nonce are made of.

- `normalizeUrl_baseUrl`: without its query, an address has the same normalized form.
- `signUrl_of_normalizeUrl`: what the signer writes.
- `makes_signed`: what the parameters of a signed address claim.
- `checkSignature_signed`: the signature is the right one.
- `verify_signUrl`: a signed address is accepted.
-/

namespace Gatehouse.OAuth

/-- The text that is signed for an address. -/
def signedText (method address : String) (params : List Param) (key nonce : String)
    (timestamp : Int) : String :=
  baseText (method.toList.map Char.toUpper) address (params ++ protocolParams key nonce timestamp)

/-- The parameters of a signed address: those of its query, those of the protocol, and the
signature. -/
def signedQuery (params : List Param) (key nonce : String) (timestamp : Int)
    (signature : String) : List Param :=
  params ++ protocolParams key nonce timestamp ++ [⟨signatureName, signature⟩]

/-! ## The signer -/

/-- Without its query, an address has the same normalized form and no parameters. -/
theorem normalizeUrl_baseUrl {url address : String} {params : List Param}
    (h : normalizeUrl url = .ok (address, params)) :
    normalizeUrl (baseUrl url) = .ok (address, []) := by
  unfold normalizeUrl at h
  split at h
  · next scheme authority path query hparse =>
    cases h
    have hcut : Uri.withoutFragment (baseUrl url).toList =
        Uri.withoutQuery (Uri.withoutFragment url.toList) := by
      rw [baseUrl, String.toList_ofList]
      exact Uri.withoutFragment_withoutQuery url.toList
    rw [normalizeUrl, hcut, Uri.parse_withoutQuery (by nofun) hparse]
    rfl
  · cases h

/-- What the signer writes for an address that can be normalized. -/
theorem signUrl_of_normalizeUrl {url address : String} {params : List Param}
    (h : normalizeUrl url = .ok (address, params)) (method key secret nonce : String)
    (timestamp : Int) :
    signUrl method url key secret timestamp nonce =
      .ok (baseUrl url ++ "?" ++ String.ofList (Form.render (signedQuery params key nonce timestamp
        (sign .hmacSha1 (signedText method address params key nonce timestamp) secret "")))) := by
  have hbase : OAuth.baseString method (baseUrl url)
      (params ++ protocolParams key nonce timestamp) =
      .ok (signedText method address params key nonce timestamp) :=
    baseString_eq_ok_iff.2 ⟨address, [], normalizeUrl_baseUrl h, by
      rw [signedText, List.append_nil]⟩
  rw [signUrl, h]
  simp only [bind, Except.bind]
  rw [hbase, signedQuery]
  rfl

/-- Addresses that can be signed can be normalized. -/
theorem exists_normalizeUrl_of_signUrl {method url key secret nonce signed : String}
    {timestamp : Int} (h : signUrl method url key secret timestamp nonce = .ok signed) :
    ∃ address params, normalizeUrl url = .ok (address, params) := by
  obtain ⟨parts, hparts, -⟩ := ok_of_bind h
  exact ⟨parts.1, parts.2, hparts⟩

/-- The first question mark of a signed address is the one that the signer wrote. -/
theorem splitOnce_signed (url : String) (query : List Char) :
    Text.splitOnce '?' (baseUrl url ++ "?" ++ String.ofList query).toList =
      some ((baseUrl url).toList, query) := by
  have hbase : '?' ∉ (baseUrl url).toList := by
    rw [baseUrl, String.toList_ofList]
    exact Uri.notMem_withoutQuery url.toList
  have hmark : "?".toList = ['?'] := rfl
  rw [String.toList_append, String.toList_append, hmark, String.toList_ofList,
    List.append_assoc, List.singleton_append]
  exact Text.splitOnce_append hbase query

/-! ## The verifier -/

/-- The parameters of a signed address claim what the signer was told, if the query of the address
has no parameter of the protocol. -/
theorem makes_signed {params : List Param}
    (hplain : ∀ p ∈ params, Message.isProtocolName p.name = false) {timestamp : Int}
    (hlow : Numeral.minSigned ≤ timestamp) (hhigh : timestamp ≤ Numeral.maxSigned)
    (method url key nonce signature : String) :
    Message.Makes ⟨method, url, signedQuery params key nonce timestamp signature⟩
      ⟨key, signature, .hmacSha1, nonce, timestamp⟩ := by
  have hunique : Message.duplicate?
      ⟨method, url, signedQuery params key nonce timestamp signature⟩ = none := by
    rw [Message.duplicate?_eq_none_iff]
    have hnone : (params.map (·.name)).filter Message.isProtocolName = [] := by
      rw [List.filter_eq_nil_iff]
      intro name hname
      obtain ⟨p, hp, rfl⟩ := List.mem_map.1 hname
      rw [hplain p hp]
      exact Bool.false_ne_true
    rw [signedQuery, List.append_assoc, List.map_append, List.filter_append, hnone,
      List.nil_append]
    show (List.filter Message.isProtocolName ["oauth_consumer_key", "oauth_signature_method",
      "oauth_timestamp", "oauth_nonce", "oauth_version", signatureName]).Nodup
    decide
  -- each parameter of the protocol stands in the list, and it stands there once
  have hgiven : ∀ name value, Message.isProtocolName name = true →
      ⟨name, value⟩ ∈ protocolParams key nonce timestamp ++ [⟨signatureName, signature⟩] →
      Message.param? ⟨method, url, signedQuery params key nonce timestamp signature⟩ name =
        some value := by
    intro name value hname hmem
    rw [Message.param?_eq_some_iff hunique hname, signedQuery, List.append_assoc]
    exact List.mem_append_right params hmem
  refine
    { unique := hunique
      version := ?version
      consumer := hgiven _ _ (by decide) (by simp [protocolParams])
      signature := hgiven _ _ (by decide) (by simp [protocolParams])
      method := ⟨SignatureMethod.hmacSha1.text,
        hgiven _ _ (by decide) (by simp [protocolParams]), rfl⟩
      nonce := hgiven _ _ (by decide) (by simp [protocolParams])
      timestamp := ⟨String.ofList (Numeral.ofInt timestamp),
        hgiven _ _ (by decide) (by simp [protocolParams]), ?read⟩ }
  case version =>
    have hversion := hgiven "oauth_version" version (by decide) (by simp [protocolParams])
    rw [Message.checkVersion, hversion]
    rfl
  case read =>
    rw [String.toList_ofList]
    exact Numeral.signed?_ofInt hlow hhigh

/-- The signature of a signed address is the one that the verifier computes. -/
theorem checkSignature_signed {base address : String} (method : String) (params : List Param)
    (hbase : normalizeUrl base = .ok (address, [])) (key nonce : String) (timestamp : Int)
    (record : ConsumerRecord) :
    let signature :=
      sign .hmacSha1 (signedText method address params key nonce timestamp) record.secret ""
    checkSignature ⟨method, base, signedQuery params key nonce timestamp signature⟩
      ⟨key, signature, .hmacSha1, nonce, timestamp⟩ record = .ok () := by
  intro signature
  refine checkSignature_eq_ok_iff.2 ⟨_, baseString_eq_ok_iff.2 ⟨address, [], hbase, rfl⟩, ?_⟩
  -- the verifier leaves out the signature, which the signer did not have yet
  have hsame : signedParams (signedQuery params key nonce timestamp signature ++ []) =
      signedParams (params ++ protocolParams key nonce timestamp) := by
    rw [List.append_nil, signedQuery, signedParams, List.filter_append]
    exact List.append_nil _
  have htext : baseText (method.toList.map Char.toUpper) address
      (signedQuery params key nonce timestamp signature ++ []) =
      signedText method address params key nonce timestamp :=
    baseText_eq_iff.2 ⟨rfl, rfl, List.Perm.of_eq hsame⟩
  show sign .hmacSha1 (baseText (method.toList.map Char.toUpper) address
    (signedQuery params key nonce timestamp signature ++ [])) record.secret "" = signature
  rw [htext]

/-! ## The result -/

/-- An address is signed if and only if it can be normalized. If its query has no parameter of the
protocol, then what is signed is accepted. The verifier is handed the signed address in two parts,
as what stands before its first question mark and as the form that follows. It accepts them
whenever the timestamp is timely, its backend knows the consumer with the secret of the signer,
and its guard, if it has one, does not remember the ticket. -/
theorem verify_signUrl {method url key secret nonce : String} {timestamp : Int}
    (hlow : Numeral.minSigned ≤ timestamp) (hhigh : timestamp ≤ Numeral.maxSigned)
    (hplain : ∀ address params, normalizeUrl url = .ok (address, params) →
      ∀ p ∈ params, Message.isProtocolName p.name = false) :
    ((∃ signed, signUrl method url key secret timestamp nonce = .ok signed) ↔
      ∃ address params, normalizeUrl url = .ok (address, params)) ∧
    ∀ signed, signUrl method url key secret timestamp nonce = .ok signed →
      ∃ base query, Text.splitOnce '?' signed.toList = some (base, query) ∧
        ∀ (σ : Type) (s : AuthSettings) (backend : IdentityBackend σ) (st : AuthState σ)
          (now : Int) (authorities : List String),
          (now - timestamp).natAbs ≤ s.timestampWindow →
          ((backend.lookupConsumer key).run st.identities).1 = .ok ⟨key, secret, authorities⟩ →
          (∀ g, st.guard = some g → g.remembers ⟨key, nonce, timestamp⟩ now = false) →
          ((verify s backend ⟨method, String.ofList base, Form.parse query⟩ now).run st).1 =
            .ok ⟨key, .oauth, authorities⟩ := by
  refine ⟨⟨?normalized, ?written⟩, ?accepted⟩
  case normalized =>
    rintro ⟨signed, h⟩
    exact exists_normalizeUrl_of_signUrl h
  case written =>
    rintro ⟨address, params, hurl⟩
    exact ⟨_, signUrl_of_normalizeUrl hurl method key secret nonce timestamp⟩
  case accepted =>
    intro signed h
    obtain ⟨address, params, hurl⟩ := exists_normalizeUrl_of_signUrl h
    have hsigned := signUrl_of_normalizeUrl hurl method key secret nonce timestamp
    obtain rfl := Except.ok.inj (hsigned.symm.trans h)
    refine ⟨_, _, splitOnce_signed url _, ?_⟩
    intro σ s backend st now authorities htimely hlookup hguard
    rw [Form.parse_render, String.ofList_toList]
    have hclaim := Message.claim_eq_ok_iff.2
      (makes_signed (hplain address params hurl) hlow hhigh method (baseUrl url) key nonce
        (sign .hmacSha1 (signedText method address params key nonce timestamp) secret ""))
    have hcheck := checkSignature_signed method params (normalizeUrl_baseUrl hurl) key nonce
      timestamp ⟨key, secret, authorities⟩
    have hscreen := screen_ok_iff.2
      ⟨hclaim, decide_eq_true htimely, Prod.ext hlookup rfl, hcheck⟩
    have hadmission : (admission st.guard ⟨key, nonce, timestamp⟩ now).1 = true := by
      unfold admission
      split
      · rfl
      · next g hg =>
        exact (ReplayGuard.check_of_not_remembers (Bool.eq_false_iff.1 (hguard g hg))).1
    rw [verify_ok_iff.2 ⟨_, _, _, hscreen, hadmission, rfl, rfl⟩]
    rfl

/-- An address with a port, a fragment and a query with a repeated name is signed, and accepted
at the end of the window. -/
theorem verify_signUrl_sample :
    ∃ signed base query,
      signUrl "get" "HTTP://h:80/p?q=a+b&q=%C3%A9#top" "c" "s" 1000 "n" = .ok signed ∧
      Text.splitOnce '?' signed.toList = some (base, query) ∧
      ((verify Sample.settings Registry.backend
        ⟨"get", String.ofList base, Form.parse query⟩ 1300).run Sample.start).1 =
        .ok ⟨"c", .oauth, []⟩ := by
  have hurl : normalizeUrl "HTTP://h:80/p?q=a+b&q=%C3%A9#top" =
      .ok ("http://h/p", [⟨"q", "a b"⟩, ⟨"q", "é"⟩]) := by decide +kernel
  have hplain : ∀ address params,
      normalizeUrl "HTTP://h:80/p?q=a+b&q=%C3%A9#top" = .ok (address, params) →
      ∀ p ∈ params, Message.isProtocolName p.name = false := by
    intro address params h
    rw [hurl] at h
    cases h
    decide
  obtain ⟨hsigned, haccepted⟩ :=
    @verify_signUrl "get" _ "c" "s" "n" 1000 (by decide) (by decide) hplain
  obtain ⟨signed, h⟩ := hsigned.2 ⟨_, _, hurl⟩
  obtain ⟨base, query, hsplit, hverify⟩ := haccepted signed h
  refine ⟨signed, base, query, h, hsplit, ?_⟩
  refine hverify Registry Sample.settings Registry.backend Sample.start 1300 [] (by decide) ?_ ?_
  · decide +kernel
  · rintro g hg
    cases hg
    decide +kernel

end Gatehouse.OAuth
