import Gatehouse.Proofs.Digest.NonceGrammar
import Gatehouse.Proofs.Digest.Verification

/-!
# What a Digest response is made of

The text that is hashed last runs secret, nonce, counter and request together, with colons between
them, although counters are free texts that may contain colons themselves. It can be taken apart
nevertheless. From the front come the secret and the nonce, which are without colons: a secret
because it is a hash, a nonce because it is Base64. From the back comes the hash of the request.
What is left between them is the counter, if there is anything left.

- `lastText`: the text that is hashed last.
- `lastText_eq_iff`: equal texts are made of equal parts.
- `Confuses`: two responses are the same, and what they are made of is not.
- `response_speaks_for_itself`: a response that is accepted was made for what it stands beside, or
  it confuses.
-/

namespace Gatehouse.Digest

/-! ## The text that is hashed last -/

/-- The method and the address of a request, as they are hashed. -/
def target (method uri : String) : List Char :=
  method.toList ++ ':' :: uri.toList

/-- The text that is hashed last for a request. -/
def lastText (c : Credentials) (method password : String) (alreadyEncoded : Bool) :
    Except AuthError (List Char) :=
  preimage c (secret c password alreadyEncoded) (requestHash method c.uri)

namespace Credentials

/-- What protected credentials count their responses with. -/
def counter (c : Credentials) : Option (List Char) :=
  c.qop.map fun _ => (c.nc.getD "").toList ++ ':' :: (c.cnonce.getD "").toList

/-- Two credentials ask for the same protection, with the same nonce and the same counter. -/
structure Agree (c c' : Credentials) : Prop where
  qop : c.qop = c'.qop
  nonce : c.nonce = c'.nonce
  counter : c.counter = c'.counter

end Credentials

/-- What stands behind the nonce. -/
def remainder : Option (List Char) → List Char → List Char
  | none, a2 => a2
  | some counter, a2 => counter ++ ":auth".toList ++ ':' :: a2

section Texts

variable {c c' : Credentials} {n n' : Nonce} {method method' password password' : String}
  {alreadyEncoded alreadyEncoded' : Bool}

theorem preimage_of_supported (h : c.Supported) (a1 a2 : String) :
    preimage c a1 a2 = .ok (a1.toList ++ ':' :: (c.nonce.toList ++ ':' ::
      remainder c.counter a2.toList)) := by
  rcases h with hqop | ⟨hqop, -, -⟩
  · simp [preimage, hqop, Credentials.counter, remainder]
  · simp [preimage, hqop, Credentials.counter, remainder]

theorem colon_notMem_requestHash (method uri : String) :
    ':' ∉ (requestHash method uri).toList := by
  rw [requestHash, String.toList_ofList]
  exact notMem_md5Hex (by decide) _

/-- A secret is without colons, unless one with colons was stored. -/
theorem colon_notMem_secret (h : alreadyEncoded = true → ':' ∉ password.toList) :
    ':' ∉ (secret c password alreadyEncoded).toList := by
  cases alreadyEncoded with
  | true => exact h rfl
  | false =>
    show ':' ∉ (passwordHash c.username c.realm password).toList
    rw [passwordHash, String.toList_ofList]
    exact notMem_md5Hex (by decide) _

/-- Whether there is a counter, and which one it is, can be told from the end. -/
theorem remainder_inj {a2 a2' : List Char} (h : ':' ∉ a2) (h' : ':' ∉ a2')
    (counter counter' : Option (List Char)) :
    remainder counter a2 = remainder counter' a2' ↔ counter = counter' ∧ a2 = a2' := by
  have hcolon : ∀ counter a2, ':' ∈ remainder (some counter) a2 :=
    fun _ _ => List.mem_append_right _ List.mem_cons_self
  cases counter with
  | none =>
    cases counter' with
    | none => simp [remainder]
    | some counter' =>
      simp only [reduceCtorEq, false_and, iff_false]
      rintro (rfl : a2 = _)
      exact h (hcolon counter' a2')
  | some counter =>
    cases counter' with
    | none =>
      simp only [reduceCtorEq, false_and, iff_false]
      rintro (rfl : _ = a2')
      exact h' (hcolon counter a2)
    | some counter' =>
      rw [remainder, remainder, Text.append_sep_inj_right h h', List.append_left_inj,
        Option.some.injEq]

theorem Credentials.agree_iff (h : c.Supported) (h' : c'.Supported) :
    c.Agree c' ↔ c.nonce = c'.nonce ∧ c.counter = c'.counter := by
  constructor
  · exact fun hagree => ⟨hagree.nonce, hagree.counter⟩
  · rintro ⟨hnonce, hcounter⟩
    refine ⟨?_, hnonce, hcounter⟩
    -- there are counters exactly with the one protection that there is
    have hsome := congrArg Option.isSome hcounter
    rw [counter, counter, Option.isSome_map, Option.isSome_map] at hsome
    rcases h with hqop | ⟨hqop, -⟩ <;> rcases h' with hqop' | ⟨hqop', -⟩ <;>
      simp_all

theorem exists_lastText (h : c.Supported) (method password : String) (alreadyEncoded : Bool) :
    ∃ text, lastText c method password alreadyEncoded = .ok text :=
  ⟨_, preimage_of_supported h _ _⟩

/-- Texts that are hashed last are the same only if they are made of the same parts. -/
theorem lastText_eq_iff (h : c.Supported) (h' : c'.Supported)
    (hnonce : Nonce.decode c.nonce = .ok n)
    (hnonce' : Nonce.decode c'.nonce = .ok n')
    (hplain : alreadyEncoded = true → ':' ∉ password.toList)
    (hplain' : alreadyEncoded' = true → ':' ∉ password'.toList) {text text' : List Char}
    (htext : lastText c method password alreadyEncoded = .ok text)
    (htext' : lastText c' method' password' alreadyEncoded' = .ok text') :
    text = text' ↔ c.Agree c' ∧
      secret c password alreadyEncoded = secret c' password' alreadyEncoded' ∧
      requestHash method c.uri = requestHash method' c'.uri := by
  rw [lastText, preimage_of_supported h] at htext
  rw [lastText, preimage_of_supported h'] at htext'
  cases htext
  cases htext'
  rw [Text.append_sep_inj (colon_notMem_secret hplain) (colon_notMem_secret hplain'),
    Text.append_sep_inj (Nonce.colon_notMem_of_decode hnonce)
      (Nonce.colon_notMem_of_decode hnonce'),
    remainder_inj (colon_notMem_requestHash _ _) (colon_notMem_requestHash _ _),
    Credentials.agree_iff h h', String.toList_inj, String.toList_inj, String.toList_inj]
  constructor
  · rintro ⟨hsecret, hsame, hcounter, hrequest⟩
    exact ⟨⟨hsame, hcounter⟩, hsecret, hrequest⟩
  · rintro ⟨⟨hsame, hcounter⟩, hsecret, hrequest⟩
    exact ⟨hsecret, hsame, hcounter, hrequest⟩

/-- The address can be told from what is hashed, if methods are without colons or are the same. -/
theorem uri_of_target {uri uri' : String} (h : target method uri = target method' uri')
    (hmethod : method = method' ∨ ':' ∉ method.toList ∧ ':' ∉ method'.toList) : uri = uri' := by
  rw [target, target] at h
  rcases hmethod with rfl | ⟨hcolon, hcolon'⟩
  · exact String.toList_inj.1 (List.cons.inj (List.append_cancel_left h)).2
  · exact String.toList_inj.1 ((Text.append_sep_inj hcolon hcolon').1 h).2

/-! ## Responses -/

/-- Two responses are the same although they are not made of the same: one of the two hashes on the
way is that of two texts. -/
inductive Confuses (alreadyEncoded : Bool) (c : Credentials) (method password : String)
    (c' : Credentials) (method' password' : String) : Prop where
  | response {text text' : List Char} (htext : lastText c method password alreadyEncoded = .ok text)
    (htext' : lastText c' method' password' alreadyEncoded = .ok text') (hne : text ≠ text')
    (h : md5Hex text = md5Hex text') :
    Confuses alreadyEncoded c method password c' method' password'
  | request (hne : target method c.uri ≠ target method' c'.uri)
    (h : md5Hex (target method c.uri) = md5Hex (target method' c'.uri)) :
    Confuses alreadyEncoded c method password c' method' password'

/-- The same response is right for the same protection, nonce, counter and target only. -/
theorem agree_or_confuses (h : c.Supported) (h' : c'.Supported)
    (hnonce : Nonce.decode c.nonce = .ok n) (hnonce' : Nonce.decode c'.nonce = .ok n')
    (hplain : alreadyEncoded = true → ':' ∉ password.toList)
    (hplain' : alreadyEncoded = true → ':' ∉ password'.toList)
    (hsame : expected c method password alreadyEncoded =
      expected c' method' password' alreadyEncoded) :
    c.Agree c' ∧ target method c.uri = target method' c'.uri ∨
      Confuses alreadyEncoded c method password c' method' password' := by
  obtain ⟨text, htext⟩ := exists_lastText h method password alreadyEncoded
  obtain ⟨text', htext'⟩ := exists_lastText h' method' password' alreadyEncoded
  have hhash : md5Hex text = md5Hex text' := by
    have hmap : (lastText c method password alreadyEncoded).map (String.ofList ∘ md5Hex) =
      (lastText c' method' password' alreadyEncoded).map (String.ofList ∘ md5Hex) := hsame
    rw [htext, htext'] at hmap
    exact String.ofList_inj.1 (Except.ok.inj hmap)
  by_cases heq : text = text'
  · obtain ⟨hagree, -, hrequest⟩ :=
      (lastText_eq_iff h h' hnonce hnonce' hplain hplain' htext htext').1 heq
    by_cases htarget : target method c.uri = target method' c'.uri
    · exact .inl ⟨hagree, htarget⟩
    · exact .inr (.request htarget (String.ofList_inj.1 hrequest))
  · exact .inr (.response htext htext' heq hhash)

end Texts

/-! ## Verification -/

section Verification

variable {σ : Type} {s : AuthSettings} {backend : IdentityBackend σ} {st : AuthState σ}
  {method header : String} {tick : Instant} {c : Credentials} {n : Nonce} {record : UserRecord}

/-- A password under which a user can be known, in the cache or in the backend. -/
def Known (backend : IdentityBackend σ) (st : AuthState σ) (name : String) (tick : Instant)
    (password : String) : Prop :=
  (passwords backend st name tick).1 = some password ∨
    (passwords backend st name tick).2 = .ok password

theorem Proven.known (h : Proven s backend st method header tick c n record) :
    Known backend st c.username tick record.password := by
  rcases h.stored with hcached | ⟨-, hload⟩
  · left
    rw [passwords, hcached, Option.map_some]
  · right
    rw [passwords, hload, Except.map]

end Verification

/-- The texts that are hashed last for two credentials with nonces that can be read, in either
protection mode, are the same only if both have the same mode, secret, nonce, counter and hash of
the request. So a response that was made for some credentials and some request is found right with
those credentials only that have the same mode, nonce and counter, and for the same request, unless
hashes collide. -/
theorem response_speaks_for_itself {c : Credentials} {n : Nonce} {password : String}
    {alreadyEncoded : Bool} (hsupported : c.Supported) (hnonce : Nonce.decode c.nonce = .ok n)
    (hplain : alreadyEncoded = true → ':' ∉ password.toList) (method : String) :
    (∀ (c' : Credentials) (n' : Nonce) (method' password' : String) (alreadyEncoded' : Bool),
      c'.Supported → Nonce.decode c'.nonce = .ok n' →
      (alreadyEncoded' = true → ':' ∉ password'.toList) →
      ∃ text text', lastText c method password alreadyEncoded = .ok text ∧
        lastText c' method' password' alreadyEncoded' = .ok text' ∧
        (text = text' ↔ c.Agree c' ∧
          secret c password alreadyEncoded = secret c' password' alreadyEncoded' ∧
          requestHash method c.uri = requestHash method' c'.uri)) ∧
    ∀ {σ : Type} (s : AuthSettings) (backend : IdentityBackend σ) (st : AuthState σ)
      (method' header' : String) (now : Moment) (c' : Credentials),
      s.passwordAlreadyEncoded = alreadyEncoded → parse header' = .ok c' →
      expected c method password alreadyEncoded = .ok c'.response →
      (∀ known, Known backend st c'.username now.tick known → alreadyEncoded = true →
        ':' ∉ known.toList) →
      Telling ((verify s backend method' header' now).run st).1 →
      ∃ n' record, Proven s backend st method' header' now.tick c' n' record ∧
        (c.Agree c' ∧ target method c.uri = target method' c'.uri ∧
            (method = method' ∨ ':' ∉ method.toList ∧ ':' ∉ method'.toList → c.uri = c'.uri) ∨
          Confuses alreadyEncoded c method password c' method' record.password) := by
  constructor
  · intro c' n' method' password' alreadyEncoded' hsupported' hnonce' hplain'
    obtain ⟨text, htext⟩ := exists_lastText hsupported method password alreadyEncoded
    obtain ⟨text', htext'⟩ := exists_lastText hsupported' method' password' alreadyEncoded'
    exact ⟨text, text', htext, htext',
      lastText_eq_iff hsupported hsupported' hnonce hnonce' hplain hplain' htext htext'⟩
  · rintro σ s backend st method' header' now c' rfl hparse hresponse hknown htold
    obtain ⟨c₁, n', record, hproven⟩ := telling_iff.1 htold
    cases hparse.symm.trans hproven.parsed
    refine ⟨n', record, hproven, ?_⟩
    have hsame := agree_or_confuses hsupported (supported_of_parse hparse) hnonce hproven.decoded
      hplain (hknown _ hproven.known) (hresponse.trans hproven.answers.symm)
    exact hsame.imp_left fun ⟨hagree, htarget⟩ => ⟨hagree, htarget, uri_of_target htarget⟩

namespace Sample

/-- The credentials with protection. -/
def counted : Credentials :=
  { unanswered with qop := some "auth", nc := some "00000001", cnonce := some "a:auth:b" }

theorem decode_nonce : Nonce.decode unanswered.nonce = .ok nonce :=
  Nonce.decode_encode (by decide) (by decide) (Signer.colon_notMem_md5 1000 "k")

theorem proven_answered : Proven settings Registry.backend uncached "GET" answered.render 0
    answered nonce alice := by
  have hload : (Registry.backend.loadUser answered.username).run uncached.identities =
      (.ok alice, ⟨Directory.empty.withUser alice, none, 1⟩) := by
    rw [answered_username]
    rfl
  exact proven_iff.2 ⟨screen_answered, _, _, .loaded rfl nofun hload answered_answers⟩

end Sample

open Sample in
/-- With protection another text is hashed last. The response that is accepted was made for the
address beside it. -/
theorem alice_speaks_for_herself :
    (∃ text text', lastText unanswered "GET" "secret" false = .ok text ∧
      lastText counted "GET" "secret" false = .ok text' ∧ text ≠ text') ∧
    ∃ n record,
      Proven settings Registry.backend uncached "GET" answered.render 0 answered n record ∧
      (unanswered.uri = answered.uri ∨
        Confuses false unanswered "GET" "secret" answered "GET" record.password) := by
  obtain ⟨htexts, hverified⟩ :=
    @response_speaks_for_itself unanswered nonce "secret" false (.inl rfl) decode_nonce nofun "GET"
  constructor
  · obtain ⟨text, text', htext, htext', hsame⟩ := htexts counted nonce "GET" "secret" false
      (.inr ⟨rfl, rfl, rfl⟩) decode_nonce nofun
    refine ⟨text, text', htext, htext', fun heq => ?_⟩
    cases (hsame.1 heq).1.qop
  · obtain ⟨response, hanswered, hresponse⟩ := exists_answered
    have hmade : expected unanswered "GET" "secret" false = .ok answered.response := by
      rw [hanswered]
      exact hresponse
    obtain ⟨n, record, hproven, hspeaks⟩ := hverified settings Registry.backend uncached "GET"
      answered.render ⟨0, 0⟩ answered rfl proven_answered.parsed hmade nofun
      (telling_iff.2 ⟨_, _, _, proven_answered⟩)
    exact ⟨n, record, hproven, hspeaks.imp_left fun h => h.2.2 (.inl rfl)⟩

end Gatehouse.Digest
