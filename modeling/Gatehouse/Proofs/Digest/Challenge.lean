import Gatehouse.Auth.Challenge
import Gatehouse.Proofs.Digest.Verification

/-!
# Answering a challenge

What a client has to do to be let in, and that it is enough: it reads realm and nonce from the
challenge, computes the response with the password, and writes the header.

- `Challenge.written`: the fields of a challenge.
- `readChallenge`, `Login.answer`: the client.
- `Knows`: a gateway that knows the user.
- `challenge_is_answered`: the header is accepted as long as the nonce is fresh, and from then on
  it is refused for no other reason than the nonce's age. That holds for all texts that can stand
  in headers, and up to the ends of the calendar.
-/

namespace Gatehouse

/-! ## The challenge -/

namespace Challenge

variable {s : AuthSettings} {nowMs : Int} {stale : Bool}

/-- The fields of a challenge. -/
def written (s : AuthSettings) (nowMs : Int) (stale : Bool) : List Digest.Field :=
  [⟨"realm", .quoted, s.realm⟩, ⟨"qop", .quoted, "auth"⟩,
      ⟨"nonce", .quoted, Nonce.encode s.signer (s.expiryFrom nowMs) s.serverKey⟩]
    ++ if stale then [⟨"stale", .quoted, "true"⟩] else []

theorem toList_digest (s : AuthSettings) (nowMs : Int) (stale : Bool) :
    (digest s nowMs stale).toList = Digest.scheme ++ Digest.renderFields (written s nowMs stale) := by
  unfold digest written
  generalize Nonce.encode s.signer (s.expiryFrom nowMs) s.serverKey = nonce
  cases stale <;>
    simp only [Digest.renderFields, Text.join, Digest.Field.render, Digest.Field.writeValue,
      String.toList_append, List.append_assoc, List.cons_append, List.nil_append, List.map,
      if_true, Bool.false_eq_true, if_false, List.append_nil] <;>
    rfl

/-- A challenge can be read if the realm can stand between quotes. -/
theorem legible_written (hrealm : '"' ∉ s.realm.toList) :
    ∀ f ∈ written s nowMs stale, f.Legible := by
  intro f hf
  simp only [written, List.mem_append, List.mem_cons, List.not_mem_nil, or_false] at hf
  rcases hf with (rfl | rfl | rfl) | hstale
  · exact .of_quoted (by decide) hrealm
  · exact .of_quoted (by decide) (by decide)
  · exact .of_quoted (by decide) Nonce.quote_notMem_encode
  · split at hstale
    · rw [List.mem_singleton.1 hstale]
      exact .of_quoted (by decide) (by decide)
    · cases hstale

end Challenge

namespace Digest

/-! ## The client -/

/-- The realm and the nonce of a challenge. -/
def readChallenge (challenge : String) : Option (String × String) := do
  let rest ← Text.dropStart? scheme challenge.toList
  let realm ← lastValue "realm" (fields rest)
  let nonce ← lastValue "nonce" (fields rest)
  return (realm, nonce)

/-- Someone who wants to be let in. -/
structure Login where
  username : String
  password : String
  /-- Whether the password is a hash that already covers user name and realm. -/
  alreadyEncoded : Bool
  method : String
  uri : String
  /-- The nonce count and the client's own nonce, if protection is wanted. -/
  protection : Option (String × String)

namespace Login

/-- The credentials for a realm and a nonce, still without response. -/
def credentials (login : Login) (realm nonce : String) : Credentials where
  username := login.username
  realm := realm
  nonce := nonce
  uri := login.uri
  response := ""
  qop := login.protection.map fun _ => "auth"
  nc := login.protection.map (·.1)
  cnonce := login.protection.map (·.2)

/-- The header that answers a challenge. -/
def answer (login : Login) (challenge : String) : Option String :=
  (readChallenge challenge).map fun (realm, nonce) =>
    ((login.credentials realm nonce).respond login.method login.password
      login.alreadyEncoded).render

/-- Texts that can stand in a header. -/
structure Plain (login : Login) : Prop where
  username : '"' ∉ login.username.toList
  uri : '"' ∉ login.uri.toList
  protection : ∀ nc cnonce, login.protection = some (nc, cnonce) →
    ('"' ∉ nc.toList ∧ Field.IsBare nc) ∧ '"' ∉ cnonce.toList

theorem qop_credentials (login : Login) (realm nonce : String) :
    (login.credentials realm nonce).qop = none ∨
      (login.credentials realm nonce).qop = some "auth" := by
  unfold credentials
  cases login.protection with
  | none => exact .inl rfl
  | some _ => exact .inr rfl

theorem checkProtection_credentials (login : Login) (realm nonce response : String) :
    checkProtection { login.credentials realm nonce with response } =
      .ok { login.credentials realm nonce with response } := by
  unfold credentials
  cases login.protection with
  | none => rfl
  | some _ => rfl

theorem Plain.credentials {login : Login} (h : login.Plain) {realm nonce response : String}
    (hrealm : '"' ∉ realm.toList) (hnonce : '"' ∉ nonce.toList)
    (hresponse : '"' ∉ response.toList) :
    Credentials.Plain { login.credentials realm nonce with response } where
  username := h.username
  realm := hrealm
  nonce := hnonce
  uri := h.uri
  response := hresponse
  qop qop hqop := by
    obtain ⟨_, -, rfl⟩ := Option.map_eq_some_iff.1 hqop
    exact ⟨by decide, by decide, by decide⟩
  nc nc hnc := by
    obtain ⟨⟨_, cnonce⟩, hprotection, rfl⟩ := Option.map_eq_some_iff.1 hnc
    exact (h.protection _ _ hprotection).1
  cnonce cnonce hcnonce := by
    obtain ⟨⟨nc, _⟩, hprotection, rfl⟩ := Option.map_eq_some_iff.1 hcnonce
    exact (h.protection _ _ hprotection).2

end Login

theorem readChallenge_digest {s : AuthSettings} (hrealm : '"' ∉ s.realm.toList) (nowMs : Int)
    (stale : Bool) :
    readChallenge (Challenge.digest s nowMs stale) =
      some (s.realm, Nonce.encode s.signer (s.expiryFrom nowMs) s.serverKey) := by
  rw [readChallenge, Challenge.toList_digest, Text.dropStart?_append]
  dsimp only [bind, Option.bind]
  rw [fields_render (Challenge.legible_written hrealm)]
  cases stale <;> simp [Challenge.written, lastValue]

/-! ## The whole exchange -/

variable {σ : Type}

/-- A gateway knows a user if the backend has the record, and the cache no other one. -/
structure Knows (backend : IdentityBackend σ) (st : AuthState σ) (user : UserRecord)
    (tick : Instant) : Prop where
  loads : ((backend.loadUser user.username).run st.identities).1 = .ok user
  cached : ∀ old, (st.users.get user.username tick).1 = some old → old = user

/-- Whoever knows the password of a user that the gateway knows has proven it. -/
theorem Knows.proven {s : AuthSettings} {backend : IdentityBackend σ} {st : AuthState σ}
    {user : UserRecord} {tick : Instant} (h : Knows backend st user tick) {method header : String}
    {c : Credentials} {nonce : Nonce} (hparse : parse header = .ok c)
    (hnonce : checkNonce s c = .ok nonce) (hname : c.username = user.username)
    (hanswers : Answers s c method user.password) :
    Proven s backend st method header tick c nonce user := by
  obtain ⟨hrealm, hdecoded, hsigned⟩ := checkNonce_eq_ok_iff.1 hnonce
  refine ⟨hparse, hrealm, hdecoded, hsigned, hanswers, ?_⟩
  rw [hname]
  cases hget : (st.users.get user.username tick).1 with
  | some old => exact .inl (by rw [h.cached old hget])
  | none => exact .inr ⟨nofun, h.loads⟩

/-- A client that knows the password of an active user reads the challenge and writes a header that
is accepted as long as the nonce is fresh, and refused as expired from then on. The nonce is fresh
for as long as the settings say, or until the calendar ends. -/
theorem challenge_is_answered (s : AuthSettings) (hsigner : s.signer = Signer.md5)
    (hrealm : '"' ∉ s.realm.toList) (issued : Int)
    (hissued : Numeral.minSigned ≤ issued ∧ issued ≤ Numeral.maxSigned) (stale : Bool)
    (user : UserRecord) (hactive : user.active = true) (login : Login)
    (husername : login.username = user.username) (hpassword : login.password = user.password)
    (hencoded : login.alreadyEncoded = s.passwordAlreadyEncoded) (hplain : login.Plain) :
    let expiry := min (issued + min (s.nonceValidity : Int) Numeral.maxSigned) Numeral.maxSigned
    s.expiryFrom issued = expiry ∧ Numeral.minSigned ≤ expiry ∧ expiry ≤ Numeral.maxSigned ∧
    ∃ header, login.answer (Challenge.digest s issued stale) = some header ∧
      ∀ {σ : Type} (backend : IdentityBackend σ) (st : AuthState σ) (now : Moment),
        Knows backend st user now.tick →
        ((verify s backend login.method header now).run st).1 =
          if now.epochMs < expiry then .ok ⟨user.username, .digest, user.groups⟩
          else .error .nonceExpired := by
  intro expiry
  have hexpiry : s.expiryFrom issued = expiry := s.expiryFrom_eq hissued.1
  obtain ⟨hlow, hhigh⟩ := s.expiryFrom_mem issued
  rw [hexpiry] at hlow hhigh
  refine ⟨hexpiry, hlow, hhigh, ?_⟩
  have hread := readChallenge_digest hrealm issued stale
  rw [hexpiry] at hread
  generalize hnonce : Nonce.encode s.signer expiry s.serverKey = nonce at hread
  -- from here on only the text of the nonce matters, and that it is decoded to the expiry
  obtain ⟨response, hresponse⟩ := exists_expected (login.qop_credentials s.realm nonce)
    login.method login.password login.alreadyEncoded
  refine ⟨Credentials.render { login.credentials s.realm nonce with response }, ?_,
    fun backend st now hknows => ?_⟩
  · rw [Login.answer, hread, Option.map_some]
    exact congrArg (some ∘ Credentials.render) (Credentials.respond_eq hresponse)
  · have hquote : '"' ∉ nonce.toList := hnonce ▸ Nonce.quote_notMem_encode
    have hparse := parse_render
      (hplain.credentials hrealm hquote (notMem_expected (by decide) hresponse))
      (login.checkProtection_credentials s.realm nonce response)
    have hdecoded : Nonce.decode nonce = .ok ⟨expiry, s.signer expiry s.serverKey⟩ := by
      rw [← hnonce, hsigner]
      exact Nonce.decode_encode hlow hhigh (Signer.colon_notMem_md5 _ _)
    rw [hpassword, hencoded] at hresponse
    have hproven := hknows.proven hparse (checkNonce_eq_ok_iff.2 ⟨rfl, hdecoded, rfl⟩) husername
      hresponse
    rw [verify_run_of_proven hproven, if_pos hactive]
    by_cases hfresh : now.epochMs < expiry
    · rw [if_neg (Int.not_le.2 hfresh), if_pos hfresh]
    · rw [if_pos (Int.not_lt.1 hfresh), if_neg hfresh]

namespace Sample

/-- The only user, who asks for protection. -/
def login : Login where
  username := "alice"
  password := "secret"
  alreadyEncoded := false
  method := "GET"
  uri := "/x"
  protection := some ("00000001", "0a4f113b")

theorem login_plain : login.Plain where
  username := by decide
  uri := by decide
  protection := by
    rintro _ _ ⟨⟩
    exact ⟨⟨by decide, by decide, by decide⟩, by decide⟩

theorem knows_alice (tick : Instant) : Knows Registry.backend uncached alice tick :=
  ⟨rfl, nofun⟩

end Sample

open Sample in
/-- A nonce that is issued half a second before the calendar ends is fresh for that half second. -/
theorem alice_answers_in_time :
    ∃ header, login.answer (Challenge.digest settings (Numeral.maxSigned - 500) true) = some header ∧
      ((verify settings Registry.backend "GET" header ⟨Numeral.maxSigned - 1, 0⟩).run uncached).1 =
        .ok ⟨"alice", .digest, ["USER"]⟩ ∧
      ((verify settings Registry.backend "GET" header ⟨Numeral.maxSigned, 0⟩).run uncached).1 =
        .error .nonceExpired := by
  obtain ⟨-, -, -, header, hanswer, hverify⟩ :=
    challenge_is_answered settings rfl (by decide) (Numeral.maxSigned - 500) (by decide) true
      alice rfl login rfl rfl rfl login_plain
  refine ⟨header, hanswer, ?_, ?_⟩
  · exact (hverify Registry.backend uncached ⟨Numeral.maxSigned - 1, 0⟩ (knows_alice 0)).trans
      (if_pos (by decide))
  · exact (hverify Registry.backend uncached ⟨Numeral.maxSigned, 0⟩ (knows_alice 0)).trans
      (if_neg (by decide))

end Digest

end Gatehouse
