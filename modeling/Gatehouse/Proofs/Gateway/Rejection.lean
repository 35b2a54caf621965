import Gatehouse.Auth.Challenge
import Gatehouse.Proofs.Auth.DigestTarget
import Gatehouse.Proofs.Gateway.Authority

/-!
# All rejections look alike

Whoever is not authenticated gets the same answer, whatever was wrong. The challenges depend on the
settings and the clock; the only thing that an answer tells besides is that the nonce has expired,
and it tells that only to someone who has proven to know the password of a user.

- `Quiet`: computations that never fail because of an expired nonce.
- `Challenge.offer`: the challenges of a realm, with a nonce, and with or without the word that the
  last one has expired. A realm that cannot stand in a header is not offered at all
  (`headers_eq_offer`).
- `Gateway.caller_eq_expired_iff`: who is told that the nonce has expired.
- `Gateway.rejections_are_alike`: two rejections differ in this word at most, and in the nonce.
-/

namespace Gatehouse

variable {σ τ : Type}

/-! ## Who is told that a nonce has expired -/

/-- A computation that does not fail because of an expired nonce. -/
def Quiet {α : Type} (x : Except AuthError α) : Prop :=
  x ≠ .error .nonceExpired

section Quiet

variable {α β : Type}

theorem quiet_ok (a : α) : Quiet (.ok a : Except AuthError α) :=
  nofun

theorem Quiet.bind {x : Except AuthError α} {f : α → Except AuthError β} (hx : Quiet x)
    (hf : ∀ a, Quiet (f a)) : Quiet (x >>= f) := by
  cases x with
  | ok a => exact hf a
  | error e => exact fun h => hx (congrArg Except.error (Except.error.inj h))

theorem Quiet.map {x : Except AuthError α} (hx : Quiet x) (f : α → β) : Quiet (x.map f) := by
  cases x with
  | ok a => exact nofun
  | error e => exact fun h => hx (congrArg Except.error (Except.error.inj h))

end Quiet

namespace OAuth

theorem quiet_require (m : Message) (name : String) : Quiet (m.require name) := by
  unfold Message.require
  cases m.param? name with
  | some value => exact nofun
  | none => exact nofun

theorem quiet_checkVersion (m : Message) : Quiet m.checkVersion := by
  unfold Message.checkVersion
  cases m.param? "oauth_version" with
  | none => exact nofun
  | some v =>
    dsimp only
    split
    · exact nofun
    · exact nofun

theorem quiet_ofText (name : String) : Quiet (SignatureMethod.ofText name) := by
  unfold SignatureMethod.ofText
  split
  · exact nofun
  · split
    · exact nofun
    · exact nofun

theorem quiet_readTimestamp (text : String) : Quiet (Message.readTimestamp text) := by
  unfold Message.readTimestamp
  cases Numeral.signed? text.toList with
  | some t => exact nofun
  | none => exact nofun

theorem quiet_claim (m : Message) : Quiet m.claim := by
  unfold Message.claim
  cases m.duplicate? with
  | some name => exact nofun
  | none =>
    refine (quiet_checkVersion m).bind fun _ => (quiet_require m _).bind fun consumer => ?_
    refine (quiet_require m _).bind fun signature => (quiet_require m _).bind fun text => ?_
    refine (quiet_ofText text).bind fun method => (quiet_require m _).bind fun nonce => ?_
    refine (quiet_require m _).bind fun text => (quiet_readTimestamp text).bind fun timestamp => ?_
    exact quiet_ok _

theorem quiet_baseString (m : Message) : Quiet m.baseString := by
  unfold Message.baseString baseString
  refine Quiet.map ?_ _
  unfold normalizeUrl
  split
  · exact nofun
  · exact nofun

theorem quiet_checkSignature (m : Message) (claim : Claim) (record : ConsumerRecord) :
    Quiet (checkSignature m claim record) := by
  have hbase := quiet_baseString m
  unfold checkSignature
  cases hrun : m.baseString with
  | error e =>
    rw [hrun] at hbase
    exact fun h => hbase (congrArg Except.error (Except.error.inj h))
  | ok base =>
    dsimp only
    split
    · exact nofun
    · exact nofun

theorem quiet_screen (s : AuthSettings) (backend : IdentityBackend σ) (m : Message) (now : Int)
    (identities : σ) : Quiet (screen s backend m now identities).1 := by
  have hclaim := quiet_claim m
  unfold screen
  cases hm : m.claim with
  | error e =>
    rw [hm] at hclaim
    exact fun h => hclaim (congrArg Except.error (Except.error.inj h))
  | ok claim =>
    dsimp only
    by_cases htimely : isTimely s.timestampWindow now claim.timestamp = true
    · rw [if_pos htimely]
      rcases (backend.lookupConsumer claim.consumer).run identities with ⟨e | record, identities⟩
      · cases e with
        | notFound key => exact nofun
        | unavailable reason => exact nofun
      · dsimp only
        exact (quiet_checkSignature m claim record).map fun _ => (claim, record)
    · rw [if_neg htimely]
      exact nofun

/-- Signed messages have no nonces that expire. -/
theorem quiet_verify (s : AuthSettings) (backend : IdentityBackend σ) (m : Message) (now : Int)
    (st : AuthState σ) : Quiet ((verify s backend m now).run st).1 := by
  have hscreen := quiet_screen s backend m now st.identities
  rw [verify_run]
  rcases hrun : screen s backend m now st.identities with ⟨e | ⟨claim, record⟩, identities⟩
  · rw [hrun] at hscreen
    exact fun h => hscreen (congrArg Except.error (Except.error.inj h))
  · dsimp only
    cases (admission st.guard claim.ticket now).1 with
    | true => exact nofun
    | false => exact nofun

end OAuth

namespace Digest

variable {s : AuthSettings} {backend : IdentityBackend σ} {method header : String} {now : Moment}
  {st : AuthState σ}

/-- That the nonce has expired is told to those exactly who have proven to know the password, with
a nonce that has expired. -/
theorem verify_eq_expired_iff :
    ((verify s backend method header now).run st).1 = .error .nonceExpired ↔
      ∃ c nonce record, Proven s backend st method header now.tick c nonce record ∧
        nonce.expiry ≤ now.epochMs := by
  constructor
  · intro h
    have htelling : Telling ((verify s backend method header now).run st).1 := h ▸ .expired
    obtain ⟨c, nonce, record, hproven⟩ := telling_iff.1 htelling
    refine ⟨c, nonce, record, hproven, ?_⟩
    rw [verify_run_of_proven hproven] at h
    by_cases hexpired : nonce.expiry ≤ now.epochMs
    · exact hexpired
    · rw [if_neg hexpired] at h
      cases hactive : record.active with
      | true => simp [hactive] at h
      | false => simp [hactive] at h
  · rintro ⟨c, nonce, record, hproven, hexpired⟩
    rw [verify_run_of_proven hproven, if_pos hexpired]

end Digest

namespace Authentication

theorem quiet_oauthAttempt (s : AuthSettings) (r : Request) (header : Option String) :
    Quiet (oauthAttempt s r header) := by
  unfold oauthAttempt
  dsimp only
  split
  · refine Quiet.map ?_ _
    unfold requestUrl
    split
    · exact nofun
    · split
      · exact nofun
      · split
        · exact nofun
        · exact nofun
  · split
    · exact nofun
    · exact nofun

theorem quiet_attempt (s : AuthSettings) (r : Request) : Quiet (attempt s r) := by
  have hheader : Quiet (authorization r) := by
    unfold authorization
    split
    · exact nofun
    · split
      · exact nofun
      · exact nofun
  unfold attempt
  split
  · next e he =>
    rw [he] at hheader
    exact fun h => hheader (congrArg Except.error (Except.error.inj h))
  · exact quiet_oauthAttempt s r none
  · split
    · exact nofun
    · exact quiet_oauthAttempt s r _

end Authentication

/-! ## The challenges -/

namespace Challenge

/-- The challenges of a realm, if it can stand in a header. -/
def offer (realm nonce : String) (stale : Bool) : List String :=
  if isHeaderValue realm then
    ["OAuth realm=\"" ++ realm ++ "\"",
      "Digest realm=\"" ++ realm ++ "\", qop=\"auth\", nonce=\"" ++ nonce ++ "\"" ++
        (if stale then ", stale=\"true\"" else "")]
  else []

theorem isHeaderValue_append (a b : String) :
    isHeaderValue (a ++ b) = (isHeaderValue a && isHeaderValue b) := by
  rw [isHeaderValue, Utf8.ofString, String.toList_append, Utf8.encode_append, List.all_append]
  rfl

/-- A nonce can stand in a header. -/
theorem isHeaderValue_nonce (signer : Signer) (expiry : Int) (key : String) :
    isHeaderValue (Nonce.encode signer expiry key) = true := by
  rw [isHeaderValue, Nonce.encode, Nonce.render, Utf8.ofString, String.toList_ofList,
    List.all_eq_true]
  intro b hb
  obtain ⟨c, hc, hb⟩ := List.mem_flatMap.1 hb
  have hascii : 32 ≤ c.toNat ∧ c.toNat < 127 := by
    rcases Base64.mem_encode hc with halnum | rfl | rfl | rfl
    · have := Percent.toNat_of_isAlphanum halnum
      omega
    · decide
    · decide
    · decide
  rw [Percent.encode_of_ascii (by omega), List.mem_singleton] at hb
  subst hb
  have hall : ∀ n < 127, 32 ≤ n → isHeaderByte (UInt8.ofNat n) = true := by decide +kernel
  exact hall _ hascii.2 hascii.1

/-- What can stand in a header can be written around anything. -/
theorem isHeaderValue_around {a b : String} (ha : isHeaderValue a = true)
    (hb : isHeaderValue b = true) (text : String) :
    isHeaderValue (a ++ text ++ b) = isHeaderValue text := by
  rw [isHeaderValue_append, isHeaderValue_append, ha, hb, Bool.true_and, Bool.and_true]

theorem isHeaderValue_oauth (realm : String) :
    isHeaderValue (oauth realm) = isHeaderValue realm :=
  isHeaderValue_around (by decide +kernel) (by decide +kernel) realm

theorem isHeaderValue_digest (s : AuthSettings) (nowMs : Int) (stale : Bool) :
    isHeaderValue (digest s nowMs stale) = isHeaderValue s.realm := by
  have hscheme : isHeaderValue "Digest realm=\"" = true := by decide +kernel
  have hqop : isHeaderValue "\", qop=\"auth\", nonce=\"" = true := by decide +kernel
  have hquote : isHeaderValue "\"" = true := by decide +kernel
  have hword : isHeaderValue (if stale then ", stale=\"true\"" else "") = true := by
    cases stale with
    | true => decide +kernel
    | false => decide +kernel
  have hnonce := isHeaderValue_nonce s.signer (s.expiryFrom nowMs) s.serverKey
  unfold digest
  generalize (if stale then ", stale=\"true\"" else "") = word at hword ⊢
  generalize Nonce.encode s.signer (s.expiryFrom nowMs) s.serverKey = nonce at hnonce ⊢
  simp only [isHeaderValue_append, hscheme, hqop, hnonce, hquote, hword, Bool.true_and,
    Bool.and_true]

/-- Both challenges are sent, or neither is. -/
theorem headers_eq_offer (s : AuthSettings) (nowMs : Int) (e : AuthError) :
    headers s nowMs e =
      offer s.realm (Nonce.encode s.signer (s.expiryFrom nowMs) s.serverKey) e.isStale := by
  unfold headers offer
  cases hrealm : isHeaderValue s.realm with
  | true =>
    rw [List.filter_cons_of_pos ((isHeaderValue_oauth _).trans hrealm),
      List.filter_cons_of_pos ((isHeaderValue_digest _ _ _).trans hrealm)]
    rfl
  | false =>
    rw [List.filter_cons_of_neg (Bool.eq_false_iff.1 ((isHeaderValue_oauth _).trans hrealm)),
      List.filter_cons_of_neg (Bool.eq_false_iff.1 ((isHeaderValue_digest _ _ _).trans hrealm))]
    rfl

end Challenge

/-! ## Rejections -/

namespace Gateway

section Rejections

variable (g : Gateway σ τ) (r : Request) (now : Moment) (s : GatewayState σ τ)

/-- A request has to be authenticated, and it is not. -/
def Rejects : Prop :=
  Route.of r.method r.uri.path ≠ .health ∧ Route.of r.method r.uri.path ≠ .notFound ∧
    ∃ e, g.caller r now s = .error e

/-- A request proves to know the password of a user, with a nonce that was signed here and that has
expired. -/
def ProvesExpired : Prop :=
  ∃ header c nonce record, Authentication.attempt g.settings r = .ok (.digest header) ∧
    Digest.Proven g.settings g.identities s.auth r.method header now.tick c nonce record ∧
    nonce.expiry ≤ now.epochMs

/-- The nonce that is offered at a moment. -/
def offeredNonce : String :=
  Nonce.encode g.settings.signer (g.settings.expiryFrom now.epochMs) g.settings.serverKey

variable {g r now s}

theorem caller_eq_expired_iff :
    g.caller r now s = .error .nonceExpired ↔ g.ProvesExpired r now s := by
  unfold ProvesExpired caller
  have hattempt := Authentication.quiet_attempt g.settings r
  cases h : Authentication.attempt g.settings r with
  | error e =>
    rw [Authentication.authenticate_run_of_error h]
    rw [h] at hattempt
    constructor
    · exact fun he => absurd (congrArg Except.error (Except.error.inj he)) hattempt
    · rintro ⟨header, c, nonce, record, ⟨⟩, -⟩
  | ok kind =>
    cases kind with
    | digest header =>
      rw [Authentication.authenticate_run_digest h, Digest.verify_eq_expired_iff]
      constructor
      · rintro ⟨c, nonce, record, hproven⟩
        exact ⟨header, c, nonce, record, rfl, hproven⟩
      · rintro ⟨header, c, nonce, record, ⟨⟩, hproven⟩
        exact ⟨c, nonce, record, hproven⟩
    | oauth m =>
      rw [Authentication.authenticate_run_oauth h]
      constructor
      · exact fun he => absurd he (OAuth.quiet_verify g.settings g.identities m _ s.auth)
      · rintro ⟨header, c, nonce, record, ⟨⟩, -⟩

theorem run_answerCaller_of_error {e : AuthError} (he : g.caller r now s = .error e)
    (answer : Principal → StateM (GatewayState σ τ) Response) (w : World τ) :
    ((g.answerCaller r now answer).run { s with world := w }).1 =
      unauthorized g.settings now.epochMs e := by
  rw [run_answerCaller]
  unfold caller at he
  rcases hrun : (Authentication.authenticate g.settings g.identities r now).run s.auth with
    ⟨outcome, auth⟩
  rw [hrun] at he
  obtain rfl : outcome = .error e := he
  rfl

/-- The answer to a request that is rejected: everything but one word is settled. -/
theorem Rejects.response (h : g.Rejects r now s) :
    ∃ stale, (stale = true ↔ g.ProvesExpired r now s) ∧
      ((g.handle r now).run s).1 =
        { Response.problem 401 "unauthorized" with
          challenges := Challenge.offer g.settings.realm (g.offeredNonce now) stale } := by
  obtain ⟨hhealth, hfound, e, he⟩ := h
  refine ⟨e.isStale, ?_, ?_⟩
  · rw [← caller_eq_expired_iff, he]
    cases e <;> simp [AuthError.isStale]
  · rw [offeredNonce, ← Challenge.headers_eq_offer, run_handle]
    cases hroute : Route.of r.method r.uri.path with
    | health => exact absurd hroute hhealth
    | notFound => exact absurd hroute hfound
    | check m query => exact run_answerCaller_of_error he _ _
    | event m action => exact run_answerCaller_of_error he _ _

end Rejections

/-- Two rejections by a gateway have the same status, type and text, and they offer the same
challenges, each with the nonce of its moment; one says besides that the last nonce has expired if
and only if the request has proven to know the password of a user, with a nonce that was signed here
and that has expired. It makes no difference which scheme was tried, why it failed, and what the
backend knows. -/
theorem rejections_are_alike {g : Gateway σ τ} {r₁ r₂ : Request} {now₁ now₂ : Moment}
    {s₁ s₂ : GatewayState σ τ} (h₁ : g.Rejects r₁ now₁ s₁) (h₂ : g.Rejects r₂ now₂ s₂) :
    let a := ((g.handle r₁ now₁).run s₁).1
    let b := ((g.handle r₂ now₂).run s₂).1
    a.status = 401 ∧ b.status = a.status ∧ b.contentType = a.contentType ∧ b.body = a.body ∧
    ∃ stale₁ stale₂,
      a.challenges = Challenge.offer g.settings.realm (g.offeredNonce now₁) stale₁ ∧
      b.challenges = Challenge.offer g.settings.realm (g.offeredNonce now₂) stale₂ ∧
      (stale₁ = true ↔ g.ProvesExpired r₁ now₁ s₁) ∧
      (stale₂ = true ↔ g.ProvesExpired r₂ now₂ s₂) := by
  obtain ⟨stale₁, hstale₁, hresponse₁⟩ := h₁.response
  obtain ⟨stale₂, hstale₂, hresponse₂⟩ := h₂.response
  dsimp only
  rw [hresponse₁, hresponse₂]
  exact ⟨rfl, rfl, rfl, rfl, stale₁, stale₂, rfl, rfl, hstale₁, hstale₂⟩

/-! ## A stranger and an administrator who comes late -/

namespace Sample

/-- A message signed for a consumer that nobody knows. -/
def strange : Request where
  method := "GET"
  uri := ⟨none, none, "/modules/geo/actions/read",
    some ("oauth_consumer_key=ghost&oauth_signature_method=PLAINTEXT&oauth_timestamp=1" ++
      "&oauth_nonce=n&oauth_signature=s%26")⟩
  headers := [("host", Utf8.ofString "h")]
  body := []

/-- A request of the administrator. -/
def late : Request :=
  Authentication.Sample.posting "/_admin/modules/geo/events/STOP"

/-- When the nonce of the administrator has expired. -/
def expired : Moment :=
  ⟨1000, 0⟩

/-- The state in which the requests arrive. -/
def staffed : GatewayState Registry Entitlements :=
  ⟨Authentication.Sample.staffed, .initial (Entitlements.start false) 0⟩

theorem proves_late : Authentication.Sample.staffedGateway.ProvesExpired late expired staffed :=
  ⟨_, _, _, _, Authentication.Sample.attempt_posting _, Authentication.Sample.proven_answer,
    Int.le_refl _⟩

theorem not_proves_strange :
    ¬Authentication.Sample.staffedGateway.ProvesExpired strange expired staffed := by
  rintro ⟨header, -, -, -, hattempt, -⟩
  obtain ⟨hheader, -⟩ := Authentication.attempt_eq_digest_iff.1 hattempt
  cases hheader

theorem rejects_late : Authentication.Sample.staffedGateway.Rejects late expired staffed :=
  ⟨by decide +kernel, by decide +kernel, _, caller_eq_expired_iff.2 proves_late⟩

theorem rejects_strange :
    Authentication.Sample.staffedGateway.Rejects strange expired staffed := by
  refine ⟨by decide +kernel, by decide +kernel, ?_⟩
  have hnobody : (Authentication.Sample.staffedGateway.caller strange expired staffed).toOption =
      none := by
    decide +kernel
  cases hcaller : Authentication.Sample.staffedGateway.caller strange expired staffed with
  | error e => exact ⟨e, rfl⟩
  | ok principal =>
    rw [hcaller] at hnobody
    cases hnobody

end Sample

open Sample in
/-- The stranger and the administrator get the same answer, but for the word that only the
administrator gets. -/
theorem stranger_and_latecomer :
    let a := ((Authentication.Sample.staffedGateway.handle late expired).run staffed).1
    let b := ((Authentication.Sample.staffedGateway.handle strange expired).run staffed).1
    b.status = a.status ∧ b.body = a.body ∧
    a.challenges = Challenge.offer "R"
      (Authentication.Sample.staffedGateway.offeredNonce expired) true ∧
    b.challenges = Challenge.offer "R"
      (Authentication.Sample.staffedGateway.offeredNonce expired) false := by
  obtain ⟨-, hstatus, -, hbody, stale₁, stale₂, ha, hb, hstale₁, hstale₂⟩ :=
    rejections_are_alike rejects_late rejects_strange
  obtain rfl : stale₁ = true := hstale₁.2 proves_late
  obtain rfl : stale₂ = false :=
    Bool.eq_false_iff.2 fun h => not_proves_strange (hstale₂.1 h)
  exact ⟨hstatus, hbody, ha, hb⟩

end Gateway

end Gatehouse
