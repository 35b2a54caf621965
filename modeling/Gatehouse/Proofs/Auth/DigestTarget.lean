import Gatehouse.Proofs.Digest.Verification
import Gatehouse.Proofs.Gateway.Evidence

/-!
# What a Digest response speaks about

A Digest response is made of the method of the request and of the address that stands in the
header beside it. The method is looked up in the request. The address is taken as the header has
it, and not compared with the target of the request; so a header that was made for one target is
good for every target, and what it binds is the method and its own text.

- `Designates`: an address in a header means the target of a request.
- `attempt_eq_digest_iff`: what makes a Digest attempt.
- `uri_eq_or_collides`: a response is good for one address in the header.
- `accepted_for_every_target`: an accepted header is accepted with every target.
- `accepted_for_event`: a header for an innocent address is accepted with an event.
-/

namespace Gatehouse.Digest

variable {s : AuthSettings} {c : Credentials} {method password : String}

/-! ## The address in the header -/

/-- The text that is hashed last tells what the method and the address were hashed to. -/
theorem preimage_injective {a1 a2 a2' : String} {text : List Char}
    (h : preimage c a1 a2 = .ok text) (h' : preimage c a1 a2' = .ok text) : a2 = a2' := by
  unfold preimage at h h'
  cases hqop : c.qop with
  | none =>
    rw [hqop] at h h'
    have heq := Except.ok.inj (h.trans h'.symm)
    exact String.toList_inj.1 (by simpa using heq)
  | some qop =>
    rw [hqop] at h h'
    dsimp only at h h'
    split at h
    · next hauth =>
      rw [if_pos hauth] at h'
      have heq := Except.ok.inj (h.trans h'.symm)
      exact String.toList_inj.1 (by simpa using heq)
    · cases h

/-- Two addresses for which the same response is right, as one of the two hashes on the way is that
of two texts. -/
inductive Collides (s : AuthSettings) (c : Credentials) (method password uri' : String) :
    Prop where
  | request (hne : uri' ≠ c.uri)
    (h : md5Hex (method.toList ++ ':' :: uri'.toList) =
      md5Hex (method.toList ++ ':' :: c.uri.toList))
  | response {text text' : List Char}
    (htext : preimage c (secret c password s.passwordAlreadyEncoded)
      (requestHash method c.uri) = .ok text)
    (htext' : preimage c (secret c password s.passwordAlreadyEncoded)
      (requestHash method uri') = .ok text')
    (hne : text' ≠ text) (h : md5Hex text' = md5Hex text)

/-- A response is right for one address in the header only, unless hashes collide. -/
theorem uri_eq_or_collides {uri' : String} (h : Answers s c method password)
    (h' : Answers s { c with uri := uri' } method password) :
    uri' = c.uri ∨ Collides s c method password uri' := by
  by_cases huri : uri' = c.uri
  · exact .inl huri
  · right
    by_cases hrequest : requestHash method uri' = requestHash method c.uri
    · exact .request huri (String.ofList_inj.1 hrequest)
    · -- the hashes of method and address differ, and so do the texts that are hashed last
      obtain ⟨text, htext, hresponse⟩ := ok_of_map h
      obtain ⟨text', htext', hresponse'⟩ := ok_of_map h'
      refine .response htext htext' ?_ (String.ofList_inj.1 (hresponse'.trans hresponse.symm))
      rintro rfl
      exact hrequest (preimage_injective htext' htext)

end Gatehouse.Digest

namespace Gatehouse.Gateway

/-- An administrator who is accepted with a request for an event has the event taken. -/
theorem run_handle_event {σ τ : Type} (g : Gateway σ τ) {r : Request} {now : Moment}
    {s : GatewayState σ τ} {auth : AuthState σ} {p : Principal} {module action : String}
    {m : ModuleName} {a : ModuleAction}
    (hroute : Route.of r.method r.uri.path = .event module action)
    (hcaller : (Authentication.authenticate g.settings g.identities r now).run s.auth =
      (.ok p, auth))
    (hadmin : p.hasAuthority adminAuthority = true)
    (hm : ModuleName.ofString module = .ok m) (ha : ModuleAction.ofText action = .ok a) :
    ((g.handle r now).run s).1 =
      .json 200 [("module", .string m.text), ("action", .string a.text)] := by
  rw [run_handle, hroute]
  dsimp only
  rw [run_answerCaller, hcaller]
  simp only [answerEvent, hadmin, if_true, hm, ha]
  rfl

end Gatehouse.Gateway

namespace Gatehouse.Authentication

open OAuth

variable {σ : Type} {s : AuthSettings} {backend : IdentityBackend σ} {r r' : Request}
  {header : String} {now : Moment} {st st' : AuthState σ} {p : Principal}

/-! ## The target of the request -/

/-- An address in a header means the target of a request: it has the path and the query of it. It
may have a scheme and an authority besides. -/
def Designates (field : String) (target : Uri) : Prop :=
  ∃ u, Uri.parse field = some u ∧ u.path = target.path ∧ u.query = target.query

theorem oauthAttempt_ne_digest (s : AuthSettings) (r : Request) (given : Option String)
    (header : String) : oauthAttempt s r given ≠ .ok (.digest header) := by
  intro h
  unfold oauthAttempt at h
  simp only at h
  split at h
  · obtain ⟨url, -, hattempt⟩ := ok_of_map h
    cases hattempt
  · split at h
    · cases h
    · cases h

/-- A Digest attempt is told by the `Authorization` header alone. -/
theorem attempt_eq_digest_iff :
    attempt s r = .ok (.digest header) ↔
      authorization r = .ok (some header) ∧ Digest.isDigest header = true := by
  unfold attempt
  cases authorization r with
  | error e => simp
  | ok given =>
    cases given with
    | none => simp [oauthAttempt_ne_digest]
    | some text =>
      by_cases hscheme : Digest.isDigest text = true
      · simp only [hscheme, if_true, Except.ok.injEq, Attempt.digest.injEq, Option.some.injEq]
        exact ⟨fun h => ⟨h, h ▸ hscheme⟩, fun h => h.1⟩
      · simp only [hscheme, Except.ok.injEq, Option.some.injEq]
        constructor
        · exact fun h => absurd h (oauthAttempt_ne_digest s r _ header)
        · rintro ⟨rfl, h⟩
          exact absurd h hscheme

/-- Digest verification looks at the method and the `Authorization` header of a request, and at
nothing else. -/
theorem authenticate_run_eq_of_digest (hattempt : attempt s r = .ok (.digest header))
    (hmethod : r'.method = r.method)
    (hheader : r'.header? "authorization" = r.header? "authorization") :
    (authenticate s backend r' now).run st = (authenticate s backend r now).run st := by
  have hsame : authorization r' = authorization r := by
    rw [authorization, authorization, hheader]
  have hattempt' : attempt s r' = .ok (.digest header) := by
    rw [attempt_eq_digest_iff, hsame]
    exact attempt_eq_digest_iff.1 hattempt
  rw [authenticate_run_digest hattempt', authenticate_run_digest hattempt, hmethod]

/-- A request that is accepted through Digest has proven to know the password of its principal,
with a response over its own method and over the address in its header. The response is right for
no other address in the header, unless hashes collide. But the target of the request is not looked
at: with the same method and the same header, a request for any target is accepted in the same
way. -/
theorem accepted_for_every_target (hattempt : attempt s r = .ok (.digest header))
    (h : (authenticate s backend r now).run st = (.ok p, st')) :
    (∃ c nonce record,
      Digest.Proven s backend st r.method header now.tick c nonce record ∧
      now.epochMs < nonce.expiry ∧ record.active = true ∧
      p = ⟨record.username, .digest, record.groups⟩ ∧
      ∀ uri', Digest.Answers s { c with uri := uri' } r.method record.password →
        uri' = c.uri ∨ Digest.Collides s c r.method record.password uri') ∧
    ∀ r' : Request, r'.method = r.method →
      r'.header? "authorization" = r.header? "authorization" →
      (authenticate s backend r' now).run st = (.ok p, st') := by
  constructor
  · rw [authenticate_run_digest hattempt] at h
    obtain ⟨c, nonce, record, hproven⟩ := Digest.telling_iff.1 (by rw [h]; exact .accepted p)
    refine ⟨c, nonce, record, hproven, ?_⟩
    have hverdict := Digest.verify_run_of_proven hproven
    rw [h] at hverdict
    dsimp only at hverdict
    split at hverdict
    · cases hverdict
    · next hfresh =>
      split at hverdict
      · next hactive =>
        exact ⟨Int.not_le.1 hfresh, hactive, Except.ok.inj hverdict,
          fun uri' => Digest.uri_eq_or_collides hproven.answers⟩
      · cases hverdict
  · intro r' hmethod hheader
    rw [authenticate_run_eq_of_digest hattempt hmethod hheader, h]

/-! ## A request for an event -/

namespace Sample

/-- An administrator. -/
def root : UserRecord :=
  ⟨"root", "r00t", true, [Gateway.adminAuthority]⟩

/-- A registry that knows the administrator. -/
def staffed : AuthState Registry :=
  ⟨.ofDirectory (Directory.empty.withUser root), .off, none⟩

/-- The answer of the administrator to a nonce, for a request to `/x`. -/
def answer : Digest.Credentials where
  username := "root"
  realm := "R"
  nonce := "MTAwMDoxOTYyZDI1MjMwNWFlZGVhN2UxM2ExYTRjNWVlYjRjMQ=="
  uri := "/x"
  response := "1130317576a4daeb0614bc5b9310ba15"
  qop := none
  nc := none
  cnonce := none

/-- A request with this answer. -/
def posting (path : String) : Request where
  method := "POST"
  uri := ⟨none, none, path, none⟩
  headers := [("authorization", Utf8.ofString answer.render)]
  body := []

/-- A gateway in front of the registry. -/
def staffedGateway : Gateway Registry Entitlements :=
  ⟨Digest.Sample.settings, Registry.backend, ⟨⟨100, 10⟩, Entitlements.backend, 0⟩⟩

theorem answer_plain : answer.Plain :=
  ⟨by decide, by decide, by decide, by decide, by decide, nofun, nofun, nofun⟩

theorem parse_answer : Digest.parse answer.render = .ok answer :=
  Digest.parse_render answer_plain rfl

theorem header_posting (path : String) :
    (posting path).header? "authorization" = some (Utf8.ofString answer.render) := by
  simp [posting, Request.header?]

theorem attempt_posting (path : String) :
    attempt Digest.Sample.settings (posting path) = .ok (.digest answer.render) := by
  have htext : Request.plainText? (Utf8.ofString answer.render) = some answer.render := by
    have hascii : answer.render.toList.all (fun c => 32 ≤ c.toNat && c.toNat < 127) = true := by
      rw [Digest.Credentials.render, String.toList_ofList]
      decide +kernel
    exact plainText?_ofString fun c hc => by simpa using List.all_eq_true.1 hascii c hc
  have hheader : authorization (posting path) = .ok (some answer.render) := by
    simp only [authorization, header_posting, htext]
  have hscheme : Digest.isDigest answer.render = true := by
    rw [Digest.isDigest, Digest.Credentials.render, String.toList_ofList, Text.dropStart?_append]
    rfl
  exact attempt_eq_digest_iff.2 ⟨hheader, hscheme⟩

theorem proven_answer :
    Digest.Proven Digest.Sample.settings Registry.backend staffed "POST" answer.render 0 answer
      ⟨1000, "1962d252305aedea7e13a1a4c5eeb4c1"⟩ root where
  parsed := parse_answer
  realm := rfl
  decoded := by decide +kernel
  signed := by decide +kernel
  answers := by decide +kernel
  stored := .inr ⟨nofun, rfl⟩

theorem verify_answer :
    ((Digest.verify Digest.Sample.settings Registry.backend "POST" answer.render
      ⟨999, 0⟩).run staffed).1 = .ok ⟨"root", .digest, [Gateway.adminAuthority]⟩ := by
  rw [Digest.verify_run_of_proven proven_answer]
  rfl

theorem authenticate_posting (path : String) :
    ∃ st, (authenticate Digest.Sample.settings Registry.backend (posting path) ⟨999, 0⟩).run
      staffed = (.ok ⟨"root", .digest, [Gateway.adminAuthority]⟩, st) := by
  rw [authenticate_run_digest (attempt_posting path)]
  have hverdict := verify_answer
  cases hrun : (Digest.verify Digest.Sample.settings Registry.backend (posting path).method
      answer.render ⟨999, 0⟩).run staffed with
  | mk verdict st =>
    have hsame : verdict = .ok ⟨"root", .digest, [Gateway.adminAuthority]⟩ :=
      (congrArg Prod.fst hrun).symm.trans hverdict
    exact ⟨st, by rw [hsame]⟩

end Sample

/-- The answer for `/x` is accepted with a request for an event, and the event is taken. -/
theorem accepted_for_event :
    attempt Digest.Sample.settings (Sample.posting "/_admin/modules/geo/events/STOP") =
      .ok (.digest Sample.answer.render) ∧
    (∃ st, (authenticate Digest.Sample.settings Registry.backend
      (Sample.posting "/_admin/modules/geo/events/STOP") ⟨999, 0⟩).run Sample.staffed =
        (.ok ⟨"root", .digest, [Gateway.adminAuthority]⟩, st)) ∧
    Digest.parse Sample.answer.render = .ok Sample.answer ∧
    ¬Designates Sample.answer.uri (Sample.posting "/_admin/modules/geo/events/STOP").uri ∧
    ((Sample.staffedGateway.handle (Sample.posting "/_admin/modules/geo/events/STOP")
        ⟨999, 0⟩).run ⟨Sample.staffed, .initial (Entitlements.start false) 0⟩).1 =
      .json 200 [("module", .string "geo"), ("action", .string "STOP")] := by
  have haccepted := Sample.authenticate_posting "/_admin/modules/geo/events/STOP"
  refine ⟨Sample.attempt_posting _, haccepted, Sample.parse_answer, ?other, ?event⟩
  case other =>
    rintro ⟨u, hu, hpath, -⟩
    have hx : Uri.parse "/x" = some ⟨none, none, "/x", none⟩ := by decide +kernel
    cases hx.symm.trans hu
    exact absurd hpath (by decide)
  case event =>
    obtain ⟨st, hrun⟩ := haccepted
    have hroute : Route.of (Sample.posting "/_admin/modules/geo/events/STOP").method
        (Sample.posting "/_admin/modules/geo/events/STOP").uri.path = .event "geo" "STOP" := by
      decide +kernel
    have hgeo : ModuleName.ofString "geo" = .ok ⟨"geo"⟩ := rfl
    have hstop : ModuleAction.ofText "STOP" = .ok .stop := rfl
    have hevent := Sample.staffedGateway.run_handle_event
      (s := ⟨Sample.staffed, .initial (Entitlements.start false) 0⟩) hroute hrun rfl hgeo hstop
    exact hevent

/-- The answer for `/x` is accepted with a request to `/x`, and so it is with one to `/y`. -/
theorem accepted_for_other_path :
    ∃ st, (authenticate Digest.Sample.settings Registry.backend (Sample.posting "/y")
      ⟨999, 0⟩).run Sample.staffed = (.ok ⟨"root", .digest, [Gateway.adminAuthority]⟩, st) := by
  obtain ⟨st, haccepted⟩ := Sample.authenticate_posting "/x"
  obtain ⟨-, hother⟩ := accepted_for_every_target (Sample.attempt_posting "/x") haccepted
  exact ⟨st, hother (Sample.posting "/y") rfl
    ((Sample.header_posting _).trans (Sample.header_posting _).symm)⟩

end Gatehouse.Authentication
