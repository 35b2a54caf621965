import Gatehouse.Auth.Authentication
import Gatehouse.Proofs.Form
import Gatehouse.Proofs.OAuth.Address
import Gatehouse.Proofs.OAuth.Binding

/-!
# What was signed and what is routed

The gateway routes a request by the path of its target, and checks its signature against an
address that it puts together itself: from the target if that is an absolute address, else from
the `Host` header and the path. The header is put in as it is. A header that names nothing but a
host keeps the path where it belongs. A header with a slash or a question mark in it shifts the
path, and one with a number sign cuts it off, so that the signature of another path is accepted.

- `attempt_eq_oauth`: what an OAuth attempt consists of.
- `KeepsPath`: the headers that leave the path alone, or happen to spell it.
- `signed_for_routed_path_iff`: the signature of an accepted request is one for the path that is
  routed exactly if the target is absolute or the header keeps the path.
- `same_path_or_collides`: a signature is good for one path only, where the path is kept.
- `accepted_for_another_path`: a request that is accepted with the signature of another path.
-/

namespace Gatehouse.Authentication

open OAuth

variable {σ : Type} {s : AuthSettings} {backend : IdentityBackend σ} {r : Request}

/-! ## Attempts -/

/-- A text of visible ASCII and spaces can stand in a header. -/
theorem plainText?_ofString {text : String}
    (h : ∀ c ∈ text.toList, 32 ≤ c.toNat ∧ c.toNat < 127) :
    Request.plainText? (Utf8.ofString text) = some text := by
  have hplain : (Utf8.ofString text).all Request.isPlainByte = true := by
    rw [List.all_eq_true]
    intro b hb
    obtain ⟨c, hc, hb⟩ := List.mem_flatMap.1 hb
    obtain ⟨hlow, hhigh⟩ := h c hc
    rw [Percent.encode_of_ascii (by omega), List.mem_singleton] at hb
    subst hb
    have hall : ∀ n < 127, 32 ≤ n → Request.isPlainByte (UInt8.ofNat n) = true := by
      decide +kernel
    exact hall _ hhigh hlow
  rw [Request.plainText?, if_pos hplain, Utf8.ofString, Utf8.decodeLossy_encode,
    String.ofList_toList]

/-- A header of another scheme has no parameters. -/
theorem collect_filter (header query body : Option String) :
    collect (header.filter isOAuth) query body = collect header query body := by
  cases header with
  | none => rfl
  | some text =>
    cases hscheme : isOAuth text with
    | true => simp [Option.filter, hscheme]
    | false => simp [Option.filter, hscheme, collect, decodeHeader]

theorem collect_none_none (body : Option String) : collect none none body = ofForm body :=
  rfl

/-- An OAuth attempt is made of the method, the address and the parameters of its request. -/
theorem attempt_eq_oauth {m : Message} (h : attempt s r = .ok (.oauth m)) :
    requestUrl s r = .ok m.url ∧ m.method = r.method ∧
      ∃ header, authorization r = .ok header ∧
        m.params = collect header r.uri.query (formBody r) := by
  have hparts : ∀ header, oauthAttempt s r header = .ok (.oauth m) →
      requestUrl s r = .ok m.url ∧ m.method = r.method ∧
        m.params = collect header r.uri.query (formBody r) := by
    intro header hattempt
    unfold oauthAttempt at hattempt
    simp only [collect_filter] at hattempt
    split at hattempt
    · cases hurl : requestUrl s r with
      | error e =>
        rw [hurl] at hattempt
        cases hattempt
      | ok url =>
        rw [hurl] at hattempt
        cases hattempt
        exact ⟨rfl, rfl, rfl⟩
    · split at hattempt
      · cases hattempt
      · cases hattempt
  unfold attempt at h
  cases hheader : authorization r with
  | error e =>
    rw [hheader] at h
    cases h
  | ok header =>
    rw [hheader] at h
    cases header with
    | none =>
      obtain ⟨hurl, hmethod, hparams⟩ := hparts none h
      exact ⟨hurl, hmethod, none, rfl, hparams⟩
    | some text =>
      by_cases hdigest : Digest.isDigest text = true
      · simp only [hdigest, if_true] at h
        cases h
      · simp only [hdigest] at h
        obtain ⟨hurl, hmethod, hparams⟩ := hparts (some text) h
        exact ⟨hurl, hmethod, some text, rfl, hparams⟩

/-- A request without an `Authorization` header is of the OAuth scheme if a form holds a
signature. -/
theorem attempt_of_form {url : String} (hheader : authorization r = .ok none)
    (hholds : holdsSignature (formBody r) = true) (hurl : requestUrl s r = .ok url) :
    attempt s r = .ok (.oauth ⟨r.method, url, collect none r.uri.query (formBody r)⟩) := by
  unfold attempt oauthAttempt
  simp only [hheader, hholds, hurl, Bool.or_true, if_true, Except.map, Option.filter_none]

/-- An OAuth attempt is decided by OAuth verification. -/
theorem authenticate_run_oauth {m : Message} (h : attempt s r = .ok (.oauth m)) (now : Moment)
    (st : AuthState σ) :
    (authenticate s backend r now).run st =
      (verify s backend m (now.epochMs.tdiv 1000)).run st := by
  rw [authenticate, run_bind_of_ok (by rw [run_check, h])]

/-- A Digest attempt is decided by Digest verification. -/
theorem authenticate_run_digest {r : Request} {header : String}
    (h : attempt s r = .ok (.digest header)) (now : Moment) (st : AuthState σ) :
    (authenticate s backend r now).run st =
      (Digest.verify s backend r.method header now).run st := by
  rw [authenticate, run_bind_of_ok (by rw [run_check, h])]

/-- A request that attempts nothing is turned away at once. -/
theorem authenticate_run_of_error {r : Request} {e : AuthError} (h : attempt s r = .error e)
    (now : Moment) (st : AuthState σ) :
    (authenticate s backend r now).run st = (.error e, st) := by
  rw [authenticate, run_bind_of_error (by rw [run_check, h])]

/-! ## The path of the signed address -/

/-- A `Host` header that leaves a path where it belongs: it contains none of the three characters
that end an authority; or else it contains a number sign, so that the path is forgotten, and
what precedes the number sign is an address of that same path by itself. -/
def KeepsPath (host path : String) : Prop :=
  ('/' ∉ host.toList ∧ '?' ∉ host.toList ∧ '#' ∉ host.toList ∧ path.toList.head? = some '/') ∨
  ('#' ∈ host.toList ∧
    SignsPath ("http://" ++ String.ofList (Uri.withoutFragment host.toList)) path)

/-- The address that was put together from a `Host` header is signed for a path if and only if the
header keeps the path. -/
theorem signsPath_iff_keepsPath {host path address : String} {params : List Param}
    (hquery : '?' ∉ path.toList) (hfragment : '#' ∉ path.toList)
    (h : normalizeUrl ("http://" ++ host ++ path) = .ok (address, params)) :
    SignsPath ("http://" ++ host ++ path) path ↔ KeepsPath host path := by
  have htext : ("http://" ++ host ++ path).toList =
      "http://".toList ++ (host.toList ++ path.toList) := by
    rw [String.toList_append, String.toList_append, List.append_assoc]
  by_cases hmark : '#' ∈ host.toList
  · -- the path is cut off, and what is normalized is the address that the header spells by itself
    have hprefix : ∀ t, Uri.withoutFragment ("http://".toList ++ t) =
        "http://".toList ++ Uri.withoutFragment t :=
      fun t => Uri.withoutFragment_append_of_notMem (by decide) t
    have hcut : Uri.withoutFragment ("http://" ++ host ++ path).toList = Uri.withoutFragment
        ("http://" ++ String.ofList (Uri.withoutFragment host.toList)).toList := by
      have hleft := hprefix (host.toList ++ path.toList)
      have hright := hprefix (Uri.withoutFragment host.toList)
      rw [Uri.withoutFragment_append_of_mem hmark] at hleft
      rw [Uri.withoutFragment_idem] at hright
      have hshort : ("http://" ++ String.ofList (Uri.withoutFragment host.toList)).toList =
          "http://".toList ++ Uri.withoutFragment host.toList := by
        rw [String.toList_append]
        exact congrArg _ String.toList_ofList
      rw [htext, hshort]
      exact hleft.trans hright.symm
    rw [signsPath_congr hcut]
    constructor
    · exact fun hsigns => .inr ⟨hmark, hsigns⟩
    · rintro (⟨-, -, hplain, -⟩ | ⟨-, hsigns⟩)
      · exact absurd hmark hplain
      · exact hsigns
  · rw [signsPath_host_iff hmark hquery hfragment htext h]
    constructor
    · exact fun ⟨hslash, hquestion, hhead⟩ => .inl ⟨hslash, hquestion, hmark, hhead⟩
    · rintro (⟨hslash, hquestion, -, hhead⟩ | ⟨hmem, -⟩)
      · exact ⟨hslash, hquestion, hhead⟩
      · exact absurd hmem hmark

/-- An absolute target is put together again from its parts. -/
theorem signsPath_of_absolute {target scheme authority address : String} {params : List Param}
    {u : Uri} (hu : Uri.parse target = some u) (hscheme : u.scheme = some scheme)
    (hauthority : u.authority = some authority)
    (h : normalizeUrl (scheme ++ "://" ++ authority ++ u.path) = .ok (address, params)) :
    SignsPath (scheme ++ "://" ++ authority ++ u.path) u.path := by
  obtain ⟨hquery, hfragment⟩ := Uri.path_of_parse hu
  obtain ⟨sc, rest, au, tail, hsplit, hau, rfl⟩ := Uri.parse_eq_some hu (by rw [hscheme]; nofun)
  cases hscheme
  cases hauthority
  have hsc := Uri.isScheme_of_splitScheme hsplit
  have hunended := (Uri.splitAuthority_eq_some hau).1
  obtain ⟨path, hpath⟩ := Uri.targetPath_eq_cons fun _ _ => Uri.head_of_splitAuthority hau
  refine signsPath_of_parts hsc hunended hquery hfragment (by simp [hpath]) ?_ h
  have hplain : '#' ∉ sc ++ ':' :: '/' :: '/' :: (au ++ Uri.targetPath tail) := by
    rw [String.toList_ofList] at hfragment
    simp only [List.mem_append, List.mem_cons, not_or]
    refine ⟨?_, by decide, by decide, by decide, ?_, hfragment⟩
    · exact fun hmem => absurd (hsc _ hmem) (by decide)
    · exact hunended.notMem (by decide)
  simp only [String.toList_append, String.toList_ofList, List.append_assoc]
  exact Uri.withoutFragment_of_notMem hplain

/-! ## Accepted requests -/

/-- A request whose address is put together in a way that keeps its path: the target is absolute,
or the `Host` header keeps the path. -/
def RoutesAsSigned (r : Request) : Prop :=
  r.uri.scheme ≠ none ∨ ∃ host, r.headerText? "host" = some host ∧ KeepsPath host r.uri.path

/-- The address of a request is signed for the path of the request exactly if it is put together in
a way that keeps the path. -/
theorem signsPath_requestUrl_iff {target url address : String} {params : List Param}
    (htarget : Uri.parse target = some r.uri) (hpublic : s.publicUrl = none)
    (hurl : requestUrl s r = .ok url) (h : normalizeUrl url = .ok (address, params)) :
    SignsPath url r.uri.path ↔ RoutesAsSigned r := by
  obtain ⟨hquery, hfragment⟩ := Uri.path_of_parse htarget
  unfold requestUrl at hurl
  rw [hpublic] at hurl
  cases hscheme : r.uri.scheme with
  | some scheme =>
    -- an address with a scheme has an authority, so that the header is not looked at
    obtain ⟨authority, hauthority⟩ : ∃ authority, r.uri.authority = some authority := by
      obtain ⟨_, _, _, _, -, -, hu⟩ := Uri.parse_eq_some htarget (by rw [hscheme]; nofun)
      rw [hu]
      exact ⟨_, rfl⟩
    rw [hscheme, hauthority] at hurl
    cases hurl
    have hsigns := signsPath_of_absolute htarget hscheme hauthority h
    exact iff_of_true hsigns (.inl (by rw [hscheme]; nofun))
  | none =>
    rw [hscheme] at hurl
    cases hhost : r.headerText? "host" with
    | none =>
      rw [hhost] at hurl
      cases hurl
    | some host =>
      rw [hhost] at hurl
      cases hurl
      rw [signsPath_iff_keepsPath hquery hfragment h]
      constructor
      · exact fun hkeeps => .inr ⟨host, hhost, hkeeps⟩
      · rintro (habsolute | ⟨host', hhost', hkeeps⟩)
        · exact absurd hscheme habsolute
        · rw [hhost] at hhost'
          cases hhost'
          exact hkeeps

/-- A request is accepted through OAuth because the signature over its own method and its own
parameters is right. The address in that signature is one for the path that is routed exactly if
the target is absolute or the `Host` header keeps the path. -/
theorem signed_for_routed_path_iff {target : String} {m : Message} {now : Moment}
    {st st' : AuthState σ} {p : Principal} (htarget : Uri.parse target = some r.uri)
    (hpublic : s.publicUrl = none) (hattempt : attempt s r = .ok (.oauth m))
    (h : (authenticate s backend r now).run st = (.ok p, st')) :
    m.method = r.method ∧
    (∃ header, authorization r = .ok header ∧
      m.params = collect header r.uri.query (formBody r)) ∧
    (∃ claim base secret, m.Makes claim ∧ m.baseString = .ok base ∧
      keyOf backend m st.identities = some (Utf8.encode (signingKey secret "")) ∧
      sign claim.method base secret "" = claim.signature) ∧
    (SignsPath m.url r.uri.path ↔ RoutesAsSigned r) := by
  obtain ⟨hurl, hmethod, hparams⟩ := attempt_eq_oauth hattempt
  rw [authenticate_run_oauth hattempt] at h
  have haccepts : accepts s backend m (now.epochMs.tdiv 1000) st = true := by
    rw [accepts, h]
    rfl
  obtain ⟨claim, base, secret, hmakes, hbase, hkey, hsign⟩ := exists_sign_of_accepts haccepts
  obtain ⟨address, params, hnormal, -⟩ := baseString_eq_ok_iff.1 hbase
  exact ⟨hmethod, hparams, ⟨claim, base, secret, hmakes, hbase, hkey, hsign⟩,
    signsPath_requestUrl_iff htarget hpublic hurl hnormal⟩

/-- Two addresses with the same canonical form are signed for the same path. -/
theorem path_eq_of_canonical_eq {method method' url url' path path' : String}
    {params params' : List Param} {c : CanonicalRequest}
    (h : canonical method url params = .ok c) (h' : canonical method' url' params' = .ok c)
    (hsigns : SignsPath url path) (hsigns' : SignsPath url' path') : path = path' := by
  obtain ⟨address, hnormal, hpath⟩ := hsigns
  obtain ⟨address', hnormal', hpath'⟩ := hsigns'
  obtain ⟨_, _, hread, hc⟩ := canonical_eq_ok_iff.1 h
  obtain ⟨_, _, hread', hc'⟩ := canonical_eq_ok_iff.1 h'
  rw [hnormal] at hread
  rw [hnormal'] at hread'
  cases hread
  cases hread'
  have haddress : address = address' := congrArg CanonicalRequest.address (hc.symm.trans hc')
  rw [← String.toList_inj, ← hpath, ← hpath', haddress]

/-- The signature of an accepted request is not accepted with a request to another path, unless
their base strings collide, as long as both addresses are put together in a way that keeps the
path. -/
theorem same_path_or_collides {m m' : Message} {now now' : Int} {st st' : AuthState σ}
    {path path' : String} (h : accepts s backend m now st = true)
    (h' : accepts s backend m' now' st' = true)
    (hmethod : m.param? "oauth_signature_method" = some SignatureMethod.hmacSha1.text)
    (hsame : m'.param? signatureName = m.param? signatureName)
    (hsigns : SignsPath m.url path) (hsigns' : SignsPath m'.url path') :
    path = path' ∨
      Collides (keyOf backend m st.identities) m (keyOf backend m' st'.identities) m' := by
  by_cases hcanonical : m'.canonical = m.canonical
  · left
    obtain ⟨_, base, _, -, hbase, -⟩ := exists_sign_of_accepts h
    obtain ⟨address, params, hnormal, -⟩ := baseString_eq_ok_iff.1 hbase
    have hc : m.canonical = .ok _ := canonical_eq_ok_iff.2 ⟨address, params, hnormal, rfl⟩
    exact path_eq_of_canonical_eq hc (hcanonical.trans hc) hsigns hsigns'
  · right
    rcases rejected_or_collides h hmethod hsame hcanonical with hrejected | hcollides
    · rw [hrejected] at h'
      cases h'
    · exact hcollides

/-! ## A request to another path -/

namespace Sample

/-- The signed parameters in a form, sent to a host and a path. -/
def request (host path : String) : Request where
  method := "POST"
  uri := ⟨none, none, path, none⟩
  headers := [("host", Utf8.ofString host), ("content-type", Utf8.ofString formType)]
  body := Utf8.encode (Form.render OAuth.Sample.signed)

theorem formBody_request (host path : String) :
    formBody (request host path) = some (String.ofList (Form.render OAuth.Sample.signed)) := by
  have htype : ((request host path).headerText? "content-type") = some formType := by
    show Request.plainText? (Utf8.ofString formType) = _
    decide +kernel
  have hform : isFormType formType = true := by decide
  have hbody : (request host path).body = Utf8.encode (Form.render OAuth.Sample.signed) := rfl
  rw [formBody, htype, Option.map_some, Option.getD_some, if_pos hform, hbody,
    Utf8.decode?_encode, Option.map_some]

theorem attempt_request {host path : String}
    (hhost : Request.plainText? (Utf8.ofString host) = some host) :
    attempt OAuth.Sample.settings (request host path) =
      .ok (.oauth (OAuth.Sample.message ("http://" ++ host ++ path))) := by
  have hparams : ofForm (formBody (request host path)) = OAuth.Sample.signed := by
    rw [formBody_request]
    show Form.parse (String.ofList _).toList = _
    rw [String.toList_ofList, Form.parse_render]
  have hholds : holdsSignature (formBody (request host path)) = true := by
    rw [holdsSignature, hparams]
    rfl
  have hurl : requestUrl OAuth.Sample.settings (request host path) =
      .ok ("http://" ++ host ++ path) := by
    have hheader : (request host path).headerText? "host" = some host := hhost
    unfold requestUrl
    rw [hheader]
    rfl
  have hheader : authorization (request host path) = .ok none := rfl
  have hquery : (request host path).uri.query = none := rfl
  rw [attempt_of_form hheader hholds hurl, hquery, collect_none_none, hparams]
  rfl

/-- The moment for which the signature was made. -/
def moment : Moment :=
  ⟨1000000, 0⟩

/-- The request is accepted below every host that makes the right address of the path. -/
theorem authenticate_request {host path : String}
    (hhost : Request.plainText? (Utf8.ofString host) = some host)
    (h : normalizeUrl ("http://" ++ host ++ path) = .ok ("http://h/open", [])) :
    ∃ st, (authenticate OAuth.Sample.settings Registry.backend (request host path) moment).run
      OAuth.Sample.start = (.ok ⟨"c", .oauth, []⟩, st) := by
  rw [authenticate_run_oauth (attempt_request hhost)]
  exact OAuth.Sample.verify_message h

end Sample

/-- The signature of a request to `/open` is accepted with a request to `/secret`, if the rest of
the header makes a fragment of that path. -/
theorem accepted_for_another_path :
    attempt OAuth.Sample.settings (Sample.request "h/open#" "/secret") =
      .ok (.oauth (OAuth.Sample.message "http://h/open#/secret")) ∧
    (∃ st, (authenticate OAuth.Sample.settings Registry.backend
        (Sample.request "h/open#" "/secret") Sample.moment).run OAuth.Sample.start =
      (.ok ⟨"c", .oauth, []⟩, st)) ∧
    (OAuth.Sample.message "http://h/open#/secret").baseString =
      (OAuth.Sample.message "http://h/open").baseString ∧
    SignsPath "http://h/open#/secret" "/open" ∧ ¬SignsPath "http://h/open#/secret" "/secret" := by
  have hhost : Request.plainText? (Utf8.ofString "h/open#") = some "h/open#" := by decide +kernel
  have hurl : normalizeUrl "http://h/open#/secret" = .ok ("http://h/open", []) := by decide +kernel
  have hplain : normalizeUrl "http://h/open" = .ok ("http://h/open", []) := by decide +kernel
  refine ⟨Sample.attempt_request hhost, Sample.authenticate_request hhost hurl, ?_,
    ⟨_, hurl, by decide⟩, ?_⟩
  · rw [OAuth.Sample.baseString_message hurl, OAuth.Sample.baseString_message hplain]
  · rintro ⟨address, hnormal, hpath⟩
    rw [hurl] at hnormal
    cases hnormal
    exact absurd hpath (by decide)

/-- The request to `/open` itself keeps its path, and is signed for it. -/
theorem signed_for_open :
    (∃ base, (OAuth.Sample.message "http://h/open").baseString = .ok base) ∧
    SignsPath "http://h/open" "/open" ∧ RoutesAsSigned (Sample.request "h" "/open") := by
  have hhost : Request.plainText? (Utf8.ofString "h") = some "h" := by decide +kernel
  have hurl : normalizeUrl "http://h/open" = .ok ("http://h/open", []) := by decide +kernel
  obtain ⟨st, haccepted⟩ : ∃ st, (authenticate OAuth.Sample.settings Registry.backend
      (Sample.request "h" "/open") Sample.moment).run OAuth.Sample.start =
        (.ok ⟨"c", .oauth, []⟩, st) := Sample.authenticate_request hhost hurl
  have htarget : Uri.parse "/open" = some (Sample.request "h" "/open").uri := by decide +kernel
  have hattempt : attempt OAuth.Sample.settings (Sample.request "h" "/open") =
      .ok (.oauth (OAuth.Sample.message "http://h/open")) := Sample.attempt_request hhost
  have hpublic : OAuth.Sample.settings.publicUrl = none := rfl
  obtain ⟨-, -, ⟨_, base, _, -, hbase, -⟩, hroutes⟩ :=
    signed_for_routed_path_iff htarget hpublic hattempt haccepted
  have hsigns : SignsPath "http://h/open" "/open" := ⟨_, hurl, by decide⟩
  exact ⟨⟨base, hbase⟩, hsigns, hroutes.1 hsigns⟩

end Gatehouse.Authentication
