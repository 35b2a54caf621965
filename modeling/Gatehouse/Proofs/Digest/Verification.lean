import Gatehouse.Digest.Verification
import Gatehouse.Proofs.Computation
import Gatehouse.Proofs.Digest.Header
import Gatehouse.Proofs.Digest.Nonce

/-!
# Digest verification in two stages

Verification first looks at the header alone, then it looks for a record whose password explains
the response, and only at the end at the clock and the rest of the record.

- `screen`: the first stage, which touches nothing.
- `PasswordCheck`: the ways in which the second stage can go.
- `verify_run`: verification in one equation.
- `Proven`: what a caller has proven who knows the password.
- `told_only_with_password`: whether the nonce has expired, whether the account is active and who
  the caller is, is told to those only who have proven that they know the password; to all others
  every clock and every account looks the same.
-/

namespace Gatehouse.Digest

variable {σ : Type} {s : AuthSettings} {backend : IdentityBackend σ} {c : Credentials}
  {method header : String} {tick : Instant} {now : Moment} {st st' : AuthState σ}

/-! ## The header -/

/-- Everything that is checked before a record is looked for. -/
def screen (s : AuthSettings) (header : String) : Except AuthError (Credentials × Nonce) := do
  let c ← parse header
  let nonce ← checkNonce s c
  return (c, nonce)

/-- The response is that of someone who knows the password. -/
def Answers (s : AuthSettings) (c : Credentials) (method password : String) : Prop :=
  expected c method password s.passwordAlreadyEncoded = .ok c.response

theorem checkNonce_eq_ok_iff {nonce : Nonce} :
    checkNonce s c = .ok nonce ↔
      c.realm = s.realm ∧ Nonce.decode c.nonce = .ok nonce ∧
        s.signer nonce.expiry s.serverKey = nonce.signature := by
  unfold checkNonce
  by_cases hrealm : c.realm = s.realm
  · rw [if_neg (not_not_intro hrealm)]
    cases Nonce.decode c.nonce with
    | error e => simp
    | ok decoded =>
      dsimp only
      by_cases hsigned : decoded.isSigned s.signer s.serverKey = true
      · rw [if_pos hsigned]
        rw [Nonce.isSigned, beq_iff_eq] at hsigned
        constructor
        · rintro ⟨⟩
          exact ⟨hrealm, rfl, hsigned⟩
        · rintro ⟨-, ⟨⟩, -⟩
          rfl
      · rw [if_neg hsigned]
        constructor
        · rintro ⟨⟩
        · rintro ⟨-, ⟨⟩, h⟩
          exact absurd (beq_iff_eq.2 h) hsigned
  · rw [if_pos hrealm]
    simp [hrealm]

theorem screen_eq_ok_iff {nonce : Nonce} :
    screen s header = .ok (c, nonce) ↔ parse header = .ok c ∧ checkNonce s c = .ok nonce := by
  constructor
  · intro h
    obtain ⟨c', hparse, hrest⟩ := ok_of_bind h
    obtain ⟨nonce', hnonce, hpair⟩ := ok_of_bind hrest
    cases hpair
    exact ⟨hparse, hnonce⟩
  · rintro ⟨hparse, hnonce⟩
    simp only [screen, hparse, bind, Except.bind, hnonce]
    rfl

/-- Credentials that were parsed ask for no protection, or for the one that is supported. -/
theorem qop_of_parse (h : parse header = .ok c) : c.qop = none ∨ c.qop = some "auth" :=
  (supported_of_parse h).imp_right And.left

theorem matchesRecord_of_answers {record : UserRecord} (h : Answers s c method record.password) :
    matchesRecord s c method record = .ok true := by
  rw [matchesRecord, h, Except.map, beq_self_eq_true]

theorem matchesRecord_of_not_answers (hparse : parse header = .ok c) {record : UserRecord}
    (h : ¬ Answers s c method record.password) : matchesRecord s c method record = .ok false := by
  obtain ⟨response, hresponse⟩ :=
    exists_expected (qop_of_parse hparse) method record.password s.passwordAlreadyEncoded
  have hne : response ≠ c.response := by
    rintro rfl
    exact h hresponse
  rw [matchesRecord, hresponse, Except.map, beq_eq_false_iff_ne.2 hne]

/-! ## The password -/

/-- A user that was asked for, and the answer of the backend. -/
structure Load where
  name : String
  answer : Except IdentityError UserRecord

/-- The ways in which the search for a record can go whose password explains the response, with
what is loaded for it and the state afterwards. A cached record is good enough if its password
does; otherwise the backend is asked, once. -/
inductive PasswordCheck (s : AuthSettings) (backend : IdentityBackend σ) (c : Credentials)
    (method : String) (tick : Instant) (st : AuthState σ) :
    Except AuthError UserRecord → List Load → AuthState σ → Prop where
  | cached {record : UserRecord} {users : UserCache}
    (hget : st.users.get c.username tick = (some record, users))
    (hanswers : Answers s c method record.password) :
    PasswordCheck s backend c method tick st (.ok record) [] { st with users }
  | loaded {old : Option UserRecord} {users : UserCache} {record : UserRecord} {identities : σ}
    (hget : st.users.get c.username tick = (old, users))
    (hold : ∀ record ∈ old, ¬ Answers s c method record.password)
    (hload : (backend.loadUser c.username).run st.identities = (.ok record, identities))
    (hanswers : Answers s c method record.password) :
    PasswordCheck s backend c method tick st (.ok record) [⟨c.username, .ok record⟩]
      { st with identities, users := users.put record tick }
  | refused {old : Option UserRecord} {users : UserCache} {record : UserRecord} {identities : σ}
    (hget : st.users.get c.username tick = (old, users))
    (hold : ∀ record ∈ old, ¬ Answers s c method record.password)
    (hload : (backend.loadUser c.username).run st.identities = (.ok record, identities))
    (hanswers : ¬ Answers s c method record.password) :
    PasswordCheck s backend c method tick st (.error .credentialMismatch)
      [⟨c.username, .ok record⟩] { st with identities, users := users.put record tick }
  | failed {old : Option UserRecord} {users : UserCache} {e : IdentityError} {identities : σ}
    (hget : st.users.get c.username tick = (old, users))
    (hold : ∀ record ∈ old, ¬ Answers s c method record.password)
    (hload : (backend.loadUser c.username).run st.identities = (.error e, identities)) :
    PasswordCheck s backend c method tick st (.error (userError e)) [⟨c.username, .error e⟩]
      { st with identities, users }

/-- The search always goes in one of these ways. -/
theorem exists_passwordCheck (s : AuthSettings) (backend : IdentityBackend σ) (c : Credentials)
    (method : String) (tick : Instant) (st : AuthState σ) :
    ∃ outcome loads st', PasswordCheck s backend c method tick st outcome loads st' := by
  cases hget : st.users.get c.username tick with
  | mk old users =>
    by_cases hcached : ∃ record ∈ old, Answers s c method record.password
    · obtain ⟨record, hrecord, hanswers⟩ := hcached
      cases hrecord
      exact ⟨_, _, _, .cached hget hanswers⟩
    · have hold : ∀ record ∈ old, ¬ Answers s c method record.password :=
        fun record hrecord hanswers => hcached ⟨record, hrecord, hanswers⟩
      cases hload : (backend.loadUser c.username).run st.identities with
      | mk answer identities =>
        cases answer with
        | error e => exact ⟨_, _, _, .failed hget hold hload⟩
        | ok record =>
          by_cases hanswers : Answers s c method record.password
          · exact ⟨_, _, _, .loaded hget hold hload hanswers⟩
          · exact ⟨_, _, _, .refused hget hold hload hanswers⟩

theorem loadUser_run (name : String) (st : AuthState σ) :
    (loadUser backend name tick).run st =
      match (backend.loadUser name).run st.identities with
      | (.error e, identities) => (.error (userError e), { st with identities })
      | (.ok record, identities) =>
        (.ok record, { st with identities, users := st.users.put record tick }) := by
  cases h : (backend.loadUser name).run st.identities with
  | mk answer identities =>
    rw [loadUser, run_bind_of_ok (Verification.ofBackend_run _ _), h]
    cases answer with
    | ok record => rfl
    | error e => rfl

/-- Trying a password that explains the response. -/
theorem try_run_of_answers {record : UserRecord} (h : Answers s c method record.password)
    (otherwise : Verification σ UserRecord) (st : AuthState σ) :
    (do if ← (matchesRecord s c method record : Except AuthError Bool) then return record
        else otherwise : Verification σ UserRecord).run st = (.ok record, st) := by
  rw [run_bind_of_ok (run_check _ _ |>.trans (by rw [matchesRecord_of_answers h]))]
  rfl

/-- Trying a password that does not. -/
theorem try_run_of_not_answers (hparse : parse header = .ok c) {record : UserRecord}
    (h : ¬ Answers s c method record.password) (otherwise : Verification σ UserRecord)
    (st : AuthState σ) :
    (do if ← (matchesRecord s c method record : Except AuthError Bool) then return record
        else otherwise : Verification σ UserRecord).run st = otherwise.run st := by
  rw [run_bind_of_ok (run_check _ _ |>.trans (by rw [matchesRecord_of_not_answers hparse h]))]
  rfl

/-- If the cache does not help, everything depends on the record that is loaded. -/
theorem provenRecord_run_of_stale (hparse : parse header = .ok c) {old : Option UserRecord}
    {users : UserCache} (hget : st.users.get c.username tick = (old, users))
    (hold : ∀ record ∈ old, ¬ Answers s c method record.password) :
    (provenRecord s backend c method tick).run st =
      (do
        let fresh ← loadUser backend c.username tick
        if ← (matchesRecord s c method fresh : Except AuthError Bool) then return fresh
        else throw .credentialMismatch : Verification σ UserRecord).run { st with users } := by
  have hcache : (Verification.ofCache fun users => users.get c.username tick).run st =
      (.ok old, { st with users }) := by
    rw [Verification.ofCache_run, hget]
  -- either a record was found that does not help, or none was found
  cases old with
  | some record =>
    have hfind : (findUser backend c.username tick).run st =
        (.ok (record, true), { st with users }) := by
      rw [findUser, run_bind_of_ok hcache]
      rfl
    rw [provenRecord, run_bind_of_ok hfind]
    exact try_run_of_not_answers hparse (hold record rfl) _ _
  | none =>
    rw [provenRecord, run_bind, run_bind, findUser, run_bind_of_ok hcache]
    dsimp only
    rw [run_bind]
    cases (loadUser backend c.username tick).run { st with users } with
    | mk outcome loaded =>
      cases outcome with
      | error e => rfl
      | ok record => rfl

/-- The search goes as described. -/
theorem PasswordCheck.run_eq (hparse : parse header = .ok c)
    {outcome : Except AuthError UserRecord} {loads : List Load}
    (h : PasswordCheck s backend c method tick st outcome loads st') :
    (provenRecord s backend c method tick).run st = (outcome, st') := by
  cases h with
  | @cached record users hget hanswers =>
    have hfind : (findUser backend c.username tick).run st =
        (.ok (record, true), { st with users }) := by
      rw [findUser, run_bind_of_ok (Verification.ofCache_run _ _), hget]
      rfl
    rw [provenRecord, run_bind_of_ok hfind]
    exact try_run_of_answers hanswers _ _
  | @loaded old users record identities hget hold hload hanswers =>
    rw [provenRecord_run_of_stale hparse hget hold,
      run_bind_of_ok ((loadUser_run _ _).trans (by rw [hload]))]
    exact try_run_of_answers hanswers _ _
  | @refused old users record identities hget hold hload hanswers =>
    rw [provenRecord_run_of_stale hparse hget hold,
      run_bind_of_ok ((loadUser_run _ _).trans (by rw [hload]))]
    exact try_run_of_not_answers hparse hanswers _ _
  | @failed old users e identities hget hold hload =>
    rw [provenRecord_run_of_stale hparse hget hold,
      run_bind_of_error ((loadUser_run _ _).trans (by rw [hload]))]

/-! ## Verification in one equation -/

theorem verify_run_of_rejected {e : AuthError} (h : screen s header = .error e) :
    (verify s backend method header now).run st = (.error e, st) := by
  unfold screen at h
  cases hparse : parse header with
  | error e' =>
    rw [hparse] at h
    cases h
    rw [verify, run_bind_of_error ((run_check _ _).trans (by rw [hparse]))]
  | ok c =>
    rw [verify, run_bind_of_ok ((run_check _ _).trans (by rw [hparse]))]
    cases hnonce : checkNonce s c with
    | error e' =>
      simp only [hparse, bind, Except.bind, hnonce] at h
      cases h
      rw [run_bind_of_error (run_check _ _)]
    | ok nonce =>
      simp only [hparse, bind, Except.bind, hnonce] at h
      cases h

/-- After the header has been accepted, the record that is found has the last word. -/
theorem verify_run_of_screened {nonce : Nonce} (h : screen s header = .ok (c, nonce))
    {outcome : Except AuthError UserRecord} {loads : List Load}
    (hcheck : PasswordCheck s backend c method now.tick st outcome loads st') :
    (verify s backend method header now).run st =
      (outcome.bind fun record => accept nonce record now.epochMs, st') := by
  obtain ⟨hparse, hnonce⟩ := screen_eq_ok_iff.1 h
  rw [verify, run_bind_of_ok ((run_check _ _).trans (by rw [hparse])),
    run_bind_of_ok ((run_check _ _).trans (by rw [hnonce])), run_bind, hcheck.run_eq hparse]
  cases outcome with
  | error e => rfl
  | ok record => exact run_check _ _

/-! ## What callers are told -/

/-- The outcomes that tell something about an account, or about a nonce that was issued here. -/
inductive Telling : Except AuthError Principal → Prop where
  | accepted (p : Principal) : Telling (.ok p)
  | expired : Telling (.error .nonceExpired)
  | disabled (name : String) : Telling (.error (.accountDisabled name))

/-- What a caller has proven who knows the password: the header is meant for this realm, its nonce
was signed here, and its response is made from the password of the record of the user. That is the
cached record if the response is made from its password, and the one in the backend if not. -/
structure Proven (s : AuthSettings) (backend : IdentityBackend σ) (st : AuthState σ)
    (method header : String) (tick : Instant) (c : Credentials) (nonce : Nonce)
    (record : UserRecord) : Prop where
  parsed : parse header = .ok c
  realm : c.realm = s.realm
  decoded : Nonce.decode c.nonce = .ok nonce
  signed : s.signer nonce.expiry s.serverKey = nonce.signature
  answers : expected c method record.password s.passwordAlreadyEncoded = .ok c.response
  stored : (st.users.get c.username tick).1 = some record ∨
    (∀ old, (st.users.get c.username tick).1 = some old → ¬ Answers s c method old.password) ∧
      ((backend.loadUser c.username).run st.identities).1 = .ok record

theorem proven_iff {nonce : Nonce} {record : UserRecord} :
    Proven s backend st method header tick c nonce record ↔
      screen s header = .ok (c, nonce) ∧
        ∃ loads st', PasswordCheck s backend c method tick st (.ok record) loads st' := by
  constructor
  · intro h
    refine ⟨screen_eq_ok_iff.2 ⟨h.parsed,
      checkNonce_eq_ok_iff.2 ⟨h.realm, h.decoded, h.signed⟩⟩, ?_⟩
    rcases h.stored with hcached | ⟨hold, hload⟩
    · exact ⟨_, _, .cached (Prod.ext hcached rfl) h.answers⟩
    · exact ⟨_, _, .loaded rfl hold (Prod.ext hload rfl) h.answers⟩
  · rintro ⟨hscreen, loads, st', hcheck⟩
    obtain ⟨hparse, hnonce⟩ := screen_eq_ok_iff.1 hscreen
    obtain ⟨hrealm, hdecoded, hsigned⟩ := checkNonce_eq_ok_iff.1 hnonce
    cases hcheck with
    | cached hget hanswers =>
      exact ⟨hparse, hrealm, hdecoded, hsigned, hanswers, .inl (congrArg Prod.fst hget)⟩
    | loaded hget hold hload hanswers =>
      refine ⟨hparse, hrealm, hdecoded, hsigned, hanswers, .inr ⟨fun old hsome => ?_, ?_⟩⟩
      · rw [hget] at hsome
        exact hold old hsome
      · exact congrArg Prod.fst hload

/-- A header that cannot be read is malformed, whatever is wrong with it. -/
theorem parse_eq_error {e : AuthError} (h : parse header = .error e) :
    ∃ fault, e = .malformedHeader fault := by
  unfold parse at h
  split at h
  · unfold ofFields at h
    split at h
    · unfold checkProtection at h
      split at h
      · cases h
      · split at h
        · split at h
          · cases h
          · cases h
            exact ⟨_, rfl⟩
        · cases h
          exact ⟨_, rfl⟩
    · cases h
      exact ⟨_, rfl⟩
  · cases h
    exact ⟨_, rfl⟩

/-- The reasons for which a header is turned away. -/
theorem screen_eq_error {e : AuthError} (h : screen s header = .error e) :
    (∃ fault, e = .malformedHeader fault) ∨ (∃ received, e = .unknownRealm received s.realm) ∨
      (∃ error, e = .malformedNonce error) ∨ e = .nonceTampered := by
  unfold screen at h
  cases hparse : parse header with
  | error e' =>
    rw [hparse] at h
    cases h
    exact .inl (parse_eq_error hparse)
  | ok c =>
    simp only [hparse, bind, Except.bind] at h
    unfold checkNonce at h
    split at h
    · next e' hnonce =>
      cases h
      split at hnonce
      · cases hnonce
        exact .inr (.inl ⟨_, rfl⟩)
      · split at hnonce
        · cases hnonce
          exact .inr (.inr (.inl ⟨_, rfl⟩))
        · split at hnonce
          · cases hnonce
          · cases hnonce
            exact .inr (.inr (.inr rfl))
    · cases h

/-- The first stage tells nothing. -/
theorem not_telling_of_screen {e : AuthError} (h : screen s header = .error e) :
    ¬ Telling (.error e) := by
  rcases screen_eq_error h with ⟨fault, rfl⟩ | ⟨received, rfl⟩ | ⟨error, rfl⟩ | rfl <;> exact nofun

theorem telling_accept (nonce : Nonce) (record : UserRecord) (nowMs : Int) :
    Telling (accept nonce record nowMs) := by
  unfold accept
  split
  · exact .expired
  · split
    · exact .accepted _
    · exact .disabled _

theorem accept_eq_ok_iff {nonce : Nonce} {record : UserRecord} {nowMs : Int} {p : Principal} :
    accept nonce record nowMs = .ok p ↔
      nonce.isExpired nowMs = false ∧ record.active = true ∧
        p = ⟨record.username, .digest, record.groups⟩ := by
  unfold accept
  by_cases hexpired : nonce.isExpired nowMs = true
  · simp [hexpired]
  · by_cases hactive : record.active = true
    · simp [hexpired, hactive, eq_comm]
    · simp [hexpired, hactive]

/-- A search that fails tells nothing. -/
theorem PasswordCheck.not_telling {e : AuthError} {loads : List Load}
    (h : PasswordCheck s backend c method tick st (.error e) loads st') : ¬ Telling (.error e) := by
  cases h with
  | refused => exact nofun
  | @failed _ _ e =>
    cases e with
    | notFound name => exact nofun
    | unavailable reason => exact nofun

/-- The passwords under which a user can be known, in the cache and in the backend. -/
def passwords (backend : IdentityBackend σ) (st : AuthState σ) (name : String) (tick : Instant) :
    Option String × Except IdentityError String :=
  ((st.users.get name tick).1.map (·.password),
    ((backend.loadUser name).run st.identities).1.map (·.password))

/-- A search that fails goes the same way wherever the same passwords are known. -/
theorem PasswordCheck.transfer {τ : Type} {backend' : IdentityBackend τ} {tick' : Instant}
    {e : AuthError} {loads : List Load} {w : AuthState τ}
    (hknown : passwords backend st c.username tick = passwords backend' w c.username tick')
    (h : PasswordCheck s backend c method tick st (.error e) loads st') :
    ∃ loads' w', PasswordCheck s backend' c method tick' w (.error e) loads' w' := by
  obtain ⟨hcached, hloaded⟩ := Prod.ext_iff.1 hknown
  dsimp only [passwords] at hcached hloaded
  have hold' : (∀ record ∈ (st.users.get c.username tick).1,
        ¬ Answers s c method record.password) →
      ∀ record ∈ (w.users.get c.username tick').1, ¬ Answers s c method record.password := by
    intro hold record hrecord
    rw [Option.mem_def] at hrecord
    rw [hrecord, Option.map_some, Option.map_eq_some_iff] at hcached
    obtain ⟨old, hsome, hpassword⟩ := hcached
    rw [← hpassword]
    exact hold old hsome
  cases h with
  | @refused old users record identities hget hold hload hanswers =>
    rw [hload] at hloaded
    cases hload' : (backend'.loadUser c.username).run w.identities with
    | mk answer identities' =>
      rw [hload'] at hloaded
      cases answer with
      | error e' => cases hloaded
      | ok record' =>
        have hpassword : record.password = record'.password := Except.ok.inj hloaded
        refine ⟨_, _, .refused rfl (hold' (by rw [hget]; exact hold)) hload' ?_⟩
        rwa [← hpassword]
  | @failed old users e identities hget hold hload =>
    rw [hload] at hloaded
    cases hload' : (backend'.loadUser c.username).run w.identities with
    | mk answer identities' =>
      rw [hload'] at hloaded
      cases answer with
      | error e' =>
        cases hloaded
        exact ⟨_, _, .failed rfl (hold' (by rw [hget]; exact hold)) hload'⟩
      | ok record' => cases hloaded

/-- Something is told exactly to those who have proven to know the password. -/
theorem telling_iff :
    Telling ((verify s backend method header now).run st).1 ↔
      ∃ c nonce record, Proven s backend st method header now.tick c nonce record := by
  cases hscreen : screen s header with
  | error e =>
    rw [verify_run_of_rejected hscreen]
    constructor
    · exact fun htold => absurd htold (not_telling_of_screen hscreen)
    · rintro ⟨c, nonce, record, hproven⟩
      rw [proven_iff, hscreen] at hproven
      cases hproven.1
  | ok screened =>
    obtain ⟨c, nonce⟩ := screened
    obtain ⟨outcome, loads, st', hcheck⟩ :=
      exists_passwordCheck s backend c method now.tick st
    rw [verify_run_of_screened hscreen hcheck]
    cases outcome with
    | error e =>
      constructor
      · exact fun htold => absurd htold hcheck.not_telling
      · rintro ⟨c', nonce', record, hproven⟩
        -- the search cannot both fail and find a record
        obtain ⟨hscreen', _, w, hfound⟩ := proven_iff.1 hproven
        rw [hscreen] at hscreen'
        cases hscreen'
        have hparse := (screen_eq_ok_iff.1 hscreen).1
        have hrun := (hcheck.run_eq hparse).symm.trans (hfound.run_eq hparse)
        cases congrArg Prod.fst hrun
    | ok record =>
      exact ⟨fun _ => ⟨c, nonce, record, proven_iff.2 ⟨hscreen, loads, st', hcheck⟩⟩,
        fun _ => telling_accept nonce record now.epochMs⟩

/-- Whoever has proven to know the password is told about the nonce and about that same record. -/
theorem verify_run_of_proven {nonce : Nonce} {record : UserRecord}
    (h : Proven s backend st method header now.tick c nonce record) :
    ((verify s backend method header now).run st).1 =
      if nonce.expiry ≤ now.epochMs then .error .nonceExpired
      else if record.active then .ok ⟨record.username, .digest, record.groups⟩
      else .error (.accountDisabled record.username) := by
  obtain ⟨hscreen, loads, st', hcheck⟩ := proven_iff.1 h
  rw [verify_run_of_screened hscreen hcheck]
  simp only [Except.bind, accept, Nonce.isExpired, decide_eq_true_eq]

/-- Without a user cache, a record is proven only if it is the one that is loaded. -/
theorem Proven.loaded {nonce : Nonce} {record : UserRecord} (hoff : st.users = .off)
    (h : Proven s backend st method header tick c nonce record) :
    ((backend.loadUser c.username).run st.identities).1 = .ok record := by
  rcases h.stored with hcached | ⟨-, hload⟩
  · rw [hoff] at hcached
    cases hcached
  · exact hload

/-- Verification ends in a principal, or in an error about the nonce's age or the account, only if
the header is meant for this realm, has a nonce that was signed here, and its response is made from
the password of the stored record. Then the outcome is what nonce and record say. Otherwise the
outcome is the same for every clock, and for all records with the same passwords. Without a user
cache there is one response, for given other fields and record, that proves anything. -/
theorem told_only_with_password (s : AuthSettings) (backend : IdentityBackend σ)
    (st : AuthState σ) (method header : String) (now : Moment) :
    (Telling ((verify s backend method header now).run st).1 →
      ∃ c nonce record, Proven s backend st method header now.tick c nonce record) ∧
    (∀ c nonce record, Proven s backend st method header now.tick c nonce record →
      ((verify s backend method header now).run st).1 =
        if nonce.expiry ≤ now.epochMs then .error .nonceExpired
        else if record.active then .ok ⟨record.username, .digest, record.groups⟩
        else .error (.accountDisabled record.username)) ∧
    (¬ Telling ((verify s backend method header now).run st).1 →
      ∀ {τ : Type} (backend' : IdentityBackend τ) (st' : AuthState τ) (now' : Moment),
        (∀ name, passwords backend st name now.tick = passwords backend' st' name now'.tick) →
        ((verify s backend' method header now').run st').1 =
          ((verify s backend method header now).run st).1) ∧
    (st.users = .off → ∀ c response header' st' now', st'.users = .off →
      parse header = .ok c → parse header' = .ok { c with response } →
      ((backend.loadUser c.username).run st.identities).1 =
        ((backend.loadUser c.username).run st'.identities).1 →
      Telling ((verify s backend method header now).run st).1 →
      Telling ((verify s backend method header' now').run st').1 → response = c.response) := by
  refine ⟨telling_iff.1, fun c nonce record => verify_run_of_proven, ?unproven, ?unique⟩
  case unproven =>
    intro hsilent τ backend' w now' hknown
    cases hscreen : screen s header with
    | error e => rw [verify_run_of_rejected hscreen, verify_run_of_rejected hscreen]
    | ok screened =>
      obtain ⟨c, nonce⟩ := screened
      obtain ⟨outcome, loads, st', hcheck⟩ :=
        exists_passwordCheck s backend c method now.tick st
      rw [verify_run_of_screened hscreen hcheck] at hsilent ⊢
      cases outcome with
      | ok record => exact absurd (telling_accept nonce record now.epochMs) hsilent
      | error e =>
        obtain ⟨_, w', hcheck'⟩ := hcheck.transfer (hknown c.username)
        rw [verify_run_of_screened hscreen hcheck']
        rfl
  case unique =>
    intro hoff c response header' st' now' hoff' hparse hparse' hsame htold htold'
    obtain ⟨c₁, nonce, record, hproven⟩ := telling_iff.1 htold
    obtain ⟨c₂, nonce', record', hproven'⟩ := telling_iff.1 htold'
    cases hparse.symm.trans hproven.parsed
    cases hparse'.symm.trans hproven'.parsed
    have hrecord := hproven.loaded hoff
    rw [hsame, show _ = Except.ok record' from hproven'.loaded hoff'] at hrecord
    cases hrecord
    -- the response is no part of what it is made of
    exact Except.ok.inj (hproven'.answers.symm.trans hproven.answers)

/-! ## Someone who guesses -/

namespace Sample

/-- A realm whose nonces stay fresh for a second. -/
def settings : AuthSettings where
  realm := "R"
  serverKey := "k"
  nonceValidity := 1000
  passwordAlreadyEncoded := false
  timestampWindow := 0
  publicUrl := none
  signer := Signer.md5

/-- The only user. -/
def alice : UserRecord :=
  ⟨"alice", "secret", true, ["USER"]⟩

/-- A registry that knows the user, and no user cache. -/
def uncached : AuthState Registry :=
  ⟨.ofDirectory (Directory.empty.withUser alice), .off, none⟩

/-- Credentials with a nonce that expires after a second. -/
def unanswered : Credentials where
  username := "alice"
  realm := "R"
  nonce := Nonce.encode Signer.md5 1000 "k"
  uri := "/x"
  response := "guess"
  qop := none
  nc := none
  cnonce := none

/-- The credentials of someone who knows the password. -/
def answered : Credentials :=
  unanswered.respond "GET" "secret" false

/-- The nonce of the credentials. -/
def nonce : Nonce :=
  ⟨1000, Signer.md5 1000 "k"⟩

theorem unanswered_plain : unanswered.Plain :=
  ⟨by decide, by decide, Nonce.quote_notMem_encode, by decide, by decide, nofun, nofun, nofun⟩

theorem exists_answered : ∃ response, answered = { unanswered with response } ∧
    expected unanswered "GET" "secret" false = .ok response := by
  obtain ⟨response, hresponse⟩ := exists_expected (c := unanswered) (.inl rfl) "GET" "secret" false
  exact ⟨response, Credentials.respond_eq hresponse, hresponse⟩

theorem answered_username : answered.username = "alice" := by
  obtain ⟨response, hanswered, -⟩ := exists_answered
  rw [hanswered]
  rfl

theorem answered_answers : Answers settings answered "GET" "secret" := by
  obtain ⟨response, hanswered, hresponse⟩ := exists_answered
  rw [hanswered]
  exact hresponse

/-- The header of someone who knows the password passes the first stage. -/
theorem screen_answered : screen settings answered.render = .ok (answered, nonce) := by
  obtain ⟨response, hanswered, hresponse⟩ := exists_answered
  have hdecoded : Nonce.decode unanswered.nonce = .ok nonce :=
    Nonce.decode_encode (by decide) (by decide) (Signer.colon_notMem_md5 1000 "k")
  rw [hanswered]
  refine screen_eq_ok_iff.2 ⟨parse_render ?_ rfl, checkNonce_eq_ok_iff.2 ⟨rfl, hdecoded, rfl⟩⟩
  exact { unanswered_plain with response := notMem_expected (by decide) hresponse }

end Sample

open Sample in
/-- Who knows the password is accepted in time, and told that the nonce has expired later. Who
guesses is not told even that. -/
theorem alice_is_told :
    ((verify settings Registry.backend "GET" answered.render ⟨999, 0⟩).run uncached).1 =
      .ok ⟨"alice", .digest, ["USER"]⟩ ∧
    ((verify settings Registry.backend "GET" answered.render ⟨1000, 0⟩).run uncached).1 =
      .error .nonceExpired ∧
    ((verify settings Registry.backend "GET" unanswered.render ⟨1000, 0⟩).run uncached).1 =
      ((verify settings Registry.backend "GET" unanswered.render ⟨999, 0⟩).run uncached).1 := by
  have hproven : Proven settings Registry.backend uncached "GET" answered.render 0 answered nonce
      alice := by
    have hload : (Registry.backend.loadUser answered.username).run uncached.identities =
        (.ok alice, ⟨Directory.empty.withUser alice, none, 1⟩) := by
      rw [answered_username]
      rfl
    exact proven_iff.2 ⟨screen_answered, _, _, .loaded rfl nofun hload answered_answers⟩
  have hguess : ¬ Telling
      ((verify settings Registry.backend "GET" unanswered.render ⟨999, 0⟩).run uncached).1 := by
    intro htold
    obtain ⟨c, nonce, record, hguessed⟩ :=
      (told_only_with_password settings Registry.backend uncached "GET" _ ⟨999, 0⟩).1 htold
    cases (parse_render unanswered_plain rfl).symm.trans hguessed.parsed
    exact notMem_expected (x := 'g') (by decide) hguessed.answers (by decide)
  have htold := fun header now =>
    told_only_with_password settings Registry.backend uncached "GET" header now
  refine ⟨?_, ?_, ?_⟩
  · exact (htold _ ⟨999, 0⟩).2.1 _ _ _ hproven
  · exact (htold _ ⟨1000, 0⟩).2.1 _ _ _ hproven
  · exact (htold _ ⟨999, 0⟩).2.2.1 hguess Registry.backend uncached ⟨1000, 0⟩ fun _ => rfl

end Gatehouse.Digest
