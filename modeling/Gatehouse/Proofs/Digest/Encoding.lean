import Gatehouse.Proofs.Digest.History
import Mathlib.Data.List.Forall2

/-!
# Passwords that are stored as hashes

A server may store the hash of user name, realm and password in place of the password. To callers
this makes no difference. The hash that verification would make is the one that is stored, because
the realm has been checked by then and the record carries the name that was asked for; and both
are true of cached records as well.

- `Table.mapValues`: the values of a table changed one by one.
- `UserRecord.encoded`: a record with the hash in place of the password.
- `Encodes`: a backend that returns the records of another one with hashes in place of passwords.
- `Follows`: the invariant of two verifiers side by side.
- `hashes_do_as_well`: both give the same outcomes, and load the same users, in all histories.
-/

namespace Gatehouse

/-! ## Tables -/

namespace Table

variable {κ α β : Type}

/-- The table with all values changed. -/
def mapValues (f : α → β) (t : Table κ α) : Table κ β where
  entries := t.entries.map fun (k, v) => (k, f v)
  nodup := by
    rw [List.map_map]
    exact t.nodup

theorem ext_entries {t t' : Table κ α} (h : t.entries = t'.entries) : t = t' := by
  cases t
  cases t'
  cases h
  rfl

variable [DecidableEq κ] (f : α → β)

theorem find_map (k : κ) (entries : List (κ × α)) :
    find k (entries.map fun (k, v) => (k, f v)) = (find k entries).map f := by
  induction entries with
  | nil => rfl
  | cons e rest ih =>
    rw [List.map_cons, find, find, ih]
    split
    · rfl
    · rfl

theorem get?_mapValues (t : Table κ α) (k : κ) : (t.mapValues f).get? k = (t.get? k).map f :=
  find_map f k t.entries

theorem map_putEntry (k : κ) (v : α) (entries : List (κ × α)) :
    (putEntry k v entries).map (fun (k, v) => (k, f v)) =
      putEntry k (f v) (entries.map fun (k, v) => (k, f v)) := by
  induction entries with
  | nil => rfl
  | cons e rest ih =>
    rw [List.map_cons, putEntry, putEntry, ← ih]
    split
    · rfl
    · rfl

theorem mapValues_put (t : Table κ α) (k : κ) (v : α) :
    (t.put k v).mapValues f = (t.mapValues f).put k (f v) :=
  ext_entries (map_putEntry f k v t.entries)

theorem mapValues_erase (t : Table κ α) (k : κ) :
    (t.erase k).mapValues f = (t.mapValues f).erase k :=
  ext_entries (by simp only [mapValues, erase, retain, List.filter_map]; rfl)

end Table

/-! ## Records -/

/-- The record with the hash of name, realm and password in place of the password. -/
def UserRecord.encoded (realm : String) (record : UserRecord) : UserRecord :=
  { record with password := Digest.passwordHash record.username realm record.password }

namespace UserCache

/-- The cache with hashes in place of passwords. -/
def encoded (realm : String) : UserCache → UserCache
  | .off => .off
  | .keeping ttl entries =>
    .keeping ttl (entries.mapValues fun entry =>
      { entry with record := entry.record.encoded realm })

variable {realm : String}

theorem get_encoded (cache : UserCache) (name : String) (now : Instant) :
    (cache.encoded realm).get name now =
      ((cache.get name now).1.map (·.encoded realm), (cache.get name now).2.encoded realm) := by
  cases cache with
  | off => rfl
  | keeping ttl entries =>
    simp only [encoded, get, Table.get?_mapValues]
    cases entries.get? name with
    | none => rfl
    | some entry =>
      have halive : isAlive ttl { entry with record := entry.record.encoded realm } now =
          isAlive ttl entry now := rfl
      simp only [Option.map_some, halive]
      by_cases h : isAlive ttl entry now = true
      · simp [h]
      · simp [h, Table.mapValues_erase]

theorem put_encoded (cache : UserCache) (record : UserRecord) (now : Instant) :
    (cache.encoded realm).put (record.encoded realm) now =
      (cache.put record now).encoded realm := by
  cases cache with
  | off => rfl
  | keeping ttl entries =>
    simp only [encoded, put, Table.mapValues_put]
    rfl

theorem remove_encoded (cache : UserCache) (name : String) :
    (cache.encoded realm).remove name = (cache.remove name).encoded realm := by
  cases cache with
  | off => rfl
  | keeping ttl entries => simp only [encoded, remove, Table.mapValues_erase]

end UserCache

namespace Digest

variable {σ τ : Type}

/-- The settings of a server that stores passwords, or hashes. -/
def storing (s : AuthSettings) (alreadyEncoded : Bool) : AuthSettings :=
  { s with passwordAlreadyEncoded := alreadyEncoded }

/-- A load with the hash in place of the password. -/
def Load.encoded (realm : String) (load : Load) : Load :=
  ⟨load.name, load.answer.map (·.encoded realm)⟩

/-- A backend that returns, in states that match, the records of another one with hashes in place
of passwords. The records carry the names that were asked for. -/
structure Encodes (realm : String) (backend : IdentityBackend σ) (backend' : IdentityBackend τ)
    (R : σ → τ → Prop) : Prop where
  answer : ∀ i j name, R i j → ((backend'.loadUser name).run j).1 =
    ((backend.loadUser name).run i).1.map (·.encoded realm)
  next : ∀ i j name, R i j →
    R ((backend.loadUser name).run i).2 ((backend'.loadUser name).run j).2
  names : Names backend fun i => ∃ j, R i j

/-- Every cached record is filed under the name that it carries. -/
def Named (name : String) (entry : CachedUser) : Prop :=
  entry.record.username = name

/-- The invariant of two verifiers side by side: their backends match, and the second user cache is
the first one with hashes in place of passwords. -/
structure Follows (realm : String) (R : σ → τ → Prop) (ttl : Nat) (st : AuthState σ)
    (st' : AuthState τ) : Prop where
  identities : R st.identities st'.identities
  users : st'.users = st.users.encoded realm
  kept : st.users.Keeps ttl Named

/-! ## One call -/

section Call

variable {s : AuthSettings} {backend : IdentityBackend σ} {backend' : IdentityBackend τ}
  {R : σ → τ → Prop} {ttl : Nat} {c : Credentials} {method : String} {tick : Instant}
  {st st₁ : AuthState σ} {st' : AuthState τ}

/-- The first stage does not look at what is stored. -/
theorem screen_storing (alreadyEncoded : Bool) (header : String) :
    screen (storing s alreadyEncoded) header = screen s header :=
  rfl

/-- What is stored is what would be made of the password, in the same realm and for the same
name. -/
theorem answers_encoded {record : UserRecord} (hrealm : c.realm = s.realm)
    (hname : record.username = c.username) :
    Answers (storing s true) c method (record.encoded s.realm).password ↔
      Answers (storing s false) c method record.password := by
  have hsecret : secret c (record.encoded s.realm).password true =
      secret c record.password false := by
    show passwordHash record.username s.realm record.password =
      passwordHash c.username c.realm record.password
    rw [hname, hrealm]
  unfold Answers expected
  rw [show (storing s true).passwordAlreadyEncoded = true from rfl,
    show (storing s false).passwordAlreadyEncoded = false from rfl, hsecret]

theorem Follows.load (hencodes : Encodes s.realm backend backend' R)
    (h : Follows s.realm R ttl st st') {name : String} {answer : Except IdentityError UserRecord}
    {identities : σ} (hload : (backend.loadUser name).run st.identities = (answer, identities)) :
    ∃ identities', (backend'.loadUser name).run st'.identities =
      (answer.map (·.encoded s.realm), identities') ∧ R identities identities' := by
  have hanswer := hencodes.answer _ _ name h.identities
  have hnext := hencodes.next _ _ name h.identities
  rw [hload] at hanswer hnext
  exact ⟨_, Prod.ext hanswer rfl, hnext⟩

/-- The search for a record goes the same way on both sides. -/
theorem PasswordCheck.encoded (hencodes : Encodes s.realm backend backend' R)
    (hrealm : c.realm = s.realm) (hfollows : Follows s.realm R ttl st st')
    {checked : Except AuthError UserRecord} {loaded : List Load}
    (h : PasswordCheck (storing s false) backend c method tick st checked loaded st₁) :
    ∃ st₁', PasswordCheck (storing s true) backend' c method tick st'
        (checked.map (·.encoded s.realm)) (loaded.map (·.encoded s.realm)) st₁' ∧
      R st₁.identities st₁'.identities ∧ st₁'.users = st₁.users.encoded s.realm := by
  have hget' : ∀ {old users}, st.users.get c.username tick = (old, users) →
      st'.users.get c.username tick = (old.map (·.encoded s.realm), users.encoded s.realm) := by
    intro old users hget
    rw [hfollows.users, UserCache.get_encoded, hget]
  have hcached : ∀ {record users}, st.users.get c.username tick = (some record, users) →
      record.username = c.username := by
    intro record users hget
    obtain ⟨storedAt, hnamed, -⟩ := hfollows.kept.found (congrArg Prod.fst hget)
    exact hnamed
  have hold' : ∀ {old users}, st.users.get c.username tick = (old, users) →
      (∀ record ∈ old, ¬ Answers (storing s false) c method record.password) →
      ∀ record ∈ old.map (·.encoded s.realm),
        ¬ Answers (storing s true) c method record.password := by
    rintro old users hget hold _ hrecord
    obtain ⟨record, rfl, rfl⟩ := Option.map_eq_some_iff.1 hrecord
    rw [answers_encoded hrealm (hcached hget)]
    exact hold record rfl
  have hloaded : ∀ {record identities},
      (backend.loadUser c.username).run st.identities = (.ok record, identities) →
      record.username = c.username :=
    fun hload => hencodes.names _ _ _ ⟨_, hfollows.identities⟩ (congrArg Prod.fst hload)
  cases h with
  | cached hget hanswers =>
    exact ⟨_, .cached (hget' hget) ((answers_encoded hrealm (hcached hget)).2 hanswers),
      hfollows.identities, rfl⟩
  | loaded hget hold hload hanswers =>
    obtain ⟨_, hload', hnext⟩ := hfollows.load hencodes hload
    exact ⟨_, .loaded (hget' hget) (hold' hget hold) hload'
      ((answers_encoded hrealm (hloaded hload)).2 hanswers), hnext, UserCache.put_encoded _ _ _⟩
  | refused hget hold hload hanswers =>
    obtain ⟨_, hload', hnext⟩ := hfollows.load hencodes hload
    exact ⟨_, .refused (hget' hget) (hold' hget hold) hload'
      ((answers_encoded hrealm (hloaded hload)).not.2 hanswers), hnext, UserCache.put_encoded _ _ _⟩
  | failed hget hold hload =>
    obtain ⟨_, hload', hnext⟩ := hfollows.load hencodes hload
    exact ⟨_, .failed (hget' hget) (hold' hget hold) hload', hnext, rfl⟩

/-- The same call is made of both verifiers. -/
structure Call.Same (call : Call σ) (call' : Call τ) : Prop where
  method : call'.method = call.method
  header : call'.header = call.header
  now : call'.now = call.now

variable {call : Call σ} {call' : Call τ}

/-- A call ends in the same way on both sides, and loads the same users. -/
theorem Call.Same.encoded (hencodes : Encodes s.realm backend backend' R) (hsame : call.Same call')
    (hfollows : Follows s.realm R ttl call.st call'.st) :
    call'.outcome (storing s true) backend' = call.outcome (storing s false) backend ∧
      call'.loads (storing s true) backend' =
        (call.loads (storing s false) backend).map (·.encoded s.realm) ∧
      R (call.after (storing s false) backend).identities
        (call'.after (storing s true) backend').identities ∧
      (call'.after (storing s true) backend').users =
        (call.after (storing s false) backend).users.encoded s.realm := by
  have hscreen' : screen (storing s true) call'.header = screen (storing s false) call.header := by
    rw [hsame.header, screen_storing, screen_storing]
  rcases call.rejected_or_checked (storing s false) backend with
    ⟨e, hscreen⟩ | ⟨c, nonce, checked, loaded, after, hscreen, hcheck, hout, hloads, hafter⟩
  · rw [hscreen] at hscreen'
    rw [Call.outcome_of_rejected hscreen, Call.loads_of_rejected hscreen,
      Call.after_of_rejected hscreen, Call.outcome_of_rejected hscreen',
      Call.loads_of_rejected hscreen', Call.after_of_rejected hscreen']
    exact ⟨rfl, rfl, hfollows.identities, hfollows.users⟩
  · rw [hscreen] at hscreen'
    have hrealm := (checkNonce_eq_ok_iff.1 (screen_eq_ok_iff.1 hscreen).2).1
    obtain ⟨after', hcheck', hnext, husers⟩ := hcheck.encoded hencodes hrealm hfollows
    rw [← hsame.method, ← hsame.now] at hcheck'
    rw [hout, hloads, hafter, Call.outcome_of_screened hscreen' hcheck',
      Call.loads_of_screened hscreen' hcheck', Call.after_of_screened hscreen' hcheck', hsame.now]
    refine ⟨?_, rfl, hnext, husers⟩
    -- what callers are told does not depend on the password
    cases checked with
    | error e => rfl
    | ok record => rfl

/-- How a call ends, and the users that it loads. -/
def Call.report (s : AuthSettings) (backend : IdentityBackend σ) (call : Call σ) :
    Except AuthError Principal × List String :=
  (call.outcome s backend, (call.loads s backend).map (·.name))

theorem Call.Same.report_eq (hencodes : Encodes s.realm backend backend' R)
    (hsame : call.Same call') (hfollows : Follows s.realm R ttl call.st call'.st) :
    call'.report (storing s true) backend' = call.report (storing s false) backend := by
  obtain ⟨hout, hloads, -⟩ := hsame.encoded hencodes hfollows
  rw [Call.report, Call.report, hout, hloads, List.map_map]
  rfl

end Call

/-! ## Histories -/

/-- The same happens to both verifiers; the backends may change to any states that match. -/
inductive Happening.Matches (R : σ → τ → Prop) : Happening σ → Happening τ → Prop where
  | call (method header : String) (epochMs : Int) :
    Matches R (.call method header epochMs) (.call method header epochMs)
  | pass (nanos : Nat) : Matches R (.pass nanos) (.pass nanos)
  | forget (name : String) : Matches R (.forget name) (.forget name)
  | change {i : σ} {j : τ} (h : R i j) : Matches R (.change i) (.change j)

section Run

variable {s : AuthSettings} {backend : IdentityBackend σ} {backend' : IdentityBackend τ}
  {R : σ → τ → Prop} {ttl : Nat} {p : Present σ} {p' : Present τ}

/-- The invariant, at one time on the clock that only runs forward. -/
structure Abreast (realm : String) (R : σ → τ → Prop) (ttl : Nat) (p : Present σ)
    (p' : Present τ) : Prop where
  tick : p'.tick = p.tick
  follows : Follows realm R ttl p.st p'.st

theorem Abreast.same (h : Abreast s.realm R ttl p p') (method header : String) (epochMs : Int) :
    (Call.mk p.st method header ⟨epochMs, p.tick⟩).Same
      (Call.mk p'.st method header ⟨epochMs, p'.tick⟩) :=
  ⟨rfl, rfl, by rw [h.tick]⟩

/-- Whatever happens, the second verifier keeps following the first one. -/
theorem Abreast.step (hencodes : Encodes s.realm backend backend' R)
    (h : Abreast s.realm R ttl p p') {happening : Happening σ} {happening' : Happening τ}
    (hsame : happening.Matches R happening') :
    Abreast s.realm R ttl (happening.step (storing s false) backend p)
      (happening'.step (storing s true) backend' p') := by
  have htick := h.tick
  have hfollows := h.follows
  have hkept : (happening.step (storing s false) backend p).st.users.Keeps ttl Named :=
    keeps_step hencodes.names ⟨_, hfollows.identities⟩ hfollows.kept happening
      fun _ _ name record _ hload => hencodes.names _ name record ⟨_, hfollows.identities⟩ hload
  cases hsame with
  | call method header epochMs =>
    obtain ⟨-, -, hnext, husers⟩ := (h.same method header epochMs).encoded hencodes hfollows
    exact ⟨htick, hnext, husers, hkept⟩
  | pass nanos => exact ⟨congrArg (· + nanos) htick, hfollows.identities, hfollows.users, hkept⟩
  | forget name =>
    refine ⟨htick, hfollows.identities, ?_, hkept⟩
    show p'.st.users.remove name = _
    rw [hfollows.users, UserCache.remove_encoded]
    rfl
  | change hR => exact ⟨htick, hR, hfollows.users, hkept⟩

/-- Both verifiers report the same of all calls. -/
theorem Abreast.run (hencodes : Encodes s.realm backend backend' R)
    (h : Abreast s.realm R ttl p p') {history : List (Happening σ)}
    {history' : List (Happening τ)}
    (hsame : List.Forall₂ (Happening.Matches R) history history') :
    (calls (storing s true) backend' p' history').map (Call.report (storing s true) backend') =
      (calls (storing s false) backend p history).map
        (Call.report (storing s false) backend) := by
  -- on the history: what is reported next depends on the present only through the invariant
  induction hsame generalizing p p' with
  | nil => rfl
  | cons hhead _ ih =>
    rw [calls, calls, List.map_append, List.map_append, ih (h.step hencodes hhead)]
    congr 1
    cases hhead with
    | call method header epochMs =>
      exact congrArg (fun report => [report])
        ((h.same method header epochMs).report_eq hencodes h.follows)
    | _ => rfl

end Run

end Digest

/-! ## Databases -/

/-- The same backend with hashes in place of passwords. -/
def IdentityBackend.encoded {σ : Type} (realm : String) (backend : IdentityBackend σ) :
    IdentityBackend σ where
  loadUser name := fun identities =>
    let (answer, identities) := (backend.loadUser name).run identities
    (answer.map (·.encoded realm), identities)
  lookupConsumer := backend.lookupConsumer

/-- The directory with hashes in place of passwords. -/
def Directory.encoded (realm : String) (d : Directory) : Directory :=
  { d with users := d.users.mapValues (·.encoded realm) }

/-- The registry with hashes in place of passwords. -/
def Registry.encoded (realm : String) (r : Registry) : Registry :=
  { r with contents := r.contents.encoded realm }

theorem Directory.user_encoded (realm : String) (d : Directory) (name : String) :
    (d.encoded realm).user name = (d.user name).map (·.encoded realm) := by
  simp only [user, encoded, Table.get?_mapValues]
  cases d.users.get? name with
  | none => rfl
  | some record => rfl

namespace Digest

theorem encodes_encoded {σ : Type} {backend : IdentityBackend σ} {I : σ → Prop} (realm : String)
    (hnames : Names backend I) (hload : ∀ i name, I i → I ((backend.loadUser name).run i).2) :
    Encodes realm backend (backend.encoded realm) fun i j => j = i ∧ I i where
  answer := by
    rintro i j name ⟨rfl, -⟩
    rfl
  next := by
    rintro i j name ⟨rfl, hI⟩
    exact ⟨rfl, hload _ name hI⟩
  names i name record := by
    rintro ⟨j, -, hI⟩
    exact hnames i name record hI

theorem encodes_registry (realm : String) :
    Encodes realm Registry.backend Registry.backend
      fun r r' => r' = r.encoded realm ∧ Filed r.contents where
  answer := by
    rintro ⟨contents, outage, asked⟩ r' name ⟨rfl, -⟩
    cases outage with
    | none => exact contents.user_encoded realm name
    | some reason => rfl
  next := by
    rintro r r' name ⟨rfl, hfiled⟩
    exact ⟨rfl, hfiled⟩
  names r name record := by
    rintro ⟨r', -, hfiled⟩
    exact names_registry r name record hfiled

/-- What happens, with every state of the backend changed. -/
def Happening.map {σ τ : Type} (f : σ → τ) : Happening σ → Happening τ
  | .call method header epochMs => .call method header epochMs
  | .pass nanos => .pass nanos
  | .forget name => .forget name
  | .change identities => .change (f identities)

theorem Happening.matches_map {σ τ : Type} {R : σ → τ → Prop} {f : σ → τ}
    {history : List (Happening σ)} (h : ∀ i, .change i ∈ history → R i (f i)) :
    List.Forall₂ (Happening.Matches R) history (history.map (Happening.map f)) := by
  rw [List.forall₂_map_right_iff, List.forall₂_same]
  intro happening hmem
  cases happening with
  | call method header epochMs => exact .call method header epochMs
  | pass nanos => exact .pass nanos
  | forget name => exact .forget name
  | change i => exact .change (h i hmem)

theorem Happening.map_id {σ : Type} (happening : Happening σ) : happening.map id = happening := by
  cases happening <;> rfl

/-- Two verifiers with empty user caches, or without any, are abreast if their backends match. -/
theorem abreast_start {σ τ : Type} {R : σ → τ → Prop} {i : σ} {j : τ} (realm : String)
    {users : UserCache} (husers : users = .off ∨ ∃ ttl, users = .ofTtl ttl) (tick : Instant)
    (guard : Option OAuth.ReplayGuard) (h : R i j) :
    ∃ ttl, Abreast realm R ttl ⟨tick, ⟨i, users, guard⟩⟩ ⟨tick, ⟨j, users, guard⟩⟩ := by
  rcases husers with rfl | ⟨ttl, rfl⟩
  · exact ⟨0, rfl, h, rfl, trivial⟩
  · exact ⟨ttl, rfl, h, rfl, UserCache.keeps_ofTtl ttl Named⟩

/-- A server that stores the hashes of name, realm and password gives the same outcomes as one that
stores the passwords, and loads the same users. That holds in all histories, with a user cache or
without one, for every backend that returns records under the names that they carry, and for every
directory in which users are filed so. -/
theorem hashes_do_as_well (s : AuthSettings) {users : UserCache}
    (husers : users = .off ∨ ∃ ttl, users = .ofTtl ttl) (tick : Instant)
    (guard : Option OAuth.ReplayGuard) :
    (∀ {σ : Type} (backend : IdentityBackend σ) (I : σ → Prop) (identities : σ)
      (history : List (Happening σ)), Names backend I → Stays backend I identities history →
      (calls (storing s true) (backend.encoded s.realm) ⟨tick, ⟨identities, users, guard⟩⟩
          history).map (Call.report (storing s true) (backend.encoded s.realm)) =
        (calls (storing s false) backend ⟨tick, ⟨identities, users, guard⟩⟩ history).map
          (Call.report (storing s false) backend)) ∧
    ∀ (r : Registry) (history : List (Happening Registry)),
      Stays Registry.backend (fun r => Filed r.contents) r history →
      (calls (storing s true) Registry.backend ⟨tick, ⟨r.encoded s.realm, users, guard⟩⟩
          (history.map (Happening.map (Registry.encoded s.realm)))).map
          (Call.report (storing s true) Registry.backend) =
        (calls (storing s false) Registry.backend ⟨tick, ⟨r, users, guard⟩⟩ history).map
          (Call.report (storing s false) Registry.backend) := by
  constructor
  · intro σ backend I identities history hnames hstays
    let R : σ → σ → Prop := fun i j => j = i ∧ I i
    have hsame : List.Forall₂ (Happening.Matches R) history (history.map (Happening.map id)) :=
      Happening.matches_map fun i hi => ⟨rfl, hstays.change i hi⟩
    rw [List.map_congr_left fun happening _ => happening.map_id, List.map_id'] at hsame
    obtain ⟨ttl, habreast⟩ := abreast_start (R := R) s.realm husers tick guard ⟨rfl, hstays.start⟩
    exact habreast.run (encodes_encoded s.realm hnames hstays.load) hsame
  · intro r history hstays
    let R : Registry → Registry → Prop := fun r r' => r' = r.encoded s.realm ∧ Filed r.contents
    obtain ⟨ttl, habreast⟩ := abreast_start (R := R) s.realm husers tick guard ⟨rfl, hstays.start⟩
    exact habreast.run (encodes_registry s.realm)
      (Happening.matches_map fun r hr => ⟨rfl, hstays.change r hr⟩)

open Sample in
/-- The user is let in by a server that stores the hash of her password, for a while even after the
password was changed. She is loaded once. -/
theorem hash_lets_alice_in :
    Filed uncached.identities.contents ∧
    (calls (storing settings true) Registry.backend
        ⟨0, ⟨uncached.identities.encoded settings.realm, .ofTtl 100, none⟩⟩
        (changing.map (Happening.map (Registry.encoded settings.realm)))).map
        (Call.report (storing settings true) Registry.backend) =
      [(.ok ⟨"alice", .digest, ["USER"]⟩, ["alice"]), (.ok ⟨"alice", .digest, ["USER"]⟩, [])] := by
  have hfiled : ∀ r, .change r ∈ changing → Filed r.contents := by
    intro r hr
    simp only [changing, List.mem_cons, reduceCtorEq, Happening.change.injEq, List.not_mem_nil,
      or_false, false_or] at hr
    rw [hr]
    exact filed_empty.withUser _
  refine ⟨filed_empty.withUser alice, ?_⟩
  have hsame := (hashes_do_as_well settings (.inr ⟨100, rfl⟩) 0 none).2 uncached.identities changing
    (stays_filed hfiled)
  have hstoring : storing settings false = settings := rfl
  have hcalls : calls settings Registry.backend ⟨0, ⟨uncached.identities, .ofTtl 100, none⟩⟩
      changing = [first, second] := calls_changing
  have hload : (Registry.backend.loadUser answered.username).run first.st.identities =
      (.ok alice, warm.identities) := by
    rw [answered_username]
    rfl
  have hfirst : PasswordCheck settings Registry.backend answered first.method first.now.tick
      first.st _ _ _ :=
    .loaded rfl (fun record hcached => absurd hcached (Option.not_mem_none record)) hload
      answered_answers
  have hsecond : PasswordCheck settings Registry.backend answered second.method second.now.tick
      second.st _ _ _ := .cached (Prod.ext cached_second rfl) answered_answers
  have hscreen : screen settings first.header = .ok (answered, nonce) := screen_answered
  have hscreen' : screen settings second.header = .ok (answered, nonce) := screen_answered
  rw [hsame, hstoring, hcalls, List.map_cons, List.map_cons, List.map_nil, Call.report, Call.report,
    Call.outcome_of_screened hscreen hfirst, Call.loads_of_screened hscreen hfirst,
    Call.outcome_of_screened hscreen' hsecond, Call.loads_of_screened hscreen' hsecond,
    List.map_cons, List.map_nil, answered_username]
  rfl

end Digest

end Gatehouse
