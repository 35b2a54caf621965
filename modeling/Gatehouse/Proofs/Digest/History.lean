import Gatehouse.Proofs.Digest.Verification
import Gatehouse.Proofs.Identity.Cache

/-!
# Verification over time

Calls of verification one after the other, with a user cache that remembers records, and a backend
that changes in between. Every call is put down with the state in which it was made, so that its
outcome and the users that it had to load can be told afterwards.

- `logged`: a backend that writes down what it is asked. Verification does not notice.
- `Call`, `Happening`, `calls`: what can happen, and the calls of a history.
- `Remembered`: the invariant. Whatever is cached was loaded by one of the calls so far.
- `Asked`: what is known about the users that a call loads.
- `Explained`: what is known about the outcome of a call, given those before it.
- `cache_is_accounted_for`: both hold of all calls of all histories. If the backend keeps to its
  answers, the outcomes are those without a cache.
-/

namespace Gatehouse.Digest

variable {σ : Type} {s : AuthSettings} {backend : IdentityBackend σ}

/-! ## What is loaded -/

/-- A backend that writes down the users that it is asked for. -/
def logged (backend : IdentityBackend σ) : IdentityBackend (σ × List Load) where
  loadUser name := fun (identities, log) =>
    let (answer, identities) := (backend.loadUser name).run identities
    (answer, (identities, log ++ [⟨name, answer⟩]))
  lookupConsumer key := fun (identities, log) =>
    let (answer, identities) := (backend.lookupConsumer key).run identities
    (answer, (identities, log))

theorem loadUser_logged {name : String} {i i' : σ} {answer : Except IdentityError UserRecord}
    (h : (backend.loadUser name).run i = (answer, i')) (log : List Load) :
    ((logged backend).loadUser name).run (i, log) = (answer, (i', log ++ [⟨name, answer⟩])) := by
  show (((backend.loadUser name).run i).1, ((backend.loadUser name).run i).2,
    log ++ [Load.mk name ((backend.loadUser name).run i).1]) = _
  rw [h]

/-- The state with a log beside the identities. -/
def withLog (st : AuthState σ) (log : List Load) : AuthState (σ × List Load) where
  identities := (st.identities, log)
  users := st.users
  guard := st.guard

/-- What the backend writes down is what the search for a record had to load. -/
theorem PasswordCheck.logged {c : Credentials} {method : String} {tick : Instant}
    {st st' : AuthState σ} {outcome : Except AuthError UserRecord} {loads : List Load}
    (h : PasswordCheck s backend c method tick st outcome loads st') (log : List Load) :
    PasswordCheck s (logged backend) c method tick (withLog st log) outcome loads
      (withLog st' (log ++ loads)) := by
  -- the log is part of the identities, so that all else stays as it is
  cases h with
  | cached hget hanswers =>
    rw [List.append_nil]
    exact @PasswordCheck.cached _ _ _ _ _ _ (withLog st log) _ _ hget hanswers
  | loaded hget hold hload hanswers =>
    exact @PasswordCheck.loaded _ _ _ _ _ _ (withLog st log) _ _ _ _ hget hold
      (loadUser_logged hload log) hanswers
  | refused hget hold hload hanswers =>
    exact @PasswordCheck.refused _ _ _ _ _ _ (withLog st log) _ _ _ _ hget hold
      (loadUser_logged hload log) hanswers
  | failed hget hold hload =>
    exact @PasswordCheck.failed _ _ _ _ _ _ (withLog st log) _ _ _ _ hget hold
      (loadUser_logged hload log)

/-! ## Calls -/

/-- A call of verification, and the state in which it is made. -/
structure Call (σ : Type) where
  st : AuthState σ
  method : String
  header : String
  now : Moment

namespace Call

/-- How a call ends. -/
def outcome (s : AuthSettings) (backend : IdentityBackend σ) (call : Call σ) :
    Except AuthError Principal :=
  ((verify s backend call.method call.header call.now).run call.st).1

/-- The state after a call. -/
def after (s : AuthSettings) (backend : IdentityBackend σ) (call : Call σ) : AuthState σ :=
  ((verify s backend call.method call.header call.now).run call.st).2

/-- The users that a call loads. -/
def loads (s : AuthSettings) (backend : IdentityBackend σ) (call : Call σ) : List Load :=
  ((verify s (logged backend) call.method call.header call.now).run
    (withLog call.st [])).2.identities.2

variable {call : Call σ}

theorem outcome_of_rejected {e : AuthError} (h : screen s call.header = .error e) :
    call.outcome s backend = .error e := by
  rw [outcome, verify_run_of_rejected h]

theorem after_of_rejected {e : AuthError} (h : screen s call.header = .error e) :
    call.after s backend = call.st := by
  rw [after, verify_run_of_rejected h]

theorem loads_of_rejected {e : AuthError} (h : screen s call.header = .error e) :
    call.loads s backend = [] := by
  rw [loads, verify_run_of_rejected h]
  rfl

variable {c : Credentials} {nonce : Nonce} {checked : Except AuthError UserRecord}
  {loaded : List Load} {st' : AuthState σ}

theorem outcome_of_screened (h : screen s call.header = .ok (c, nonce))
    (hcheck : PasswordCheck s backend c call.method call.now.tick call.st checked loaded st') :
    call.outcome s backend = checked.bind fun record => accept nonce record call.now.epochMs := by
  rw [outcome, verify_run_of_screened h hcheck]

theorem after_of_screened (h : screen s call.header = .ok (c, nonce))
    (hcheck : PasswordCheck s backend c call.method call.now.tick call.st checked loaded st') :
    call.after s backend = st' := by
  rw [after, verify_run_of_screened h hcheck]

theorem loads_of_screened (h : screen s call.header = .ok (c, nonce))
    (hcheck : PasswordCheck s backend c call.method call.now.tick call.st checked loaded st') :
    call.loads s backend = loaded := by
  rw [loads, verify_run_of_screened h (hcheck.logged [])]
  rfl

/-- The header of a call is turned away, or a search for a record decides everything. -/
theorem rejected_or_checked (s : AuthSettings) (backend : IdentityBackend σ) (call : Call σ) :
    (∃ e, screen s call.header = .error e) ∨
      ∃ c nonce checked loaded st', screen s call.header = .ok (c, nonce) ∧
        PasswordCheck s backend c call.method call.now.tick call.st checked loaded st' ∧
        call.outcome s backend =
          checked.bind (fun record => accept nonce record call.now.epochMs) ∧
        call.loads s backend = loaded ∧ call.after s backend = st' := by
  cases hscreen : screen s call.header with
  | error e => exact .inl ⟨e, rfl⟩
  | ok screened =>
    obtain ⟨c, nonce⟩ := screened
    obtain ⟨checked, loaded, st', hcheck⟩ :=
      exists_passwordCheck s backend c call.method call.now.tick call.st
    exact .inr ⟨c, nonce, checked, loaded, st', rfl, hcheck, outcome_of_screened hscreen hcheck,
      loads_of_screened hscreen hcheck, after_of_screened hscreen hcheck⟩

end Call

/-! ## Histories -/

/-- What can happen: a call, time that passes, a record that is dropped from the user cache, and a
change of the backend, be it of its contents or of its being available. -/
inductive Happening (σ : Type) where
  | call (method header : String) (epochMs : Int)
  | pass (nanos : Nat)
  | forget (name : String)
  | change (identities : σ)

/-- The present: the time on the clock that only runs forward, and the state. -/
structure Present (σ : Type) where
  tick : Instant
  st : AuthState σ

/-- The call that is made, if one is. -/
def Happening.call? (p : Present σ) : Happening σ → Option (Call σ)
  | .call method header epochMs => some ⟨p.st, method, header, ⟨epochMs, p.tick⟩⟩
  | _ => none

/-- What has become of the present after something has happened. -/
def Happening.step (s : AuthSettings) (backend : IdentityBackend σ) (p : Present σ) :
    Happening σ → Present σ
  | .call method header epochMs =>
    { p with st := (Call.mk p.st method header ⟨epochMs, p.tick⟩).after s backend }
  | .pass nanos => { p with tick := p.tick + nanos }
  | .forget name => { p with st := { p.st with users := p.st.users.remove name } }
  | .change identities => { p with st := { p.st with identities } }

/-- A call is made in the present. -/
theorem call?_present {p : Present σ} {happening : Happening σ} {call : Call σ}
    (h : call ∈ happening.call? p) : call.st = p.st ∧ call.now.tick = p.tick := by
  cases happening with
  | call method header epochMs =>
    cases h
    exact ⟨rfl, rfl⟩
  | _ => cases h

theorem tick_le_step (happening : Happening σ) (p : Present σ) :
    p.tick ≤ (happening.step s backend p).tick := by
  cases happening with
  | pass nanos => exact Nat.le_add_right _ _
  | _ => exact Nat.le_refl _

/-- The calls of a history, in order. -/
def calls (s : AuthSettings) (backend : IdentityBackend σ) :
    Present σ → List (Happening σ) → List (Call σ)
  | _, [] => []
  | p, happening :: rest =>
    (happening.call? p).toList ++ calls s backend (happening.step s backend p) rest

/-- A condition on the backend that holds at the start and after every change, and that loading
users does not end. -/
structure Stays (backend : IdentityBackend σ) (I : σ → Prop) (start : σ)
    (history : List (Happening σ)) : Prop where
  start : I start
  load : ∀ i name, I i → I ((backend.loadUser name).run i).2
  change : ∀ i, .change i ∈ history → I i

/-- The backend returns records under the names that they carry. -/
def Names (backend : IdentityBackend σ) (I : σ → Prop) : Prop :=
  ∀ i name record, I i → ((backend.loadUser name).run i).1 = .ok record → record.username = name

/-! ## What a call does to the state -/

section Step

variable {I : σ → Prop} {c : Credentials} {method : String} {tick : Instant}
  {st st' : AuthState σ} {checked : Except AuthError UserRecord} {loaded : List Load}

theorem PasswordCheck.identities (hload : ∀ i name, I i → I ((backend.loadUser name).run i).2)
    (h : PasswordCheck s backend c method tick st checked loaded st') (hst : I st.identities) :
    I st'.identities := by
  have hafter := hload _ c.username hst
  cases h with
  | cached => exact hst
  | loaded _ _ hrun => rwa [hrun] at hafter
  | refused _ _ hrun => rwa [hrun] at hafter
  | failed _ _ hrun => rwa [hrun] at hafter

/-- What is cached after the search was cached before, or has just been loaded. -/
theorem PasswordCheck.keeps {ttl : Nat} {P : String → CachedUser → Prop} (hnames : Names backend I)
    (h : PasswordCheck s backend c method tick st checked loaded st') (hst : I st.identities)
    (hkeeps : st.users.Keeps ttl P)
    (hloaded : ∀ name record, ⟨name, .ok record⟩ ∈ loaded →
      ((backend.loadUser name).run st.identities).1 = .ok record → P name ⟨record, tick⟩) :
    st'.users.Keeps ttl P := by
  have hput : ∀ {record : UserRecord} {identities : σ},
      (backend.loadUser c.username).run st.identities = (.ok record, identities) →
      loaded = [⟨c.username, .ok record⟩] → P record.username ⟨record, tick⟩ := by
    intro record identities hrun heq
    have hanswer := congrArg Prod.fst hrun
    rw [hnames _ _ _ hst hanswer]
    exact hloaded _ _ (heq ▸ List.mem_singleton_self _) hanswer
  have hget := hkeeps.get c.username tick
  cases h with
  | cached hcached =>
    rw [hcached] at hget
    exact hget
  | loaded hcached _ hrun =>
    rw [hcached] at hget
    exact hget.put (hput hrun rfl)
  | refused hcached _ hrun =>
    rw [hcached] at hget
    exact hget.put (hput hrun rfl)
  | failed hcached =>
    rw [hcached] at hget
    exact hget

end Step

theorem Stays.step {I : σ → Prop} {p : Present σ} {happening : Happening σ}
    {rest : List (Happening σ)} (h : Stays backend I p.st.identities (happening :: rest)) :
    Stays backend I (happening.step s backend p).st.identities rest where
  load := h.load
  change i hi := h.change i (List.mem_cons_of_mem _ hi)
  start := by
    cases happening with
    | call method header epochMs =>
      let call : Call σ := ⟨p.st, method, header, ⟨epochMs, p.tick⟩⟩
      show I (call.after s backend).identities
      rcases call.rejected_or_checked s backend with
        ⟨e, hscreen⟩ | ⟨c, nonce, checked, loaded, st', -, hcheck, -, -, hafter⟩
      · rw [Call.after_of_rejected hscreen]
        exact h.start
      · rw [hafter]
        exact hcheck.identities h.load h.start
    | pass nanos => exact h.start
    | forget name => exact h.start
    | change identities => exact h.change identities List.mem_cons_self

/-- What is cached after something has happened was cached before, or has just been loaded. -/
theorem keeps_step {I : σ → Prop} {p : Present σ} {ttl : Nat} {P : String → CachedUser → Prop}
    (hnames : Names backend I) (hI : I p.st.identities) (hkeeps : p.st.users.Keeps ttl P)
    (happening : Happening σ)
    (hloaded : ∀ call ∈ happening.call? p, ∀ name record,
      ⟨name, .ok record⟩ ∈ call.loads s backend →
      ((backend.loadUser name).run p.st.identities).1 = .ok record → P name ⟨record, p.tick⟩) :
    (happening.step s backend p).st.users.Keeps ttl P := by
  cases happening with
  | call method header epochMs =>
    let call : Call σ := ⟨p.st, method, header, ⟨epochMs, p.tick⟩⟩
    show (call.after s backend).users.Keeps ttl P
    rcases call.rejected_or_checked s backend with
      ⟨e, hscreen⟩ | ⟨c, nonce, checked, loaded, st', -, hcheck, -, hloads, hafter⟩
    · rw [Call.after_of_rejected hscreen]
      exact hkeeps
    · rw [hafter]
      refine hcheck.keeps hnames hI hkeeps fun name record hmem => ?_
      rw [← hloads] at hmem
      exact hloaded call rfl name record hmem
  | pass nanos => exact hkeeps
  | forget name => exact hkeeps.remove name
  | change identities => exact hkeeps

/-! ## What the cache remembers -/

/-- A record was loaded by one of the calls, at the time at which it was stored. -/
def LoadedBy (s : AuthSettings) (backend : IdentityBackend σ) (past : List (Call σ)) (name : String)
    (entry : CachedUser) : Prop :=
  ∃ call ∈ past, ⟨name, .ok entry.record⟩ ∈ call.loads s backend ∧
    call.now.tick = entry.storedAt

theorem LoadedBy.mono {past past' : List (Call σ)} (hle : past ⊆ past') {name : String}
    {entry : CachedUser} (h : LoadedBy s backend past name entry) :
    LoadedBy s backend past' name entry := by
  obtain ⟨call, hmem, hloads, htick⟩ := h
  exact ⟨call, hle hmem, hloads, htick⟩

/-- The invariant of histories: whatever is cached was loaded by a call so far. -/
structure Remembered (s : AuthSettings) (backend : IdentityBackend σ) (ttl : Nat)
    (past : List (Call σ)) (p : Present σ) : Prop where
  kept : p.st.users.Keeps ttl (LoadedBy s backend past)
  past : ∀ call ∈ past, call.now.tick ≤ p.tick

section Run

variable {I : σ → Prop} {ttl : Nat} {past : List (Call σ)} {p : Present σ}

/-- Whatever happens, what is cached afterwards was loaded by a call so far. -/
theorem Remembered.step (hnames : Names backend I) (hI : I p.st.identities)
    (h : Remembered s backend ttl past p) (happening : Happening σ) :
    Remembered s backend ttl (past ++ (happening.call? p).toList)
      (happening.step s backend p) where
  kept := by
    refine keeps_step hnames hI (h.kept.mono fun name entry hloaded =>
      hloaded.mono (List.subset_append_left _ _)) happening ?_
    intro call hcall name record hmem _
    refine ⟨call, List.mem_append_right _ (Option.mem_toList.2 hcall), hmem, ?_⟩
    exact (call?_present hcall).2
  past call hcall := by
    refine Nat.le_trans ?_ (tick_le_step happening p)
    rcases List.mem_append.1 hcall with hold | hnew
    · exact h.past call hold
    · exact Nat.le_of_eq (call?_present (Option.mem_toList.1 hnew)).2

end Run

/-! ## What is known about a call -/

/-- What is known about the users that a call loads: there is one at most, and there is none if the
header is turned away or the cached record explains the response. -/
structure Asked (s : AuthSettings) (backend : IdentityBackend σ) (call : Call σ) : Prop where
  answered : ∀ load ∈ call.loads s backend,
    ((backend.loadUser load.name).run call.st.identities).1 = load.answer
  once : (call.loads s backend).length ≤ 1
  rejected : ∀ e, screen s call.header = .error e → call.loads s backend = []
  cached : ∀ c record, parse call.header = .ok c →
    (call.st.users.get c.username call.now.tick).1 = some record →
    Answers s c call.method record.password → call.loads s backend = []

/-- What is known about the outcome of a call, given the calls before it: the backend has the last
word when a password is refused or a user cannot be found, and what is told rests on a record that
is not older than the cache allows. -/
structure Explained (s : AuthSettings) (backend : IdentityBackend σ) (ttl : Nat)
    (before : List (Call σ)) (call : Call σ) : Prop where
  mismatch : call.outcome s backend = .error .credentialMismatch →
    ∃ c record, parse call.header = .ok c ∧ call.loads s backend = [⟨c.username, .ok record⟩] ∧
      ¬ Answers s c call.method record.password
  notFound : ∀ name, call.outcome s backend = .error (.userNotFound name) →
    ∃ c, parse call.header = .ok c ∧
      call.loads s backend = [⟨c.username, .error (.notFound name)⟩]
  unavailable : ∀ reason, call.outcome s backend = .error (.backendUnavailable reason) →
    ∃ c, parse call.header = .ok c ∧
      call.loads s backend = [⟨c.username, .error (.unavailable reason)⟩]
  told : Telling (call.outcome s backend) →
    ∃ c nonce record, parse call.header = .ok c ∧ checkNonce s c = .ok nonce ∧
      Answers s c call.method record.password ∧
      call.outcome s backend = accept nonce record call.now.epochMs ∧
      (⟨c.username, .ok record⟩ ∈ call.loads s backend ∨
        ∃ earlier ∈ before, ⟨c.username, .ok record⟩ ∈ earlier.loads s backend ∧
          earlier.now.tick ≤ call.now.tick ∧ call.now.tick < earlier.now.tick + ttl)

/-- A call that loads a user, because the cache did not help. -/
theorem Asked.of_loaded {call : Call σ} {c : Credentials} {nonce : Nonce}
    (hscreen : screen s call.header = .ok (c, nonce)) {answer : Except IdentityError UserRecord}
    {identities : σ} (hloads : call.loads s backend = [⟨c.username, answer⟩])
    (hload : (backend.loadUser c.username).run call.st.identities = (answer, identities))
    (hold : ∀ record, (call.st.users.get c.username call.now.tick).1 = some record →
      ¬ Answers s c call.method record.password) : Asked s backend call where
  answered load hmem := by
    rw [hloads, List.mem_singleton] at hmem
    rw [hmem, hload]
  once := by
    rw [hloads]
    exact Nat.le_refl 1
  rejected e h := by
    rw [hscreen] at h
    cases h
  cached c' record hparse hget hanswers := by
    cases (screen_eq_ok_iff.1 hscreen).1.symm.trans hparse
    exact absurd hanswers (hold record hget)

theorem Asked.of_none {call : Call σ} (h : call.loads s backend = []) : Asked s backend call where
  answered load hmem := by
    rw [h] at hmem
    cases hmem
  once := by
    rw [h]
    exact Nat.zero_le 1
  rejected _ _ := h
  cached _ _ _ _ _ := h

/-- Every call loads what it has to, and no more. -/
theorem Call.asked (s : AuthSettings) (backend : IdentityBackend σ) (call : Call σ) :
    Asked s backend call := by
  rcases call.rejected_or_checked s backend with
    ⟨e, hscreen⟩ | ⟨c, nonce, checked, loaded, st', hscreen, hcheck, -, hloads, -⟩
  · exact .of_none (Call.loads_of_rejected hscreen)
  · cases hcheck with
    | cached => exact .of_none hloads
    | loaded hget hold hload => exact .of_loaded hscreen hloads hload (by rw [hget]; exact hold)
    | refused hget hold hload => exact .of_loaded hscreen hloads hload (by rw [hget]; exact hold)
    | failed hget hold hload => exact .of_loaded hscreen hloads hload (by rw [hget]; exact hold)

section Run

variable {ttl : Nat} {past : List (Call σ)} {p : Present σ} {call : Call σ} {c : Credentials}
  {nonce : Nonce}

/-- What is told is told for a good reason. -/
theorem Explained.of_told {record : UserRecord} (hscreen : screen s call.header = .ok (c, nonce))
    (hanswers : Answers s c call.method record.password)
    (hout : call.outcome s backend = accept nonce record call.now.epochMs)
    (hsource : ⟨c.username, .ok record⟩ ∈ call.loads s backend ∨
      ∃ earlier ∈ past, ⟨c.username, .ok record⟩ ∈ earlier.loads s backend ∧
        earlier.now.tick ≤ call.now.tick ∧ call.now.tick < earlier.now.tick + ttl) :
    Explained s backend ttl past call := by
  have htold := telling_accept nonce record call.now.epochMs
  obtain ⟨hparse, hnonce⟩ := screen_eq_ok_iff.1 hscreen
  refine ⟨fun h => ?_, fun name h => ?_, fun reason h => ?_, fun _ => ?_⟩
  · rw [← hout, h] at htold
    cases htold
  · rw [← hout, h] at htold
    cases htold
  · rw [← hout, h] at htold
    cases htold
  · exact ⟨c, nonce, record, hparse, hnonce, hanswers, hout, hsource⟩

/-- An error that tells nothing has to be explained only if it is about the user. -/
theorem Explained.of_silent {e : AuthError} (hout : call.outcome s backend = .error e)
    (hsilent : ¬ Telling (.error e))
    (hmismatch : e = .credentialMismatch →
      ∃ c record, parse call.header = .ok c ∧ call.loads s backend = [⟨c.username, .ok record⟩] ∧
        ¬ Answers s c call.method record.password)
    (hnotFound : ∀ name, e = .userNotFound name →
      ∃ c, parse call.header = .ok c ∧
        call.loads s backend = [⟨c.username, .error (.notFound name)⟩])
    (hunavailable : ∀ reason, e = .backendUnavailable reason →
      ∃ c, parse call.header = .ok c ∧
        call.loads s backend = [⟨c.username, .error (.unavailable reason)⟩]) :
    Explained s backend ttl past call := by
  have hsame : ∀ e', call.outcome s backend = .error e' → e = e' :=
    fun e' h => Except.error.inj (hout.symm.trans h)
  constructor
  case mismatch => exact fun h => hmismatch (hsame _ h)
  case notFound => exact fun name h => hnotFound name (hsame _ h)
  case unavailable => exact fun reason h => hunavailable reason (hsame _ h)
  case told =>
    intro htold
    rw [hout] at htold
    exact absurd htold hsilent

/-- The outcome of a call is explained by what the cache remembers. -/
theorem Remembered.explained (h : Remembered s backend ttl past p) (hst : call.st = p.st)
    (htick : call.now.tick = p.tick) : Explained s backend ttl past call := by
  rcases call.rejected_or_checked s backend with
    ⟨e, hscreen⟩ | ⟨c, nonce, checked, loaded, st', hscreen, hcheck, hout, hloads, -⟩
  · refine .of_silent (Call.outcome_of_rejected hscreen) (not_telling_of_screen hscreen) ?_ ?_ ?_
    all_goals
      rcases screen_eq_error hscreen with ⟨_, rfl⟩ | ⟨_, rfl⟩ | ⟨_, rfl⟩ | rfl <;> exact nofun
  · have hparse := (screen_eq_ok_iff.1 hscreen).1
    cases hcheck with
    | @cached record _ hget hanswers =>
      -- the record was loaded by one of the calls before, and has not outlived its time
      have hkept := h.kept
      rw [← hst] at hkept
      obtain ⟨storedAt, ⟨earlier, hmem, hloaded, hstored⟩, hfresh⟩ :=
        hkept.found (congrArg Prod.fst hget)
      refine .of_told hscreen hanswers hout (.inr ⟨earlier, hmem, hloaded, ?_, ?_⟩)
      · rw [htick]
        exact h.past earlier hmem
      · rw [hstored]
        exact hfresh
    | @loaded _ _ record _ _ _ _ hanswers =>
      exact .of_told hscreen hanswers hout (.inl (hloads ▸ List.mem_singleton_self _))
    | @refused _ _ record _ _ _ _ hanswers =>
      exact .of_silent hout nofun (fun _ => ⟨c, record, hparse, hloads, hanswers⟩) nofun nofun
    | @failed _ _ e =>
      cases e with
      | notFound missing =>
        refine .of_silent hout nofun nofun ?_ nofun
        rintro name ⟨⟩
        exact ⟨c, hparse, hloads⟩
      | unavailable why =>
        refine .of_silent hout nofun nofun nofun ?_
        rintro reason ⟨⟩
        exact ⟨c, hparse, hloads⟩

/-- Every call of a history is explained by the calls before it. -/
theorem Remembered.run {I : σ → Prop} (hnames : Names backend I) {history : List (Happening σ)}
    (hstays : Stays backend I p.st.identities history) (h : Remembered s backend ttl past p)
    {before after : List (Call σ)} (hsplit : calls s backend p history = before ++ call :: after) :
    Explained s backend ttl (past ++ before) call := by
  -- on the history: what has happened so far is summed up in the invariant
  induction history generalizing p past before with
  | nil => exact absurd hsplit.symm (by simp [calls])
  | cons happening rest ih =>
    have hnext := h.step hnames hstays.start happening
    rw [calls] at hsplit
    cases hcall : happening.call? p with
    | none =>
      rw [hcall] at hsplit hnext
      rw [Option.toList_none, List.append_nil] at hnext
      exact ih hstays.step hnext hsplit
    | some made =>
      rw [hcall] at hsplit hnext
      rw [Option.toList_some] at hsplit hnext
      cases before with
      | nil =>
        obtain ⟨rfl, -⟩ := List.cons.inj hsplit
        obtain ⟨hst, htick⟩ := call?_present hcall
        rw [List.append_nil]
        exact h.explained hst htick
      | cons first before =>
        obtain ⟨rfl, hrest⟩ := List.cons.inj hsplit
        have hexplained := ih hstays.step hnext hrest
        rwa [List.append_assoc] at hexplained

end Run

/-! ## A backend that does not change -/

/-- What verification amounts to if every user always has the same record, or none. -/
def steadyOutcome (s : AuthSettings) (answers : String → Except IdentityError UserRecord)
    (method header : String) (epochMs : Int) : Except AuthError Principal := do
  let (c, nonce) ← screen s header
  match answers c.username with
  | .error e => .error (userError e)
  | .ok record =>
    if ← matchesRecord s c method record then accept nonce record epochMs
    else .error .credentialMismatch

section Steady

variable {I : σ → Prop} {answers : String → Except IdentityError UserRecord} {ttl : Nat}

/-- The cache holds nothing but what the backend answers. -/
def Agrees (answers : String → Except IdentityError UserRecord) (name : String)
    (entry : CachedUser) : Prop :=
  answers name = .ok entry.record

theorem Call.outcome_of_steady {call : Call σ}
    (hsteady : ∀ i name, I i → ((backend.loadUser name).run i).1 = answers name)
    (hI : I call.st.identities) (hkept : call.st.users.Keeps ttl (Agrees answers)) :
    call.outcome s backend =
      steadyOutcome s answers call.method call.header call.now.epochMs := by
  unfold steadyOutcome
  rcases call.rejected_or_checked s backend with
    ⟨e, hscreen⟩ | ⟨c, nonce, checked, loaded, st', hscreen, hcheck, hout, -, -⟩
  · rw [Call.outcome_of_rejected hscreen, hscreen]
    rfl
  · have hparse := (screen_eq_ok_iff.1 hscreen).1
    have hanswer := hsteady _ c.username hI
    rw [hout, hscreen]
    dsimp only [bind, Except.bind]
    cases hcheck with
    | cached hget hanswers =>
      obtain ⟨_, hagrees, -⟩ := hkept.found (congrArg Prod.fst hget)
      rw [show answers c.username = _ from hagrees]
      dsimp only
      rw [matchesRecord_of_answers hanswers]
      rfl
    | loaded _ _ hload hanswers =>
      rw [← hanswer, hload]
      dsimp only
      rw [matchesRecord_of_answers hanswers]
      rfl
    | refused _ _ hload hanswers =>
      rw [← hanswer, hload]
      dsimp only
      rw [matchesRecord_of_not_answers hparse hanswers]
      rfl
    | failed _ _ hload =>
      rw [← hanswer, hload]

/-- Two histories that differ in what is cached have the same outcomes. -/
theorem outcomes_of_steady (hnames : Names backend I)
    (hsteady : ∀ i name, I i → ((backend.loadUser name).run i).1 = answers name)
    {history : List (Happening σ)} {p p' : Present σ} (htick : p.tick = p'.tick)
    (hstays : Stays backend I p.st.identities history)
    (hstays' : Stays backend I p'.st.identities history)
    (hkept : p.st.users.Keeps ttl (Agrees answers))
    (hkept' : p'.st.users.Keeps ttl (Agrees answers)) :
    (calls s backend p history).map (Call.outcome s backend) =
      (calls s backend p' history).map (Call.outcome s backend) := by
  induction history generalizing p p' with
  | nil => rfl
  | cons happening rest ih =>
    have hstep : ∀ {q : Present σ}, I q.st.identities → q.st.users.Keeps ttl (Agrees answers) →
        (happening.step s backend q).st.users.Keeps ttl (Agrees answers) := by
      intro q hI hq
      refine keeps_step hnames hI hq happening fun call _ name record _ hload => ?_
      rw [Agrees, ← hsteady _ name hI]
      exact hload
    have htick' : (happening.step s backend p).tick = (happening.step s backend p').tick := by
      cases happening <;> simp [Happening.step, htick]
    have hrest := ih htick' hstays.step hstays'.step (hstep hstays.start hkept)
      (hstep hstays'.start hkept')
    rw [calls, calls, List.map_append, List.map_append, hrest]
    congr 1
    cases happening with
    | call method header epochMs =>
      simp only [Happening.call?, Option.toList_some, List.map_cons, List.map_nil]
      have hmade : ∀ {q : Present σ}, I q.st.identities → q.st.users.Keeps ttl (Agrees answers) →
          (Call.mk q.st method header ⟨epochMs, q.tick⟩).outcome s backend =
            steadyOutcome s answers method header epochMs :=
        fun hI hq => Call.outcome_of_steady hsteady hI hq
      rw [hmade hstays.start hkept, hmade hstays'.start hkept']
    | _ => rfl

end Steady

/-- In every history that starts with an empty user cache, a password is refused, and a user is not
found, only if the backend says so at that time. What is told rests on a record that the backend
has returned for the user in the same call, or within the time that records are kept. A call loads
one user at most, and none if the header is turned away or the cached record explains the response.
As long as the backend keeps to its answers, the outcomes are those without a user cache. -/
theorem cache_is_accounted_for (s : AuthSettings) (backend : IdentityBackend σ) {I : σ → Prop}
    (hnames : Names backend I) (ttl : Nat) (tick : Instant) (identities : σ)
    (guard : Option OAuth.ReplayGuard) (history : List (Happening σ))
    (hstays : Stays backend I identities history) :
    (∀ before call after,
      calls s backend ⟨tick, ⟨identities, .ofTtl ttl, guard⟩⟩ history = before ++ call :: after →
      Explained s backend ttl before call ∧ Asked s backend call) ∧
    ∀ answers : String → Except IdentityError UserRecord,
      (∀ i name, I i → ((backend.loadUser name).run i).1 = answers name) →
      (calls s backend ⟨tick, ⟨identities, .ofTtl ttl, guard⟩⟩ history).map
          (Call.outcome s backend) =
        (calls s backend ⟨tick, ⟨identities, .off, guard⟩⟩ history).map
          (Call.outcome s backend) := by
  refine ⟨fun before call after hsplit => ⟨?explained, call.asked s backend⟩, ?steady⟩
  case explained =>
    have hempty : Remembered s backend ttl [] ⟨tick, ⟨identities, .ofTtl ttl, guard⟩⟩ :=
      ⟨UserCache.keeps_ofTtl ttl _, nofun⟩
    exact Remembered.run hnames hstays hempty hsplit
  case steady =>
    intro answers hsteady
    exact outcomes_of_steady hnames hsteady rfl hstays hstays (UserCache.keeps_ofTtl ttl _) trivial

/-! ## A password that is changed -/

/-- Every user is filed under the name of the record. -/
def Filed (d : Directory) : Prop :=
  ∀ name record, d.users.get? name = some record → record.username = name

theorem filed_empty : Filed .empty :=
  nofun

theorem Filed.withUser {d : Directory} (h : Filed d) (user : UserRecord) :
    Filed (d.withUser user) := by
  intro name record hget
  rw [Directory.withUser, Table.get?_put] at hget
  split at hget
  · next hname =>
    cases hget
    exact hname
  · exact h name record hget

/-- A registry returns records under the names that they carry, if they are filed so. -/
theorem names_registry : Names Registry.backend fun r => Filed r.contents := by
  rintro ⟨contents, outage, asked⟩ name record hfiled h
  cases outage with
  | some reason => cases h
  | none =>
    have hanswer : contents.user name = .ok record := h
    rw [Directory.user] at hanswer
    cases hget : contents.users.get? name with
    | none =>
      rw [hget] at hanswer
      cases hanswer
    | some found =>
      rw [hget] at hanswer
      cases hanswer
      exact hfiled name _ hget

namespace Sample

/-- The user with another password. -/
def changed : Registry :=
  .ofDirectory (Directory.empty.withUser { alice with password := "other" })

/-- A call, and another one after the password was changed. -/
def changing : List (Happening Registry) :=
  [.call "GET" answered.render 0, .pass 60, .change changed, .call "GET" answered.render 0]

/-- The same without the change. -/
def steady : List (Happening Registry) :=
  [.call "GET" answered.render 0, .pass 60, .call "GET" answered.render 0]

/-- The registry that knows the user, with an empty user cache. -/
def cachedFor (ttl : Nat) : AuthState Registry :=
  { uncached with users := .ofTtl ttl }

/-- The first call. -/
def first : Call Registry :=
  ⟨cachedFor 100, "GET", answered.render, ⟨0, 0⟩⟩

/-- The state after the first call. -/
def warm : AuthState Registry where
  identities := ⟨Directory.empty.withUser alice, none, 1⟩
  users := (UserCache.ofTtl 100).put alice 0
  guard := none

/-- The second call, after the password was changed. -/
def second : Call Registry :=
  ⟨{ warm with identities := changed }, "GET", answered.render, ⟨0, 60⟩⟩

theorem after_first : first.after settings Registry.backend = warm := by
  have hget : (cachedFor 100).users.get answered.username 0 = (none, .ofTtl 100) := rfl
  have hload : (Registry.backend.loadUser answered.username).run (cachedFor 100).identities =
      (.ok alice, warm.identities) := by
    rw [answered_username]
    rfl
  exact Call.after_of_screened screen_answered (.loaded hget nofun hload answered_answers)

theorem calls_changing :
    calls settings Registry.backend ⟨0, cachedFor 100⟩ changing = [first, second] := by
  have hcalls : calls settings Registry.backend ⟨0, cachedFor 100⟩ changing =
      [first, ⟨{ first.after settings Registry.backend with identities := changed }, "GET",
        answered.render, ⟨0, 60⟩⟩] := rfl
  rw [hcalls, after_first]
  rfl

/-- The record that is cached at the time of the second call. -/
theorem cached_second :
    (second.st.users.get answered.username second.now.tick).1 = some alice := by
  rw [answered_username]
  rfl

theorem stays_filed {history : List (Happening Registry)}
    (h : ∀ r, .change r ∈ history → Filed r.contents) :
    Stays Registry.backend (fun r => Filed r.contents) uncached.identities history where
  start := filed_empty.withUser alice
  load _ _ hfiled := hfiled
  change := h

end Sample

open Sample in
/-- The cached record lets the user in with the old password for a while, and nobody is asked. That
record was loaded by the first call. Without the change it makes no difference that there is a
cache. -/
theorem old_password_is_remembered :
    second.outcome settings Registry.backend = .ok ⟨"alice", .digest, ["USER"]⟩ ∧
    second.loads settings Registry.backend = [] ∧
    (∃ record, ⟨"alice", .ok record⟩ ∈ first.loads settings Registry.backend ∧
      second.now.tick < first.now.tick + 100) ∧
    (calls settings Registry.backend ⟨0, cachedFor 100⟩ steady).map
        (Call.outcome settings Registry.backend) =
      (calls settings Registry.backend ⟨0, uncached⟩ steady).map
        (Call.outcome settings Registry.backend) := by
  have hstays : Stays Registry.backend (fun r => Filed r.contents) uncached.identities changing := by
    refine stays_filed fun r hr => ?_
    simp only [changing, List.mem_cons, reduceCtorEq, Happening.change.injEq, List.not_mem_nil,
      or_false, false_or] at hr
    rw [hr]
    exact filed_empty.withUser _
  obtain ⟨hexplained, hasked⟩ := (cache_is_accounted_for settings Registry.backend names_registry
    100 0 uncached.identities none changing hstays).1 [first] second []
    calls_changing
  obtain ⟨hparse, hnonce⟩ := screen_eq_ok_iff.1 screen_answered
  have hproven : Proven settings Registry.backend second.st second.method second.header
      second.now.tick answered nonce alice :=
    proven_iff.2 ⟨screen_answered, _, _, .cached (Prod.ext cached_second rfl) answered_answers⟩
  have hout : second.outcome settings Registry.backend = .ok ⟨"alice", .digest, ["USER"]⟩ := by
    rw [Call.outcome, verify_run_of_proven hproven]
    rfl
  have hloads := hasked.cached answered alice hparse cached_second answered_answers
  refine ⟨hout, hloads, ?_, ?_⟩
  · have htold : Telling (second.outcome settings Registry.backend) := by
      rw [hout]
      exact .accepted _
    obtain ⟨c, nonce, record, hsame, -, -, -, hsource⟩ := hexplained.told htold
    cases hparse.symm.trans hsame
    rw [hloads, answered_username] at hsource
    rcases hsource with hnone | ⟨earlier, hmem, hloaded, -, hfresh⟩
    · cases hnone
    · rw [List.mem_singleton.1 hmem] at hloaded hfresh
      exact ⟨record, hloaded, hfresh⟩
  · have hload : ∀ (r : Registry) (name : String),
        r.contents = Directory.empty.withUser alice ∧ r.outage = none →
        ((Registry.backend.loadUser name).run r).1 =
          (Directory.empty.withUser alice).user name := by
      rintro ⟨contents, outage, asked⟩ name ⟨rfl, rfl⟩
      rfl
    have hnames : Names Registry.backend fun r =>
        r.contents = Directory.empty.withUser alice ∧ r.outage = none := by
      rintro ⟨contents, outage, asked⟩ name record ⟨rfl, rfl⟩ h
      exact names_registry _ name record (filed_empty.withUser alice) h
    exact (cache_is_accounted_for settings Registry.backend hnames 100 0 uncached.identities none
      steady ⟨⟨rfl, rfl⟩, fun _ _ hr => hr, by simp [steady]⟩).2 _ hload

end Gatehouse.Digest
