import Gatehouse.Policy
import Gatehouse.Proofs.Auth.Atomicity
import Gatehouse.Proofs.Digest.History
import Gatehouse.Proofs.OAuth.Acceptance
import Gatehouse.Proofs.OAuth.Binding

/-!
# Which entry of an account counts

The accounts of a policy are written down one after the other, and a key may occur again. An entry
that is active goes into two tables, the users and the consumers; one that is not goes into the
first table only, and what the second one holds under its key stays there. So users are told by
the last entry of their key, and consumers by the last one that is active. The two differ for
accounts that are withdrawn: they were active, and their last entry says that they are not. Such
an account is closed to Digest, and open to OAuth under its old secret.

- `lastEntry`, `lastActiveEntry`, `Withdrawn`: which entries count.
- `user_directory`, `consumer_directory`: what is answered about a key.
- `Holds`: who an authenticated caller can be. `holds_verdict` says that this is so in all runs.
- `authenticates_of_active`: whoever has an active entry can sign a message that is accepted.
- `last_entry_decides_unless_withdrawn`: all of this in one statement.
- `old_secret_survives`: an account that is withdrawn, and whose old secret is accepted.
-/

namespace Gatehouse

namespace AccountEntry

/-- The Digest user that an entry describes. -/
def user (a : AccountEntry) : UserRecord :=
  ⟨a.key, a.secret, a.active, a.groups⟩

/-- The OAuth consumer that an entry describes. -/
def consumer (a : AccountEntry) : ConsumerRecord :=
  ⟨a.key, a.secret, a.groups⟩

end AccountEntry

namespace Policy

/-- The last entry with a key. -/
def lastEntry (p : Policy) (key : String) : Option AccountEntry :=
  p.accounts.reverse.find? fun a => a.key = key

/-- The last entry with a key that is active. -/
def lastActiveEntry (p : Policy) (key : String) : Option AccountEntry :=
  p.accounts.reverse.find? fun a => a.key = key ∧ a.active = true

/-- The last entry says that the account is not active, and another one that it is. -/
def Withdrawn (p : Policy) (key : String) : Prop :=
  ∃ last, p.lastEntry key = some last ∧ last.active = false ∧
    ∃ a ∈ p.accounts, a.key = key ∧ a.active = true

/-- What is answered about a key, given the entry that counts. -/
def answered {α : Type} (read : AccountEntry → α) (key : String) :
    Option AccountEntry → Except IdentityError α
  | some a => .ok (read a)
  | none => .error (.notFound key)

/-! ## The tables -/

section Tables

variable {α : Type} {p : Policy} {key : String} {a : AccountEntry}

/-- An entry changes what is known about the user of its key only. -/
theorem user_addAccount (d : Directory) (a : AccountEntry) (key : String) :
    (addAccount d a).user key = if a.key = key then .ok a.user else d.user key := by
  by_cases hactive : a.active = true <;> by_cases hkey : a.key = key <;>
    simp [addAccount, Directory.withAccount, Directory.withUser, Directory.withConsumer,
      Directory.user, AccountEntry.user, hactive, hkey]

/-- An entry changes what is known about the consumer of its key only, and only if it is active. -/
theorem consumer_addAccount (d : Directory) (a : AccountEntry) (key : String) :
    (addAccount d a).consumer key =
      if a.key = key ∧ a.active = true then .ok a.consumer else d.consumer key := by
  by_cases hactive : a.active = true <;> by_cases hkey : a.key = key <;>
    simp [addAccount, Directory.withAccount, Directory.withUser, Directory.withConsumer,
      Directory.consumer, AccountEntry.consumer, hactive, hkey]

/-- If each entry replaces the answer when it counts, and leaves it as it is when it does not,
then the last one that counts is answered. -/
theorem answered_foldl (look : Directory → Except IdentityError α) {read : AccountEntry → α}
    {counts : AccountEntry → Prop} [DecidablePred counts]
    (hstart : look .empty = .error (.notFound key))
    (hadd : ∀ d a, look (addAccount d a) = if counts a then .ok (read a) else look d)
    (accounts : List AccountEntry) :
    look (accounts.foldl addAccount .empty) =
      answered read key (accounts.reverse.find? fun a => counts a) := by
  -- from the end, for the last entry has the last word
  induction accounts using List.reverseRecOn with
  | nil => exact hstart
  | append_singleton before a ih =>
    rw [List.foldl_append, List.foldl_cons, List.foldl_nil, hadd, List.reverse_append,
      List.reverse_singleton, List.singleton_append, List.find?_cons]
    by_cases hcounts : counts a
    · rw [if_pos hcounts, decide_eq_true hcounts]
      rfl
    · rw [if_neg hcounts, decide_eq_false hcounts, ih]

/-- Users are told by the last entry. -/
theorem user_directory (p : Policy) (key : String) :
    p.directory.user key = answered AccountEntry.user key (p.lastEntry key) :=
  answered_foldl (·.user key) rfl (fun d a => user_addAccount d a key) p.accounts

/-- Consumers are told by the last entry that is active. -/
theorem consumer_directory (p : Policy) (key : String) :
    p.directory.consumer key = answered AccountEntry.consumer key (p.lastActiveEntry key) :=
  answered_foldl (·.consumer key) rfl (fun d a => consumer_addAccount d a key) p.accounts

theorem answered_eq_ok_iff {read : AccountEntry → α} {entry : Option AccountEntry} {record : α} :
    answered read key entry = .ok record ↔ ∃ a, entry = some a ∧ read a = record := by
  cases entry with
  | none => simp [answered]
  | some a => simp [answered]

theorem key_of_lastEntry (h : p.lastEntry key = some a) : a.key = key := by
  simpa using List.find?_some h

theorem key_of_lastActiveEntry (h : p.lastActiveEntry key = some a) :
    a.key = key ∧ a.active = true := by
  simpa using List.find?_some h

theorem lastActiveEntry_eq_none_iff :
    p.lastActiveEntry key = none ↔ ¬∃ a ∈ p.accounts, a.key = key ∧ a.active = true := by
  simp [lastActiveEntry]

/-- If the last entry is active, it is the last one that is active. -/
theorem lastActiveEntry_of_active (h : p.lastEntry key = some a) (hactive : a.active = true) :
    p.lastActiveEntry key = some a := by
  obtain ⟨hkey, later, earlier, hsplit, hlater⟩ := List.find?_eq_some_iff_append.1 h
  refine List.find?_eq_some_iff_append.2 ⟨?_, later, earlier, hsplit, fun b hb => ?_⟩
  · exact decide_eq_true ⟨of_decide_eq_true hkey, hactive⟩
  · have hother : b.key ≠ key := by simpa using hlater b hb
    simp [hother]

/-- An account whose last entry is not active is withdrawn if there is an entry that is. -/
theorem withdrawn_iff (hlast : p.lastEntry key = some a) (hinactive : a.active = false) :
    p.Withdrawn key ↔ ∃ b, p.lastActiveEntry key = some b := by
  rw [← Option.ne_none_iff_exists', ne_eq, lastActiveEntry_eq_none_iff, not_not]
  simp [Withdrawn, hlast, hinactive]

/-- The last entry decides about consumers as well, unless the account is withdrawn. -/
theorem consumer_directory_eq_iff (p : Policy) (key : String) :
    p.directory.consumer key =
        answered AccountEntry.consumer key ((p.lastEntry key).filter (·.active)) ↔
      ¬p.Withdrawn key := by
  rw [consumer_directory]
  cases hlast : p.lastEntry key with
  | none =>
    have hnone : p.lastActiveEntry key = none := by
      rw [lastActiveEntry_eq_none_iff]
      rintro ⟨a, hmem, hkey, -⟩
      have hother := List.find?_eq_none.1 hlast a (List.mem_reverse.2 hmem)
      exact hother (decide_eq_true hkey)
    rw [hnone, Withdrawn, hlast]
    simp
  | some last =>
    by_cases hactive : last.active = true
    · have hnot : ¬p.Withdrawn key := by simp [Withdrawn, hlast, hactive]
      rw [lastActiveEntry_of_active hlast hactive, Option.filter_some, if_pos hactive]
      exact iff_of_true rfl hnot
    · rw [withdrawn_iff hlast (Bool.eq_false_iff.2 hactive), Option.filter_some, if_neg hactive]
      cases p.lastActiveEntry key with
      | none => simp
      | some a => simp [answered]

end Tables

/-! ## Who is authenticated -/

open Authentication

/-- Authentication over the accounts of a policy, before its first request. -/
def opening (p : Policy) (ttl : Nat) (window : Option Nat) : AuthState Registry :=
  ⟨.ofDirectory p.directory, .ofTtl ttl, window.map .ofWindow⟩

/-- Some run authenticates a principal. -/
def Authenticates (p : Policy) (s : AuthSettings) (ttl : Nat) (window : Option Nat)
    (principal : Principal) : Prop :=
  ∃ events event, (event, .verdict (.ok principal)) ∈
    trace s Registry.backend (p.opening ttl window) events

/-- Who an authenticated caller can be: by Digest, someone whose last entry is active, and by
OAuth, someone with any entry that is. -/
inductive Holds (p : Policy) : Principal → Prop where
  | digest {a : AccountEntry} (hlast : p.lastEntry a.key = some a) (hactive : a.active = true) :
    Holds p ⟨a.key, .digest, a.groups⟩
  | oauth {a : AccountEntry} (hlast : p.lastActiveEntry a.key = some a) :
    Holds p ⟨a.key, .oauth, a.groups⟩

/-- A registry in service with the accounts of a policy. -/
def Stocks (p : Policy) (r : Registry) : Prop :=
  r.contents = p.directory ∧ r.outage = none

/-- A cached record is the one that the accounts have for the user. -/
def Known (p : Policy) (name : String) (entry : CachedUser) : Prop :=
  p.directory.user name = .ok entry.record

/-- What stays the same in every run: the registry is in service, and what is cached is what it
says. -/
structure Serves (p : Policy) (ttl : Nat) (st : AuthState Registry) : Prop where
  stocks : p.Stocks st.identities
  users : st.users.Keeps ttl p.Known

section Runs

variable {p : Policy} {s : AuthSettings} {ttl : Nat} {st : AuthState Registry}

/-- The registry keeps to its answers. -/
theorem settles_stocks (p : Policy) : Registry.backend.Settles p.Stocks :=
  Sample.settles_registry p.directory

theorem Stocks.loadUser {r : Registry} (h : p.Stocks r) (name : String) :
    ((Registry.backend.loadUser name).run r).1 = p.directory.user name := by
  obtain ⟨contents, outage, calls⟩ := r
  obtain ⟨rfl, rfl⟩ := h
  rfl

theorem Stocks.lookupConsumer {r : Registry} (h : p.Stocks r) (key : String) :
    ((Registry.backend.lookupConsumer key).run r).1 = p.directory.consumer key := by
  obtain ⟨contents, outage, calls⟩ := r
  obtain ⟨rfl, rfl⟩ := h
  rfl

/-- Users are stored under their names. -/
theorem names_stocks (p : Policy) : Digest.Names Registry.backend p.Stocks := by
  intro r name record hr hload
  rw [hr.loadUser, user_directory, answered_eq_ok_iff] at hload
  obtain ⟨a, hlast, rfl⟩ := hload
  exact key_of_lastEntry hlast

theorem serves_opening (p : Policy) (ttl : Nat) (window : Option Nat) :
    p.Serves ttl (p.opening ttl window) :=
  ⟨⟨rfl, rfl⟩, UserCache.keeps_ofTtl ttl _⟩

/-- A record that explains a response is the one of the last entry, be it cached or loaded. -/
theorem Serves.user_of_check (h : p.Serves ttl st) {c : Digest.Credentials} {method : String}
    {tick : Instant} {record : UserRecord} {loads : List Digest.Load} {st' : AuthState Registry}
    (hcheck : Digest.PasswordCheck s Registry.backend c method tick st (.ok record) loads st') :
    p.directory.user c.username = .ok record := by
  cases hcheck with
  | cached hget =>
    obtain ⟨storedAt, hkept, -⟩ := h.users.found (congrArg Prod.fst hget)
    exact hkept
  | loaded _ _ hload =>
    rw [← h.stocks.loadUser, hload]

/-- Digest verification caches what the registry says, and goes by the last entry. -/
theorem Serves.digest (h : p.Serves ttl st) (method header : String) (now : Moment) :
    ((Digest.verify s Registry.backend method header now).run st).2.users.Keeps ttl p.Known ∧
      ∀ principal,
        ((Digest.verify s Registry.backend method header now).run st).1 = .ok principal →
        p.Holds principal := by
  cases hscreen : Digest.screen s header with
  | error e =>
    rw [Digest.verify_run_of_rejected hscreen]
    exact ⟨h.users, nofun⟩
  | ok screened =>
    obtain ⟨c, nonce⟩ := screened
    obtain ⟨checked, loads, st', hcheck⟩ :=
      Digest.exists_passwordCheck s Registry.backend c method now.tick st
    rw [Digest.verify_run_of_screened hscreen hcheck]
    refine ⟨?users, fun principal hverdict => ?holds⟩
    case users =>
      refine hcheck.keeps (names_stocks p) h.stocks h.users fun name record _ hload => ?_
      rwa [h.stocks.loadUser] at hload
    case holds =>
      cases checked with
      | error e => cases hverdict
      | ok record =>
        have hrecord := h.user_of_check hcheck
        rw [user_directory, answered_eq_ok_iff] at hrecord
        obtain ⟨a, hlast, rfl⟩ := hrecord
        rw [← key_of_lastEntry hlast] at hlast
        obtain ⟨-, hactive, rfl⟩ := Digest.accept_eq_ok_iff.1 hverdict
        exact .digest hlast hactive

/-- OAuth verification goes by the last entry that is active. -/
theorem Serves.oauth (h : p.Serves ttl st) {m : OAuth.Message} {now : Int} {principal : Principal}
    (hverdict : ((OAuth.verify s Registry.backend m now).run st).1 = .ok principal) :
    p.Holds principal := by
  obtain ⟨claim, record, identities, hscreen, -, rfl, -⟩ :=
    OAuth.verify_ok_iff.1 (Prod.ext hverdict rfl)
  obtain ⟨-, -, hlookup, -⟩ := OAuth.screen_ok_iff.1 hscreen
  have hrecord : p.directory.consumer claim.consumer = .ok record := by
    rw [← h.stocks.lookupConsumer, hlookup]
  rw [consumer_directory, answered_eq_ok_iff] at hrecord
  obtain ⟨a, hlast, rfl⟩ := hrecord
  rw [← (key_of_lastActiveEntry hlast).1] at hlast
  exact .oauth hlast

/-- Whatever happens, what is cached goes by the last entries, and so does the verdict. -/
theorem Serves.event (h : p.Serves ttl st) (event : Event) :
    p.Serves ttl (event.run s Registry.backend st).2 ∧
      ∀ principal, (event.run s Registry.backend st).1 = .verdict (.ok principal) →
        p.Holds principal := by
  have hstocks : p.Stocks (event.run s Registry.backend st).2.identities :=
    (event.run_alike (settles_stocks p) (.refl h.stocks)).2.left
  suffices hevent : (event.run s Registry.backend st).2.users.Keeps ttl p.Known ∧
      ∀ principal, (event.run s Registry.backend st).1 = .verdict (.ok principal) →
        p.Holds principal from
    ⟨⟨hstocks, hevent.1⟩, hevent.2⟩
  have hmessage : ∀ (m : OAuth.Message) (now : Int),
      ((OAuth.verify s Registry.backend m now).run st).2.users.Keeps ttl p.Known ∧
      ∀ principal, Outcome.verdict ((OAuth.verify s Registry.backend m now).run st).1 =
        .verdict (.ok principal) → p.Holds principal := by
    intro m now
    rw [OAuth.users_of_verify]
    exact ⟨h.users, fun principal heq => h.oauth (Outcome.verdict.inj heq)⟩
  cases event with
  | request r now =>
    show ((authenticate s Registry.backend r now).run st).2.users.Keeps ttl p.Known ∧ ∀ principal,
      Outcome.verdict ((authenticate s Registry.backend r now).run st).1 =
        .verdict (.ok principal) → p.Holds principal
    cases hattempt : attempt s r with
    | error e =>
      rw [authenticate_run_of_error hattempt]
      exact ⟨h.users, nofun⟩
    | ok attempted =>
      cases attempted with
      | digest header =>
        rw [authenticate_run_digest hattempt]
        obtain ⟨husers, hholds⟩ := h.digest r.method header now
        exact ⟨husers, fun principal heq => hholds principal (Outcome.verdict.inj heq)⟩
      | oauth m =>
        rw [authenticate_run_oauth hattempt]
        exact hmessage m (now.epochMs.tdiv 1000)
  | message m now => exact hmessage m now
  | sweep now => exact ⟨h.users, nofun⟩

/-- In all runs, whoever is authenticated holds an account. -/
theorem holds_verdict {events : List Event} {event : Event} {principal : Principal}
    (h : p.Serves ttl st)
    (hmem : (event, .verdict (.ok principal)) ∈ trace s Registry.backend st events) :
    p.Holds principal := by
  induction events generalizing st with
  | nil => cases hmem
  | cons first rest ih =>
    obtain ⟨hserves, hholds⟩ := h.event first
    rcases List.mem_cons.1 hmem with heq | hrest
    · exact hholds principal (congrArg Prod.snd heq).symm
    · exact ih hserves hrest

end Runs

/-! ## Who can sign -/

/-- A message that gives the secret of a consumer away. -/
def plainMessage (key secret : String) : OAuth.Message :=
  ⟨"GET", "http://h/", [⟨"oauth_consumer_key", key⟩, ⟨"oauth_signature_method", "PLAINTEXT"⟩,
    ⟨"oauth_timestamp", "0"⟩, ⟨"oauth_nonce", "n"⟩,
    ⟨OAuth.signatureName, OAuth.sign .plainText "" secret ""⟩]⟩

theorem makes_plainMessage (key secret : String) :
    (plainMessage key secret).Makes
      ⟨key, OAuth.sign .plainText "" secret "", .plainText, "n", 0⟩ where
  unique := by
    rw [OAuth.Message.duplicate?_eq_none_iff]
    show (List.filter OAuth.Message.isProtocolName ["oauth_consumer_key",
      "oauth_signature_method", "oauth_timestamp", "oauth_nonce", OAuth.signatureName]).Nodup
    decide
  version := rfl
  consumer := rfl
  signature := rfl
  method := ⟨"PLAINTEXT", rfl, rfl⟩
  nonce := rfl
  timestamp := ⟨"0", rfl, (by decide : Numeral.signed? "0".toList = some 0)⟩

/-- A guard that is new admits every ticket. -/
theorem admission_opening (window : Option Nat) (t : OAuth.Ticket) (now : Int) :
    (OAuth.admission (window.map .ofWindow) t now).1 = true := by
  cases window with
  | none => rfl
  | some w => exact (OAuth.ReplayGuard.check_of_not_remembers (by exact nofun)).1

/-- Whoever knows the secret of the last active entry is authenticated under its key. -/
theorem authenticates_of_active {p : Policy} {a : AccountEntry}
    (hlast : p.lastActiveEntry a.key = some a) (s : AuthSettings) (ttl : Nat)
    (window : Option Nat) : p.Authenticates s ttl window ⟨a.key, .oauth, a.groups⟩ := by
  have hlookup : ((Registry.backend.lookupConsumer a.key).run (p.opening ttl window).identities).1 =
      .ok a.consumer := by
    rw [(serves_opening p ttl window).stocks.lookupConsumer, consumer_directory, hlast]
    rfl
  have hnormal : OAuth.normalizeUrl "http://h/" = .ok ("http://h/", []) := by decide +kernel
  obtain ⟨base, hbase⟩ : ∃ base, (plainMessage a.key a.secret).baseString = .ok base :=
    ⟨_, OAuth.baseString_eq_ok_iff.2 ⟨_, _, hnormal, rfl⟩⟩
  have htimely : OAuth.isTimely s.timestampWindow 0 0 = true :=
    decide_eq_true (Nat.zero_le s.timestampWindow)
  have hscreen := OAuth.screen_ok_iff.2
    ⟨OAuth.Message.claim_eq_ok_iff.2 (makes_plainMessage a.key a.secret), htimely,
      Prod.ext hlookup rfl, OAuth.checkSignature_eq_ok_iff.2 ⟨base, hbase, rfl⟩⟩
  have hverify := OAuth.verify_ok_iff.2
    ⟨_, _, _, hscreen, admission_opening window _ 0, rfl, rfl⟩
  refine ⟨[.message (plainMessage a.key a.secret) 0], _, List.mem_singleton.2 (Prod.ext rfl ?_)⟩
  exact congrArg Outcome.verdict (congrArg Prod.fst hverify).symm

/-! ## The result -/

/-- A user is told by the last entry of the key, and a consumer by the last entry that is active;
that is the same entry, or none if that entry is not active, unless the account is withdrawn. So
if the last entry is not active, no run authenticates anyone under the key by Digest, whatever the
settings, and some run does by OAuth exactly if the account is withdrawn. -/
theorem last_entry_decides_unless_withdrawn (p : Policy) (key : String) :
    p.directory.user key = answered AccountEntry.user key (p.lastEntry key) ∧
    p.directory.consumer key = answered AccountEntry.consumer key (p.lastActiveEntry key) ∧
    (p.directory.consumer key =
        answered AccountEntry.consumer key ((p.lastEntry key).filter (·.active)) ↔
      ¬p.Withdrawn key) ∧
    ∀ last, p.lastEntry key = some last → last.active = false →
      ∀ (s : AuthSettings) (ttl : Nat) (window : Option Nat),
        (∀ authorities, ¬p.Authenticates s ttl window ⟨key, .digest, authorities⟩) ∧
        ((∃ authorities, p.Authenticates s ttl window ⟨key, .oauth, authorities⟩) ↔
          p.Withdrawn key) := by
  refine ⟨user_directory p key, consumer_directory p key, consumer_directory_eq_iff p key, ?_⟩
  intro last hlast hinactive s ttl window
  have hholds : ∀ {principal : Principal}, p.Authenticates s ttl window principal →
      p.Holds principal :=
    fun ⟨_, _, hmem⟩ => holds_verdict (serves_opening p ttl window) hmem
  refine ⟨fun authorities h => ?digest, ?oauth⟩
  case digest =>
    cases hholds h with
    | digest hlast' hactive =>
      rw [hlast] at hlast'
      cases hlast'
      rw [hinactive] at hactive
      cases hactive
  case oauth =>
    rw [withdrawn_iff hlast hinactive]
    constructor
    · rintro ⟨authorities, h⟩
      cases hholds h with
      | oauth hlast' => exact ⟨_, hlast'⟩
    · rintro ⟨a, hactive⟩
      obtain rfl := (key_of_lastActiveEntry hactive).1
      exact ⟨_, authenticates_of_active hactive s ttl window⟩

/-! ## An account that is withdrawn -/

namespace Sample

/-- An account that was active with its old secret, and has a new one with which it is not. -/
def policy : Policy :=
  { Policy.empty with accounts :=
      [⟨"k", "old", [], true, none, none⟩, ⟨"k", "new", [], false, none, none⟩] }

/-- A request that gives the old secret away. -/
def request : Request where
  method := "GET"
  uri := ⟨none, none, "/", some (String.ofList (Form.render (plainMessage "k" "old").params))⟩
  headers := [("host", Utf8.ofString "h")]
  body := []

end Sample

open Sample in
/-- The law that the last entry decides for both schemes fails: the entry is not active and the
user is disabled, but the consumer is there, and its old secret is accepted. -/
theorem old_secret_survives :
    policy.lastEntry "k" = some ⟨"k", "new", [], false, none, none⟩ ∧
    policy.directory.user "k" = .ok ⟨"k", "new", false, []⟩ ∧
    policy.directory.consumer "k" = .ok ⟨"k", "old", []⟩ ∧
    policy.directory.consumer "k" ≠ .error (.notFound "k") ∧
    ((authenticate OAuth.Sample.settings Registry.backend request ⟨0, 0⟩).run
      (policy.opening 0 none)).1 = .ok ⟨"k", .oauth, []⟩ := by
  decide +kernel

open Sample in
/-- The account is withdrawn, so there is a run in which it signs. -/
theorem withdrawn_still_signs :
    policy.Withdrawn "k" ∧
    ∃ authorities,
      policy.Authenticates OAuth.Sample.settings 0 none ⟨"k", .oauth, authorities⟩ := by
  have hlast : policy.lastEntry "k" = some ⟨"k", "new", [], false, none, none⟩ := by decide
  have hwithdrawn : policy.Withdrawn "k" :=
    ⟨_, hlast, rfl, ⟨"k", "old", [], true, none, none⟩, by decide, rfl, rfl⟩
  obtain ⟨-, -, -, hclosed⟩ := last_entry_decides_unless_withdrawn policy "k"
  exact ⟨hwithdrawn, (hclosed _ hlast rfl OAuth.Sample.settings 0 none).2.2 hwithdrawn⟩

end Policy

end Gatehouse
